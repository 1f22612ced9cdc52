import ShellHistory.Proofs.Frame
import ShellHistory.Proofs.Numerals
import ShellHistory.Proofs.Prompt

/-! What a shell survives. It goes on after every line, whatever becomes of the process that the line
is handed to and of those that store it, unless one of a few things happens that nothing catches:
`exit` is given digits that are no number, the directory of a `cd` cannot even be looked at, or the
system's shell cannot be told the line or cannot be launched. -/

namespace ShellHistory

open Act Host

namespace Host

/-- Of the outcomes that are still to come only those of storing have been used up. -/
structure Spent (h h' : Host) : Prop where
  store : h'.outcomes (.backend "store") <:+ h.outcomes (.backend "store")
  others : ∀ role, role ≠ .backend "store" → h'.outcomes role = h.outcomes role

theorem Spent.same {h h' : Host} (hs : h'.scripts = h.scripts) : Spent h h' := by
  have hout (role : Role) : h'.outcomes role = h.outcomes role := by rw [outcomes, outcomes, hs]
  exact ⟨by simp [hout], fun role _ => hout role⟩

theorem Spent.trans {h h' h'' : Host} (h₁ : Spent h h') (h₂ : Spent h' h'') : Spent h h'' :=
  ⟨h₂.store.trans h₁.store, fun role hr => (h₂.others role hr).trans (h₁.others role hr)⟩

theorem spent_after {h : Host} {c : Call} (hc : c.job.role = .backend "store") :
    Spent h (h.after c) := by
  refine ⟨?_, fun role hr => outcomes_after_of_ne h c (by rwa [hc])⟩
  have hself := outcomes_after_self h c
  rw [hc] at hself
  rw [hself]
  exact List.tail_suffix _

end Host

namespace Shell

variable {args : List String} {k : Hook} {s t : Shell}

theorem call_spent (k : Hook) (args : List String) (s : Shell) :
    Spent s.host (endOf (call k args s)).host := by
  obtain ⟨name, event, action⟩ := k
  cases action with
  | capture session =>
    rcases args with _ | ⟨line, _ | ⟨other, more⟩⟩
    · exact .same rfl
    · rw [endOf_call_capture]
      change Spent s.host
        (endOf (s.backend.run ["store", "--", line] (some session) false s.host))
      generalize hx : s.backend.run ["store", "--", line] (some session) false s.host = x
      cases hx ▸ s.backend.run_called ["store", "--", line] (some session) false s.host with
      | unusable | untold => exact .same rfl
      | interrupted hc | garbled hc => exact spent_after (role_of_store hc)
      | ended hc => exact (spent_after (role_of_store hc)).trans (.same rfl)
    · exact .same rfl
  | reset number =>
    rcases args with _ | ⟨line, more⟩
    · rw [call_reset]
      exact .same rfl
    · exact .same rfl
  | observe ending adds =>
    rw [call_observe, endOf_closed]
    exact .same rfl

theorem callSafely_spent (h : callSafely k args s = .ok () t) : Spent s.host t.host := by
  have hcall := call_spent k args s
  cases h ▸ callSafely_contained k args s with
  | quiet hc =>
    rw [hc] at hcall
    exact hcall
  | @logged f u hf hc =>
    rw [hc] at hcall
    obtain ⟨records, hl⟩ :=
      log_apply .error hookSource ("hook " ++ k.name ++ " failed") (some f) u.host
    refine hcall.trans (.same ?_)
    rw [told, hl]
    rfl

theorem run_spent {run : List (Stage Shell Hook Unit)} (h : Run (callSafely · args) s run t) :
    Spent s.host t.host := by
  induction h with
  | nil s => exact .same rfl
  | cons ha _ ih => exact (callSafely_spent ha).trans ih

/-- An observer is there, or about to be registered, that breaks off every firing of an event. -/
def Jammed (event : Event) (s : Shell) : Prop :=
  ∃ k ∈ Hook.heard (s.registry.hooks event), ∃ adds, k.action = .observe .interrupting adds

/-- As long as storing is not interrupted, only such an observer breaks off a firing. -/
theorem fire_settled (event : Event) (args : List String)
    (hs : .interrupted ∉ s.host.outcomes (.backend "store")) :
    (Jammed event s ∧ ∃ u, fire event args s = .error .interrupted u) ∨
      ¬Jammed event s ∧ ∃ t, fire event args s = .ok () t ∧
        Touched (fun _ => True) s t ∧ Spent s.host t.host := by
  have hfire : fire event args s = callAll args (s.registry.hooks event) s := rfl
  rw [hfire]
  obtain ⟨run, t, hr, hsteps, hall⟩ | ⟨run, t, k, u, hr, hsteps, hc, hall⟩ :=
    callAll_run args (s.registry.hooks event) s
  · refine .inr ⟨?_, t, hall, (run_heard hr).toTouched, run_spent hr⟩
    rintro ⟨k, hk, adds, ha⟩
    rw [← hsteps] at hk
    obtain ⟨g, hg, rfl⟩ := List.mem_map.1 hk
    obtain ⟨pre, post, rfl⟩ := List.append_of_mem hg
    obtain ⟨v, -, hrest⟩ := hr.split
    cases hrest with
    | cons hok _ =>
      obtain ⟨w, hw⟩ := callSafely_of_interrupting ha args v
      cases hok.symm.trans hw
  · refine .inl ⟨?_, u, hall⟩
    cases breaks_of_call hc with
    | observer ha => exact ⟨k, hsteps.subset (by simp), _, ha⟩
    | store _ _ hmem => exact absurd ((run_spent hr).store.subset hmem) hs

end Shell

namespace Repl

variable {line : String} {r : Repl} {f : Failure}

/-- Why a line fails that its hooks have let through, told by its words. -/
inductive Refused (line : String) (r : Repl) : List String → Failure → Prop
  | status {s : String} {rest : List String} {e : Text.NumberError} :
      s.toList.all Text.isDigit → Text.numeral? s = none → Text.readInt s = .error e →
      Refused line r ("exit" :: s :: rest) (.number e s)
  /-- The directory is to be found below the home of an account whose name no account can have. -/
  | account {words : List String} {target : String} :
      goal? words = some target → Tilde.isUnnamable (r.wantedOf target) = true →
      Refused line r words (.file .badName (r.wantedOf target))
  | directory {words : List String} {target : String} {e : FileError} :
      goal? words = some target → Tilde.isUnnamable (r.wantedOf target) = false →
      r.shell.host.files.isDirectory? r.shell.host.cwd (r.targetOf target).toText = .error e →
      Refused line r words (.file e (r.targetOf target).toText)
  | untold {words : List String} {f : Failure} :
      words.head? ≠ some "exit" → goal? words = none →
      r.shell.host.untold? (r.callOf line) = some f → Refused line r words f
  | launch {words : List String} {e : FileError} :
      words.head? ≠ some "exit" → goal? words = none →
      r.shell.host.untold? (r.callOf line) = none →
      r.shell.host.upcoming .commandLine = .refused e →
      Refused line r words (.file e "/bin/sh")

/-- Why a shell does not survive a line. -/
def Fatal (line : String) (r : Repl) (f : Failure) : Prop :=
  Text.words line ≠ [] ∧
    (Shell.Jammed .preexec r.shell ∧ f = .interrupted ∨
      ¬Shell.Jammed .preexec r.shell ∧ Refused line r (Text.words line) f)

theorem statusOf_ok {arguments : List String} {status : Option Int}
    (h : statusOf arguments = .ok status) :
    status = (arguments.head?.bind Text.numeral?).map Int.ofNat := by
  cases arguments with
  | nil =>
    cases h
    rfl
  | cons s rest =>
    by_cases hd : s.toList.all Text.isDigit
    · have hread := Text.toOption_readInt hd
      simp only [statusOf, hd, if_true] at h
      cases hn : Text.readInt s with
      | ok n =>
        rw [hn] at h hread
        cases h
        exact hread
      | error e =>
        rw [hn] at h
        cases h
    · simp only [statusOf, hd] at h
      cases h
      rw [List.head?_cons, Option.bind_some, Text.numeral?_of_not_digits (by simpa using hd)]
      rfl

theorem statusOf_error {arguments : List String} (h : statusOf arguments = .error f) :
    Refused line r ("exit" :: arguments) f := by
  cases arguments with
  | nil => cases h
  | cons s rest =>
    by_cases hd : s.toList.all Text.isDigit
    · have hread := Text.toOption_readInt hd
      simp only [statusOf, hd, if_true] at h
      cases hn : Text.readInt s with
      | ok n =>
        rw [hn] at h
        cases h
      | error e =>
        rw [hn] at h hread
        cases h
        exact .status hd (Option.map_eq_none_iff.1 hread.symm) hn
    · simp only [statusOf, hd] at h
      cases h

theorem next_callOf (r : Repl) (line : String) :
    r.shell.host.next (r.callOf line) = r.shell.host.upcoming .commandLine :=
  next_eq_upcoming r.shell.host (r.callOf line)

/-- What a line comes to that its hooks have let through, told by its words. -/
def verdict (line : String) (r : Repl) (words : List String) : Except Failure Int :=
  if words.head? = some "exit" then (statusOf words.tail).map (·.getD r.lastExit)
  else
    match goal? words with
    | some target => (r.isThere? target).map fun there => if there then 0 else 1
    | none =>
      match r.shell.host.untold? (r.callOf line) with
      | some f => .error f
      | none => statusAfter (r.shell.host.upcoming .commandLine)

theorem verdict_exit (line : String) (r : Repl) (arguments : List String) :
    verdict line r ("exit" :: arguments) = (statusOf arguments).map (·.getD r.lastExit) := by
  simp [verdict]

theorem verdict_cd {words : List String} {target : String} (hg : goal? words = some target) :
    verdict line r words = (r.isThere? target).map fun there => if there then 0 else 1 := by
  rw [verdict, if_neg (head?_of_goal? hg), hg]

theorem verdict_command {words : List String} (hw : words.head? ≠ some "exit")
    (hg : goal? words = none) : verdict line r words =
      match r.shell.host.untold? (r.callOf line) with
      | some f => .error f
      | none => statusAfter (r.shell.host.upcoming .commandLine) := by
  rw [verdict, if_neg hw, hg]

theorem Handled.answer {words : List String} {x : EStateM.Result Failure Repl Int}
    (h : Handled line r words x) : answerOf x = verdict line r words := by
  cases h with
  | exit hs =>
    rw [verdict_exit, hs]
    rfl
  | exitRefused hs =>
    rw [verdict_exit, hs]
    rfl
  | cd hg hy =>
    rw [verdict_cd hg]
    cases hy with
    | refused hd =>
      rw [hd]
      rfl
    | missing hd =>
      rw [hd]
      rfl
    | circle hd hnone =>
      obtain ⟨place, -, -, hplace⟩ := FileTree.find_of_isDirectory? (isThere?_ok hd)
      cases hnone.symm.trans hplace
    | moved hd =>
      rw [hd]
      rfl
  | command hw hg =>
    rw [verdict_command hw hg]
    cases ht : r.shell.host.untold? (r.callOf line) with
    | some f =>
      rw [runCommand_of_untold ht]
      rfl
    | none =>
      rw [runCommand_of_told ht, next_callOf]
      dsimp only
      cases statusAfter (r.shell.host.upcoming .commandLine) <;> rfl

theorem isThere?_error {target : String} (h : r.isThere? target = .error f) :
    Tilde.isUnnamable (r.wantedOf target) = true ∧ f = .file .badName (r.wantedOf target) ∨
      Tilde.isUnnamable (r.wantedOf target) = false ∧ ∃ e,
        r.shell.host.files.isDirectory? r.shell.host.cwd (r.targetOf target).toText = .error e ∧
          f = .file e (r.targetOf target).toText := by
  unfold isThere? at h
  split at h
  · next hn =>
    cases h
    exact .inl ⟨hn, rfl⟩
  · next hn =>
    dsimp only at h
    cases hd : r.shell.host.files.isDirectory? r.shell.host.cwd (r.targetOf target).toText with
    | ok there =>
      rw [hd] at h
      cases h
    | error e =>
      rw [hd] at h
      cases h
      exact .inr ⟨by simpa using hn, e, rfl, rfl⟩

theorem refused_of_verdict {words : List String} (h : verdict line r words = .error f) :
    Refused line r words f := by
  by_cases hw : words.head? = some "exit"
  · obtain ⟨arguments, rfl⟩ := List.head?_eq_some_iff.1 hw
    rw [verdict_exit] at h
    exact statusOf_error (except_map_error h)
  cases hg : goal? words with
  | some target =>
    rw [verdict_cd hg] at h
    obtain ⟨hn, rfl⟩ | ⟨hn, e, he, rfl⟩ := isThere?_error (except_map_error h)
    · exact .account hg hn
    · exact .directory hg hn he
  | none =>
    rw [verdict_command hw hg] at h
    split at h
    · next ht =>
      cases h
      exact .untold hw hg ht
    · next ht =>
      cases ho : r.shell.host.upcoming .commandLine with
      | refused e =>
        rw [ho] at h
        cases h
        exact .launch hw hg ht ho
      | exited | garbled | interrupted =>
        rw [ho] at h
        cases h

theorem verdict_error_iff {words : List String} :
    verdict line r words = .error f ↔ Refused line r words f := by
  refine ⟨refused_of_verdict, fun h => ?_⟩
  cases h with
  | @status s rest e hd _ hn =>
    have hs : statusOf (s :: rest) = .error (.number e s) := by
      simp only [statusOf, hd, if_true, hn]
    rw [verdict_exit, hs]
    rfl
  | account hg hn =>
    simp only [verdict_cd hg, isThere?, hn]
    rfl
  | directory hg hn hd =>
    simp only [verdict_cd hg, isThere?, hn, hd]
    rfl
  | untold hw hg ht => rw [verdict_command hw hg, ht]
  | launch hw hg ht ho =>
    rw [verdict_command hw hg, ht, ho]
    rfl

theorem isThere?_of_ran {s : Shell} {cs : List Call} (hran : Ran r.shell.host cs s.host)
    (target : String) : isThere? { r with shell := s } target = r.isThere? target := by
  obtain ⟨host, backend, registry, integration, made, notes⟩ := s
  obtain ⟨scripts, records, hhost⟩ := hran
  dsimp only at hhost
  subst hhost
  rfl

theorem verdict_of_ran (words : List String) {s : Shell} {cs : List Call}
    (hran : Ran r.shell.host cs s.host) (hspent : Spent r.shell.host s.host) :
    verdict line { r with shell := s } words = verdict line r words := by
  have hthere := isThere?_of_ran hran
  have hothers := hspent.others .commandLine (by simp)
  obtain ⟨scripts, records, hhost⟩ := hran
  have hprocesses : s.host.processes = r.shell.host.processes := by rw [hhost]
  have hnext : s.host.upcoming .commandLine = r.shell.host.upcoming .commandLine := by
    rw [upcoming, hothers, upcoming, read_of_processes hprocesses]
  have htold : s.host.untold? (callOf { r with shell := s } line) =
      r.shell.host.untold? (r.callOf line) := by
    simp only [untold?, callOf, environ, hhost]
  simp only [verdict, hthere, htold, hnext]

/-- A line that breaks the shell off leaves the last status alone, and it has left the shell if it
is an `exit`. -/
theorem Handled.broken {words : List String} {t : Repl} (h : Handled line r words (.error f t)) :
    t.lastExit = r.lastExit ∧ t.running = (r.running && words.head? ≠ some "exit") := by
  have hgoing (hw : words.head? ≠ some "exit") :
      r.running = (r.running && words.head? ≠ some "exit") := by simp [hw]
  generalize hx : EStateM.Result.error f t = x at h
  cases h with
  | exit => cases hx
  | exitRefused =>
    cases hx
    exact ⟨rfl, by simp⟩
  | cd hg hy =>
    have hrunning := hgoing (head?_of_goal? hg)
    cases hy with
    | refused =>
      cases hx
      exact ⟨rfl, hrunning⟩
    | circle =>
      cases hx
      exact ⟨rfl, hrunning⟩
    | missing => cases hx
    | moved => cases hx
  | command hw =>
    cases ht : r.shell.host.untold? (r.callOf line) with
    | some g =>
      rw [runCommand_of_untold ht] at hx
      cases hx
      exact ⟨rfl, hgoing hw⟩
    | none =>
    rw [runCommand_of_told ht] at hx
    cases hs : statusAfter (r.shell.host.next (r.callOf line)) with
    | ok status =>
      rw [hs] at hx
      cases hx
    | error g =>
      rw [hs] at hx
      cases hx
      exact ⟨rfl, hgoing hw⟩

/-- What a line that breaks the shell off leaves behind. The last status is as before, and if it is an
`exit` that the hooks have let through, the shell has been left all the same. -/
structure Aborted (line : String) (r t : Repl) : Prop where
  lastExit : t.lastExit = r.lastExit
  running : ¬Shell.Jammed .preexec r.shell →
    t.running = (r.running && (Text.words line).head? ≠ some "exit")

/-- A line that is not blank is handled, unless an observer is in its way. -/
theorem execute_settled (hs : .interrupted ∉ r.shell.host.outcomes (.backend "store"))
    (hw : Text.words line ≠ []) :
    (Shell.Jammed .preexec r.shell ∧
      ∃ s, execute line r = .error .interrupted { r with shell := s }) ∨
      ¬Shell.Jammed .preexec r.shell ∧ ∃ s cs, Ran r.shell.host cs s.host ∧
        Spent r.shell.host s.host ∧
          Handled line { r with shell := s } (Text.words line) (execute line r) := by
  obtain ⟨hjammed, s, hf⟩ | ⟨hfree, s, hf, htouched, hspent⟩ :=
    Shell.fire_settled .preexec [line] hs
  · refine .inl ⟨hjammed, s, ?_⟩
    rw [execute_eq, if_neg hw, bind_of_error (onShell_of_error hf)]
  · obtain ⟨cs, hran, -⟩ := htouched.ran
    refine .inr ⟨hfree, s, cs, hran, hspent, ?_⟩
    rw [execute_eq, if_neg hw, bind_of_ok (onShell_of_ok hf)]
    exact handle_handled line _ _

theorem execute_blank (hw : Text.words line = []) : execute line r = .ok r.lastExit r := by
  rw [execute_eq, if_pos hw]
  rfl

theorem execute_free (hs : .interrupted ∉ r.shell.host.outcomes (.backend "store"))
    (hw : Text.words line ≠ []) (hfree : ¬Shell.Jammed .preexec r.shell) :
    answerOf (execute line r) = verdict line r (Text.words line) := by
  obtain ⟨hjammed, -⟩ | ⟨-, s, cs, hran, hspent, hh⟩ := execute_settled hs hw
  · exact absurd hjammed hfree
  · exact hh.answer.trans (verdict_of_ran (Text.words line) hran hspent)

theorem execute_jammed (hs : .interrupted ∉ r.shell.host.outcomes (.backend "store"))
    (hw : Text.words line ≠ []) (hjammed : Shell.Jammed .preexec r.shell) :
    answerOf (execute line r) = .error .interrupted := by
  obtain ⟨-, s, hx⟩ | ⟨hfree, -⟩ := execute_settled hs hw
  · rw [hx]
    rfl
  · exact absurd hjammed hfree

theorem execute_error_iff (hs : .interrupted ∉ r.shell.host.outcomes (.backend "store")) :
    (∃ t, execute line r = .error f t) ↔ Fatal line r f := by
  rw [← answerOf_eq_error_iff, Fatal]
  by_cases hw : Text.words line = []
  · rw [execute_blank hw]
    exact iff_of_false (by rintro ⟨⟩) fun hf => hf.1 hw
  by_cases hjammed : Shell.Jammed .preexec r.shell
  · rw [execute_jammed hs hw hjammed]
    simp [hw, hjammed, eq_comm]
  · rw [execute_free hs hw hjammed, verdict_error_iff]
    simp [hw, hjammed]

/-- What a line that the shell survives leaves behind: its status, which is that of the shell, and a
shell that goes on unless it was an `exit`. -/
structure Survived (line : String) (r : Repl) (status : Int) (t : Repl) : Prop where
  lastExit : t.lastExit = status
  running : t.running = (r.running && (Text.words line).head? ≠ some "exit")
  blank : Text.words line = [] → t = r
  verdict : Text.words line ≠ [] → verdict line r (Text.words line) = .ok status
  exit : ∀ arguments, Text.words line = "exit" :: arguments →
    status = ((arguments.head?.bind Text.numeral?).map Int.ofNat).getD r.lastExit

theorem exit_of_verdict {arguments : List String} {status : Int}
    (h : verdict line r ("exit" :: arguments) = .ok status) :
    status = ((arguments.head?.bind Text.numeral?).map Int.ofNat).getD r.lastExit := by
  rw [verdict_exit] at h
  cases hs : statusOf arguments with
  | error g =>
    rw [hs] at h
    cases h
  | ok given =>
    rw [hs] at h
    cases h
    rw [statusOf_ok hs]

theorem execute_survived (hs : .interrupted ∉ r.shell.host.outcomes (.backend "store")) {t : Repl}
    {status : Int} (h : execute line r = .ok status t) : Survived line r status t := by
  have hverdict (hw : Text.words line ≠ []) : verdict line r (Text.words line) = .ok status := by
    have hok := answerOf_eq_ok_iff.2 ⟨t, h⟩
    by_cases hjammed : Shell.Jammed .preexec r.shell
    · cases (execute_jammed hs hw hjammed).symm.trans hok
    · exact (execute_free hs hw hjammed).symm.trans hok
  have hexit (arguments : List String) (hw : Text.words line = "exit" :: arguments) :
      status = ((arguments.head?.bind Text.numeral?).map Int.ofNat).getD r.lastExit :=
    exit_of_verdict (hw ▸ hverdict (by simp [hw]))
  obtain ⟨hlast, ⟨hw, rfl⟩ | ⟨hw, hentered⟩⟩ := execute_entered h
  · exact ⟨hlast, by simp [hw], fun _ => rfl, hverdict, hexit⟩
  · exact ⟨hlast, hentered.running, fun hblank => absurd hblank hw, hverdict, hexit⟩

theorem execute_aborted (hs : .interrupted ∉ r.shell.host.outcomes (.backend "store")) {t : Repl}
    (h : execute line r = .error f t) : Aborted line r t := by
  by_cases hw : Text.words line = []
  · rw [execute_blank hw] at h
    cases h
  obtain ⟨hjammed, s, hx⟩ | ⟨-, s, cs, -, -, hh⟩ := execute_settled hs hw
  · cases hx.symm.trans h
    exact ⟨rfl, fun hfree => absurd hjammed hfree⟩
  · rw [h] at hh
    obtain ⟨hlast, hrunning⟩ := hh.broken
    exact ⟨hlast, fun _ => hrunning⟩

/-- As long as no process that stores a line is interrupted, a shell survives every line but for the
failures that are named here, and what it returns is the status of the line. -/
theorem line_survived (line : String)
    (hs : .interrupted ∉ r.shell.host.outcomes (.backend "store")) :
    (∀ status t, execute line r = .ok status t → Survived line r status t) ∧
      (∀ f, (∃ t, execute line r = .error f t) ↔ Fatal line r f) ∧
      ∀ f t, execute line r = .error f t → Aborted line r t :=
  ⟨fun _ _ h => execute_survived hs h, fun _ => execute_error_iff hs, fun _ _ h => execute_aborted hs h⟩

def ready (status : Int) : Repl :=
  { create (Host.scripted .empty []) .default true with running := true, lastExit := status }

theorem line_survived_sample : .interrupted ∉ (ready 7).shell.host.outcomes (.backend "store") ∧
    ∃ t, execute " exit 04 2" (ready 7) = .ok 4 t ∧ t.lastExit = 4 ∧ t.running = false := by
  have hs : .interrupted ∉ (ready 7).shell.host.outcomes (.backend "store") := by decide
  obtain ⟨hsurvived, hfatal, -⟩ := line_survived " exit 04 2" hs
  have hwords : Text.words " exit 04 2" = ["exit", "04", "2"] := by decide +kernel
  have hfree (f : Failure) : ¬Fatal " exit 04 2" (ready 7) f := by
    rintro ⟨-, ⟨⟨k, hk, -⟩, -⟩ | ⟨-, hr⟩⟩
    · cases hk
    · rw [hwords] at hr
      cases hr with
      | status _ hn => exact absurd hn (by decide +kernel)
      | account hg | directory hg => cases hg
      | untold hw | launch hw => exact absurd rfl hw
  cases hx : execute " exit 04 2" (ready 7) with
  | error f t => exact absurd ((hfatal f).1 ⟨t, hx⟩) (hfree f)
  | ok status t =>
    obtain ⟨hlast, hrunning, -, -, hexit⟩ := hsurvived status t hx
    have hstatus : status = 4 := (hexit _ hwords).trans (by decide +kernel)
    subst hstatus
    exact ⟨hs, t, rfl, hlast, hrunning.trans (by simp [hwords])⟩

/-- A digit without a value looks like a status and is none: the shell has been left, and the status is
still that of the command before. -/
theorem superscript_status : ∃ t, execute "exit ²" (ready 7) = .error (.number .malformed "²") t ∧
    t.running = false ∧ t.lastExit = 7 := by
  have hwords : Text.words "exit ²" = ["exit", "²"] := by decide +kernel
  have hstatus : statusOf ["²"] = .error (.number .malformed "²") := by decide +kernel
  have hfire : Shell.fire .preexec ["exit ²"] (ready 7).shell = .ok () (ready 7).shell := by
    change Shell.callAll ["exit ²"] [] (ready 7).shell = _
    rw [Shell.callAll]
    rfl
  refine ⟨{ ready 7 with running := false }, ?_, rfl, rfl⟩
  rw [execute_eq, if_neg (by rw [hwords]; simp), bind_of_ok (onShell_of_ok hfire), hwords]
  change (do
    stop
    let status ← ofExcept (statusOf ["²"])
    keepStatus (status.getD (← get).lastExit)) (ready 7) = _
  rw [hstatus]
  rfl

end Repl
end ShellHistory
