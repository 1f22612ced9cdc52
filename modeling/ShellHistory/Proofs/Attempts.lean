import ShellHistory.Proofs.Setup

/-! Attempts to set up a shell, one after the other, by any managers, for any configurations and on
any files. The one that finds all it needs leaves its mark in the environment. Those before it change
nothing, and those after it are refused. -/

namespace ShellHistory

open Act

namespace Setup

/-- The mark of the setup counts if it is there and not empty. -/
theorem isDone_eq_false_iff (e : Environment) :
    isDone e = false ↔ (e.get? sentinelName).getD "" = "" := by
  unfold isDone Environment.filled?
  cases e.get? sentinelName with
  | none => simp
  | some mark => by_cases hm : mark = "" <;> simp [hm]

def Finds (h : Host) (c : Config) : Prop :=
  ∃ name arguments, Search.selectorWords c.selector = .ok (name :: arguments) ∧
    isInstalled h name (h.environ.get? "PATH") = true

theorem finds_iff (h : Host) (c : Config) :
    Finds h c ↔ hasSelector h c (h.environ.get? "PATH") = .ok true := by
  unfold Finds hasSelector
  rcases Search.selectorWords c.selector with f | (_ | ⟨name, arguments⟩)
  · exact iff_of_false (by simp) nofun
  · exact iff_of_false (by simp) nofun
  · constructor
    · rintro ⟨_, _, hw, hi⟩
      cases hw
      exact congrArg Except.ok hi
    · intro h
      exact ⟨name, arguments, rfl, Except.ok.inj h⟩

/-- The processes that are started for the session of a shell: none if its environment carries one,
else one for the session and one for the time. -/
def Asked (e : Environment) (cs : List Call) : Prop :=
  if (e.filled? Session.tokenName).isSome then cs = []
  else ∃ binary, (cs.map fun c => c.job.argv) =
    [[binary, "init", "session"], [binary, "init", "timestamp"]]

theorem ofEnvironment?_set_sentinel (e : Environment) :
    Session.ofEnvironment? (e.set sentinelName "1") = Session.ofEnvironment? e := by
  have htoken := e.get?_set_of_ne (show Session.tokenName ≠ sentinelName by decide) "1"
  have hstart := e.get?_set_of_ne (show Session.startName ≠ sentinelName by decide) "1"
  rw [Session.ofEnvironment?, Session.ofEnvironment?, Environment.filled?, Environment.filled?,
    Environment.filled?, Environment.filled?, htoken, hstart]

theorem Found.asked_calls {b : Backend} {h u : Host} {s : Session}
    (hs : Found b { h with environ := h.environ.set sentinelName "1" } s u) :
    ∃ cs, u.calls = h.calls ++ cs ∧ Asked h.environ cs := by
  have hfilled (o : Option Session) (he : Session.ofEnvironment? h.environ = o) :
      (h.environ.filled? Session.tokenName).isSome = o.isSome := by
    rw [← he, Session.ofEnvironment?, Option.isSome_map]
  cases hs with
  | known he =>
    rw [ofEnvironment?_set_sentinel] at he
    refine ⟨[], (List.append_nil _).symm, ?_⟩
    rw [Asked, hfilled _ he]
    rfl
  | asked he hsession htime =>
    rw [ofEnvironment?_set_sentinel] at he
    obtain ⟨binary, hb, -, hjob⟩ := Backend.call?_ok hsession
    obtain ⟨binary', hb', -, hjob'⟩ := Backend.call?_ok htime
    cases hb.symm.trans hb'
    refine ⟨_, List.append_assoc h.calls [_] [_], ?_⟩
    rw [Asked, hfilled _ he]
    refine ⟨binary, ?_⟩
    simp [hjob, hjob', Job.argv]

theorem Found.err {b : Backend} {h u : Host} {s : Session} (hs : Found b h s u) : u.err = h.err := by
  cases hs with
  | known => rfl
  | asked => rfl

end Setup

namespace Shell

/-- An attempt to set up a shell: by a manager with its own backend, for a configuration, on the files
as they are then, and with processes that end as told. -/
structure Attempt where
  backend : Backend
  config : Config
  interactive : Bool
  files : FileTree
  scripts : List (Role × List Outcome)

def Attempt.on (k : Attempt) (s : Shell) : Shell :=
  { s with backend := k.backend, host := { s.host with files := k.files, scripts := k.scripts } }

def attempt (k : Attempt) : Act Shell Bool := fun s => setUp k.config k.interactive (k.on s)

/-- What there is of a shell besides its machine is as before, and so are the environment and the
processes. -/
structure Untouched (s t : Shell) : Prop where
  registry : t.registry = s.registry
  integration : t.integration = s.integration
  environ : t.host.environ = s.host.environ
  calls : t.host.calls = s.host.calls

/-- A shell has been set up once: it has the two hooks, its environment has the mark and the session,
and no process was started but those that the session took. -/
structure Once (session : Session) (s t : Shell) : Prop where
  preexec : t.registry.hooks .preexec = s.registry.hooks .preexec ++ [Hook.captureOf session]
  precmd : ∃ number, t.registry.hooks .precmd = s.registry.hooks .precmd ++ [Hook.resetOf number]
  environ : t.host.environ =
    (s.host.environ.set Setup.sentinelName "1").merge session.toEnvironment
  calls : ∃ cs, t.host.calls = s.host.calls ++ cs ∧ Setup.Asked s.host.environ cs

/-- What an attempt answers, and what it says. -/
structure Answered (k : Attempt) (s : Shell) (a : Bool) (t : Shell) : Prop where
  ready : a = true ↔ Setup.Finds (k.on s).host k.config ∧
    (s.host.environ.get? Setup.sentinelName).getD "" = "" ∧ k.interactive = true
  attached : a = true → t.integration.isSome
  silent : Setup.Finds (k.on s).host k.config → t.host.err = s.host.err
  missing : ¬Setup.Finds (k.on s).host k.config →
    t.host.err = s.host.err ++ "fzf is required! see https://github.com/junegunn/fzf\n"

theorem attempt_answered {k : Attempt} {s t : Shell} {a : Bool} (h : attempt k s = .ok a t) :
    Answered k s a t := by
  have hiff := Setup.finds_iff (k.on s).host k.config
  cases setUp_tried h with
  | missing hf =>
    have hn : ¬Setup.Finds (k.on s).host k.config := fun hs => by
      cases hf.symm.trans (hiff.1 hs)
    refine ⟨iff_of_false nofun fun hr => hn hr.1, nofun, fun hs => absurd hs hn, fun _ => ?_⟩
    exact String.append_assoc
  | skipped hf hskip =>
    refine ⟨iff_of_false nofun fun hr => ?_, nofun, fun _ => rfl, fun hn => absurd (hiff.2 hf) hn⟩
    obtain hd | hi := hskip
    · have := (Setup.isDone_eq_false_iff s.host.environ).2 hr.2.1
      cases this.symm.trans hd
    · cases hi.symm.trans hr.2.2
  | done hf hd hi hu =>
    refine ⟨iff_of_true rfl ⟨hiff.2 hf, (Setup.isDone_eq_false_iff s.host.environ).1 hd, hi⟩,
      fun _ => rfl, fun _ => hu.err, fun hn => absurd (hiff.2 hf) hn⟩

theorem attempt_refused {k : Attempt} {s t : Shell} (h : attempt k s = .ok false t) :
    Untouched s t := by
  cases setUp_tried h with
  | missing => exact ⟨rfl, rfl, rfl, rfl⟩
  | skipped => exact ⟨rfl, rfl, rfl, rfl⟩

theorem attempt_done {k : Attempt} {s t : Shell} (h : attempt k s = .ok true t) :
    ∃ session, Once session s t := by
  cases setUp_tried h with
  | @done session u records hf hd hi hu =>
    refine ⟨session, ?_, ⟨s.made, ?_⟩, rfl, hu.asked_calls⟩
    · simp [Registry.hooks_register, Hook.captureOf, Hook.resetOf, Attempt.on]
    · simp [Registry.hooks_register, Hook.captureOf, Hook.resetOf, Attempt.on]

theorem Untouched.trans {s t u : Shell} (h : Untouched s t) (h' : Untouched t u) :
    Untouched s u :=
  ⟨h'.registry.trans h.registry, h'.integration.trans h.integration, h'.environ.trans h.environ,
    h'.calls.trans h.calls⟩

theorem Untouched.once {session : Session} {s t u : Shell} (h : Untouched s t)
    (h' : Once session t u) : Once session s u := by
  obtain ⟨hpre, hcmd, henv, hcalls⟩ := h'
  rw [h.registry] at hpre hcmd
  rw [h.environ] at henv hcalls
  rw [h.calls] at hcalls
  exact ⟨hpre, hcmd, henv, hcalls⟩

theorem Once.untouched {session : Session} {s t u : Shell} (h : Once session s t)
    (h' : Untouched t u) : Once session s u := by
  obtain ⟨hpre, hcmd, henv, hcalls⟩ := h
  rw [← h'.registry] at hpre hcmd
  rw [← h'.environ] at henv
  rw [← h'.calls] at hcalls
  exact ⟨hpre, hcmd, henv, hcalls⟩

theorem Once.isDone {session : Session} {s t : Shell} (h : Once session s t) :
    Setup.isDone t.host.environ = true := by
  rw [h.environ, Setup.isDone_merge]
  exact Setup.isDone_set_sentinel s.host.environ

theorem Once.get?_of_ne {session : Session} {s t : Shell} (h : Once session s t) {name : String}
    (hmark : name ≠ Setup.sentinelName) (htoken : name ≠ Session.tokenName)
    (hstart : name ≠ Session.startName) :
    t.host.environ.get? name = s.host.environ.get? name := by
  have hn : name ∉ session.toEnvironment.vars.map Prod.fst := fun hmem => by
    rcases session.names_toEnvironment hmem with h | h
    · exact htoken h
    · exact hstart h
  rw [h.environ, Environment.get?_merge_of_notMem hn, Environment.get?_set_of_ne _ hmark]

/-- The attempts that have succeeded up to a point, and what has become of the shell by then. -/
def Counted (s : Shell) (n : Nat) (t : Shell) : Prop :=
  (n = 0 ∧ Untouched s t) ∨ (n = 1 ∧ ∃ session, Once session s t)

theorem attempt_counted {s t u : Shell} {n : Nat} {k : Attempt} {a : Bool} (ht : Counted s n t)
    (h : attempt k t = .ok a u) : Counted s (n + if a then 1 else 0) u := by
  cases a with
  | false =>
    have hu := attempt_refused h
    rcases ht with ⟨hn, ht⟩ | ⟨hn, session, ht⟩
    · exact .inl ⟨hn, ht.trans hu⟩
    · exact .inr ⟨hn, session, ht.untouched hu⟩
  | true =>
    rcases ht with ⟨hn, ht⟩ | ⟨-, session, ht⟩
    · obtain ⟨session, hu⟩ := attempt_done h
      exact .inr ⟨by simp [hn], session, ht.once hu⟩
    · have hready := ((attempt_answered h).ready.1 rfl).2.1
      have hnot := (Setup.isDone_eq_false_iff t.host.environ).2 hready
      cases hnot.symm.trans ht.isDone

theorem foldl_answers (run : List (Stage Shell Attempt Bool)) (n : Nat) :
    run.foldl (fun n g => n + if g.answer then 1 else 0) n = n + run.countP Stage.answer := by
  induction run generalizing n with
  | nil => rfl
  | cons g rest ih =>
    rw [List.foldl_cons, ih, List.countP_cons]
    omega

theorem counted_of_run {s u : Shell} {run : List (Stage Shell Attempt Bool)}
    (hr : Run attempt s run u) : Counted s (run.countP Stage.answer) u := by
  have hu := (hr.tracked (fun n g => n + if g.answer then 1 else 0) (R := Counted s) attempt_counted
    (.inl ⟨rfl, rfl, rfl, rfl, rfl⟩)).1
  rwa [foldl_answers, Nat.zero_add] at hu

/-- Of any attempts to set up a shell, at most one succeeds. An attempt does exactly if the program
of the selector is found, the shell is not marked and it is interactive. Until then neither the hooks
nor the environment change and no process is started. From then on the shell has one hook of each kind
more, and in its environment the mark and its session, for which the history program has been asked
unless there was one. A selector that is not found is reported in one line; else nothing is said. -/
theorem set_up_at_most_once {s u : Shell} {run : List (Stage Shell Attempt Bool)}
    (hr : Run attempt s run u) :
    run.countP Stage.answer ≤ 1 ∧
    (∀ g ∈ run, Answered g.step g.before g.answer g.after) ∧
    ∀ pre post, run = pre ++ post → ∃ t, Run attempt s pre t ∧ Run attempt t post u ∧
      (pre.countP Stage.answer = 0 → Untouched s t) ∧
      (pre.countP Stage.answer = 1 → ∃ session, Once session s t ∧
        ∀ name, name ≠ Setup.sentinelName → name ≠ Session.tokenName → name ≠ Session.startName →
          t.host.environ.get? name = s.host.environ.get? name) := by
  refine ⟨?_, fun g hg => ?_, fun pre post he => ?_⟩
  · rcases counted_of_run hr with ⟨hn, -⟩ | ⟨hn, -⟩
    · omega
    · omega
  · obtain ⟨pre, post, he⟩ := List.append_of_mem hg
    have hstep := (hr.tracked (fun _ _ => ()) (R := fun _ _ => True) (fun _ _ => trivial)
      (k := ()) trivial).2 pre g post he
    exact attempt_answered hstep.2
  · subst he
    obtain ⟨t, hpre, hpost⟩ := hr.split
    refine ⟨t, hpre, hpost, fun hn => ?_, fun hn => ?_⟩
    · rcases counted_of_run hpre with ⟨-, ht⟩ | ⟨hone, -⟩
      · exact ht
      · omega
    · rcases counted_of_run hpre with ⟨hzero, -⟩ | ⟨-, session, ht⟩
      · omega
      · exact ⟨session, ht, fun name hmark htoken hstart => ht.get?_of_ne hmark htoken hstart⟩

def sample : Shell := create (Host.scripted ⟨[("PATH", "/")]⟩ []) .default

/-- An attempt that finds the selector, and whose history program knows a session and no time. -/
def found (interactive : Bool) : Attempt where
  backend := ⟨.text "vellum", .null⟩
  config := .default
  interactive := interactive
  files := Setup.selectorFiles
  scripts := [(.backend "init", [.exited ⟨"t\n", "", 0⟩, .refused .notFound])]

theorem attempt_skipped {k : Attempt} {s : Shell}
    (hf : Setup.hasSelector (k.on s).host k.config ((k.on s).host.environ.get? "PATH") = .ok true)
    (hskip : (Setup.isDone (k.on s).host.environ || !k.interactive) = true) :
    attempt k s = .ok false (k.on s) := by
  unfold attempt setUp
  rw [get_bind, hf, ofExcept_ok, pure_bind, if_neg (by decide), if_pos hskip]
  rfl

/-- The first attempt is made without a terminal, and the third one comes too late. -/
theorem set_up_at_most_once_sample : ∃ run u, Run attempt sample run u ∧
    run.map Stage.answer = [false, true, false] ∧ run.countP Stage.answer ≤ 1 ∧
    ∃ session, Once session sample u := by
  have hfirst : attempt (found false) sample = .ok false ((found false).on sample) :=
    attempt_skipped (Setup.hasSelector_selectorFiles rfl rfl rfl) rfl
  obtain ⟨t, hsecond, hpath, hdone⟩ :
      ∃ t, attempt (found true) ((found false).on sample) = .ok true t ∧
        t.host.environ.get? "PATH" = some "/" ∧ Setup.isDone t.host.environ = true := by
    have hf : Setup.hasSelector ((found true).on ((found false).on sample)).host (found true).config
        (((found true).on ((found false).on sample)).host.environ.get? "PATH") = .ok true :=
      Setup.hasSelector_selectorFiles rfl rfl rfl
    unfold attempt setUp
    rw [get_bind, hf, ofExcept_ok, pure_bind]
    exact ⟨_, rfl, rfl, rfl⟩
  have hthird : attempt (found true) t = .ok false ((found true).on t) := by
    refine attempt_skipped (Setup.hasSelector_selectorFiles rfl rfl hpath) ?_
    exact congrArg (· || false) hdone
  have hr : Run attempt sample
    [⟨found false, sample, false, (found false).on sample⟩,
     ⟨found true, (found false).on sample, true, t⟩, ⟨found true, t, false, (found true).on t⟩]
    ((found true).on t) := .cons hfirst (.cons hsecond (.cons hthird (.nil _)))
  obtain ⟨hone, -, hpoints⟩ := set_up_at_most_once hr
  obtain ⟨_, hpre, hpost, -, honce⟩ := hpoints _ [] (List.append_nil _).symm
  cases hpost
  obtain ⟨session, hs, -⟩ := honce rfl
  exact ⟨_, _, hr, rfl, hone, session, hs⟩

end Shell
end ShellHistory
