import ShellHistory.Backend
import ShellHistory.Proofs.Act

/-! Processes: what is left of the machine when one has ended, and all that can come of a call of the
history program. -/

namespace ShellHistory

open Act

/-- The words a process is started with. A command line is not cut into words. -/
def Job.argv : Job → List String
  | backend argv _ | selector argv _ => argv
  | commandLine _ _ => []

namespace Host

/-- A machine with nothing on it, whose processes end as told. -/
def scripted (environ : Environment) (scripts : List (Role × List Outcome)) : Host where
  files := .empty
  cwd := []
  accounts := ⟨"/", []⟩
  login := environ
  environ := environ
  terminal := true
  scripts := scripts
  calls := []
  records := []
  threshold := 0
  logFiles := []
  out := ""
  err := ""

/-- How a process ends if it is the next one to start. -/
def next (h : Host) (c : Call) : Outcome := h.read (takeOutcome c.job.role h.scripts).1

def after (h : Host) (c : Call) : Host :=
  { h with scripts := (takeOutcome c.job.role h.scripts).2, calls := h.calls ++ [c] }

theorem launch_of_told {job : Job} {e : Environment} {h : Host} (ht : h.untold? ⟨job, e⟩ = none) :
    launch job e h = .ok (h.next ⟨job, e⟩) (h.after ⟨job, e⟩) := by
  unfold launch
  rw [get_bind, ht]
  rfl

theorem launch_of_untold {job : Job} {e : Environment} {h : Host} {f : Failure}
    (hf : h.untold? ⟨job, e⟩ = some f) : launch job e h = .error f h := by
  unfold launch
  rw [get_bind, hf]
  rfl

theorem untold?_ne_interrupted {h : Host} {c : Call} {f : Failure} (hf : h.untold? c = some f) :
    f ≠ .interrupted := by
  rintro rfl
  unfold untold? Call.untold? at hf
  split at hf
  · split at hf
    · cases hf
    · split at hf <;> cases hf
  · cases hf

/-- A played process is told anything. One of the system is told no name of a variable with a `=`, and
no text with a `NUL`. -/
theorem untold?_eq_none_iff {h : Host} {c : Call} : h.untold? c = none ↔ h.processes = .played ∨
    (∀ name ∈ c.environ.names, '=' ∉ name.toList) ∧ ∀ text ∈ c.texts, '\x00' ∉ text.toList := by
  unfold untold?
  cases h.processes with
  | played => exact iff_of_true rfl (.inl rfl)
  | system =>
    simp only [Call.untold?, reduceCtorEq, false_or]
    split
    · next hnames =>
      obtain ⟨name, hn, heq⟩ := List.any_eq_true.1 hnames
      exact iff_of_false nofun fun h => h.1 name hn (by simpa using heq)
    split
    · next htexts =>
      obtain ⟨text, ht, hnul⟩ := List.any_eq_true.1 htexts
      exact iff_of_false nofun fun h => h.2 text ht (by simpa using hnul)
    · next hnames htexts =>
      refine iff_of_true rfl ⟨fun name hn heq => hnames ?_, fun text ht hnul => htexts ?_⟩
      · exact List.any_eq_true.2 ⟨name, hn, by simpa using heq⟩
      · exact List.any_eq_true.2 ⟨text, ht, by simpa using hnul⟩

theorem log_apply (level : Level) (source message : String) (cause : Option Failure) (h : Host) :
    ∃ records, log level source message cause h = .ok () { h with records := records } := by
  simp only [log, modify_apply]
  by_cases hl : (if h.threshold = 0 then Level.warning.number else h.threshold) ≤ level.number
  · rw [if_pos hl]
    exact ⟨_, rfl⟩
  · rw [if_neg hl]
    exact ⟨h.records, rfl⟩

def startedSince (h h' : Host) : List Call := h'.calls.drop h.calls.length

theorem startedSince_of_calls {h h' : Host} {cs : List Call} (hc : h'.calls = h.calls ++ cs) :
    h.startedSince h' = cs := by
  rw [startedSince, hc, List.drop_left]

def outcomes (h : Host) (role : Role) : List Outcome := (h.scripts.lookup role).getD []

theorem takeOutcome_fst (role : Role) (scripts : List (Role × List Outcome)) :
    (takeOutcome role scripts).1 =
      ((scripts.lookup role).getD []).headD (.exited ⟨"", "", 0⟩) := by
  induction scripts with
  | nil => rfl
  | cons entry rest ih =>
    obtain ⟨r, os⟩ := entry
    by_cases hr : r = role
    · subst hr
      cases os <;> simp [takeOutcome]
    · have hne : (role == r) = false := by simpa using fun he => hr he.symm
      simp only [takeOutcome, if_neg hr, List.lookup_cons, hne]
      exact ih

theorem lookup_takeOutcome_self (role : Role) (scripts : List (Role × List Outcome)) :
    ((takeOutcome role scripts).2.lookup role).getD [] = ((scripts.lookup role).getD []).tail := by
  induction scripts with
  | nil => rfl
  | cons entry rest ih =>
    obtain ⟨r, os⟩ := entry
    by_cases hr : r = role
    · subst hr
      cases os <;> simp [takeOutcome]
    · have hne : (role == r) = false := by simpa using fun he => hr he.symm
      simp only [takeOutcome, if_neg hr, List.lookup_cons, hne]
      exact ih

theorem lookup_takeOutcome_of_ne {role other : Role} (h : other ≠ role)
    (scripts : List (Role × List Outcome)) :
    (takeOutcome role scripts).2.lookup other = scripts.lookup other := by
  induction scripts with
  | nil => rfl
  | cons entry rest ih =>
    obtain ⟨r, os⟩ := entry
    by_cases hr : r = role
    · subst hr
      have hne : (other == r) = false := by simpa using h
      cases os <;> simp [takeOutcome, List.lookup_cons, hne]
    · simp only [takeOutcome, if_neg hr, List.lookup_cons, ih]

theorem next_eq (h : Host) (c : Call) :
    h.next c = h.read ((h.outcomes c.job.role).headD (.exited ⟨"", "", 0⟩)) :=
  congrArg h.read (takeOutcome_fst c.job.role h.scripts)

def upcoming (h : Host) (role : Role) : Outcome :=
  h.read ((h.outcomes role).headD (.exited ⟨"", "", 0⟩))

theorem next_eq_upcoming (h : Host) (c : Call) : h.next c = h.upcoming c.job.role := next_eq h c

theorem read_of_processes {h h' : Host} (hp : h.processes = h'.processes) (o : Outcome) :
    h.read o = h'.read o := by
  cases o with
  | exited e => simp only [read, hear, heard, hp]
  | _ => rfl

/-- Reading changes only the text of what has been printed. -/
theorem eq_of_read {h : Host} {o o' : Outcome} (hr : h.read o = o')
    (hne : ∀ x, o' ≠ .exited x) : o = o' := by
  cases o with
  | exited x => exact absurd hr.symm (hne _)
  | _ => exact hr

theorem mem_outcomes_of_next {h : Host} {c : Call} {o : Outcome} (hn : h.next c = o)
    (hne : ∀ x, o ≠ .exited x) : o ∈ h.outcomes c.job.role := by
  rw [next_eq] at hn
  have ho := eq_of_read hn hne
  cases houtcomes : h.outcomes c.job.role with
  | nil =>
    rw [houtcomes] at ho
    exact absurd ho.symm (hne _)
  | cons o' more =>
    rw [houtcomes, List.headD_cons] at ho
    rw [ho]
    exact List.mem_cons_self

theorem outcomes_after_self (h : Host) (c : Call) :
    (h.after c).outcomes c.job.role = (h.outcomes c.job.role).tail :=
  lookup_takeOutcome_self c.job.role h.scripts

theorem outcomes_after_of_ne (h : Host) (c : Call) {role : Role} (hr : role ≠ c.job.role) :
    (h.after c).outcomes role = h.outcomes role :=
  congrArg (Option.getD · []) (lookup_takeOutcome_of_ne hr h.scripts)

theorem upcoming_after_of_ne (h : Host) (c : Call) {role : Role} (hr : role ≠ c.job.role) :
    (h.after c).upcoming role = h.upcoming role :=
  congrArg (fun os => h.read (List.headD os _)) (outcomes_after_of_ne h c hr)

end Host

namespace Backend

/-- The process of a call. There is none if a setting that has to be text is something else. -/
def call? (b : Backend) (args : List String) (session : Option Session) (captured : Bool)
    (e : Environment) : Except Failure Call := do
  let environ ← b.environment session e
  let binary ← asText b.binary
  return ⟨.backend (binary :: args) captured, environ⟩

/-- The program that is called, if it and the editor are texts, as a process needs them. -/
def program? (b : Backend) : Option String :=
  match asText b.binary, b.editor.isSet, asText b.editor with
  | .ok binary, false, _ | .ok binary, true, .ok _ => some binary
  | _, _, _ => none

/-- Whether a call has a process is up to the backend alone. -/
theorem call?_cases (b : Backend) (args : List String) (session : Option Session) (captured : Bool)
    (e : Environment) :
    (∃ binary environ, b.program? = some binary ∧
      b.call? args session captured e = .ok ⟨.backend (binary :: args) captured, environ⟩) ∨
    ∃ kind, b.program? = none ∧ b.call? args session captured e = .error (.notText kind) := by
  have htext (v : Value) : (∃ s, asText v = .ok s) ∨ ∃ kind, asText v = .error (.notText kind) := by
    cases v <;> first | exact .inl ⟨_, rfl⟩ | exact .inr ⟨_, rfl⟩
  unfold program? call? environment
  rcases htext b.binary with ⟨binary, hb⟩ | ⟨kind, hb⟩ <;>
    rcases htext b.editor with ⟨editor, he⟩ | ⟨kind', he⟩ <;>
    cases hs : b.editor.isSet <;> rw [hb, he]
  · exact .inl ⟨binary, _, rfl, rfl⟩
  · exact .inl ⟨binary, _, rfl, rfl⟩
  · exact .inl ⟨binary, _, rfl, rfl⟩
  · exact .inr ⟨kind', rfl, rfl⟩
  · exact .inr ⟨kind, rfl, rfl⟩
  · exact .inr ⟨kind, rfl, rfl⟩
  · exact .inr ⟨kind, rfl, rfl⟩
  · exact .inr ⟨kind', rfl, rfl⟩

theorem call?_ok {b : Backend} {args : List String} {session : Option Session} {captured : Bool}
    {e : Environment} {c : Call} (h : b.call? args session captured e = .ok c) :
    ∃ binary, b.program? = some binary ∧ b.environment session e = .ok c.environ ∧
      c.job = .backend (binary :: args) captured := by
  obtain ⟨binary, _, hp, hc⟩ | ⟨_, -, hn⟩ := b.call?_cases args session captured e
  · cases hc.symm.trans h
    unfold call? at h
    obtain ⟨environ, he, h⟩ := except_bind_ok h
    obtain ⟨_, -, h⟩ := except_bind_ok h
    cases h
    exact ⟨binary, hp, he, rfl⟩
  · cases hn.symm.trans h

/-- The process that a call starts. There is none if a setting is no text, or if the system cannot be
told the call. -/
def process? (b : Backend) (args : List String) (session : Option Session) (captured : Bool)
    (h : Host) : Option Call :=
  (b.call? args session captured h.environ).toOption.filter fun c => (h.untold? c).isNone

section process

variable {b : Backend} {args : List String} {session : Option Session} {captured : Bool} {h : Host}
  {c : Call}

theorem process?_eq_some_iff : b.process? args session captured h = some c ↔
    b.call? args session captured h.environ = .ok c ∧ h.untold? c = none := by
  rw [process?, Option.filter_eq_some_iff, Option.isNone_iff_eq_none]
  cases b.call? args session captured h.environ with
  | error f => simp [Except.toOption]
  | ok d => simp [Except.toOption]

theorem process?_of_told (hc : b.call? args session captured h.environ = .ok c)
    (ht : h.untold? c = none) : b.process? args session captured h = some c :=
  process?_eq_some_iff.2 ⟨hc, ht⟩

theorem process?_of_untold {f : Failure} (hc : b.call? args session captured h.environ = .ok c)
    (hf : h.untold? c = some f) : b.process? args session captured h = none := by
  rw [process?, hc]
  exact Option.filter_some_neg (by rw [hf]; rfl)

theorem process?_of_error {f : Failure} (hc : b.call? args session captured h.environ = .error f) :
    b.process? args session captured h = none := by
  rw [process?, hc]
  rfl

theorem process?_some (hc : b.process? args session captured h = some c) :
    ∃ binary, b.program? = some binary ∧ c.job = .backend (binary :: args) captured := by
  obtain ⟨binary, hp, -, hj⟩ := call?_ok (process?_eq_some_iff.1 hc).1
  exact ⟨binary, hp, hj⟩

end process

def resultOf (argv : List String) (captured : Bool) : Outcome → Option Result
  | .exited e => some ⟨argv, if captured then e.stdout else "", e.stderr, e.status⟩
  | .refused e => some ⟨argv, "", e.message (argv.headD ""), -1⟩
  | .garbled _ | .interrupted => none

/-- All that can come of a call: no process, one that is broken off, one whose answer cannot be read,
or one that ends well or ill. -/
inductive Called (b : Backend) (args : List String) (session : Option Session) (captured : Bool)
    (h : Host) : EStateM.Result Failure Host Result → Prop
  | unusable {f : Failure} : b.call? args session captured h.environ = .error f →
      Called b args session captured h (.error f h)
  | untold {c : Call} {f : Failure} : b.call? args session captured h.environ = .ok c →
      h.untold? c = some f → Called b args session captured h (.error f h)
  | interrupted {c : Call} : b.call? args session captured h.environ = .ok c →
      h.untold? c = none → h.next c = .interrupted →
      Called b args session captured h (.error .interrupted (h.after c))
  | garbled {c : Call} {status : Int} : b.call? args session captured h.environ = .ok c →
      h.untold? c = none → h.next c = .garbled status →
      Called b args session captured h (.error .encoding (h.after c))
  | ended {c : Call} {r : Result} {records : List Record} :
      b.call? args session captured h.environ = .ok c → h.untold? c = none →
      resultOf c.job.argv captured (h.next c) = some r →
      Called b args session captured h (.ok r { h.after c with records := records })

theorem note_apply (name : String) (h : Host) (r : Result) :
    ∃ records, (do
      if !r.success then
        Host.log .debug source (name ++ " exited " ++ toString r.status ++ " after 0ms: " ++
          Text.strip r.stderr)
      return r : Act Host Result) h = .ok r { h with records := records } := by
  by_cases hr : r.success
  · rw [if_neg (by simp [hr])]
    exact ⟨h.records, rfl⟩
  · rw [if_pos (by simp [hr])]
    obtain ⟨records, hl⟩ := Host.log_apply .debug source (name ++ " exited " ++
      toString r.status ++ " after 0ms: " ++ Text.strip r.stderr) none h
    refine ⟨records, ?_⟩
    rw [bind_of_ok hl]
    rfl

theorem run_called (b : Backend) (args : List String) (session : Option Session)
    (captured : Bool) (h : Host) :
    Called b args session captured h (b.run args session captured h) := by
  unfold run
  rw [get_bind]
  cases he : b.environment session h.environ with
  | error f =>
    rw [ofExcept_error, throw_bind]
    exact .unusable (by rw [call?, he]; rfl)
  | ok environ =>
    rw [ofExcept_ok, pure_bind]
    cases hb : asText b.binary with
    | error f =>
      rw [ofExcept_error, throw_bind]
      exact .unusable (by rw [call?, he, hb]; rfl)
    | ok binary =>
      have hc : b.call? args session captured h.environ =
          .ok ⟨.backend (binary :: args) captured, environ⟩ := by
        rw [call?, he, hb]
        rfl
      rw [ofExcept_ok, pure_bind]
      cases ht : h.untold? ⟨.backend (binary :: args) captured, environ⟩ with
      | some f =>
        rw [bind_of_error (Host.launch_of_untold ht)]
        exact .untold hc ht
      | none =>
      rw [bind_of_ok (Host.launch_of_told ht)]
      cases ho : h.next ⟨.backend (binary :: args) captured, environ⟩ with
      | interrupted => exact .interrupted hc ht ho
      | garbled status => exact .garbled hc ht ho
      | exited e =>
        obtain ⟨records, hn⟩ := note_apply (args.headD binary) (h.after _)
          ⟨binary :: args, if captured then e.stdout else "", e.stderr, e.status⟩
        exact Eq.mpr (congrArg _ hn) (.ended hc ht (by rw [ho]; rfl))
      | refused e =>
        obtain ⟨records, hn⟩ := note_apply (args.headD binary) (h.after _)
          ⟨binary :: args, "", e.message binary, -1⟩
        exact Eq.mpr (congrArg _ hn) (.ended hc ht (by rw [ho]; rfl))

theorem calls_run (b : Backend) (args : List String) (session : Option Session) (captured : Bool)
    (h : Host) : (endOf (b.run args session captured h)).calls =
      h.calls ++ (b.process? args session captured h).toList := by
  generalize hr : b.run args session captured h = x
  cases hr ▸ b.run_called args session captured h with
  | unusable hc =>
    rw [process?_of_error hc]
    exact (List.append_nil _).symm
  | untold hc hf =>
    rw [process?_of_untold hc hf]
    exact (List.append_nil _).symm
  | interrupted hc ht | garbled hc ht | ended hc ht =>
    rw [process?_of_told hc ht]
    rfl

theorem run_of_error {b : Backend} {args : List String} {session : Option Session}
    {captured : Bool} {h : Host} {f : Failure}
    (hc : b.call? args session captured h.environ = .error f) :
    b.run args session captured h = .error f h := by
  generalize hr : b.run args session captured h = y
  cases hr ▸ b.run_called args session captured h with
  | unusable hc' =>
    cases hc.symm.trans hc'
    rfl
  | untold hc' | interrupted hc' | garbled hc' | ended hc' => cases hc.symm.trans hc'

theorem run_of_untold {b : Backend} {args : List String} {session : Option Session}
    {captured : Bool} {h : Host} {c : Call} {f : Failure}
    (hc : b.call? args session captured h.environ = .ok c) (hf : h.untold? c = some f) :
    b.run args session captured h = .error f h := by
  generalize hr : b.run args session captured h = y
  cases hr ▸ b.run_called args session captured h with
  | unusable hc' => cases hc.symm.trans hc'
  | untold hc' hf' =>
    cases hc.symm.trans hc'
    cases hf.symm.trans hf'
    rfl
  | interrupted hc' ht | garbled hc' ht | ended hc' ht =>
    cases hc.symm.trans hc'
    cases ht.symm.trans hf

theorem run_of_garbled {b : Backend} {args : List String} {session : Option Session}
    {captured : Bool} {h : Host} {c : Call} {status : Int}
    (hc : b.call? args session captured h.environ = .ok c) (ht : h.untold? c = none)
    (ho : h.next c = .garbled status) :
    b.run args session captured h = .error .encoding (h.after c) := by
  generalize hr : b.run args session captured h = y
  cases hr ▸ b.run_called args session captured h with
  | unusable hc' => cases hc.symm.trans hc'
  | untold hc' hf =>
    cases hc.symm.trans hc'
    cases ht.symm.trans hf
  | interrupted hc' _ ho' =>
    cases hc.symm.trans hc'
    cases ho.symm.trans ho'
  | garbled hc' =>
    cases hc.symm.trans hc'
    rfl
  | ended hc' _ ho' =>
    cases hc.symm.trans hc'
    rw [ho] at ho'
    cases ho'

theorem run_ok {b : Backend} {args : List String} {session : Option Session} {captured : Bool}
    {h h' : Host} {r : Result} (hr : b.run args session captured h = .ok r h') :
    ∃ c records, b.call? args session captured h.environ = .ok c ∧ h.untold? c = none ∧
      resultOf c.job.argv captured (h.next c) = some r ∧
      h' = { h.after c with records := records } := by
  cases hr ▸ b.run_called args session captured h with
  | ended hc ht ho => exact ⟨_, _, hc, ht, ho, rfl⟩

/-- Asking the program for a text leaves nothing behind but its process. -/
theorem ask_ok {b : Backend} {args : List String} {h h' : Host} {a : Option String}
    (ha : b.ask args h = .ok a h') :
    ∃ c records, b.call? args none true h.environ = .ok c ∧
      h' = { h.after c with records := records } := by
  unfold ask at ha
  obtain ⟨r, u, hr, ha⟩ := bind_ok ha
  obtain ⟨c, records, hc, -, -, rfl⟩ := run_ok hr
  cases ha
  exact ⟨c, records, hc, rfl⟩

end Backend
end ShellHistory
