import ShellHistory.Repl
import ShellHistory.Proofs.Setup

/-! Lines that a shell runs: all that can come of one once its hooks have been called, be it that it
ends the shell, goes to a directory or is handed to the system's shell, and what none of them
touches. -/

namespace ShellHistory

open Act

namespace Text

theorem runs_eq_nil_iff {sep : Char → Bool} {s : List Char} : runs sep s = [] ↔ s.all sep := by
  induction s with
  | nil => simp [runs]
  | cons c rest ih =>
    unfold runs
    by_cases hc : sep c
    · simp [hc, ih]
    · rw [if_neg hc]
      refine iff_of_false ?_ (by simp [hc])
      split
      · split <;> simp
      · simp

theorem words_eq_nil_iff {s : String} : words s = [] ↔ s.toList.all isBlank := by
  rw [words, List.map_eq_nil_iff, runs_eq_nil_iff]

end Text

namespace Repl

def withHost (r : Repl) (h : Host) : Repl := { r with shell := { r.shell with host := h } }

theorem onShell_of_ok {α : Type} {act : Act Shell α} {r : Repl} {s : Shell} {a : α}
    (h : act r.shell = .ok a s) : onShell act r = .ok a { r with shell := s } := by
  rw [onShell, h]

theorem onShell_of_error {α : Type} {act : Act Shell α} {r : Repl} {s : Shell} {f : Failure}
    (h : act r.shell = .error f s) : onShell act r = .error f { r with shell := s } := by
  rw [onShell, h]

theorem isThere?_ok {r : Repl} {target : String} {there : Bool} (h : r.isThere? target = .ok there) :
    r.shell.host.files.isDirectory? r.shell.host.cwd (r.targetOf target).toText = .ok there := by
  unfold isThere? at h
  split at h
  · cases h
  · dsimp only at h
    cases hd : r.shell.host.files.isDirectory? r.shell.host.cwd (r.targetOf target).toText with
    | error e =>
      rw [hd] at h
      cases h
    | ok =>
      rw [hd] at h
      cases h
      rfl

theorem isThere?_of_isDirectory? {r : Repl} {target : String} {there : Bool}
    (hn : Tilde.isUnnamable (r.wantedOf target) = false)
    (hd : r.shell.host.files.isDirectory? r.shell.host.cwd (r.targetOf target).toText = .ok there) :
    r.isThere? target = .ok there := by
  simp only [isThere?, hn, hd]
  rfl

/-- All that can come of `cd`: the directory cannot be looked at, is not there, cannot be named
without going round in circles, or is gone to. -/
inductive Gone (target : String) (r : Repl) : EStateM.Result Failure Repl Int → Prop
  | refused {f : Failure} : r.isThere? target = .error f → Gone target r (.error f r)
  | missing : r.isThere? target = .ok false →
      Gone target r (.ok 1 (r.withHost { r.shell.host with
        err := r.shell.host.err ++ ("cd: no such directory: " ++ target) ++ "\n" }))
  | circle : r.isThere? target = .ok true →
      r.shell.host.files.canonical? r.shell.host.cwd (r.targetOf target).toText = none →
      Gone target r (.error (.linkCircle (r.targetOf target).toText) (r.withHost
        { r.shell.host with environ := r.environ.set "OLDPWD" r.cwd.toText }))
  | moved {place : Place} : r.isThere? target = .ok true →
      r.shell.host.files.canonical? r.shell.host.cwd (r.targetOf target).toText = some place →
      Gone target r (.ok 0 { r.withHost { r.shell.host with
          environ := (r.environ.set "OLDPWD" r.cwd.toText).set "PWD" (Path.ofPlace place).toText } with
        cwd := Path.ofPlace place })

theorem changeDirectory_gone (target : String) (r : Repl) :
    Gone target r (changeDirectory target r) := by
  unfold changeDirectory
  rw [get_bind]
  dsimp only
  cases hd : r.isThere? target with
  | error f => exact .refused hd
  | ok present =>
  cases present with
  | false => exact .missing hd
  | true =>
  cases hp : r.shell.host.files.canonical? r.shell.host.cwd (r.targetOf target).toText with
  | none => exact .circle hd hp
  | some place => exact .moved hd hp

def goal? : List String → Option String
  | ["cd"] => some ""
  | ["cd", target] => some target
  | _ => none

def callOf (r : Repl) (line : String) : Call :=
  ⟨.commandLine line r.cwd, childEnvironment r.environ⟩

/-- The processes that a line is handed over to: one, unless the shell runs the line itself. -/
def handedOver (r : Repl) (line : String) : List Call :=
  if (Text.words line).head? = some "exit" ∨ (goal? (Text.words line)).isSome then []
  else [r.callOf line]

def statusAfter : Outcome → Except Failure Int
  | .exited e => .ok e.status
  | .garbled status => .ok status
  | .refused e => .error (.file e "/bin/sh")
  | .interrupted => .ok 130

theorem onHost_of_ok {α : Type} {act : Act Host α} {r : Repl} {h : Host} {a : α}
    (ha : act r.shell.host = .ok a h) : onHost act r = .ok a (r.withHost h) :=
  onShell_of_ok (Shell.onHost_of_ok ha)

theorem onHost_of_error {α : Type} {act : Act Host α} {r : Repl} {h : Host} {f : Failure}
    (ha : act r.shell.host = .error f h) : onHost act r = .error f (r.withHost h) :=
  onShell_of_error (Shell.onHost_of_error ha)

theorem runCommand_of_told {line : String} {r : Repl}
    (ht : r.shell.host.untold? (r.callOf line) = none) : runCommand line r =
      (ofExcept (statusAfter (r.shell.host.next (r.callOf line))) : Act Repl Int)
        (r.withHost (r.shell.host.after (r.callOf line))) := by
  unfold runCommand
  have hl : onHost (Host.launch (.commandLine line r.cwd) (childEnvironment r.environ)) r =
      .ok (r.shell.host.next (r.callOf line)) (r.withHost (r.shell.host.after (r.callOf line))) :=
    onHost_of_ok (Host.launch_of_told ht)
  rw [get_bind, bind_of_ok hl]
  cases r.shell.host.next (r.callOf line) <;> rfl

theorem runCommand_of_untold {line : String} {r : Repl} {f : Failure}
    (hf : r.shell.host.untold? (r.callOf line) = some f) : runCommand line r = .error f r := by
  unfold runCommand
  rw [get_bind, bind_of_error (onHost_of_error (Host.launch_of_untold hf))]
  rfl

theorem runCommand_ok {line : String} {r t : Repl} {status : Int}
    (h : runCommand line r = .ok status t) :
    r.shell.host.untold? (r.callOf line) = none ∧
      statusAfter (r.shell.host.next (r.callOf line)) = .ok status ∧
      t = r.withHost (r.shell.host.after (r.callOf line)) := by
  cases ht : r.shell.host.untold? (r.callOf line) with
  | some f =>
    rw [runCommand_of_untold ht] at h
    cases h
  | none =>
    rw [runCommand_of_told ht] at h
    cases hs : statusAfter (r.shell.host.next (r.callOf line)) with
    | ok status' =>
      rw [hs] at h
      cases h
      exact ⟨rfl, rfl, rfl⟩
    | error f =>
      rw [hs] at h
      cases h

def kept : EStateM.Result Failure Repl Int → EStateM.Result Failure Repl Int
  | .ok status r => .ok status { r with lastExit := status }
  | .error f r => .error f r

theorem kept_ok {x : EStateM.Result Failure Repl Int} {status : Int} {t : Repl}
    (h : kept x = .ok status t) : ∃ u, x = .ok status u ∧ t = { u with lastExit := status } := by
  cases x with
  | ok status' u =>
    cases h
    exact ⟨u, rfl, rfl⟩
  | error f u => cases h

theorem bind_keepStatus (act : Act Repl Int) (r : Repl) : (act >>= keepStatus) r = kept (act r) := by
  cases h : act r with
  | ok status t =>
    rw [bind_of_ok h]
    rfl
  | error f t =>
    rw [bind_of_error h]
    rfl

/-- What a line does once its hooks have been called, told by its words. -/
def handle (line : String) : List String → Act Repl Int
  | "exit" :: arguments => do
    stop
    let status ← ofExcept (statusOf arguments)
    keepStatus (status.getD (← get).lastExit)
  | ["cd"] => do keepStatus (← changeDirectory "")
  | ["cd", target] => do keepStatus (← changeDirectory target)
  | _ => do keepStatus (← runCommand line)

inductive Handled (line : String) (r : Repl) :
    List String → EStateM.Result Failure Repl Int → Prop
  | exit {arguments : List String} {status : Option Int} : statusOf arguments = .ok status →
      Handled line r ("exit" :: arguments) (.ok (status.getD r.lastExit)
        { r with running := false, lastExit := status.getD r.lastExit })
  | exitRefused {arguments : List String} {f : Failure} : statusOf arguments = .error f →
      Handled line r ("exit" :: arguments) (.error f { r with running := false })
  | cd {words : List String} {target : String} {x : EStateM.Result Failure Repl Int} :
      goal? words = some target → Gone target r x → Handled line r words (kept x)
  | command {words : List String} : words.head? ≠ some "exit" → goal? words = none →
      Handled line r words (kept (runCommand line r))

theorem handle_handled (line : String) (words : List String) (r : Repl) :
    Handled line r words (handle line words r) := by
  unfold handle
  split
  · next arguments =>
    cases hs : statusOf arguments with
    | error f => exact .exitRefused hs
    | ok status => exact .exit hs
  · rw [bind_keepStatus]
    exact .cd rfl (changeDirectory_gone "" r)
  · next target =>
    rw [bind_keepStatus]
    exact .cd rfl (changeDirectory_gone target r)
  · next hexit hcd htarget =>
    rw [bind_keepStatus]
    refine .command (fun h => ?_) ?_
    · obtain ⟨arguments, rfl⟩ := List.head?_eq_some_iff.1 h
      exact hexit arguments rfl
    · unfold goal?
      split
      · exact absurd rfl hcd
      · exact absurd rfl (htarget _)
      · rfl

/-- What a line that has been handled leaves alone, and the one process that it may have started. -/
structure Unhooked (line : String) (r t : Repl) : Prop where
  host : ∃ h, t.shell = { r.shell with host := h }
  config : t.config = r.config
  interactive : t.interactive = r.interactive
  isDone : Setup.isDone t.environ = Setup.isDone r.environ
  processes : t.shell.host.processes = r.shell.host.processes
  calls : t.shell.host.calls = r.shell.host.calls ∨
    t.shell.host.calls = r.shell.host.calls ++ [r.callOf line]

theorem endOf_kept (x : EStateM.Result Failure Repl Int) :
    ∃ status, endOf (kept x) = { endOf x with lastExit := status } := by
  cases x with
  | ok status r => exact ⟨status, rfl⟩
  | error f r => exact ⟨r.lastExit, rfl⟩

theorem Gone.unhooked {target line : String} {r : Repl} {x : EStateM.Result Failure Repl Int}
    (h : Gone target r x) : Unhooked line r (endOf x) := by
  have hset (e : Environment) (name value : String) (hn : name ≠ Setup.sentinelName) :
      Setup.isDone (e.set name value) = Setup.isDone e :=
    Setup.isDone_of_get?_eq (Environment.get?_set_of_ne e hn.symm value)
  cases h with
  | refused => exact ⟨⟨_, rfl⟩, rfl, rfl, rfl, rfl, .inl rfl⟩
  | missing => exact ⟨⟨_, rfl⟩, rfl, rfl, rfl, rfl, .inl rfl⟩
  | circle => exact ⟨⟨_, rfl⟩, rfl, rfl, hset _ _ _ (by decide), rfl, .inl rfl⟩
  | moved =>
    exact ⟨⟨_, rfl⟩, rfl, rfl, (hset _ _ _ (by decide)).trans (hset _ _ _ (by decide)), rfl,
      .inl rfl⟩

theorem runCommand_unhooked (line : String) (r : Repl) :
    Unhooked line r (endOf (runCommand line r)) := by
  cases ht : r.shell.host.untold? (r.callOf line) with
  | some f =>
    rw [runCommand_of_untold ht]
    exact ⟨⟨_, rfl⟩, rfl, rfl, rfl, rfl, .inl rfl⟩
  | none =>
    rw [runCommand_of_told ht]
    cases statusAfter (r.shell.host.next (r.callOf line)) with
    | ok status => exact ⟨⟨_, rfl⟩, rfl, rfl, rfl, rfl, .inr rfl⟩
    | error f => exact ⟨⟨_, rfl⟩, rfl, rfl, rfl, rfl, .inr rfl⟩

theorem Handled.unhooked {line : String} {words : List String} {r : Repl}
    {x : EStateM.Result Failure Repl Int} (h : Handled line r words x) :
    Unhooked line r (endOf x) := by
  have hkept {x} (hu : Unhooked line r (endOf x)) : Unhooked line r (endOf (kept x)) := by
    obtain ⟨status, he⟩ := endOf_kept x
    rw [he]
    exact ⟨hu.host, hu.config, hu.interactive, hu.isDone, hu.processes, hu.calls⟩
  cases h with
  | exit => exact ⟨⟨_, rfl⟩, rfl, rfl, rfl, rfl, .inl rfl⟩
  | exitRefused => exact ⟨⟨_, rfl⟩, rfl, rfl, rfl, rfl, .inl rfl⟩
  | cd _ hg => exact hkept hg.unhooked
  | command => exact hkept (runCommand_unhooked line r)

/-- A line that comes to an end was handed over, unless the shell runs it itself. -/
theorem Handled.calls_of_ok {line : String} {r t : Repl} {status : Int}
    {x : EStateM.Result Failure Repl Int} (h : Handled line r (Text.words line) x)
    (hx : x = .ok status t) : t.shell.host.calls = r.shell.host.calls ++ r.handedOver line := by
  unfold handedOver
  generalize Text.words line = words at h
  cases h with
  | exit =>
    cases hx
    exact (List.append_nil _).symm
  | exitRefused => cases hx
  | cd hw hg =>
    rw [if_pos (.inr (by rw [hw]; rfl)), List.append_nil]
    cases hg with
    | refused | circle => cases hx
    | missing | moved =>
      cases hx
      rfl
  | command hexit hgoal =>
    rw [if_neg (by simp [hexit, hgoal])]
    obtain ⟨u, hu, rfl⟩ := kept_ok hx
    obtain ⟨-, -, rfl⟩ := runCommand_ok hu
    rfl

/-- All that can come of a line: nothing if it is blank; else its hooks are called first. -/
inductive Executed (line : String) (r : Repl) : EStateM.Result Failure Repl Int → Prop
  | blank : Text.words line = [] → Executed line r (.ok r.lastExit r)
  | broken {f : Failure} {s : Shell} : Text.words line ≠ [] →
      Shell.fire .preexec [line] r.shell = .error f s →
      Executed line r (.error f { r with shell := s })
  | handled {s : Shell} {x : EStateM.Result Failure Repl Int} : Text.words line ≠ [] →
      Shell.fire .preexec [line] r.shell = .ok () s →
      Handled line { r with shell := s } (Text.words line) x → Executed line r x

theorem execute_eq (line : String) : execute line = (do
    if Text.words line = [] then return (← get).lastExit
    onShell (Shell.fire .preexec [line])
    handle line (Text.words line)) := rfl

theorem execute_executed (line : String) (r : Repl) : Executed line r (execute line r) := by
  rw [execute_eq]
  by_cases hw : Text.words line = []
  · rw [if_pos hw]
    exact .blank hw
  rw [if_neg hw]
  cases hf : Shell.fire .preexec [line] r.shell with
  | error f s =>
    rw [bind_of_error (onShell_of_error hf)]
    exact .broken hw hf
  | ok a s =>
    rw [bind_of_ok (onShell_of_ok hf)]
    exact .handled hw hf (handle_handled line _ _)

end Repl
end ShellHistory
