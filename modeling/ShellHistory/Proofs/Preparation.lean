import ShellHistory.Proofs.Arguments

/-! The way to a command that is bound to hooks and keys. A configuration that cannot be loaded is
passed over for the environment alone, and a log that cannot be opened is let go, so most faults of a
configuration are never noticed. Those that are left are listed, and none of them says anything. -/

namespace ShellHistory

open Act

theorem Config.argumentsIn_error {e : Environment} {name : String} {old : List String}
    {w : Words.Error} (h : argumentsIn e name old = .error w) :
    ∃ line, e.get? name = some line ∧ Words.split line = .error w := by
  unfold argumentsIn at h
  cases hn : e.get? name with
  | none =>
    rw [hn] at h
    cases h
  | some line =>
    rw [hn] at h
    exact ⟨line, rfl, h⟩

/-- The environment fails to override a configuration only by a list of arguments that is badly
quoted. -/
theorem Config.withEnvironment_error {c : Config} {e : Environment} {w : Words.Error}
    (h : c.withEnvironment e = .error w) :
    ∃ name line, (name = "VELLUM_HISTORY_ARGS" ∨ name = "VELLUM_MOVE_ARGS") ∧
      e.get? name = some line ∧ Words.split line = .error w := by
  unfold withEnvironment at h
  cases hhistory : argumentsIn e "VELLUM_HISTORY_ARGS" c.historyArgs with
  | error w' =>
    rw [hhistory] at h
    cases h
    obtain ⟨line, hget, hsplit⟩ := argumentsIn_error hhistory
    exact ⟨_, line, .inl rfl, hget, hsplit⟩
  | ok historyArgs =>
  cases hmove : argumentsIn e "VELLUM_MOVE_ARGS" c.moveArgs with
  | error w' =>
    rw [hhistory, hmove] at h
    cases h
    obtain ⟨line, hget, hsplit⟩ := argumentsIn_error hmove
    exact ⟨_, line, .inr rfl, hget, hsplit⟩
  | ok moveArgs =>
    rw [hhistory, hmove] at h
    cases h

namespace Bridge

def Command.isSteady : Command → Bool
  | capture _ | navigate _ _ _ _ _ | search _ _ => true
  | script _ _ | session _ | showConfig | createConfig _ => false

/-- The configuration that a command goes on with: the one that is loaded, or, if that fails in a way
that is foreseen, the one of the environment alone. -/
inductive Chosen (config : Option String) (h : Host) (c : Config) : Prop
  | loaded : Config.load h.files h.cwd h.login h.accounts config h.login = .ok c → Chosen config h c
  | alone {e : Config.FileFailure} :
      Config.load h.files h.cwd h.login h.accounts config h.login = .error e →
      e.isReported = true → Config.ofEnvironment h.login = .ok c → Chosen config h c

/-- What keeps a command from being reached: a failure to load that is not foreseen, a fault of the
environment, which is met again without the file, or a setting of the log. -/
inductive Obstacle (config : Option String) (h : Host) : Failure → Prop
  | unforeseen {e : Config.FileFailure} :
      Config.load h.files h.cwd h.login h.accounts config h.login = .error e →
      e.isReported = false → Obstacle config h (.load e)
  | badQuotes {e : Config.FileFailure} {name line : String} {w : Words.Error} :
      Config.load h.files h.cwd h.login h.accounts config h.login = .error e →
      name = "VELLUM_HISTORY_ARGS" ∨ name = "VELLUM_MOVE_ARGS" →
      h.login.get? name = some line → Words.split line = .error w → Obstacle config h (.words w)
  | flaw {c : Config} {f : Failure} : Chosen config h c → Diagnostics.Flaw c h f →
      Obstacle config h f

inductive Configured (config : Option String) (h : Host) :
    EStateM.Result Failure Host (Except Options.Stop Config) → Prop
  | chosen {c : Config} : Chosen config h c → Configured config h (.ok (.ok c) h)
  | refused {f : Failure} : Obstacle config h f → Configured config h (.error f h)

/-- A steady command gets a configuration or meets an obstacle. It is never stopped with a message. -/
theorem configFor_configured (config : Option String) {command : Command}
    (hs : command.isSteady = true) (h : Host) : Configured config h (configFor config command h) := by
  have htolerates : command.toleratesConfig = true := by
    cases command <;> first | rfl | cases hs
  unfold configFor
  rw [get_bind]
  cases hload : Config.load h.files h.cwd h.login h.accounts config h.login with
  | ok c => exact .chosen (.loaded hload)
  | error e =>
  cases hreported : e.isReported with
  | false =>
    simp only [hreported]
    exact .refused (.unforeseen hload hreported)
  | true =>
    simp only [hreported, htolerates]
    cases hc : Config.ofEnvironment h.login with
    | ok c => exact .chosen (.alone hload hreported hc)
    | error w =>
      obtain ⟨name, line, hname, hget, hsplit⟩ := Config.withEnvironment_error hc
      exact .refused (.badQuotes hload hname hget hsplit)

/-- A steady command is reached, with the configuration that is loaded or with that of the
environment alone, before anything is printed or started; or it meets one of the obstacles, and then
nothing has been printed or started either. -/
theorem steady_command_reached {argv : List String} {config : Option String} {command : Command}
    (hread : Invocation.read argv = .ok ⟨config, some command⟩) (hs : command.isSteady = true)
    (h : Host) :
    (∃ c h', Chosen config h c ∧ h.Logged h' ∧ run argv h = command.run config c h') ∨
      ∃ f h', Obstacle config h f ∧ h.Logged h' ∧ run argv h = .error f h' := by
  have hconfigured := configFor_configured config hs h
  generalize hx : configFor config command h = x at hconfigured
  cases hconfigured with
  | refused ho =>
    refine .inr ⟨_, h, ho, .refl h, ?_⟩
    rw [run_of_read hread, bind_of_error hx]
  | @chosen c hc =>
    have hprepared := Diagnostics.setUp_prepared c h
    generalize hy : Diagnostics.setUp c h = y at hprepared
    cases hprepared with
    | refused hl hf =>
      refine .inr ⟨_, _, .flaw hc hf, hl, ?_⟩
      rw [run_of_read hread, bind_of_ok hx]
      exact bind_of_error hy
    | done hl => exact .inl ⟨c, _, hc, hl, run_of_prepared hread hx hy⟩

/-- A machine whose configuration is in a file of no known format. -/
def oddlyConfigured : Host :=
  { Host.scripted ⟨[("VELLUM_SHELL_CONFIG", "/shell.txt")]⟩ [] with
    files := FileTree.empty.put ["shell.txt"] (.file .empty false) }

theorem load_oddlyConfigured : Config.load oddlyConfigured.files oddlyConfigured.cwd
    oddlyConfigured.login oddlyConfigured.accounts none oddlyConfigured.login =
      .error (.format ".txt") := by
  have hwalk : oddlyConfigured.files.walk .target FileTree.maxLinks [] ["shell.txt"] =
      .ok (.taken ["shell.txt"]) := by
    rw [FileTree.walk]
    rfl
  have hfind : oddlyConfigured.files.find [] "/shell.txt" .target = .ok (.taken ["shell.txt"]) :=
    hwalk
  have hstat : oddlyConfigured.files.stat [] "/shell.txt" =
      .ok (["shell.txt"], .file .empty false) := by
    rw [FileTree.stat, hfind]
    rfl
  have hexists : oddlyConfigured.files.exists? [] "/shell.txt" = .ok true := by
    rw [FileTree.exists?, hstat]
  have hread : oddlyConfigured.files.read [] "/shell.txt" = .ok .empty := by
    rw [FileTree.read, hstat]
    rfl
  have hfile : Config.ofFile oddlyConfigured.files [] (Path.ofString "/shell.txt") =
      .error (.format ".txt") := by
    unfold Config.ofFile
    change ((oddlyConfigured.files.exists? [] "/shell.txt").mapError _ >>= _) = _
    rw [hexists]
    change ((oddlyConfigured.files.read [] "/shell.txt").mapError _ >>= _) = _
    rw [hread]
    rfl
  unfold Config.load
  change (Config.ofFile oddlyConfigured.files [] (Path.ofString "/shell.txt") >>= _) = _
  rw [hfile]
  rfl

theorem chosen_oddlyConfigured {c : Config} (h : Chosen none oddlyConfigured c) : c = .default := by
  cases h with
  | loaded hload => cases load_oddlyConfigured.symm.trans hload
  | alone _ _ hc =>
    cases hc
    rfl

/-- A file of no known format is passed over, and the line is stored with the defaults. -/
theorem steady_command_reached_sample : ∃ h', oddlyConfigured.Logged h' ∧
    run ["capture", "--", "ls"] oddlyConfigured = (Command.capture "ls").run none .default h' := by
  obtain ⟨c, h', hc, hl, hrun⟩ | ⟨f, h', ho, -, -⟩ :=
    steady_command_reached (read_capture "ls") rfl oddlyConfigured
  · cases chosen_oddlyConfigured hc
    exact ⟨h', hl, hrun⟩
  · exfalso
    cases ho with
    | unforeseen hload he =>
      cases load_oddlyConfigured.symm.trans hload
      exact absurd he (by decide)
    | badQuotes _ hname hget _ =>
      rcases hname with rfl | rfl
      · cases hget
      · cases hget
    | flaw hc hf =>
      cases chosen_oddlyConfigured hc
      cases hf with
      | levelText hl => exact absurd hl (by decide)
      | levelKind hl => exact absurd hl (by decide)
      | longNumber hl => cases hl
      | bytes hf | unnamable hf | homeless hf | nul hf | circle hf | untold hf => cases hf
      | notText hf => exact absurd hf (by decide)

/-- A machine with no file of a configuration, but with a badly quoted list of arguments. -/
def badlyQuoted : Host := Host.scripted
  ⟨[("VELLUM_SHELL_CONFIG", "shell.yaml"), ("VELLUM_HISTORY_ARGS", "a 'b")]⟩ []

/-- The list of arguments keeps the configuration from being loaded, and then keeps the environment
from standing in for it. The line is not stored. -/
theorem bad_quotes_fail :
    Invocation.read ["capture", "--", "ls"] = .ok ⟨none, some (.capture "ls")⟩ ∧
      run ["capture", "--", "ls"] badlyQuoted = .error (.words .openQuote) badlyQuoted := by
  have hload : Config.load badlyQuoted.files badlyQuoted.cwd badlyQuoted.login badlyQuoted.accounts
      none badlyQuoted.login = .error (.words .openQuote) := by
    unfold Config.load
    change (Config.ofFile .empty [] (Path.ofString "shell.yaml") >>= _) = _
    rw [ofFile_missing]
    rfl
  have hconfig : configFor none (.capture "ls") badlyQuoted =
      .error (.words .openQuote) badlyQuoted := by
    unfold configFor
    rw [get_bind, hload]
    rfl
  have hread : Invocation.read ["capture", "--", "ls"] = .ok ⟨none, some (.capture "ls")⟩ :=
    read_capture "ls"
  refine ⟨hread, ?_⟩
  rw [run_of_read hread, bind_of_error hconfig]

end Bridge
end ShellHistory
