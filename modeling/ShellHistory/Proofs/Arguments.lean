import ShellHistory.Bridge
import ShellHistory.Proofs.Capture
import ShellHistory.Proofs.CommandLine
import ShellHistory.Proofs.Logging

/-! What the scripts of the shells put on the command line of the bridge, and what it reads there. A
line to be stored and the start of a search come through whatever they are. A step through the
history takes three texts, and each of them comes through unless it is just `--`. -/

namespace ShellHistory.Bridge

open Options Act

def captureLine (line : String) : List String := ["capture", "--", line]

def navigateLine (d : Dialect) (cursor : String) (probe : Option String) (direction : Int)
    (buffer : String) : List String :=
  ["navigate", "--shell", d.name, Token.joinedText "--cursor" cursor] ++
    (probe.map (Token.joinedText "--probe")).toList ++ ["--", toString direction, buffer]

def searchLine (d : Dialect) (buffer : String) : List String :=
  ["search", "--shell", d.name, "--", buffer]

/-- The command that stands first takes all that follows it, and nothing is left over. -/
theorem read_of_readCommand {name : String} {texts : List String} {tokens : List Token}
    {command : Command} (hn : name ≠ "--")
    (hname : Token.ofText mainGrammar name = .ok (.argument name))
    (hchoice : name ∈ ["init", "session", "capture", "navigate", "search", "config"])
    (htexts : Token.ofTexts mainGrammar texts = .ok tokens)
    (hcommand : readCommand name texts = .ok (some command, [])) :
    Invocation.read (name :: texts) = .ok ⟨none, some command⟩ := by
  have hmain : mainGrammar.read (name :: texts) =
      .ok ⟨[("action", some name)], some (name, texts), []⟩ :=
    Grammar.read_command rfl rfl (by simp only [Choice.complaint?, if_pos hchoice]) rfl hn hname htexts
  unfold Invocation.read
  rw [hmain]
  change (readCommand name texts >>= _) = _
  rw [hcommand]
  rfl

theorem read_capture (line : String) :
    Invocation.read (captureLine line) = .ok ⟨none, some (.capture line)⟩ := by
  have hread : captureGrammar.read ["--", line] =
      .ok ⟨[("command_text", some line)], none, []⟩ := by
    refine Grammar.read_of_readFrom (Token.ofTexts_dashes captureGrammar [line]) ?_ rfl
    refine Grammar.readFrom_arguments rfl ?_
    exact Grammar.readPositionals_dashes (by decide) rfl nofun
  refine read_of_readCommand (by decide) rfl (by decide)
    (Token.ofTexts_dashes mainGrammar [line]) ?_
  unfold readCommand
  simp only [hread]
  rfl

theorem ofText_dialect (g : Grammar) (d : Dialect) :
    Token.ofText g d.name = .ok (.argument d.name) := by
  cases d <;> rfl

theorem valueOf_dialect (d : Dialect) : Grammar.valueOf [d.name] shells = .ok (some d.name) := by
  cases d <;> rfl

theorem dialect_ne_dashes (d : Dialect) : d.name ≠ "--" := by
  cases d <;> decide

theorem ofTexts_shell {g : Grammar} {t : Token} {texts : List String} {ts : List Token}
    (hshell : Token.ofText g "--shell" = .ok t) (d : Dialect)
    (htexts : Token.ofTexts g texts = .ok ts) :
    Token.ofTexts g ("--shell" :: d.name :: texts) = .ok (t :: .argument d.name :: ts) :=
  Token.ofTexts_cons (by decide) hshell
    (Token.ofTexts_cons (dialect_ne_dashes d) (ofText_dialect g d) htexts)

theorem ofText_shell {g : Grammar} (hshell : g.flag? "--shell" = some shellFlag) :
    Token.ofText g "--shell" = .ok (.option "--shell" (some ⟨shellFlag, "--shell", none⟩)) :=
  Token.ofText_flag rfl hshell

theorem read_search (d : Dialect) (buffer : String) :
    Invocation.read (searchLine d buffer) = .ok ⟨none, some (.search (some d) buffer)⟩ := by
  have hread : searchGrammar.read ["--shell", d.name, "--", buffer] =
      .ok ⟨[("buffer", some buffer), ("shell", some d.name)], none, []⟩ := by
    refine Grammar.read_of_readFrom
      (ofTexts_shell (ofText_shell rfl) d (Token.ofTexts_dashes searchGrammar [buffer])) ?_ rfl
    rw [Grammar.readFrom_apart (f := shellFlag) rfl (valueOf_dialect d)]
    refine Grammar.readFrom_arguments rfl ?_
    exact Grammar.readPositionals_dashes (by decide) rfl nofun
  refine read_of_readCommand (by decide) rfl (by decide)
    (ofTexts_shell rfl d (Token.ofTexts_dashes mainGrammar [buffer])) ?_
  unfold readCommand
  simp only [hread]
  cases d <;> rfl

def cursorFlag : Flag := ⟨["--cursor"], "cursor", .value .any, false⟩

def probeFlag : Flag := ⟨["--probe"], "probe", .value .any, false⟩

/-- What a step through the history is told before its arguments. -/
def walked (d : Dialect) (cursor : String) : Option String → Reading
  | none => (Reading.empty.put "shell" (some d.name)).put "cursor" (passed cursor)
  | some probe => ((Reading.empty.put "shell" (some d.name)).put "cursor" (passed cursor)).put "probe"
      (passed probe)

theorem ofText_cursor (cursor : String) :
    Token.ofText navigateGrammar (Token.joinedText "--cursor" cursor) =
      .ok (.option (Token.joinedText "--cursor" cursor)
        (some ⟨cursorFlag, "--cursor", some cursor⟩)) :=
  Token.ofText_joined cursor rfl (by decide) (by decide) rfl

theorem ofText_probe (probe : String) :
    Token.ofText navigateGrammar (Token.joinedText "--probe" probe) =
      .ok (.option (Token.joinedText "--probe" probe) (some ⟨probeFlag, "--probe", some probe⟩)) :=
  Token.ofText_joined probe rfl (by decide) (by decide) rfl

theorem joinedText_ne_dashes (name value : String) : Token.joinedText name value ≠ "--" := by
  intro h
  have hmem : '=' ∈ "--".toList := by
    rw [← h, Token.toList_joinedText]
    simp
  exact absurd hmem (by decide)

/-- The direction stands behind the `--` and comes through. The buffer is the last argument. -/
theorem readPositionals_navigate (direction : Int)
    (hd : direction = Move.previous ∨ direction = Move.next) (buffer : String) (r : Reading) :
    navigateGrammar.readPositionals r [.dashes, .argument (toString direction), .argument buffer]
        navigateGrammar.positionals =
      .ok ((passed buffer).elim (r.put "direction" (some (toString direction))) (fun s =>
        (r.put "direction" (some (toString direction))).put "buffer" (some s)), [], []) := by
  have hchoice : (Choice.oneOfWhole [Move.previous, Move.next]).complaint? (toString direction) =
      none := by
    rcases hd with rfl | rfl <;> decide
  refine (Grammar.readPositionals_dashes (by decide) hchoice ?_).trans ?_
  · exact nofun
  · exact Grammar.readPositionals_last rfl rfl

theorem read_navigateGrammar (d : Dialect) (cursor : String) (probe : Option String)
    (direction : Int) (hd : direction = Move.previous ∨ direction = Move.next) (buffer : String) :
    navigateGrammar.read (navigateLine d cursor probe direction buffer).tail =
      .ok ((passed buffer).elim ((walked d cursor probe).put "direction" (some (toString direction)))
        (fun s => ((walked d cursor probe).put "direction" (some (toString direction))).put "buffer"
          (some s))) := by
  have harguments : Token.ofTexts navigateGrammar ["--", toString direction, buffer] =
      .ok [.dashes, .argument (toString direction), .argument buffer] :=
    Token.ofTexts_dashes navigateGrammar _
  cases probe with
  | none =>
    have htexts := ofTexts_shell (ofText_shell rfl) d
      (Token.ofTexts_cons (joinedText_ne_dashes _ _) (ofText_cursor cursor) harguments)
    refine Grammar.read_of_readFrom htexts ?_ (by cases passed buffer <;> rfl)
    refine (Grammar.readFrom_apart (f := shellFlag) rfl (valueOf_dialect d)).trans ?_
    refine (Grammar.readFrom_joined (f := cursorFlag) rfl (Grammar.valueOf_any cursor)).trans ?_
    exact Grammar.readFrom_arguments rfl (readPositionals_navigate direction hd buffer _)
  | some probe =>
    have htexts := ofTexts_shell (ofText_shell rfl) d
      (Token.ofTexts_cons (joinedText_ne_dashes _ _) (ofText_cursor cursor)
        (Token.ofTexts_cons (joinedText_ne_dashes _ _) (ofText_probe probe) harguments))
    refine Grammar.read_of_readFrom htexts ?_ (by cases passed buffer <;> rfl)
    refine (Grammar.readFrom_apart (f := shellFlag) rfl (valueOf_dialect d)).trans ?_
    refine (Grammar.readFrom_joined (f := cursorFlag) rfl (Grammar.valueOf_any cursor)).trans ?_
    refine (Grammar.readFrom_joined (f := probeFlag) rfl (Grammar.valueOf_any probe)).trans ?_
    exact Grammar.readFrom_arguments rfl (readPositionals_navigate direction hd buffer _)

/-- The program itself knows none of the options of a step, and takes no offence at them. -/
theorem ofTexts_navigateLine (d : Dialect) (cursor : String) (probe : Option String)
    (direction : Int) (buffer : String) : ∃ tokens, Token.ofTexts mainGrammar
      (navigateLine d cursor probe direction buffer).tail = .ok tokens := by
  have hcursor : ∃ t, Token.ofText mainGrammar (Token.joinedText "--cursor" cursor) = .ok t :=
    Token.ofText_unknown cursor rfl (by decide) (by decide) (by decide)
  refine Token.ofTexts_total (["--shell", d.name, Token.joinedText "--cursor" cursor] ++
    (probe.map (Token.joinedText "--probe")).toList) [toString direction, buffer] fun s hs => ?_
  rcases List.mem_append.1 hs with hs | hs
  · rcases hs with _ | ⟨_, _ | ⟨_, _ | ⟨_, hs⟩⟩⟩
    · exact ⟨_, rfl⟩
    · exact ⟨_, ofText_dialect mainGrammar d⟩
    · exact hcursor
    · cases hs
  · obtain ⟨p, -, rfl⟩ := Option.map_eq_some_iff.1 (Option.mem_toList.1 hs)
    exact Token.ofText_unknown p rfl (by decide) (by decide) (by decide)

theorem read_navigate (d : Dialect) (cursor : String) (probe : Option String) (direction : Int)
    (hd : direction = Move.previous ∨ direction = Move.next) (buffer : String) :
    Invocation.read (navigateLine d cursor probe direction buffer) =
      .ok ⟨none, some (.navigate (some d) (passed cursor) (probe.map fun p => (passed p).getD "")
        direction ((passed buffer).getD ""))⟩ := by
  have hread := read_navigateGrammar d cursor probe direction hd buffer
  obtain ⟨tokens, htokens⟩ := ofTexts_navigateLine d cursor probe direction buffer
  refine read_of_readCommand (by decide) rfl (by decide) htokens ?_
  change (navigateGrammar.read (navigateLine d cursor probe direction buffer).tail >>= fun r =>
    pure (some (Command.navigate (dialectOf r) (r.valueOr "cursor" "")
      ((r.value? "probe").map (·.getD "")) (directionOf r) (textOf r "buffer" "")), r.extras)) = _
  rw [hread]
  -- the reading is an extension of `walked`, by a buffer or without one
  have hdialect (r : Reading) (hr : r.valueOr "shell" "" = some d.name) : dialectOf r = some d := by
    rw [dialectOf, hr]
    cases d <;> rfl
  have hdirection (r : Reading) (hr : textOf r "direction" "" = toString direction) :
      directionOf r = direction := by
    rw [directionOf, hr]
    rcases hd with rfl | rfl <;> rfl
  cases passed buffer with
  | none =>
    change Except.ok (some (Command.navigate (dialectOf _) _ _ (directionOf _) _), _) = _
    rw [hdialect _ (by cases probe <;> rfl), hdirection _ rfl]
    cases probe <;> rfl
  | some b =>
    change Except.ok (some (Command.navigate (dialectOf _) _ _ (directionOf _) _), _) = _
    rw [hdialect _ (by cases probe <;> rfl), hdirection _ rfl]
    cases probe <;> rfl

/-- A command is run once its configuration is chosen and the log is set up. -/
theorem run_of_read {argv : List String} {config : Option String} {command : Command}
    (hread : Invocation.read argv = .ok ⟨config, some command⟩) : run argv = (do
      match ← configFor config command with
      | .error s => stop s
      | .ok c => do
        Diagnostics.setUp c
        command.run config c) := by
  unfold run
  generalize Invocation.read argv = x at hread
  subst hread
  rfl

theorem run_of_prepared {argv : List String} {config : Option String} {command : Command}
    {h h' : Host} {c : Config} (hread : Invocation.read argv = .ok ⟨config, some command⟩)
    (hconfig : configFor config command h = .ok (.ok c) h)
    (hlog : Diagnostics.setUp c h = .ok () h') : run argv h = command.run config c h' := by
  rw [run_of_read hread, bind_of_ok hconfig]
  exact bind_of_ok hlog

/-- Storing a line starts the process that stores it, if there can be one, and no other. -/
theorem calls_capture (config : Option String) (c : Config) (h : Host) (line : String) :
    (endOf ((Command.capture line).run config c h)).calls = h.calls ++
      ((backendOf h c).process? ["store", "--", line] (some (contextOf h c "").session) false
        h).toList := by
  have hrun : (Command.capture line).run config c h = (do
      discard ((backendOf h c).run ["store", "--", line] (some (contextOf h c "").session) false)
      return 0 : Act Host Int) h := rfl
  rw [hrun, endOf_bind_pure, endOf_discard, Backend.calls_run]

/-- The process that a line is stored by, if the program and the editor are texts. -/
structure Stores (h h' : Host) (binary line : String) (call : Call) : Prop where
  job : call.job = .backend [binary, "store", "--", line] false
  told : h.untold? call = none → h'.calls = h.calls ++ [call]
  untold : ∀ f, h.untold? call = some f → h'.calls = h.calls

/-- Lines to be stored and starts of a search are read as they were given, and so are the texts of a
step, unless one is just `--`: then it is taken out, and the step goes on without it. Whatever line
is to be stored, the process that is started for it gets that line, if the system can be told it. -/
theorem texts_carried (d : Dialect) (line cursor buffer : String) (probe : Option String)
    (direction : Int) (hd : direction = Move.previous ∨ direction = Move.next) :
    Invocation.read (captureLine line) = .ok ⟨none, some (.capture line)⟩ ∧
    Invocation.read (searchLine d buffer) = .ok ⟨none, some (.search (some d) buffer)⟩ ∧
    Invocation.read (navigateLine d cursor probe direction buffer) =
      .ok ⟨none, some (.navigate (some d) (passed cursor) (probe.map fun p => (passed p).getD "")
        direction ((passed buffer).getD ""))⟩ ∧
    ∀ (h h' : Host) (c : Config),
      Config.load h.files h.cwd h.login h.accounts none h.login = .ok c →
      Diagnostics.setUp c h = .ok () h' →
      (∀ binary, (backendOf h c).program? = some binary →
        ∃ call, Stores h (endOf (run (captureLine line) h)) binary line call) ∧
      ((backendOf h c).program? = none →
        (endOf (run (captureLine line) h)).calls = h.calls) := by
  refine ⟨read_capture line, read_search d buffer, read_navigate d cursor probe direction hd buffer,
    fun h h' c hload hlog => ?_⟩
  have hconfig : configFor none (.capture line) h = .ok (.ok c) h := by
    unfold configFor
    rw [get_bind, hload]
    rfl
  have hcalls : (endOf (run (captureLine line) h)).calls = h.calls ++
      ((backendOf h c).process? ["store", "--", line] (some (contextOf h c "").session) false
        h).toList := by
    rw [run_of_prepared (read_capture line) hconfig hlog]
    have hlogged := Diagnostics.setUp_prepared c h
    rw [hlog] at hlogged
    cases hlogged with
    | done hl =>
      obtain ⟨_, _, _, rfl⟩ := hl.eq
      exact calls_capture none c _ line
  obtain ⟨binary, environ, hp, hc⟩ | ⟨kind, hp, hc⟩ := (backendOf h c).call?_cases
    ["store", "--", line] (some (contextOf h c "").session) false h.environ
  · refine ⟨fun binary' hp' => ⟨⟨.backend [binary, "store", "--", line] false, environ⟩, ?_,
      fun ht => ?_, fun f hf => ?_⟩, fun hn => ?_⟩
    · cases hp.symm.trans hp'
      rfl
    · rw [hcalls, Backend.process?_of_told hc ht]
      rfl
    · rw [hcalls, Backend.process?_of_untold hc hf]
      exact List.append_nil _
    · cases hp.symm.trans hn
  · refine ⟨fun binary' hp' => ?_, fun _ => ?_⟩
    · cases hp.symm.trans hp'
    · rw [hcalls, Backend.process?_of_error hc]
      exact List.append_nil _

theorem ofFile_missing : Config.ofFile .empty [] (Path.ofString "shell.yaml") = .ok .default := by
  have hwalk : FileTree.empty.walk .target FileTree.maxLinks [] ["shell.yaml"] =
      .ok (.free ["shell.yaml"]) := by
    rw [FileTree.walk]
    rfl
  have hfind : FileTree.empty.find [] "shell.yaml" .target = .ok (.free ["shell.yaml"]) := hwalk
  have hexists : FileTree.empty.exists? [] "shell.yaml" = .ok false := by
    rw [FileTree.exists?, FileTree.stat, hfind]
    rfl
  unfold Config.ofFile
  change ((FileTree.empty.exists? [] "shell.yaml").mapError _ >>= _) = _
  rw [hexists]
  rfl

/-- A machine whose configuration is in a file that is not there. -/
def bare : Host := Host.scripted ⟨[("VELLUM_SHELL_CONFIG", "shell.yaml")]⟩ []

theorem load_bare : Config.load bare.files bare.cwd bare.login bare.accounts none bare.login =
    .ok .default := by
  unfold Config.load
  change (Config.ofFile .empty [] (Path.ofString "shell.yaml") >>= _) = _
  rw [ofFile_missing]
  rfl

/-- Dashes and blanks come through, and a line of two dashes is stored as such. -/
theorem texts_carried_sample :
    Invocation.read ["navigate", "--shell", "bash", "--cursor=-h", "--", "-1", "-x  y"] =
        .ok ⟨none, some (.navigate (some .bash) (some "-h") none (-1) "-x  y")⟩ ∧
      ∃ cs, (endOf (run ["capture", "--", "--"] bare)).calls = cs ∧
        (cs.map fun c => c.job.argv) = [["vellum", "store", "--", "--"]] := by
  obtain ⟨-, -, hnavigate, hcapture⟩ :=
    texts_carried .bash "--" "-h" "-x  y" none (-1) (.inl rfl)
  obtain ⟨call, hcall⟩ := (hcapture bare _ .default load_bare rfl).1 "vellum" rfl
  exact ⟨hnavigate, [call], hcall.told rfl, by rw [List.map_singleton, hcall.job]; rfl⟩

/-- A buffer of two dashes is taken for a mark and is gone, though it stands behind one already. -/
theorem dashes_lost :
    Invocation.read ["navigate", "--shell", "bash", "--cursor=", "--", "-1", "--"] =
        .ok ⟨none, some (.navigate (some .bash) (some "") none (-1) "")⟩ ∧
      Invocation.read ["navigate", "--shell", "bash", "--cursor=", "--", "-1", "--"] ≠
        .ok ⟨none, some (.navigate (some .bash) (some "") none (-1) "--")⟩ := by
  have hread : Invocation.read ["navigate", "--shell", "bash", "--cursor=", "--", "-1", "--"] =
      .ok ⟨none, some (.navigate (some .bash) (some "") none (-1) "")⟩ :=
    read_navigate .bash "" none (-1) (.inl rfl) "--"
  refine ⟨hread, fun h => ?_⟩
  have hsame := hread.symm.trans h
  simp at hsame

end ShellHistory.Bridge
