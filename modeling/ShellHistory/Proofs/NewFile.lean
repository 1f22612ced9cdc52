import ShellHistory.Proofs.LogFiles
import ShellHistory.Proofs.Preparation
import ShellHistory.Proofs.ReadBack

/-! A new file of a configuration. The command that writes it leaves a file alone that is there,
unless it is forced. What it writes are the defaults in YAML, whatever the file is called, while the
name tells how the file is read: under a name for YAML it gives the defaults, and under no other
name it can be read at all. -/

namespace ShellHistory

open Act FileTree

namespace FileTree

theorem find_empty {aim : Aim} {name : String} (hname : IsName name) (hdown : name ≠ "..")
    (hpath : IsPath name) (hshort : name.utf8ByteSize ≤ maxName) :
    empty.find [] name aim = .ok (.free [name]) := by
  have hsteps := steps_toText (Path.named_name hname) (.inr (List.cons_ne_nil _ _))
  have hstart := @startOf_toText [name] .none [] (Path.named_name hname)
  rw [Path.toText_name] at hsteps hstart
  refine find_ok_iff.2 ⟨hpath, ?_⟩
  rw [hsteps, hstart]
  have hopen : ¬ (aim = .opening ∧ [] = [""]) := fun h => List.cons_ne_nil _ _ h.2.symm
  exact .free ⟨admits_of_open List.not_mem_nil name, not_stays hname, hdown, hopen,
    Nat.not_lt.2 hshort⟩ rfl

end FileTree

namespace Json

theorem read_of_hash {s : String} {rest : List Char} (h : s.toList = '#' :: rest) :
    read s = .error .malformed := by
  have hvalue : readValue (s.toList.length + 1) (skipSpace s.toList) = .error .malformed := by
    rw [h]
    rfl
  rw [read, hvalue]
  rfl

end Json

namespace Config

open Yaml

variable {files : FileTree} {cwd : Place} {path : Path}

def templateNodes : Array Node := #[
  .mapping none [(1, 2), (5, 6), (13, 14), (19, 20), (23, 24), (25, 26)],
  .scalar none "backend" true, .mapping none [(3, 4)],
  .scalar none "binary" true, .scalar none "vellum" false,
  .scalar none "selector" true, .mapping none [(7, 8), (9, 10), (11, 12)],
  .scalar none "command" true, .scalar none "fzf" false,
  .scalar none "options" true, .scalar none "" false,
  .scalar none "height" true, .scalar none "40%" false,
  .scalar none "history" true, .mapping none [(15, 16), (17, 18)],
  .scalar none "args" true, .sequence none [],
  .scalar none "session_only" true, .scalar none "false" true,
  .scalar none "move" true, .mapping none [(21, 22)],
  .scalar none "args" true, .sequence none [],
  .scalar none "editor" true, .scalar none "null" true,
  .scalar none "logging" true, .mapping none [(27, 28), (29, 30)],
  .scalar none "level" true, .scalar none "WARNING" false,
  .scalar none "file" true, .scalar none "null" true]

/-- The text is written out before it is read, so that only the reading is left to be computed. -/
theorem nodes_template : (Graph.ofText? template.toList).toOption.map
    (Option.map fun g => (g.nodes, g.root, g.shared)) = some (some (templateNodes, 0, false)) := by
  unfold template
  repeat rw [String.toList_append]
  decide +kernel

theorem graph_template : Graph.ofText? template.toList = .ok (some ⟨templateNodes, 0, false⟩) := by
  have hnodes := nodes_template
  cases hg : Graph.ofText? template.toList with
  | error e =>
    rw [hg] at hnodes
    cases hnodes
  | ok found =>
    rw [hg] at hnodes
    cases found with
    | none => cases hnodes
    | some g =>
      obtain ⟨nodes, root, shared⟩ := g
      obtain ⟨rfl, rfl, rfl⟩ : nodes = templateNodes ∧ root = 0 ∧ shared = false := by
        simpa [Except.toOption] using hnodes
      rfl

theorem yaml_template : Document.read template = .ok default.toValue := by
  rw [Document.read, graph_template]
  rfl

theorem json_template : Json.read template = .error .malformed := by
  unfold template
  exact Json.read_of_hash (by simp only [String.toList_append]; rfl)

def ofTemplate (suffix : String) : Except FileFailure Config :=
  if suffix = ".yaml" ∨ suffix = ".yml" then .ok default
  else if suffix = ".json" then .error (.json .malformed)
  else .error (.format suffix)

theorem ofTemplate_eq_default_iff {suffix : String} :
    ofTemplate suffix = .ok default ↔ suffix = ".yaml" ∨ suffix = ".yml" := by
  unfold ofTemplate
  split_ifs with hyaml hjson
  · exact iff_of_true rfl hyaml
  · exact iff_of_false nofun hyaml
  · exact iff_of_false nofun hyaml

theorem readDocument_template (suffix : String) :
    readDocument suffix template >>= (fun document =>
      (ofValue (if document.isSet then document else .map [])).mapError FileFailure.shape) =
    ofTemplate suffix := by
  unfold readDocument ofTemplate
  split_ifs with hyaml hjson
  · have hback : ofValue default.toValue = .ok default :=
      ofValue_toValue_eq_self_iff.2 (.inr rfl)
    rw [yaml_template]
    change (ofValue default.toValue).mapError FileFailure.shape = _
    rw [hback]
    rfl
  · rw [json_template]
    rfl
  · rfl

theorem ofFile_of_missing (h : files.exists? cwd path.toText = .ok false) :
    ofFile files cwd path = .ok default := by
  unfold ofFile
  dsimp only
  rw [h]
  rfl

theorem ofFile_of_text {text : String} (hexists : files.exists? cwd path.toText = .ok true)
    (hread : files.read cwd path.toText = .ok text.toUTF8) (hplain : '\r' ∉ text.toList) :
    ofFile files cwd path = readDocument path.suffix text >>= fun document =>
      (ofValue (if document.isSet then document else .map [])).mapError FileFailure.shape := by
  have hbytes : String.fromUTF8? text.toUTF8 = some text := dif_pos text.isValidUTF8
  unfold ofFile
  dsimp only
  rw [hexists]
  change ((files.read cwd path.toText).mapError _ >>= _) = _
  rw [hread]
  dsimp only [Except.mapError, bind, Except.bind]
  rw [hbytes]
  dsimp only
  rw [Text.unifiedBreaks_of_notMem hplain]

theorem ofFile_template {place : Place} {executable : Bool}
    (h : files.stat cwd path.toText = .ok (place, .file template.toUTF8 executable)) :
    ofFile files cwd path = ofTemplate path.suffix := by
  have hplain : '\r' ∉ template.toList := by
    unfold template
    repeat rw [String.toList_append]
    decide +kernel
  rw [ofFile_of_text (exists?_eq_true_iff.2 ⟨_, _, h⟩) (read_of_stat h) hplain,
    readDocument_template]

section Loading

variable {login e : Environment} {accounts : Accounts}

/-- The file that is meant: the one that is given, or the one in its default place. -/
def chosenPath (login : Environment) (accounts : Accounts) (given : Option String)
    (e : Environment) : Except FileFailure Path :=
  match given.filter (· ≠ "") with
  | some path => .ok (Path.ofString path)
  | none => defaultPath login accounts e

theorem load_eq (files : FileTree) (cwd : Place) (login : Environment) (accounts : Accounts)
    (given : Option String) (e : Environment) : load files cwd login accounts given e =
      chosenPath login accounts given e >>= fun path => ofFile files cwd path >>= fun c =>
        (c.withEnvironment e).mapError .words := by
  unfold load chosenPath
  cases given.filter (· ≠ "") <;> rfl

theorem defaultPath_cases (login : Environment) (accounts : Accounts) (e : Environment) :
    defaultPath login accounts e = .error .homeless ∨
      ∃ path, defaultPath login accounts e = .ok path ∧ path.Named := by
  have hbelow {base : Path} (hb : base.Named) : ((base.child "vellum").child "shell.yaml").Named :=
    (hb.join (Path.named_ofString _)).join (Path.named_ofString _)
  unfold defaultPath
  cases e.filled? "VELLUM_SHELL_CONFIG" with
  | some path => exact .inr ⟨_, rfl, Path.named_ofString path⟩
  | none =>
  cases e.filled? "XDG_CONFIG_HOME" with
  | some base => exact .inr ⟨_, rfl, hbelow (Path.named_ofString base)⟩
  | none =>
  cases hhome : Tilde.ownHome? login accounts with
  | some home =>
    have hnamed : home.Named := Tilde.named_of_expandPath? (Path.named_ofString _) hhome
    exact .inr ⟨_, rfl, hbelow (hnamed.join (Path.named_ofString _))⟩
  | none => exact .inl rfl

theorem chosenPath_cases (login : Environment) (accounts : Accounts) (given : Option String)
    (e : Environment) : chosenPath login accounts given e = .error .homeless ∨
      ∃ path, chosenPath login accounts given e = .ok path ∧ path.Named := by
  unfold chosenPath
  cases given.filter (· ≠ "") with
  | some path => exact .inr ⟨_, rfl, Path.named_ofString path⟩
  | none => exact defaultPath_cases login accounts e

theorem chosenPath_toText (hnamed : path.Named) :
    chosenPath login accounts (some path.toText) e = .ok path := by
  obtain ⟨root, names⟩ := path
  have hne : Path.toText ⟨root, names⟩ ≠ "" := toText_ne_empty hnamed
  rw [chosenPath, Option.filter_some, if_pos (by simpa using hne)]
  exact congrArg Except.ok (Path.ofString_toText hnamed)

theorem load_template {place : Place} {executable : Bool} (hnamed : path.Named)
    (h : files.stat cwd path.toText = .ok (place, .file template.toUTF8 executable)) :
    load files cwd login accounts (some path.toText) .empty = ofTemplate path.suffix := by
  have hpath : chosenPath login accounts (some path.toText) .empty = .ok path :=
    chosenPath_toText hnamed
  rw [load_eq, hpath]
  change (ofFile files cwd path >>= _) = _
  rw [ofFile_template h]
  unfold ofTemplate
  split_ifs <;> rfl

end Loading

end Config

namespace Bridge

variable {h k t : Host} {config : Option String} {force : Bool} {path : Path} {status : Int}
  {c : Config} {argv : List String}

def presentText (path : Path) : String :=
  "Config already exists: " ++ path.toText ++ "\nUse --force to overwrite\n"

def createdText (path : Path) : String := "Created: " ++ path.toText ++ "\n"

def createAt (path : Path) (force : Bool) : Act Host Int := do
  let h ← get
  let present ← ofExcept ((h.files.exists? h.cwd path.toText).mapError (.file · path.toText))
  if present && !force then
    Host.print (presentText path)
    return 1
  if let some (e, p) := ← Host.makeDirectories path.parent then throw (.file e p)
  let h ← get
  let files ← ofExcept
    ((h.files.write h.cwd path.toText Config.template.toUTF8).mapError (.file · path.toText))
  modify fun h => { h with files }
  Host.print (createdText path)
  return 0

theorem createConfig_eq (hpath : Config.chosenPath h.login h.accounts config h.login = .ok path) :
    createConfig config force h = createAt path force h := by
  unfold createConfig
  rw [get_bind]
  unfold Config.chosenPath at hpath
  cases hgiven : config.filter (· ≠ "") with
  | some given =>
    rw [hgiven] at hpath
    cases hpath
    rfl
  | none =>
    rw [hgiven] at hpath
    dsimp only at hpath
    rw [hpath]
    rfl

theorem createAt_eq (path : Path) (force : Bool) (h : Host) :
    createAt path force h = match h.files.exists? h.cwd path.toText with
      | .error e => .error (.file e path.toText) h
      | .ok present =>
        if present && !force then .ok 1 { h with out := h.out ++ presentText path }
        else
          match makeDirectories h.cwd path.root path.parent.names.reverse h.files with
          | (files, some (e, p)) => .error (.file e p) { h with files := files }
          | (files, none) =>
            match files.write h.cwd path.toText Config.template.toUTF8 with
            | .error e => .error (.file e path.toText) { h with files := files }
            | .ok files => .ok 0 { h with files := files, out := h.out ++ createdText path } := by
  unfold createAt
  rw [get_bind]
  cases h.files.exists? h.cwd path.toText with
  | error e => rfl
  | ok present =>
  change (if (present && !force) = true then _ else _ : Act Host Int) h = _
  dsimp only
  split_ifs
  · rfl
  rw [bind_of_ok (Diagnostics.host_makeDirectories path h)]
  cases makeDirectories h.cwd path.root path.parent.names.reverse h.files with
  | mk files failure =>
  cases failure with
  | some failure => rfl
  | none =>
  dsimp only
  rw [get_bind]
  dsimp only
  cases files.write h.cwd path.toText Config.template.toUTF8 <;> rfl

theorem createAt_present (hexists : h.files.exists? h.cwd path.toText = .ok true) :
    createAt path false h = .ok 1 { h with out := h.out ++ presentText path } := by
  rw [createAt_eq, hexists]
  rfl

theorem createAt_made {files : FileTree}
    (hexists : h.files.exists? h.cwd path.toText = .ok false)
    (hparent : h.files.isDirectory? h.cwd path.parent.toText = .ok true)
    (hwrite : h.files.write h.cwd path.toText Config.template.toUTF8 = .ok files) :
    createAt path force h = .ok 0 { h with files := files, out := h.out ++ createdText path } := by
  rw [createAt_eq, hexists]
  dsimp only
  rw [Bool.false_and, if_neg nofun, Diagnostics.makeDirectories_parent hparent]
  dsimp only
  rw [hwrite]

/-- What the command comes to when it ends: nothing was written where something was, or the defaults
were written, and over no other file than the one that is meant. -/
inductive Created (path : Path) (force : Bool) (h : Host) : Int → Host → Prop
  | present : force = false → h.files.exists? h.cwd path.toText = .ok true →
      Created path force h 1 { h with out := h.out ++ presentText path }
  | made {files : FileTree} {place : Place} {executable : Bool} :
      (force = false → h.files.exists? h.cwd path.toText = .ok false) →
      files.stat h.cwd path.toText = .ok (place, .file Config.template.toUTF8 executable) →
      (∀ other n, other ≠ place → h.files.node? other = some n → files.node? other = some n) →
      Created path force h 0 { h with files := files, out := h.out ++ createdText path }

theorem createAt_created (hrun : createAt path force h = .ok status t) :
    Created path force h status t := by
  rw [createAt_eq] at hrun
  cases hexists : h.files.exists? h.cwd path.toText with
  | error e =>
    rw [hexists] at hrun
    cases hrun
  | ok present =>
  rw [hexists] at hrun
  dsimp only at hrun
  split_ifs at hrun with hkeep
  · obtain ⟨rfl, hforce⟩ : present = true ∧ force = false := by simpa using hkeep
    cases hrun
    exact .present hforce hexists
  have hfree : force = false → present = false := by
    rintro rfl
    simpa using hkeep
  have hgrows := (makeDirectories_made h.cwd path.root path.parent.names.reverse h.files).1
  cases hm : makeDirectories h.cwd path.root path.parent.names.reverse h.files with
  | mk files failure =>
  rw [hm] at hrun hgrows
  cases failure with
  | some failure => cases hrun
  | none =>
  dsimp only at hrun
  cases hw : files.write h.cwd path.toText Config.template.toUTF8 with
  | error e =>
    rw [hw] at hrun
    cases hrun
  | ok written =>
    rw [hw] at hrun
    cases hrun
    obtain ⟨place, executable, rfl, hstat⟩ := write_ok hw
    refine .made (fun hforce => by rw [hexists, hfree hforce]) hstat fun other n hother hn => ?_
    rw [node?_put_of_ne files hother, hgrows.kept hn]

theorem Created.out (hcreated : Created path force h 0 t) : t.out = h.out ++ createdText path := by
  cases hcreated
  rfl

theorem Created.load (hcreated : Created path force h status t) (hnamed : path.Named)
    (hstatus : status = 0) :
    Config.load t.files t.cwd t.login t.accounts (some path.toText) .empty =
      Config.ofTemplate path.suffix := by
  cases hcreated with
  | present => cases hstatus
  | made _ hstat _ => exact Config.load_template hnamed hstat

/-- Where the command is reached, it is known which file is meant. -/
theorem chosenPath_of_configFor {command : Command}
    (hconfig : configFor config command h = .ok (.ok c) h) :
    ∃ path, Config.chosenPath h.login h.accounts config h.login = .ok path ∧ path.Named := by
  refine (Config.chosenPath_cases h.login h.accounts config h.login).resolve_left fun hnone => ?_
  have hload : Config.load h.files h.cwd h.login h.accounts config h.login = .error .homeless := by
    rw [Config.load_eq, hnone]
    rfl
  unfold configFor at hconfig
  rw [get_bind, hload] at hconfig
  cases hconfig

theorem configFor_of_load {command : Command}
    (hload : Config.load h.files h.cwd h.login h.accounts config h.login = .ok c) :
    configFor config command h = .ok (.ok c) h := by
  unfold configFor
  rw [get_bind, hload]
  rfl

theorem logged_of_setUp (hlog : Diagnostics.setUp c h = .ok () k) : h.Logged k := by
  cases hlog ▸ Diagnostics.setUp_prepared c h
  assumption

theorem run_eq_createAt (hread : Invocation.read argv = .ok ⟨config, some (.createConfig force)⟩)
    (hconfig : configFor config (.createConfig force) h = .ok (.ok c) h)
    (hlog : Diagnostics.setUp c h = .ok () k)
    (hpath : Config.chosenPath h.login h.accounts config h.login = .ok path) :
    run argv h = createAt path force k := by
  obtain ⟨⟨threshold, files, logFiles, rfl⟩⟩ := logged_of_setUp hlog
  exact (run_of_prepared hread hconfig hlog).trans (createConfig_eq hpath)

/-- A file that is there is left alone, unless it is forced, and the status tells so. Where the
command tells that it has created the file, the file is read as its name tells: it gives the
defaults under a name for YAML, and under no other name. A log may have been opened before; its
lines are no part of the files. -/
theorem new_file_read_back
    (hread : Invocation.read argv = .ok ⟨config, some (.createConfig force)⟩)
    (hconfig : configFor config (.createConfig force) h = .ok (.ok c) h)
    (hlog : Diagnostics.setUp c h = .ok () k) :
    ∃ path, Config.chosenPath h.login h.accounts config h.login = .ok path ∧
      (force = false → h.files.exists? h.cwd path.toText = .ok true →
        ∃ t, run argv h = .ok 1 t ∧ t.out = h.out ++ presentText path ∧
          t.files.stat h.cwd path.toText = h.files.stat h.cwd path.toText ∧
          (Diagnostics.logPath? c h = none → t.files = h.files)) ∧
      ∀ status t, run argv h = .ok status t → Created path force k status t ∧
        (status = 0 →
          Config.load t.files t.cwd t.login t.accounts (some path.toText) .empty =
            Config.ofTemplate path.suffix ∧
          (Config.load t.files t.cwd t.login t.accounts (some path.toText) .empty = .ok .default ↔
            path.suffix = ".yaml" ∨ path.suffix = ".yml")) := by
  obtain ⟨path, hpath, hnamed⟩ := chosenPath_of_configFor hconfig
  have hgrows := Diagnostics.setUp_grows c h
  have hkept := @Diagnostics.files_setUp_of_pathless c h
  rw [hlog, endOf_ok] at hgrows hkept
  rw [run_eq_createAt hread hconfig hlog hpath]
  obtain ⟨⟨threshold, files, logFiles, rfl⟩⟩ := logged_of_setUp hlog
  refine ⟨path, hpath, fun hforce hexists => ?_, fun status t ht => ?_⟩
  · -- opening the log may have added to the tree, but what was there is still there
    obtain ⟨place, n, hstat⟩ := exists?_eq_true_iff.1 hexists
    have hstill : files.stat h.cwd path.toText = .ok (place, n) := stat_grows hstat hgrows
    rw [hforce]
    exact ⟨_, createAt_present (exists?_eq_true_iff.2 ⟨place, n, hstill⟩), rfl,
      hstill.trans hstat.symm, hkept⟩
  · have hcreated := createAt_created ht
    refine ⟨hcreated, fun hstatus => ?_⟩
    have hload := hcreated.load hnamed hstatus
    exact ⟨hload, by rw [hload, Config.ofTemplate_eq_default_iff]⟩

/-- A machine without files, where the configuration has a name in the working directory. -/
def newcomer (name : String) : Host := Host.scripted ⟨[("VELLUM_SHELL_CONFIG", name)]⟩ []

theorem read_init : Invocation.read ["config", "init"] = .ok ⟨none, some (.createConfig false)⟩ :=
  rfl

theorem setUp_newcomer (name : String) : Diagnostics.setUp .default (newcomer name) =
    .ok () { newcomer name with threshold := 30 } := rfl

section Newcomer

variable {name : String} (hname : IsName name)

include hname

theorem chosenPath_newcomer :
    Config.chosenPath (newcomer name).login (newcomer name).accounts none (newcomer name).login =
      .ok ⟨.none, [name]⟩ := by
  have hgiven : (newcomer name).login.filled? "VELLUM_SHELL_CONFIG" = some name := by
    have hget : (newcomer name).login.get? "VELLUM_SHELL_CONFIG" = some name := rfl
    rw [Environment.filled?, hget, Option.filter_some, if_pos (by simpa using hname.nonempty)]
  have hread : Path.ofString name = ⟨.none, [name]⟩ := by
    rw [← Path.ofString_toText (Path.named_name hname), Path.toText_name]
  rw [Config.chosenPath, Option.filter_none, Config.defaultPath, hgiven, ← hread]
  rfl

variable (hdown : name ≠ "..") (hpath : IsPath name) (hshort : name.utf8ByteSize ≤ maxName)

include hdown hpath hshort

theorem exists?_newcomer : (newcomer name).files.exists? (newcomer name).cwd
    (Path.toText ⟨.none, [name]⟩) = .ok false := by
  rw [Path.toText_name]
  exact exists?_of_find_free (find_empty hname hdown hpath hshort)

theorem configFor_newcomer :
    configFor none (.createConfig false) (newcomer name) = .ok (.ok .default) (newcomer name) := by
  refine configFor_of_load ?_
  rw [Config.load_eq, chosenPath_newcomer hname]
  change (Config.ofFile (newcomer name).files (newcomer name).cwd _ >>= _) = _
  rw [Config.ofFile_of_missing (exists?_newcomer hname hdown hpath hshort)]
  rfl

theorem run_newcomer : ∃ t, run ["config", "init"] (newcomer name) = .ok 0 t := by
  have hwrite : empty.write [] (Path.toText ⟨.none, [name]⟩) Config.template.toUTF8 =
      .ok (empty.put [name] (.file Config.template.toUTF8 false)) := by
    rw [Path.toText_name, write, find_empty hname hdown hpath hshort]
    rfl
  have hmade := @createAt_made { newcomer name with threshold := 30 } false ⟨.none, [name]⟩ _
    (exists?_newcomer hname hdown hpath hshort)
    (isDirectory?_of_find (find_dot List.not_mem_nil) rfl) hwrite
  exact ⟨_, (run_eq_createAt read_init (configFor_newcomer hname hdown hpath hshort)
    (setUp_newcomer name) (chosenPath_newcomer hname)).trans hmade⟩

end Newcomer

theorem configFor_created {place : Place} {executable : Bool}
    (hpath : Config.chosenPath t.login t.accounts none t.login = .ok path)
    (hsuffix : path.suffix = ".yaml")
    (hstat : t.files.stat t.cwd path.toText =
      .ok (place, .file Config.template.toUTF8 executable))
    (hbare : Config.default.withEnvironment t.login = .ok .default) :
    configFor none (.createConfig false) t = .ok (.ok .default) t := by
  refine configFor_of_load ?_
  rw [Config.load_eq, hpath]
  change (Config.ofFile t.files t.cwd path >>= _) = _
  rw [Config.ofFile_template hstat, Config.ofTemplate_eq_default_iff.2 (.inl hsuffix)]
  change (Config.default.withEnvironment t.login).mapError _ = _
  rw [hbare]
  rfl

/-- The defaults are read back, and the second time the file is left as it is. -/
theorem new_file_read_back_sample : ∃ t u,
    run ["config", "init"] (newcomer "shell.yaml") = .ok 0 t ∧
    Config.load t.files t.cwd t.login t.accounts (some "shell.yaml") .empty = .ok .default ∧
    run ["config", "init"] t = .ok 1 u ∧ u.files = t.files := by
  have hname : IsName "shell.yaml" := ⟨by decide, by decide, by decide⟩
  have hpath : IsPath "shell.yaml" := ⟨by decide, by decide, by decide⟩
  have hconfig := configFor_newcomer hname (by decide) hpath (by decide)
  obtain ⟨t, ht⟩ := run_newcomer hname (by decide) hpath (by decide)
  obtain ⟨path, hchosen, -, hends⟩ :=
    new_file_read_back read_init hconfig (setUp_newcomer "shell.yaml")
  cases hchosen.symm.trans (chosenPath_newcomer hname)
  obtain ⟨hcreated, hloads⟩ := hends 0 t ht
  have hload := (hloads rfl).2.2 (.inl (by decide))
  rw [Path.toText_name] at hload
  cases hcreated with
  | @made files _ _ _ hstat _ =>
  have hagain := @configFor_created { newcomer "shell.yaml" with
    threshold := 30, files := files, out := createdText ⟨.none, ["shell.yaml"]⟩ } _ _ _
    (chosenPath_newcomer hname) (by decide) hstat rfl
  obtain ⟨path, hchosen, hkeeps, -⟩ := new_file_read_back read_init hagain rfl
  cases hchosen.symm.trans (chosenPath_newcomer hname)
  obtain ⟨u, hu, -, -, hsame⟩ := hkeeps rfl (exists?_eq_true_iff.2 ⟨_, _, hstat⟩)
  exact ⟨_, u, ht, hload, hu, hsame rfl⟩

/-- A new file that is called one of JSON holds YAML all the same, and cannot be read. -/
theorem json_file_unreadable : ∃ t,
    run ["config", "init"] (newcomer "c.json") = .ok 0 t ∧ t.out = "Created: c.json\n" ∧
    Config.load t.files t.cwd t.login t.accounts (some "c.json") .empty =
      .error (.json .malformed) := by
  have hname : IsName "c.json" := ⟨by decide, by decide, by decide⟩
  have hpath : IsPath "c.json" := ⟨by decide, by decide, by decide⟩
  have hconfig := configFor_newcomer hname (by decide) hpath (by decide)
  obtain ⟨t, ht⟩ := run_newcomer hname (by decide) hpath (by decide)
  have hrun := run_eq_createAt read_init hconfig (setUp_newcomer "c.json")
    (chosenPath_newcomer hname)
  have hcreated := createAt_created (hrun.symm.trans ht)
  have hload := hcreated.load (Path.named_name hname) rfl
  rw [Path.toText_name, show Path.suffix ⟨.none, ["c.json"]⟩ = ".json" by decide] at hload
  exact ⟨t, ht, hcreated.out.trans (by decide), hload⟩

end Bridge

end ShellHistory
