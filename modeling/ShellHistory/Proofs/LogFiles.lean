import ShellHistory.Proofs.Growth

/-! The files of the log. To set up the log is to open one file more, with the directories above it, or
to leave the open files as they are. What cannot be opened is not opened the next time either, and
what is open is known by the name it was opened under. -/

namespace ShellHistory

open Act FileTree

namespace Path

variable {p : Path} {c : Char} {name : String}

theorem mem_intercalate {names : List String} (hn : name ∈ names) (hc : c ∈ name.toList) :
    c ∈ (String.intercalate "/" names).toList := by
  obtain ⟨front, rest, rfl⟩ := List.append_of_mem hn
  have hlater : c ∈ (String.intercalate "/" (name :: rest)).toList := by
    cases rest with
    | nil => rwa [String.intercalate_singleton]
    | cons next rest =>
      rw [String.intercalate_cons_cons, String.toList_append, String.toList_append]
      exact List.mem_append_left _ (List.mem_append_left _ hc)
  cases front with
  | nil => exact hlater
  | cons first front =>
    rw [String.intercalate_append_of_ne_nil (List.cons_ne_nil _ _) (List.cons_ne_nil _ _),
      String.toList_append]
    exact List.mem_append_right _ hlater

theorem HasNul.toText (h : p.HasNul) : '\x00' ∈ p.toText.toList := by
  obtain ⟨name, hn, hc⟩ := h
  have hp : p.root ≠ .none ∨ p.names ≠ [] := .inr (List.ne_nil_of_mem hn)
  rw [toText_eq hp, String.toList_append]
  exact List.mem_append_right _ (mem_intercalate hn hc)

/-- Where the last name of a path is not taken back, it is the last one of the full name too. -/
theorem lexicalNames_concat (names : List String) (h : name ≠ "..") :
    lexicalNames (names ++ [name]) = lexicalNames names ++ [name] := by
  rw [lexicalNames, List.foldl_append, List.foldl_cons, List.foldl_nil, if_neg h]
  rfl

theorem exists_join_names (cwd p : Path) : ∃ front, (cwd.join p).names = front ++ p.names := by
  unfold join
  split
  · exact ⟨[], rfl⟩
  · exact ⟨cwd.names, rfl⟩

/-- A path has a `NUL` only if its directory or its full name has one. -/
theorem HasNul.parent_or_lexical {cwd : Path} (h : p.HasNul) :
    p.parent.HasNul ∨ (lexical cwd p).HasNul := by
  obtain ⟨name, hn, hc⟩ := h
  obtain ⟨front, last, hnames⟩ : ∃ front last, p.names = front ++ [last] :=
    ⟨_, _, (List.dropLast_append_getLast (List.ne_nil_of_mem hn)).symm⟩
  rw [hnames] at hn
  rcases List.mem_append.1 hn with hn | hn
  · refine .inl ⟨name, ?_, hc⟩
    rwa [parent, hnames, List.dropLast_concat]
  · obtain rfl := List.mem_singleton.1 hn
    have hdown : name ≠ ".." := by
      rintro rfl
      exact absurd hc (by decide)
    obtain ⟨before, hjoin⟩ := exists_join_names cwd p
    refine .inr ⟨name, ?_, hc⟩
    rw [lexical, hjoin, hnames, ← List.append_assoc]
    dsimp only
    rw [lexicalNames_concat _ hdown]
    exact List.mem_append_right _ List.mem_cons_self

end Path

namespace Diagnostics

variable {c : Config} {h k : Host} {path : Path} {name : String}

def fullName (h : Host) (path : Path) : Path := Path.lexical (Path.ofPlace h.cwd) path

theorem host_makeDirectories (path : Path) (h : Host) : Host.makeDirectories path.parent h = .ok
    (makeDirectories h.cwd path.root path.parent.names.reverse h.files).2
    { h with files := (makeDirectories h.cwd path.root path.parent.names.reverse h.files).1 } := rfl

theorem endOf_openFile (path : Path) (h : Host) : endOf (openFile path h) =
    match makeDirectories h.cwd path.root path.parent.names.reverse h.files with
    | (files, some _) => { h with files := files }
    | (files, none) =>
      match files.touch h.cwd (fullName h path).toText with
      | .error _ => { h with files := files }
      | .ok files => { h with files := files, logFiles := h.logFiles ++ [fullName h path] } := by
  unfold openFile
  rw [bind_of_ok (host_makeDirectories path h)]
  cases makeDirectories h.cwd path.root path.parent.names.reverse h.files with
  | mk files failure =>
    cases failure with
    | some failure =>
      obtain ⟨e, p⟩ := failure
      cases e <;> rfl
    | none =>
      dsimp only
      rw [get_bind]
      dsimp only [fullName]
      cases files.touch h.cwd ((Path.ofPlace h.cwd).lexical path).toText with
      | ok files => rfl
      | error e => cases e <;> rfl

structure Written (h : Host) (path : Path) : Prop where
  directory : h.files.isDirectory? h.cwd path.parent.toText = .ok true
  file : ∃ place content executable,
    h.files.stat h.cwd (fullName h path).toText = .ok (place, .file content executable)

theorem makeDirectories_parent (hd : h.files.isDirectory? h.cwd path.parent.toText = .ok true) :
    makeDirectories h.cwd path.root path.parent.names.reverse h.files = (h.files, none) := by
  refine makeDirectories_of_isDirectory? ?_
  rw [List.reverse_reverse]
  exact hd

/-- What is there is opened, and nothing else is touched. -/
theorem Written.endOf_openFile (hw : Written h path) (hcwd : h.files.Reached h.cwd) :
    endOf (openFile path h) = { h with logFiles := h.logFiles ++ [fullName h path] } := by
  obtain ⟨place, content, executable, hfile⟩ := hw.file
  rw [Diagnostics.endOf_openFile, makeDirectories_parent hw.directory]
  dsimp only
  rw [touch_of_stat hcwd hfile]

/-- What comes of opening the file of a path: some directories, or one more open file. Where it does
not open, it does not open the next time either. -/
inductive Opening (path : Path) (h : Host) : Host → Prop
  | refused {files : FileTree} : h.files.Grows files → ¬ Written { h with files := files } path →
      endOf (openFile path { h with files := files }) = { h with files := files } →
      Opening path h { h with files := files }
  | opened {files : FileTree} : h.files.Grows files → Written { h with files := files } path →
      Opening path h { h with files := files, logFiles := h.logFiles ++ [fullName h path] }

theorem openFile_opening (hcwd : h.files.Reached h.cwd) (hnamed : path.Named) :
    Opening path h (endOf (openFile path h)) := by
  have hparent : Path.Named ⟨path.root, path.parent.names.reverse.reverse⟩ := by
    rw [List.reverse_reverse]
    exact hnamed.parent
  obtain ⟨hgrows, hmade⟩ :=
    makeDirectories_made h.cwd path.root path.parent.names.reverse h.files
  have hagain := makeDirectories_again hcwd hparent
  rw [List.reverse_reverse] at hmade
  rw [endOf_openFile]
  cases hm : makeDirectories h.cwd path.root path.parent.names.reverse h.files with
  | mk files failure =>
  rw [hm] at hgrows hmade hagain
  cases failure with
  | some failure =>
    obtain ⟨failure', hagain⟩ := hagain nofun
    refine .refused hgrows (fun hw => ?_) ?_
    · cases hagain.symm.trans (makeDirectories_parent hw.directory)
    · rw [endOf_openFile]
      dsimp only
      rw [hagain]
  | none =>
    dsimp only
    cases ht : files.touch h.cwd (fullName h path).toText with
    | error e =>
      refine .refused hgrows (fun hw => ?_) ?_
      · obtain ⟨place, content, executable, hfile⟩ := hw.file
        cases ht.symm.trans (touch_of_stat (hgrows.reached hcwd) hfile)
      · have hparent : makeDirectories h.cwd path.root path.parent.names.reverse files =
            (files, none) := @makeDirectories_parent { h with files := files } path (hmade rfl)
        rw [endOf_openFile]
        dsimp only
        rw [hparent]
        dsimp only
        rw [show fullName { h with files := files } path = fullName h path from rfl, ht]
    | ok opened =>
      obtain ⟨hg, hfile⟩ := touch_ok ht
      exact .opened (hgrows.trans hg) ⟨isDirectory?_grows (hmade rfl) hg, hfile⟩

def logPath? (c : Config) (h : Host) : Option Path :=
  match c.logFile.spelling? with
  | some name =>
    if name = "" ∨ Tilde.isUnnamablePath (Path.ofString name) then none
    else Tilde.expandPath? h.login h.accounts (Path.ofString name)
  | none => none

theorem named_logPath? (hp : logPath? c h = some path) : path.Named := by
  unfold logPath? at hp
  split at hp
  · split at hp
    · cases hp
    · exact Tilde.named_of_expandPath? (Path.named_ofString _) hp
  · cases hp

theorem endOf_addFile (name : String) (h : Host) : endOf (addFile name h) =
    if Tilde.isUnnamablePath (Path.ofString name) then h
    else match Tilde.expandPath? h.login h.accounts (Path.ofString name) with
    | none => h
    | some path =>
      match isOpen h path with
      | .ok false => endOf (openFile path h)
      | _ => h := by
  unfold addFile
  rw [get_bind]
  by_cases hname : Tilde.isUnnamablePath (Path.ofString name)
  · simp only [hname, if_true]
    rfl
  · simp only [hname]
    cases Tilde.expandPath? h.login h.accounts (Path.ofString name) with
    | none => rfl
    | some path =>
      dsimp only
      cases isOpen h path with
      | error f => rfl
      | ok present => cases present <;> rfl

/-- What a text cannot be told for leaves the machine where it is. -/
theorem endOf_untold (act : Act Host Unit) (h : Host) : endOf (untold act h) = endOf (act h) := by
  unfold untold
  cases act h with
  | ok => rfl
  | error f k =>
    split
    · next hf =>
      cases hf
      rfl
    · rfl

theorem endOf_setUp (c : Config) (h : Host) : endOf (setUp c h) =
    match thresholdOf c.logLevel with
    | .error _ => h
    | .ok threshold =>
      match logPath? c h with
      | none => { h with threshold := threshold }
      | some path =>
        match isOpen h path with
        | .ok false => endOf (openFile path { h with threshold := threshold })
        | _ => { h with threshold := threshold } := by
  unfold setUp
  cases thresholdOf c.logLevel with
  | error f => rfl
  | ok threshold =>
    rw [ofExcept_ok, pure_bind, modify_bind]
    dsimp only
    have hadd {name : String} (hname : name ≠ "") :
        endOf (addFile name { h with threshold := threshold }) =
          match if name = "" ∨ Tilde.isUnnamablePath (Path.ofString name) then none
            else Tilde.expandPath? h.login h.accounts (Path.ofString name) with
          | none => { h with threshold := threshold }
          | some path =>
            match isOpen h path with
            | .ok false => endOf (openFile path { h with threshold := threshold })
            | _ => { h with threshold := threshold } := by
      rw [endOf_addFile]
      by_cases hu : Tilde.isUnnamablePath (Path.ofString name)
      · rw [if_pos hu, if_pos (.inr hu)]
      · rw [if_neg hu, if_neg (not_or.2 ⟨hname, hu⟩)]
        rfl
    unfold logPath?
    cases c.logFile with
    | text name =>
      by_cases hname : name = ""
      · subst hname
        rfl
      · dsimp only [Value.spelling?]
        rw [if_pos hname]
        exact hadd hname
    | unpaired t =>
      dsimp only [Value.spelling?]
      split
      · exact hadd t.spelled_ne_empty
      · rw [endOf_untold]
        exact hadd t.spelled_ne_empty
    | bytes content =>
      dsimp only
      split <;> rfl
    | _ =>
      dsimp only
      split <;> rfl

theorem openFile_grows (path : Path) (h : Host) :
    h.files.Grows (endOf (openFile path h)).files := by
  have hmade := (makeDirectories_made h.cwd path.root path.parent.names.reverse h.files).1
  rw [endOf_openFile]
  cases hm : makeDirectories h.cwd path.root path.parent.names.reverse h.files with
  | mk files failure =>
  rw [hm] at hmade
  cases failure with
  | some failure => exact hmade
  | none =>
    dsimp only
    cases ht : files.touch h.cwd (fullName h path).toText with
    | error e => exact hmade
    | ok opened => exact hmade.trans (touch_ok ht).1

theorem setUp_grows (c : Config) (h : Host) : h.files.Grows (endOf (setUp c h)).files := by
  rw [endOf_setUp]
  cases thresholdOf c.logLevel with
  | error f => exact .refl _
  | ok threshold =>
  cases logPath? c h with
  | none => exact .refl _
  | some path =>
    dsimp only
    split
    · exact openFile_grows path { h with threshold := threshold }
    · exact .refl _

theorem files_setUp_of_pathless (hpath : logPath? c h = none) :
    (endOf (setUp c h)).files = h.files := by
  rw [endOf_setUp, hpath]
  cases thresholdOf c.logLevel <;> rfl

/-- Without a file that is still to be opened only the level is set. -/
theorem endOf_setUp_of_kept {threshold : Nat} (hlevel : thresholdOf c.logLevel = .ok threshold)
    (hkept : ∀ path, logPath? c h = some path → isOpen h path ≠ .ok false) :
    endOf (setUp c h) = { h with threshold := threshold } := by
  rw [endOf_setUp, hlevel]
  dsimp only
  cases hpath : logPath? c h with
  | none => rfl
  | some path =>
    dsimp only
    split
    · next hopen => exact absurd hopen (hkept path hpath)
    · rfl

theorem endOf_setUp_of_opening {threshold : Nat} (hlevel : thresholdOf c.logLevel = .ok threshold)
    (hpath : logPath? c h = some path) (hopen : isOpen h path = .ok false) :
    endOf (setUp c h) = endOf (openFile path { h with threshold := threshold }) := by
  rw [endOf_setUp, hlevel]
  dsimp only
  rw [hpath]
  dsimp only
  rw [hopen]

/-- The log is not known to be written to the file of a path: what is looked for is the place that the
path leads to, and no file was opened under the name of that place. -/
def Missed (h : Host) (path : Path) : Prop :=
  ∃ place, h.files.canonical? h.cwd path.toText = some place ∧ Path.ofPlace place ∉ h.logFiles

theorem isOpen_eq_false_iff (hopen : h.logFiles ≠ []) (hnul : '\x00' ∉ path.toText.toList) :
    isOpen h path = .ok false ↔ Missed h path := by
  have hsome : ¬ h.logFiles.isEmpty = true := by simpa using hopen
  have hplain : ¬ path.toText.toList.contains '\x00' = true := by simpa using hnul
  unfold isOpen Missed
  rw [if_neg hsome, if_neg hplain]
  dsimp only
  cases h.files.canonical? h.cwd path.toText with
  | none => exact ⟨nofun, fun ⟨_, hplace, _⟩ => nomatch hplace⟩
  | some place =>
    constructor
    · intro hfalse
      refine ⟨place, rfl, fun hmem => ?_⟩
      cases (List.contains_iff_mem.2 hmem).symm.trans (Except.ok.inj hfalse)
    · rintro ⟨_, hplace, hmem⟩
      cases hplace
      exact congrArg Except.ok (by simpa using hmem)

theorem Written.plain (hw : Written h path) : '\x00' ∉ path.toText.toList := by
  obtain ⟨directory, hd, -⟩ := find_of_isDirectory? hw.directory
  obtain ⟨place, content, executable, hf⟩ := hw.file
  intro hnul
  rcases (Path.hasNul_of_toText hnul).parent_or_lexical with hp | hl
  · exact (find_ok_iff.1 hd).1.plain hp.toText
  · exact (find_ok_iff.1 (stat_ok_iff.1 hf).1).1.plain hl.toText

/-- Why no file is opened for the log: the level is refused, there is no path, the path is open or
cannot be compared, or the file or its directory could not be made. -/
inductive Unopened (c : Config) (h k : Host) : Prop
  | level {f : Failure} : thresholdOf c.logLevel = .error f → Unopened c h k
  | pathless : logPath? c h = none → Unopened c h k
  | known {path : Path} : logPath? c h = some path → isOpen h path ≠ .ok false → Unopened c h k
  | refused {path : Path} : logPath? c h = some path → ¬ Written k path → Unopened c h k

/-- What comes of setting up the log: nothing that is not kept the next time, or one more file. -/
inductive SetsUp (c : Config) (h : Host) : Host → Prop
  | unopened {k : Host} : Unopened c h k → h.files.Grows k.files → k.cwd = h.cwd →
      k.logFiles = h.logFiles → endOf (setUp c k) = k → SetsUp c h k
  | opened {k : Host} {path : Path} : thresholdOf c.logLevel = .ok k.threshold →
      logPath? c h = some path → isOpen h path = .ok false → h.files.Grows k.files →
      Written k path →
      k = { h with
        threshold := k.threshold, files := k.files, logFiles := h.logFiles ++ [fullName h path] } →
      SetsUp c h k

theorem setUp_setsUp (c : Config) (hcwd : h.files.Reached h.cwd) :
    SetsUp c h (endOf (setUp c h)) := by
  cases hlevel : thresholdOf c.logLevel with
  | error f =>
    have hsame : endOf (setUp c h) = h := by rw [endOf_setUp, hlevel]
    rw [hsame]
    exact .unopened (.level hlevel) (.refl _) rfl rfl hsame
  | ok threshold =>
  by_cases hkept : ∀ path, logPath? c h = some path → isOpen h path ≠ .ok false
  · have hcause : Unopened c h { h with threshold := threshold } := by
      cases hpath : logPath? c h with
      | none => exact .pathless hpath
      | some path => exact .known hpath (hkept path hpath)
    rw [endOf_setUp_of_kept hlevel hkept]
    exact .unopened hcause (.refl _) rfl rfl
      (@endOf_setUp_of_kept c { h with threshold := threshold } _ hlevel hkept)
  · obtain ⟨path, hpath, hopen⟩ : ∃ path, logPath? c h = some path ∧ isOpen h path = .ok false := by
      simpa using hkept
    have hopening := openFile_opening (h := { h with threshold := threshold }) hcwd
      (named_logPath? hpath)
    rw [endOf_setUp_of_opening hlevel hpath hopen]
    generalize endOf (openFile path { h with threshold := threshold }) = k at hopening
    cases hopening with
    | opened hg hw => exact .opened hlevel hpath hopen hg ⟨hw.directory, hw.file⟩ rfl
    | @refused files hg hw hagain =>
      refine .unopened (.refused hpath hw) hg rfl rfl ?_
      -- the directories that were made may have made the path known, but it is not opened either way
      by_cases hopen' : isOpen { h with threshold := threshold, files := files } path = .ok false
      · rw [@endOf_setUp_of_opening c { h with threshold := threshold, files := files } path _ hlevel
          hpath hopen']
        exact hagain
      · refine endOf_setUp_of_kept hlevel fun path' hpath' => ?_
        cases hpath.symm.trans hpath'
        exact hopen'

end Diagnostics

end ShellHistory
