import ShellHistory.Diagnostics
import ShellHistory.Proofs.Act

/-! Setting up the log. A file that cannot be opened is let go, so what is left to fail is in the
settings themselves: a level that names something else, a file that is no text or has no path.
Nothing is printed and no process is started on the way. -/

namespace ShellHistory

open Act

namespace Path

/-- A path with a `NUL` in one of its names. No file has such a path. -/
def HasNul (p : Path) : Prop := ∃ name ∈ p.names, '\x00' ∈ name.toList

theorem nul_mem_intercalate {names : List String}
    (h : '\x00' ∈ (String.intercalate "/" names).toList) : ∃ name ∈ names, '\x00' ∈ name.toList := by
  induction names with
  | nil => simp at h
  | cons name rest ih =>
    cases rest with
    | nil => exact ⟨name, List.mem_cons_self, by simpa using h⟩
    | cons next rest =>
      rw [String.intercalate_cons_cons, String.toList_append, String.toList_append,
        List.mem_append, List.mem_append] at h
      rcases h with (h | h) | h
      · exact ⟨name, List.mem_cons_self, h⟩
      · exact absurd h (by decide)
      · obtain ⟨name', hm, hn⟩ := ih h
        exact ⟨name', List.mem_cons_of_mem name hm, hn⟩

theorem hasNul_of_toText {p : Path} (h : '\x00' ∈ p.toText.toList) : p.HasNul := by
  obtain ⟨root, names⟩ := p
  have htext : '\x00' ∈ (rootText root ++ String.intercalate "/" names).toList := by
    unfold toText at h
    split at h
    · exact absurd h (by decide)
    · exact h
  rw [String.toList_append, List.mem_append] at htext
  rcases htext with hroot | hnames
  · cases root <;> exact absurd hroot (by decide)
  · exact nul_mem_intercalate hnames

/-- Taking back names against each `..` brings in no new ones. -/
theorem mem_of_mem_lexical {name : String} (names done : List String)
    (h : name ∈ names.foldl (fun done name =>
      if name = ".." then done.dropLast else done ++ [name]) done) : name ∈ done ∨ name ∈ names := by
  induction names generalizing done with
  | nil => exact .inl h
  | cons first rest ih =>
    rw [List.foldl_cons] at h
    rcases ih _ h with h | h
    · split at h
      · exact .inl ((List.dropLast_sublist _).subset h)
      · rcases List.mem_append.1 h with h | h
        · exact .inl h
        · exact .inr (List.mem_singleton.1 h ▸ List.mem_cons_self)
    · exact .inr (List.mem_cons_of_mem first h)

theorem hasNul_of_lexical {cwd p : Path} (h : (lexical cwd p).HasNul) : cwd.HasNul ∨ p.HasNul := by
  obtain ⟨name, hm, hn⟩ := h
  have hjoin : name ∈ (cwd.join p).names := by
    rcases mem_of_mem_lexical (cwd.join p).names [] hm with h | h
    · exact absurd h List.not_mem_nil
    · exact h
  unfold join at hjoin
  split at hjoin
  · exact .inr ⟨name, hjoin, hn⟩
  · rcases List.mem_append.1 hjoin with h | h
    · exact .inl ⟨name, h, hn⟩
    · exact .inr ⟨name, h, hn⟩

theorem hasNul_of_parent {p : Path} (h : p.parent.HasNul) : p.HasNul := by
  obtain ⟨name, hm, hn⟩ := h
  exact ⟨name, (List.dropLast_sublist _).subset hm, hn⟩

end Path

namespace FileTree

theorem walk_ne_badName (t : FileTree) (aim : Aim) (links : Nat) (here : Place)
    (names : List String) : t.walk aim links here names ≠ .error .badName := by
  fun_induction walk t aim links here names <;> simp_all

variable {t : FileTree} {cwd : Place} {path : String}

theorem find_badName {aim : Aim} (h : t.find cwd path aim = .error .badName) :
    '\x00' ∈ path.toList := by
  unfold find at h
  split at h
  · next hnul => simpa using hnul
  · split at h
    · cases h
    · split at h
      · cases h
      · exact absurd h (walk_ne_badName t aim _ _ _)

theorem touch_badName (h : t.touch cwd path = .error .badName) : '\x00' ∈ path.toList := by
  unfold touch at h
  cases hf : t.find cwd path .opening with
  | error e =>
    rw [hf] at h
    cases h
    exact find_badName hf
  | ok spot =>
    rw [hf] at h
    cases spot with
    | free place => cases h
    | taken place =>
      dsimp only [bind, Except.bind] at h
      split at h <;> cases h

theorem makeDirectory_badName (h : t.makeDirectory cwd path = .error .badName) :
    '\x00' ∈ path.toList := by
  unfold makeDirectory at h
  cases hf : t.find cwd path .entry with
  | error e =>
    rw [hf] at h
    cases h
    exact find_badName hf
  | ok spot =>
    rw [hf] at h
    cases spot <;> cases h

theorem isDirectory?_ne_badName : t.isDirectory? cwd path ≠ .error .badName := by
  intro h
  unfold isDirectory? at h
  split at h
  · cases h
  · split at h
    · cases h
    · next habsence =>
      cases h
      exact habsence rfl

def obstacle (t : FileTree) (cwd : Place) (path : String) (e : FileError) :
    Option (FileError × String) :=
  match e, t.isDirectory? cwd path with
  | .badName, _ | _, .ok false => some (e, path)
  | _, .ok true => none
  | _, .error e => some (e, path)

theorem eq_badName_of_obstacle {e : FileError} {p : String}
    (h : t.obstacle cwd path e = some (.badName, p)) : e = .badName := by
  unfold obstacle at h
  split at h
  · rfl
  · cases h
    rfl
  · cases h
  · next hd =>
    cases h
    exact absurd hd isDirectory?_ne_badName

theorem makeDirectories_badName {root : Root} {reversed : List String} {p : String}
    (h : (makeDirectories cwd root reversed t).2 = some (.badName, p)) :
    Path.HasNul ⟨root, reversed.reverse⟩ := by
  fun_induction makeDirectories cwd root reversed t with
  | case1 => cases h
  | case2 t name above u failure hx path hm ih =>
    obtain ⟨name', hmem, hn⟩ := ih (by rw [hx]; exact h)
    refine ⟨name', ?_, hn⟩
    rw [List.reverse_cons]
    exact List.mem_append_left [name] hmem
  | case3 => cases h
  | case4 => cases h
  | case5 t name above u hx e hn path accept hm hm' ih =>
    cases eq_badName_of_obstacle h
    exact Path.hasNul_of_toText (makeDirectory_badName hm')
  | case6 => cases h
  | case7 reversed t path accept e hm =>
    cases eq_badName_of_obstacle h
    exact Path.hasNul_of_toText (makeDirectory_badName hm)

end FileTree

structure Host.Logged (h h' : Host) : Prop where
  eq : ∃ threshold files logFiles,
    h' = { h with threshold := threshold, files := files, logFiles := logFiles }

theorem Host.Logged.refl (h : Host) : h.Logged h := ⟨_, _, _, rfl⟩

namespace Diagnostics

/-- What the log cannot be set up with. -/
inductive Flaw (c : Config) (h : Host) : Failure → Prop
  | levelText : capitals c.logLevel.toText = "BASIC_FORMAT" →
      Flaw c h (.levelText "%(levelname)s:%(name)s:%(message)s")
  | levelKind : capitals c.logLevel.toText = "_STYLES" → Flaw c h .levelKind
  | longNumber : c.logLevel.hasLongNumber = true → Flaw c h .longNumber
  | bytes {content : List UInt8} : c.logFile = .bytes content → content ≠ [] → Flaw c h .bytesPath
  | unnamable {name p : String} : c.logFile.spelling? = some name →
      Tilde.isUnnamablePath (Path.ofString name) = true → Flaw c h (.file .badName p)
  | homeless {name : String} : c.logFile.spelling? = some name →
      Tilde.expandPath? h.login h.accounts (Path.ofString name) = none → Flaw c h .homeless
  | nul {name p : String} {path : Path} : c.logFile.spelling? = some name →
      Tilde.expandPath? h.login h.accounts (Path.ofString name) = some path →
      path.HasNul ∨ (Path.ofPlace h.cwd).HasNul → Flaw c h (.file .badName p)
  | circle {name : String} {path : Path} : c.logFile.spelling? = some name →
      Tilde.expandPath? h.login h.accounts (Path.ofString name) = some path →
      h.logFiles ≠ [] → h.files.canonical? h.cwd path.toText = none →
      Flaw c h (.linkCircle path.toText)
  /-- The name holds half of a surrogate pair that stands for no byte. -/
  | untold {t : Text.Unpaired} : c.logFile = .unpaired t → t.isTold = false → Flaw c h .encoding
  | notText : c.logFile.isSet = true → c.logFile.spelling? = none →
      Flaw c h (.notText c.logFile.kind)

/-- The file of the log is opened or let go, unless it can have no path. -/
inductive Opened (path : Path) (h : Host) : EStateM.Result Failure Host Unit → Prop
  | done {h' : Host} : h.Logged h' → Opened path h (.ok () h')
  | refused {p : String} {h' : Host} : h.Logged h' → path.HasNul ∨ (Path.ofPlace h.cwd).HasNul →
      Opened path h (.error (.file .badName p) h')

theorem openFile_opened (path : Path) (h : Host) : Opened path h (openFile path h) := by
  unfold openFile
  have hmake : Host.makeDirectories path.parent h = .ok
      (FileTree.makeDirectories h.cwd path.root path.parent.names.reverse h.files).2
      { h with files := (FileTree.makeDirectories h.cwd path.root path.parent.names.reverse
        h.files).1 } := rfl
  rw [bind_of_ok hmake]
  -- of all that can be in the way, only a NUL is not let go
  cases hf : (FileTree.makeDirectories h.cwd path.root path.parent.names.reverse h.files).2 with
  | some failure =>
    obtain ⟨e, p⟩ := failure
    by_cases he : e = .badName
    · subst he
      have hnul := FileTree.makeDirectories_badName hf
      rw [List.reverse_reverse] at hnul
      exact .refused ⟨_, _, _, rfl⟩ (.inl (Path.hasNul_of_parent hnul))
    · cases e with
      | badName => exact absurd rfl he
      | _ => exact .done ⟨_, _, _, rfl⟩
  | none =>
    dsimp only
    rw [get_bind]
    dsimp only
    cases ht : (FileTree.makeDirectories h.cwd path.root path.parent.names.reverse h.files).1.touch
      h.cwd ((Path.ofPlace h.cwd).lexical path).toText with
    | ok files => exact .done ⟨_, _, _, rfl⟩
    | error e =>
      cases e with
      | badName =>
        have hnul := Path.hasNul_of_lexical (Path.hasNul_of_toText (FileTree.touch_badName ht))
        exact .refused ⟨_, _, _, rfl⟩ hnul.symm
      | _ => exact .done ⟨_, _, _, rfl⟩

theorem isOpen_error {c : Config} {h : Host} {threshold : Nat} {name : String} {path : Path}
    {f : Failure} (hfile : c.logFile.spelling? = some name)
    (hpath : Tilde.expandPath? h.login h.accounts (Path.ofString name) = some path)
    (hf : isOpen { h with threshold := threshold } path = .error f) : Flaw c h f := by
  unfold isOpen at hf
  by_cases hempty : h.logFiles.isEmpty
  · simp only [hempty, if_true] at hf
    cases hf
  have hfiles : h.logFiles ≠ [] := fun he => hempty (by rw [he]; rfl)
  by_cases hnul : path.toText.toList.contains '\x00'
  · simp only [hempty, hnul] at hf
    cases hf
    exact .nul hfile hpath (.inl (Path.hasNul_of_toText (by simpa using hnul)))
  · simp only [hempty, hnul] at hf
    cases hcanonical : h.files.canonical? h.cwd path.toText with
    | none =>
      simp only [hcanonical] at hf
      cases hf
      exact .circle hfile hpath hfiles hcanonical
    | some place =>
      simp only [hcanonical] at hf
      cases hf

inductive Prepared (c : Config) (h : Host) : EStateM.Result Failure Host Unit → Prop
  | done {h' : Host} : h.Logged h' → Prepared c h (.ok () h')
  | refused {f : Failure} {h' : Host} : h.Logged h' → Flaw c h f → Prepared c h (.error f h')

theorem addFile_prepared {c : Config} {name : String} (hfile : c.logFile.spelling? = some name)
    (h : Host) (threshold : Nat) :
    Prepared c h (addFile name { h with threshold := threshold }) := by
  unfold addFile
  rw [get_bind]
  by_cases hname : Tilde.isUnnamablePath (Path.ofString name)
  · simp only [hname, if_true]
    exact .refused ⟨_, _, _, rfl⟩ (.unnamable hfile hname)
  simp only [hname]
  cases hpath : Tilde.expandPath? h.login h.accounts (Path.ofString name) with
  | none => exact .refused ⟨_, _, _, rfl⟩ (.homeless hfile hpath)
  | some path =>
    dsimp only
    cases hopen : isOpen { h with threshold := threshold } path with
    | error f => exact .refused ⟨_, _, _, rfl⟩ (isOpen_error hfile hpath hopen)
    | ok present =>
      rw [ofExcept_ok, pure_bind]
      cases present with
      | true => exact .done ⟨_, _, _, rfl⟩
      | false =>
        have hopened := openFile_opened path { h with threshold := threshold }
        change Prepared c h (openFile path { h with threshold := threshold })
        generalize openFile path { h with threshold := threshold } = x at hopened ⊢
        cases hopened with
        | done hl =>
          obtain ⟨_, _, _, rfl⟩ := hl.eq
          exact .done ⟨_, _, _, rfl⟩
        | refused hl hnul =>
          obtain ⟨_, _, _, rfl⟩ := hl.eq
          exact .refused ⟨_, _, _, rfl⟩ (.nul hfile hpath hnul)

theorem Prepared.untold {c : Config} {h h₁ : Host} {t : Text.Unpaired} {act : Act Host Unit}
    (hp : Prepared c h (act h₁)) (hfile : c.logFile = .unpaired t) (ht : t.isTold = false) :
    Prepared c h (Diagnostics.untold act h₁) := by
  unfold Diagnostics.untold
  generalize act h₁ = x at hp ⊢
  split
  · cases hp with
    | refused hl _ => exact .refused hl (.untold hfile ht)
  · exact hp

theorem setUp_prepared (c : Config) (h : Host) : Prepared c h (setUp c h) := by
  unfold setUp
  cases hlevel : thresholdOf c.logLevel with
  | error f =>
    refine .refused (.refl h) ?_
    unfold thresholdOf at hlevel
    split at hlevel
    · next hlong =>
      cases hlevel
      exact .longNumber hlong
    split at hlevel
    · next hc =>
      cases hlevel
      exact .levelText hc
    · next hc =>
      cases hlevel
      exact .levelKind hc
    · cases hlevel
  | ok threshold =>
  rw [ofExcept_ok, pure_bind, modify_bind]
  have hother (hv : c.logFile.spelling? = none) :
      Prepared c h ((if c.logFile.isSet then throw (.notText c.logFile.kind) else pure () :
        Act Host Unit) { h with threshold := threshold }) := by
    by_cases hset : c.logFile.isSet
    · rw [if_pos hset]
      exact .refused ⟨_, _, _, rfl⟩ (.notText hset hv)
    · rw [if_neg hset]
      exact .done ⟨_, _, _, rfl⟩
  cases hfile : c.logFile with
  | text name =>
    by_cases hname : name = ""
    · subst hname
      exact .done ⟨_, _, _, rfl⟩
    · dsimp only
      rw [if_pos hname]
      exact addFile_prepared (by rw [hfile]; rfl) h threshold
  | unpaired t =>
    have hprepared := addFile_prepared (c := c) (by rw [hfile]; rfl) h threshold
    cases ht : t.isTold with
    | true =>
      simp only [ht, if_true]
      exact hprepared
    | false =>
      simp only [ht]
      exact hprepared.untold hfile ht
  | bytes content =>
    by_cases hc : content = []
    · subst hc
      exact .done ⟨_, _, _, rfl⟩
    · dsimp only
      rw [if_pos hc]
      exact .refused ⟨_, _, _, rfl⟩ (.bytes hfile hc)
  | _ =>
    rw [hfile] at hother
    exact hother rfl

end Diagnostics

end ShellHistory
