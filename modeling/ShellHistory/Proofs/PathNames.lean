import ShellHistory.FileTree
import ShellHistory.Tilde
import ShellHistory.Proofs.Numerals
import ShellHistory.Proofs.Rows

/-! Paths and their texts. The text of a path asks for the names of the path again, as long as these
are names: not empty, and without a slash. The text of the path above it is its beginning. -/

namespace ShellHistory

namespace Text

/-- A delimiter keeps what stands before it and what stands behind it apart. -/
theorem fields_append (d : Char) (s t : List Char) :
    fields d (s ++ d :: t) = fields d s ++ fields d t := by
  induction s with
  | nil =>
    rw [List.nil_append]
    exact if_pos rfl
  | cons c s ih =>
    rw [List.cons_append, fields, fields, ih]
    by_cases hc : c = d
    · rw [if_pos hc, if_pos hc, List.cons_append]
    · rw [if_neg hc, if_neg hc]
      cases hs : fields d s with
      | nil =>
        have hlength := length_fields d s
        rw [hs] at hlength
        cases hlength
      | cons piece more => rfl

end Text

/-- A name of a path: it stands between slashes and is not left out. -/
structure IsName (name : String) : Prop where
  nonempty : name ≠ ""
  unslashed : '/' ∉ name.toList
  undotted : name ≠ "."

/-- A place with nothing but names, and without `..`. -/
def Proper (place : Place) : Prop := ∀ name ∈ place, IsName name ∧ name ≠ ".."

namespace Path

variable {names : List String} {root : Root} {p : Path}

def Named (p : Path) : Prop := ∀ name ∈ p.names, IsName name

theorem named_name {name : String} (h : IsName name) : Named ⟨.none, [name]⟩ := fun other ho => by
  rwa [List.mem_singleton.1 ho]

theorem of_mem_namesOf {name : String} {s : List Char} (h : name ∈ namesOf s) :
    name ≠ "" ∧ '/' ∉ name.toList := by
  obtain ⟨piece, hp, rfl⟩ := List.mem_map.1 h
  obtain ⟨hfield, hne⟩ := List.mem_filter.1 hp
  refine ⟨fun he => ?_, ?_⟩
  · rw [← String.toList_inj, String.toList_ofList] at he
    exact absurd he (by simpa using hne)
  · rw [String.toList_ofList]
    exact Text.notMem_of_mem_fields hfield

theorem named_ofString (s : String) : (ofString s).Named := by
  intro name h
  obtain ⟨hname, hdot⟩ := List.mem_filter.1 h
  obtain ⟨hne, hslash⟩ := of_mem_namesOf hname
  exact ⟨hne, hslash, by simpa using hdot⟩

theorem Named.parent (h : p.Named) : p.parent.Named := fun name hn =>
  h name ((List.dropLast_sublist _).subset hn)

theorem Named.join {q : Path} (hp : p.Named) (hq : q.Named) : (p.join q).Named := by
  unfold Path.join
  split
  · exact hq
  · exact fun name hn => (List.mem_append.1 hn).elim (hp name) (hq name)

theorem root_join (h : p.root ≠ .none) (q : Path) : (p.join q).root ≠ .none := by
  unfold join
  split
  · next habsolute => simpa [isAbsolute] using habsolute
  · exact h

/-- A slash keeps the names before it and the names behind it apart. -/
theorem namesOf_append (s t : List Char) : namesOf (s ++ '/' :: t) = namesOf s ++ namesOf t := by
  rw [namesOf, Text.fields_append, List.filter_append, List.map_append]
  rfl

theorem namesOf_slash (s : List Char) : namesOf ('/' :: s) = namesOf s := namesOf_append [] s

theorem namesOf_name {name : String} (h : IsName name) : namesOf name.toList = [name] := by
  have hne : name.toList ≠ [] := fun he => h.nonempty (String.toList_inj.1 he)
  rw [namesOf, Text.fields_of_not_mem h.unslashed, List.filter_cons_of_pos (by simpa using hne)]
  simp

theorem namesOf_cons {name : String} (h : IsName name) (s : List Char) :
    namesOf (name.toList ++ '/' :: s) = name :: namesOf s := by
  rw [namesOf_append, namesOf_name h, List.singleton_append]

theorem namesOf_intercalate (h : ∀ name ∈ names, IsName name) :
    namesOf (String.intercalate "/" names).toList = names := by
  induction names with
  | nil => rfl
  | cons name rest ih =>
    obtain ⟨hname, hrest⟩ := List.forall_mem_cons.1 h
    cases rest with
    | nil => rw [String.intercalate_singleton, namesOf_name hname]
    | cons next rest =>
      rw [String.intercalate_cons_cons, String.append_assoc, String.toList_append,
        String.toList_append]
      exact (namesOf_cons hname _).trans (congrArg (name :: ·) (ih hrest))

theorem head?_intercalate (h : ∀ name ∈ names, IsName name) :
    (String.intercalate "/" names).toList.head? ≠ some '/' := by
  cases names with
  | nil => nofun
  | cons name rest =>
    obtain ⟨hname, -⟩ := List.forall_mem_cons.1 h
    obtain ⟨more, hmore⟩ : ∃ more, String.intercalate "/" (name :: rest) = name ++ more := by
      cases rest with
      | nil => exact ⟨"", by simp⟩
      | cons next rest => exact ⟨_, by rw [String.intercalate_cons_cons, String.append_assoc]⟩
    have hne : name.toList ≠ [] := fun he => hname.nonempty (String.toList_inj.1 he)
    rw [hmore, String.toList_append, List.head?_append_of_ne_nil _ hne]
    exact fun hslash => hname.unslashed (List.mem_of_head? hslash)

theorem getLast?_intercalate (h : ∀ name ∈ names, IsName name) :
    (String.intercalate "/" names).toList.getLast? ≠ some '/' := by
  induction names with
  | nil => nofun
  | cons name rest ih =>
    obtain ⟨hname, hrest⟩ := List.forall_mem_cons.1 h
    cases rest with
    | nil =>
      rw [String.intercalate_singleton]
      exact fun hl => hname.unslashed (List.mem_of_getLast? hl)
    | cons next rest =>
      have hne : (String.intercalate "/" (next :: rest)).toList ≠ [] := by
        intro he
        have hnames := namesOf_intercalate hrest
        rw [he] at hnames
        cases hnames
      rw [String.intercalate_cons_cons, String.toList_append, List.getLast?_append_of_ne_nil _ hne]
      exact ih hrest

theorem lexicalNames_of_down (h : ".." ∉ names) : lexicalNames names = names := by
  have hfold (done : List String) : names.foldl (fun done name =>
      if name = ".." then done.dropLast else done ++ [name]) done = done ++ names := by
    induction names generalizing done with
    | nil => simp
    | cons name rest ih =>
      obtain ⟨hname, hrest⟩ := not_or.1 fun hm => h (List.mem_cons.2 hm)
      rw [List.foldl_cons, if_neg (Ne.symm hname), ih hrest, List.append_assoc,
        List.singleton_append]
  exact hfold []

theorem toText_eq (h : root ≠ .none ∨ names ≠ []) :
    toText ⟨root, names⟩ = rootText root ++ String.intercalate "/" names := by
  unfold toText
  split
  · next hr hn => exact absurd h (by simp_all)
  · rfl

theorem toText_name (name : String) : toText ⟨.none, [name]⟩ = name := by
  rw [toText_eq (.inr (List.cons_ne_nil _ _)), rootText, String.empty_append,
    String.intercalate_singleton]

theorem head?_toText (h : p.Named) : p.toText.toList.head? = some '/' ↔ p.root ≠ .none := by
  obtain ⟨root, names⟩ := p
  cases root with
  | none =>
    refine iff_of_false ?_ (not_not_intro rfl)
    cases names with
    | nil => decide
    | cons name rest =>
      rw [toText_eq (.inr (List.cons_ne_nil _ _)), rootText, String.empty_append]
      exact head?_intercalate h
  | one =>
    refine iff_of_true ?_ nofun
    rw [@toText_eq names .one (.inl nofun), String.toList_append]
    rfl
  | two =>
    refine iff_of_true ?_ nofun
    rw [@toText_eq names .two (.inl nofun), String.toList_append]
    rfl

theorem namesOf_toText (h : Named ⟨root, names⟩) (hp : root ≠ .none ∨ names ≠ []) :
    namesOf (toText ⟨root, names⟩).toList = names := by
  rw [toText_eq hp, String.toList_append]
  cases root with
  | none => exact namesOf_intercalate h
  | one => exact (namesOf_slash _).trans (namesOf_intercalate h)
  | two => exact (namesOf_slash _).trans ((namesOf_slash _).trans (namesOf_intercalate h))

theorem rootOf_append {s : List Char} (hs : s.head? ≠ some '/') (root : Root) :
    rootOf ((rootText root).toList ++ s) = root := by
  have hspan : s.takeWhile (· = '/') = [] := by
    cases s with
    | nil => rfl
    | cons c s => exact List.takeWhile_cons_of_neg (by simpa using hs)
  cases root with
  | none =>
    rw [rootOf, show (rootText .none).toList = [] from rfl, List.nil_append, hspan]
    rfl
  | one =>
    rw [rootOf, show (rootText .one).toList = ['/'] from rfl, List.singleton_append,
      List.takeWhile_cons_of_pos (by decide), hspan]
    rfl
  | two =>
    rw [rootOf, show (rootText .two).toList = ['/', '/'] from rfl, List.cons_append,
      List.singleton_append, List.takeWhile_cons_of_pos (by decide),
      List.takeWhile_cons_of_pos (by decide), hspan]
    rfl

/-- The text of a path is read as the path. -/
theorem ofString_toText (h : p.Named) : ofString p.toText = p := by
  obtain ⟨root, names⟩ := p
  by_cases hp : root ≠ .none ∨ names ≠ []
  · have hroot : rootOf (toText ⟨root, names⟩).toList = root := by
      rw [toText_eq hp, String.toList_append]
      exact rootOf_append (head?_intercalate h) root
    have hnames : names.filter (· ≠ ".") = names :=
      List.filter_eq_self.2 fun name hn => by simpa using (h name hn).undotted
    rw [ofString, hroot, namesOf_toText h hp, hnames]
  · obtain ⟨rfl, rfl⟩ : root = .none ∧ names = [] := by simpa using hp
    decide

/-- The text of a path has the text of the path above it in front. -/
theorem exists_toText_concat (h : root ≠ .none ∨ names ≠ []) (name : String) :
    ∃ more, toText ⟨root, names ++ [name]⟩ = toText ⟨root, names⟩ ++ more := by
  rw [toText_eq h, toText_eq (.inr (by simp))]
  by_cases hn : names = []
  · subst hn
    exact ⟨name, by simp⟩
  · refine ⟨"/" ++ name, ?_⟩
    rw [String.intercalate_append_of_ne_nil hn (by simp), String.intercalate_singleton]
    simp [String.append_assoc]

end Path

namespace FileTree

variable {names : List String} {root : Root} {cwd : Place}

theorem unslashed_of_mem_steps {name s : String} (h : name ∈ steps s) : '/' ∉ name.toList := by
  unfold steps at h
  dsimp only at h
  split at h
  · rcases List.mem_append.1 h with h | h
    · exact (Path.of_mem_namesOf h).2
    · rw [List.mem_singleton.1 h]
      exact List.not_mem_nil
  · exact (Path.of_mem_namesOf h).2

theorem not_stays {name : String} (h : IsName name) : ¬ stays name = true := by
  simp [stays, h.nonempty, h.undotted]

theorem steps_toText (h : Path.Named ⟨root, names⟩) (hp : root ≠ .none ∨ names ≠ []) :
    steps (Path.toText ⟨root, names⟩) = names := by
  unfold steps
  dsimp only
  rw [Path.namesOf_toText h hp]
  refine if_neg fun hlast => ?_
  have hne : (String.intercalate "/" names).toList ≠ [] := by
    intro he
    have hempty := Path.namesOf_intercalate h
    rw [he] at hempty
    exact hlast.1 hempty.symm
  rw [Path.toText_eq hp, String.toList_append, List.getLast?_append_of_ne_nil _ hne] at hlast
  exact Path.getLast?_intercalate h hlast.2

theorem toText_ne_empty (h : Path.Named ⟨root, names⟩) : Path.toText ⟨root, names⟩ ≠ "" := by
  intro he
  cases root with
  | none =>
    cases names with
    | nil => exact absurd he (by decide)
    | cons name rest =>
      have hsteps := steps_toText h (.inr (List.cons_ne_nil _ _))
      rw [he] at hsteps
      cases hsteps
  | one | two =>
    rw [Path.toText_eq (.inl (by decide)), ← String.toList_inj, String.toList_append] at he
    cases he

theorem startOf_toText (h : Path.Named ⟨root, names⟩) :
    startOf (Path.toText ⟨root, names⟩) cwd = if root = .none then cwd else [] := by
  unfold startOf
  by_cases hroot : root = .none
  · rw [if_neg fun hslash => (Path.head?_toText h).1 hslash hroot, if_pos hroot]
  · rw [if_pos ((Path.head?_toText h).2 hroot), if_neg hroot]

end FileTree

namespace Tilde

theorem named_of_expandPath? {login : Environment} {accounts : Accounts} {p q : Path}
    (hp : p.Named) (h : expandPath? login accounts p = some q) : q.Named := by
  unfold expandPath? at h
  split at h
  · next name rest hroot hnames =>
    split at h
    · dsimp only at h
      split at h
      · cases h
      · cases h
        intro n hn
        rcases List.mem_append.1 hn with hn | hn
        · exact Path.named_ofString _ n hn
        · exact hp n (hnames ▸ List.mem_cons_of_mem name hn)
    · cases h
      exact hp
  · cases h
    exact hp

end Tilde

end ShellHistory
