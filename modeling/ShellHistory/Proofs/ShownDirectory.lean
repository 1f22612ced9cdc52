import Mathlib.Data.List.Induction
import ShellHistory.Proofs.Growth
import ShellHistory.Proofs.Survival
import ShellHistory.Proofs.WorkingDirectory

/-! The directory in the prompt. It is shown by its path, shortened by the home if the home is the
directory or one of those above it. What is shown tells directories apart, and read as a path it is
the directory again, unless the home is the root: the root is the one path whose text ends in a
slash, and the slash is cut off together with it. -/

namespace ShellHistory

open Act Host FileTree

namespace Text

variable {sep : Char → Bool} {word tail : List Char}

theorem runs_cons {c : Char} (hc : sep c = false) (s : List Char) : runs sep (c :: s) =
    match s, runs sep s with
    | d :: _, word :: more => if sep d then [c] :: word :: more else (c :: word) :: more
    | _, more => [c] :: more := by
  rw [runs.eq_def]
  exact if_neg (by simp [hc])

theorem runs_append (hne : word ≠ []) (hword : ∀ c ∈ word, sep c = false)
    (htail : ∀ c, tail.head? = some c → sep c = true) :
    runs sep (word ++ tail) = word :: runs sep tail := by
  induction word with
  | nil => exact absurd rfl hne
  | cons c word ih =>
    obtain ⟨hc, hword⟩ := List.forall_mem_cons.1 hword
    cases word with
    | nil =>
      rw [List.singleton_append, runs_cons hc]
      cases tail with
      | nil => rfl
      | cons d tail =>
        cases runs sep (d :: tail) with
        | nil => rfl
        | cons next more => exact if_pos (htail d rfl)
    | cons d word =>
      rw [List.cons_append, runs_cons hc, ih (List.cons_ne_nil _ _) hword]
      exact if_neg (by simp [hword d List.mem_cons_self])

theorem unblanked_of_all {s : String} (h : s.toList.all (!isBlank ·) = true) :
    ∀ c ∈ s.toList, isBlank c = false := by
  simpa using h

theorem words_pair {command argument : String} (hc : command ≠ "") (ha : argument ≠ "")
    (hcommand : ∀ c ∈ command.toList, isBlank c = false)
    (hargument : ∀ c ∈ argument.toList, isBlank c = false) :
    words (command ++ " " ++ argument) = [command, argument] := by
  have hne {s : String} (hs : s ≠ "") : s.toList ≠ [] := fun he => hs (String.toList_inj.1 he)
  have hfirst : runs isBlank (command.toList ++ ' ' :: argument.toList) =
      command.toList :: runs isBlank (' ' :: argument.toList) :=
    runs_append (hne hc) hcommand (by rintro _ ⟨⟩; decide)
  have hlast : runs isBlank (argument.toList ++ []) = argument.toList :: runs isBlank [] :=
    runs_append (hne ha) hargument nofun
  rw [List.append_nil] at hlast
  have hblank : runs isBlank (' ' :: argument.toList) = runs isBlank argument.toList := by
    rw [runs.eq_def]
    exact if_pos (by decide)
  rw [words, String.toList_append, String.toList_append, List.append_assoc]
  change (runs isBlank (command.toList ++ ' ' :: argument.toList)).map String.ofList = _
  rw [hfirst, hblank, hlast]
  simp [runs]

/-- Where something is left, the last of it is of another kind. -/
theorem exists_mem_dropEndWhile {p : Char → Bool} {s : List Char} (h : dropEndWhile p s ≠ []) :
    ∃ c ∈ dropEndWhile p s, p c = false := by
  have hlast := List.head?_dropWhile_not p s.reverse
  unfold dropEndWhile at h ⊢
  cases hd : s.reverse.dropWhile p with
  | nil =>
    rw [hd] at h
    exact absurd rfl h
  | cons c rest =>
    rw [hd] at hlast
    exact ⟨c, by simp, hlast⟩

end Text

namespace Path

variable {home p q rest : Path} {s : String}

theorem takeWhile_intercalate {name : String} (names : List String) (h : '/' ∉ name.toList) :
    (String.intercalate "/" (name :: names)).toList.takeWhile (· ≠ '/') = name.toList := by
  have hname : ∀ c ∈ name.toList, decide (c ≠ '/') = true := fun c hc =>
    decide_eq_true fun he => h (he ▸ hc)
  cases names with
  | nil => rw [String.intercalate_singleton, List.takeWhile_eq_self_iff.2 hname]
  | cons next names =>
    rw [String.intercalate_cons_cons, String.append_assoc, String.toList_append,
      List.takeWhile_append_of_pos hname, String.toList_append]
    exact (congrArg (name.toList ++ ·) (List.takeWhile_cons_of_neg (by decide))).trans
      (List.append_nil _)

theorem rootOf_append_of_mem {s : List Char} (h : ∃ c ∈ s, c ≠ '/') (t : List Char) :
    rootOf (s ++ t) = rootOf s := by
  have hspan : (s ++ t).takeWhile (· = '/') = s.takeWhile (· = '/') := by
    rw [List.takeWhile_append]
    refine if_neg fun hlength => ?_
    obtain ⟨c, hc, hslash⟩ := h
    have hall : s.takeWhile (· = '/') = s := (List.takeWhile_prefix _).eq_of_length hlength
    exact hslash (by simpa using List.takeWhile_eq_self_iff.1 hall c hc)
  rw [rootOf, hspan]
  rfl

theorem ofString_slash (h : ∃ c ∈ s.toList, c ≠ '/') (t : String) : ofString (s ++ "/" ++ t) =
    ⟨(ofString s).root, (ofString s).names ++ (ofString t).names⟩ := by
  have hlist : (s ++ "/" ++ t).toList = s.toList ++ '/' :: t.toList := by simp
  rw [ofString, hlist, rootOf_append_of_mem h, namesOf_append, List.filter_append]
  rfl

/-- A path encloses itself and every path that has an enclosed one right above it. -/
inductive Encloses (q : Path) : Path → Prop
  | self : Encloses q q
  | above {p : Path} : Encloses q p.parent → Encloses q p

theorem isWithin_iff_names : p.isWithin q = true ↔ p.root = q.root ∧ q.names <+: p.names := by
  simp [isWithin]

/-- The names are compared one by one, and that is to go up from one directory to the next. -/
theorem isWithin_iff_encloses : p.isWithin q = true ↔ Encloses q p := by
  rw [isWithin_iff_names]
  constructor
  · obtain ⟨root, names⟩ := p
    rintro ⟨hroot, below, hnames⟩
    dsimp only at hroot hnames
    subst hroot hnames
    -- from the enclosing directory down, one name at the end more each time
    induction below using List.reverseRecOn with
    | nil =>
      rw [List.append_nil]
      exact .self
    | append_singleton below name ih =>
      refine .above ?_
      rw [parent]
      dsimp only
      rw [← List.append_assoc, List.dropLast_concat]
      exact ih
  · intro h
    induction h with
    | self => exact ⟨rfl, List.prefix_rfl⟩
    | above _ ih => exact ⟨ih.1, ih.2.trans (List.dropLast_prefix _)⟩

/-- What is within a home is the home with a relative path behind it. -/
theorem exists_join_of_isWithin (h : p.isWithin home = true) :
    ∃ rest : Path, rest.root = .none ∧ p = home.join rest := by
  obtain ⟨hroot, names, hnames⟩ := isWithin_iff_names.1 h
  refine ⟨⟨.none, names⟩, rfl, ?_⟩
  obtain ⟨root, all⟩ := p
  dsimp only at hroot hnames
  subst hroot hnames
  rfl

theorem join_of_relative (h : rest.root = .none) :
    home.join rest = ⟨home.root, home.names ++ rest.names⟩ := by
  rw [join, if_neg (by simp [isAbsolute, h])]

/-- Behind the root there is no slash to be put, behind any other directory there is one. -/
theorem toText_join (hhome : home.root ≠ .none) (hrest : rest.root = .none)
    (hne : rest.names ≠ []) : (home.join rest).toText =
      home.toText ++ ((if home.names = [] then "" else "/") ++ rest.toText) := by
  obtain ⟨root, names⟩ := home
  obtain ⟨_, below⟩ := rest
  dsimp only at hrest hne hhome
  subst hrest
  rw [join_of_relative rfl, toText_eq (.inl hhome), toText_eq (.inl hhome), toText_eq (.inr hne)]
  by_cases hn : names = []
  · subst hn
    simp [rootText]
  · rw [if_neg hn]
    dsimp only
    rw [String.intercalate_append_of_ne_nil hn hne]
    simp [rootText, String.append_assoc]

/-- The text of a home stands in front of all that is within it. -/
theorem exists_toText_append (hp : p.root ≠ .none) (h : p.isWithin home = true) :
    ∃ more, p.toText = home.toText ++ more := by
  obtain ⟨rest, hrest, rfl⟩ := exists_join_of_isWithin h
  by_cases hne : rest.names = []
  · refine ⟨"", ?_⟩
    rw [join_of_relative hrest, hne, List.append_nil, String.append_empty]
  · refine ⟨_, toText_join ?_ hrest hne⟩
    rwa [join_of_relative hrest] at hp

end Path

namespace Tilde

variable {login : Environment} {accounts : Accounts} {home rest : Path} {s : String}

theorem expand_of_head (h : s.toList.head? ≠ some '~') : expand login accounts s = s := by
  unfold expand
  split
  · next rest heq =>
    rw [heq] at h
    exact absurd rfl h
  · rfl

theorem expand_of_tilde {rest : List Char} (h : s.toList = '~' :: rest) :
    expand login accounts s =
      match home? login accounts (String.ofList (rest.takeWhile (· ≠ '/'))) with
      | none => s
      | some home =>
        match Text.dropEndWhile (· = '/') home.toList ++ rest.dropWhile (· ≠ '/') with
        | [] => "/"
        | cs => String.ofList cs := by
  unfold expand
  split
  · next heq =>
    cases h.symm.trans heq
    rfl
  · next hno => exact absurd h (hno rest)

def trimmedHome (login : Environment) (accounts : Accounts) : List Char :=
  Text.dropEndWhile (· = '/') ((login.get? "HOME").getD accounts.own).toList

theorem expand_slash (login : Environment) (accounts : Accounts) (s : String) :
    expand login accounts ("~/" ++ s) =
      String.ofList (trimmedHome login accounts) ++ "/" ++ s := by
  have htilde : ("~/" ++ s).toList = '~' :: '/' :: s.toList := by
    rw [String.toList_append]
    rfl
  have hhome : home? login accounts (String.ofList (('/' :: s.toList).takeWhile (· ≠ '/'))) =
      some ((login.get? "HOME").getD accounts.own) := rfl
  rw [expand_of_tilde htilde, hhome]
  dsimp only
  rw [List.dropWhile_cons_of_neg (by decide), ← trimmedHome, ← String.toList_inj]
  cases trimmedHome login accounts with
  | nil => simp
  | cons => simp

theorem ofString_expand_tilde (h : ownHome? login accounts = some home) :
    Path.ofString (expand login accounts "~") = home := by
  have hname : Path.ofString "~" = ⟨.none, ["~"]⟩ := by decide
  have hown : ownHome? login accounts =
      if (expand login accounts "~").toList.head? = some '~' then none
      else some (Path.ofString (expand login accounts "~")) := by
    rw [ownHome?, hname, expandPath?]
    dsimp only
    rw [if_pos (by decide), List.append_nil]
  rw [hown] at h
  split at h
  · cases h
  · exact Option.some.inj h

theorem expand_tilde (login : Environment) (accounts : Accounts) : expand login accounts "~" =
    if trimmedHome login accounts = [] then "/"
    else String.ofList (trimmedHome login accounts) := by
  have hhome : home? login accounts (String.ofList ([].takeWhile (· ≠ '/'))) =
      some ((login.get? "HOME").getD accounts.own) := rfl
  have htilde : "~".toList = ['~'] := rfl
  rw [expand_of_tilde htilde, hhome]
  dsimp only
  rw [List.dropWhile_nil, List.append_nil, ← trimmedHome]
  cases trimmedHome login accounts <;> rfl

/-- Where one's own home is not the root, a path behind `~/` is that path seen from the home. -/
theorem ofString_expand_slash (hhome : ownHome? login accounts = some home)
    (hnames : home.names ≠ []) (hrest : rest.Named) (hrelative : rest.root = .none) :
    Path.ofString (expand login accounts ("~/" ++ rest.toText)) = home.join rest := by
  have htilde := ofString_expand_tilde hhome
  rw [expand_tilde] at htilde
  by_cases ht : trimmedHome login accounts = []
  · rw [if_pos ht] at htilde
    subst htilde
    exact absurd (by decide) hnames
  · rw [if_neg ht] at htilde
    obtain ⟨c, hc, hslash⟩ := Text.exists_mem_dropEndWhile ht
    have hsolid : ∃ c ∈ (String.ofList (trimmedHome login accounts)).toList, c ≠ '/' :=
      ⟨c, by rwa [String.toList_ofList], by simpa using hslash⟩
    rw [expand_slash, Path.ofString_slash hsolid, htilde, Path.ofString_toText hrest,
      Path.join_of_relative hrelative]

end Tilde

namespace FileTree

variable {t : FileTree} {here place : Place} {names : List String}

/-- The directories above a place are open. -/
def Open (t : FileTree) (place : Place) : Prop :=
  ∀ above, above <+: place → above ≠ place → above ∉ t.closed

theorem walks_down {links : Nat} (hr : t.Reached (here ++ names)) (ho : t.Open (here ++ names))
    (hp : Proper names) (hshort : ∀ name ∈ names, name.utf8ByteSize ≤ maxName) :
    Walks t .target links here names (.taken (here ++ names)) := by
  induction names generalizing here with
  | nil =>
    rw [List.append_nil]
    exact .done
  | cons name names ih =>
    obtain ⟨⟨hname, hdown⟩, hp⟩ := List.forall_mem_cons.1 hp
    obtain ⟨hlength, hshort⟩ := List.forall_mem_cons.1 hshort
    have hhere : here ∉ t.closed := ho here (List.prefix_append _ _) (by simp)
    -- the first name goes over to the place that was reached
    rw [← List.singleton_append, ← List.append_assoc] at hr ho ⊢
    have hunopened : ¬ (Aim.target = .opening ∧ names = [""]) := fun h => absurd h.1 (by decide)
    have hl : LookedUp t here .target name names :=
      ⟨admits_of_open hhere name, not_stays hname, hdown, hunopened, Nat.not_lt.2 hlength⟩
    exact .into hl (hr _ (List.prefix_append _ _)) (ih hr ho hp hshort)

theorem Resolved.isDirectory? {cwd : Place} (h : t.Resolved place) (ho : t.Open place)
    (hpath : IsPath (Path.ofPlace place).toText)
    (hshort : ∀ name ∈ place, name.utf8ByteSize ≤ maxName) :
    t.isDirectory? cwd (Path.ofPlace place).toText = .ok true := by
  have hnamed : Path.Named ⟨.one, place⟩ := fun name hn => (h.proper name hn).1
  have hstart : startOf (Path.toText ⟨.one, place⟩) cwd = [] := startOf_toText hnamed
  refine isDirectory?_of_find (find_ok_iff.2 ⟨hpath, ?_⟩) h.reached.node?
  rw [Path.ofPlace, steps_toText hnamed (.inl nofun), hstart]
  exact walks_down h.reached ho h.proper hshort

end FileTree

namespace Repl

variable {r : Repl} {home cwd other : Path}

/-- How a prompt shows the directory `cwd` to one who is at home in `home`. -/
inductive ShownAs (home cwd : Path) : String → Prop
  | elsewhere : ¬ home.Encloses cwd → ShownAs home cwd cwd.toText
  | atHome : cwd = home → ShownAs home cwd "~"
  | below {rest : Path} : home.names ≠ [] → rest.root = .none → rest.names ≠ [] →
      cwd = home.join rest → ShownAs home cwd ("~/" ++ rest.toText)
  /-- The slash of the root is cut off, and there is no other. -/
  | slashless {rest : Path} : home.names = [] → rest.root = .none → rest.names ≠ [] →
      cwd = home.join rest → ShownAs home cwd ("~" ++ rest.toText)

theorem shownDirectory_of_append (hw : cwd.isWithin home = true) {more : String}
    (h : cwd.toText = home.toText ++ more) : shownDirectory home cwd = "~" ++ more := by
  rw [shownDirectory, if_pos hw, h, String.toList_append, ← String.length_toList, List.drop_left,
    String.ofList_toList]

theorem shownDirectory_elsewhere (hw : ¬ cwd.isWithin home = true) :
    shownDirectory home cwd = cwd.toText := by
  rw [shownDirectory, if_neg hw]

theorem shownDirectory_shownAs (hcwd : cwd.root ≠ .none) :
    ShownAs home cwd (shownDirectory home cwd) := by
  by_cases hw : cwd.isWithin home = true
  · obtain ⟨rest, hrest, rfl⟩ := Path.exists_join_of_isWithin hw
    have hroot : home.root ≠ .none := by rwa [Path.join_of_relative hrest] at hcwd
    by_cases hne : rest.names = []
    · have hself : home.join rest = home := by
        rw [Path.join_of_relative hrest, hne, List.append_nil]
      rw [hself] at hw ⊢
      rw [shownDirectory_of_append hw (String.append_empty).symm]
      exact .atHome rfl
    · rw [shownDirectory_of_append hw (Path.toText_join hroot hrest hne)]
      by_cases hnames : home.names = []
      · rw [if_pos hnames, String.empty_append]
        exact .slashless hnames hrest hne rfl
      · rw [if_neg hnames, ← String.append_assoc]
        exact .below hnames hrest hne rfl
  · rw [shownDirectory_elsewhere hw]
    exact .elsewhere (mt Path.isWithin_iff_encloses.2 hw)

theorem shownDirectory_slashless {name : String} {names : List String} (hroot : home.names = [])
    (hcwd : cwd.root ≠ .none) (h : cwd = ⟨home.root, name :: names⟩) :
    shownDirectory home cwd = "~" ++ (⟨.none, name :: names⟩ : Path).toText := by
  subst h
  have hhome : home.root ≠ .none := hcwd
  have hjoin : (⟨home.root, name :: names⟩ : Path) = home.join ⟨.none, name :: names⟩ := by
    rw [Path.join_of_relative rfl, hroot, List.nil_append]
  have hw : (⟨home.root, name :: names⟩ : Path).isWithin home = true :=
    Path.isWithin_iff_names.2 ⟨rfl, hroot ▸ List.nil_prefix⟩
  refine shownDirectory_of_append hw ?_
  rw [hjoin, Path.toText_join hhome rfl (List.cons_ne_nil _ _), if_pos hroot, String.empty_append]

/-- Within the home there is a `~` in front, elsewhere there is a slash. -/
theorem head?_shownDirectory (hcwd : cwd.root ≠ .none) (hnamed : cwd.Named) :
    (shownDirectory home cwd).toList.head? = some '~' ↔ cwd.isWithin home = true := by
  by_cases hw : cwd.isWithin home = true
  · refine iff_of_true ?_ hw
    rw [shownDirectory, if_pos hw, String.toList_append]
    rfl
  · refine iff_of_false ?_ hw
    rw [shownDirectory_elsewhere hw, (Path.head?_toText hnamed).2 hcwd]
    decide

theorem shownDirectory_eq_toText_iff (hcwd : cwd.root ≠ .none) (hnamed : cwd.Named) :
    shownDirectory home cwd = cwd.toText ↔ ¬ home.Encloses cwd := by
  rw [← Path.isWithin_iff_encloses]
  constructor
  · intro h hw
    have htilde := (head?_shownDirectory hcwd hnamed).2 hw
    rw [h, (Path.head?_toText hnamed).2 hcwd] at htilde
    exact absurd htilde (by decide)
  · exact shownDirectory_elsewhere

theorem shownDirectory_ne_empty (hcwd : cwd.root ≠ .none) (hnamed : cwd.Named) :
    shownDirectory home cwd ≠ "" := by
  intro hempty
  by_cases hw : cwd.isWithin home = true
  · have htilde := (head?_shownDirectory hcwd hnamed).2 hw
    rw [hempty] at htilde
    cases htilde
  · have hslash := (Path.head?_toText hnamed).2 hcwd
    rw [← shownDirectory_elsewhere hw, hempty] at hslash
    cases hslash

/-- Two directories are never shown alike. -/
theorem shownDirectory_inj (hcwd : cwd.root ≠ .none) (hother : other.root ≠ .none)
    (hnamed : cwd.Named) (hnamed' : other.Named)
    (h : shownDirectory home cwd = shownDirectory home other) : cwd = other := by
  -- the first character tells whether the home was cut off, so it was for both or for neither
  have hsame : cwd.isWithin home = true ↔ other.isWithin home = true := by
    rw [← head?_shownDirectory hcwd hnamed, h, head?_shownDirectory hother hnamed']
  have htext : cwd.toText = other.toText := by
    by_cases hw : cwd.isWithin home = true
    · obtain ⟨more, hmore⟩ := Path.exists_toText_append hcwd hw
      obtain ⟨more', hmore'⟩ := Path.exists_toText_append hother (hsame.1 hw)
      rw [shownDirectory_of_append hw hmore, shownDirectory_of_append (hsame.1 hw) hmore'] at h
      rw [hmore, hmore', (String.append_right_inj _).1 h]
    · rw [← shownDirectory_elsewhere hw, h, shownDirectory_elsewhere (mt hsame.2 hw)]
  rw [← Path.ofString_toText hnamed, htext, Path.ofString_toText hnamed']

/-- What is shown is read as the directory. -/
theorem ShownAs.denotes {shown : String} {login : Environment} {accounts : Accounts}
    (hs : ShownAs home cwd shown) (hhome : Tilde.ownHome? login accounts = some home)
    (hcwd : cwd.root ≠ .none) (hnamed : cwd.Named) (hslip : home.names ≠ [] ∨ cwd = home) :
    Path.ofString (Tilde.expand login accounts shown) = cwd := by
  cases hs with
  | elsewhere =>
    have hplain : cwd.toText.toList.head? ≠ some '~' := by
      rw [(Path.head?_toText hnamed).2 hcwd]
      decide
    rw [Tilde.expand_of_head hplain, Path.ofString_toText hnamed]
  | atHome hself => rw [Tilde.ofString_expand_tilde hhome, hself]
  | @below rest hnames hrelative _ hjoin =>
    have hrest : rest.Named := by
      rw [hjoin, Path.join_of_relative hrelative] at hnamed
      exact fun name hn => hnamed name (List.mem_append_right _ hn)
    rw [Tilde.ofString_expand_slash hhome hnames hrest hrelative, hjoin]
  | slashless hnames hrelative hne hjoin =>
    refine absurd (hslip.resolve_left (not_not_intro hnames)) fun hself => hne ?_
    rw [Path.join_of_relative hrelative, hself] at hjoin
    simpa using congrArg Path.names hjoin

/-- What is shown without the slash of the root is read as the home of an account, and where there
is no such account it is no absolute path at all. -/
theorem isAbsolute_of_slashless {login : Environment} {accounts : Accounts} {name : String}
    (names : List String) (hname : IsName name) (haccount : accounts.homes.lookup name = none) :
    (Path.ofString (Tilde.expand login accounts
      ("~" ++ (⟨.none, name :: names⟩ : Path).toText))).isAbsolute = false := by
  have htilde : ("~" ++ (⟨.none, name :: names⟩ : Path).toText).toList =
      '~' :: (String.intercalate "/" (name :: names)).toList := by
    rw [String.toList_append, Path.toText_eq (.inr (List.cons_ne_nil _ _)), Path.rootText,
      String.empty_append]
    rfl
  have hnone : Tilde.home? login accounts name = none := by
    rw [Tilde.home?, if_neg hname.nonempty, haccount]
  rw [Tilde.expand_of_tilde htilde, Path.takeWhile_intercalate names hname.unslashed,
    String.ofList_toList, hnone]
  dsimp only
  rw [Path.ofString, htilde, Path.rootOf, List.takeWhile_cons_of_neg (by decide)]
  rfl

def marker (status : Int) : String := if status = 0 then "$" else "[" ++ toString status ++ "]$"

theorem promptText_of_home (hhome : r.home? = some home) :
    promptText r = .ok (shownDirectory home r.cwd ++ " " ++ marker r.lastExit ++ " ") r := by
  unfold promptText
  rw [get_bind, show Tilde.ownHome? r.shell.host.login r.shell.host.accounts = some home from hhome]
  rfl

theorem targetOf_of_denotes {target : String} (hne : target ≠ "") (hcwd : r.cwd.root ≠ .none)
    (h : Path.ofString (Tilde.expand r.shell.host.login r.shell.host.accounts target) = r.cwd) :
    r.targetOf target = r.cwd := by
  rw [targetOf, wantedOf, if_neg hne, h, Path.join, if_pos (by simpa [Path.isAbsolute] using hcwd)]

theorem Settled.find_cwd {place : Place} (hr : Settled r)
    (hf : r.shell.host.files.find r.shell.host.cwd r.cwd.toText .target = .ok (.taken place)) :
    Path.ofPlace place = r.cwd := by
  obtain ⟨here, hcwd, hhere⟩ := hr
  have hnamed : Path.Named ⟨.one, here⟩ := fun name hn => (hhere.proper name hn).1
  have hstraight : r.shell.host.files.Straight [] here := by
    exact straight_of_proper hhere.proper fun above hp =>
      link?_of_directory (hhere.reached above hp)
  rw [hcwd] at hf ⊢
  have hwalk := (find_ok_iff.1 hf).2
  rw [Path.ofPlace, steps_toText hnamed (.inl nofun), startOf_toText hnamed, if_neg nofun] at hwalk
  exact congrArg Path.ofPlace (hwalk.straight hstraight)

theorem verdict_of_isThere? {line : String} {words : List String} {target : String}
    (hg : goal? words = some target) (hd : r.isThere? target = .ok true) :
    verdict line r words = .ok 0 := by
  rw [verdict_cd hg, hd]
  rfl

theorem nul_mem_of_shownDirectory {home cwd : Path}
    (h : '\x00' ∈ (shownDirectory home cwd).toList) : '\x00' ∈ cwd.toText.toList := by
  unfold shownDirectory at h
  split at h
  · rw [String.toList_append, List.mem_append] at h
    have hdropped := h.resolve_left (by decide)
    rw [String.toList_ofList] at hdropped
    exact List.mem_of_mem_drop hdropped
  · exact h

theorem isUnnamable_of_nul_notMem {s : String} (h : '\x00' ∉ s.toList) :
    Tilde.isUnnamable s = false := by
  unfold Tilde.isUnnamable
  split
  · next rest hs =>
    rw [List.contains_eq_mem, decide_eq_false_iff_not]
    exact fun hn => h (hs ▸ List.mem_cons_of_mem _ ((List.takeWhile_subset _) hn))
  · rfl

/-- To go to the directory where one is changes nothing, and it succeeds if the path of the
directory can be followed, by open directories, and no hook breaks the line off. -/
theorem execute_cd_stays {target : String} (hr : Settled r) (hne : target ≠ "")
    (hnul : '\x00' ∈ target.toList → '\x00' ∈ r.cwd.toText.toList)
    (hplain : ∀ c ∈ target.toList, Text.isBlank c = false) (htarget : r.targetOf target = r.cwd) :
    (endOf (execute ("cd " ++ target) r)).cwd = r.cwd ∧
      (IsPath r.cwd.toText → (∀ name ∈ r.cwd.names, name.utf8ByteSize ≤ maxName) →
        r.shell.host.files.Open r.cwd.names →
        ∀ s, Shell.fire .preexec ["cd " ++ target] r.shell = .ok () s →
          answerOf (execute ("cd " ++ target) r) = .ok 0) := by
  have hwords : Text.words ("cd " ++ target) = ["cd", target] := by
    rw [show "cd " = "cd" ++ " " by decide]
    exact Text.words_pair (by decide) hne (Text.unblanked_of_all (by decide)) hplain
  constructor
  · have hwent := (execute_placed ("cd " ++ target) r).went
    generalize execute ("cd " ++ target) r = x at hwent
    cases hwent with
    | stayed _ hcwd | missing _ _ hcwd | failed _ hcwd => exact hcwd
    | moved hgoal hf _ hcwd =>
      rw [hwords] at hgoal
      cases hgoal
      rw [htarget] at hf
      exact hcwd.trans (hr.find_cwd hf)
  · intro hpath hshort hopen s hfire
    have hnamable : Tilde.isUnnamable target = false :=
      isUnnamable_of_nul_notMem fun hn => hpath.plain (hnul hn)
    have hd : r.shell.host.files.isDirectory? r.shell.host.cwd r.cwd.toText = .ok true := by
      obtain ⟨place, hcwd, hplace⟩ := hr
      rw [hcwd] at hpath hshort hopen ⊢
      exact hplace.isDirectory? hopen hpath hshort
    generalize hx : execute ("cd " ++ target) r = x
    cases hx ▸ execute_executed ("cd " ++ target) r with
    | blank hw => cases hwords.symm.trans hw
    | broken _ hf => cases hfire.symm.trans hf
    | @handled s' _ _ hf hh =>
      -- the hooks in front of the line may have run processes, but the files are as they were
      have hfired : Shell.Touched (fun c => c.job.role ≠ .commandLine) r.shell
          (endOf (Shell.fire .preexec ["cd " ++ target] r.shell)) :=
        Shell.fire_touched (fun k _ => stores_backend k _ _) _
      rw [hf, endOf_ok] at hfired
      obtain ⟨cs, hran, -⟩ := hfired.ran
      have hthere : r.isThere? target = .ok true := by
        refine isThere?_of_isDirectory? ?_ ?_
        · rw [wantedOf, if_neg hne, hnamable]
        · rw [htarget, hd]
      rw [hh.answer, hwords]
      exact verdict_of_isThere? rfl ((isThere?_of_ran hran target).trans hthere)

/-- The prompt names the directory: by its path, unless the home is the directory or above it, and
then by `~` and the path from the home on. Two directories are never shown alike. What is shown is
read as the directory again, and `cd` to it leaves the shell where it is, unless the home is the
root: what is shown then is read as the home of an account, and without such an account it is no
directory of the root. -/
theorem prompt_names_directory (hhome : r.home? = some home) (hcwd : r.cwd.root ≠ .none)
    (hnamed : r.cwd.Named) :
    promptText r = .ok (shownDirectory home r.cwd ++ " " ++ marker r.lastExit ++ " ") r ∧
    ShownAs home r.cwd (shownDirectory home r.cwd) ∧
    (shownDirectory home r.cwd = r.cwd.toText ↔ ¬ home.Encloses r.cwd) ∧
    (∀ other : Path, other.root ≠ .none → other.Named →
      shownDirectory home other = shownDirectory home r.cwd → other = r.cwd) ∧
    (home.names ≠ [] ∨ r.cwd = home →
      Path.ofString (Tilde.expand r.shell.host.login r.shell.host.accounts
        (shownDirectory home r.cwd)) = r.cwd ∧
      (Settled r → (∀ c ∈ (shownDirectory home r.cwd).toList, Text.isBlank c = false) →
        (endOf (execute ("cd " ++ shownDirectory home r.cwd) r)).cwd = r.cwd ∧
        (IsPath r.cwd.toText → (∀ name ∈ r.cwd.names, name.utf8ByteSize ≤ maxName) →
          r.shell.host.files.Open r.cwd.names →
          ∀ s, Shell.fire .preexec ["cd " ++ shownDirectory home r.cwd] r.shell = .ok () s →
            answerOf (execute ("cd " ++ shownDirectory home r.cwd) r) = .ok 0))) ∧
    ∀ name names, home.names = [] → r.cwd = ⟨home.root, name :: names⟩ →
      r.shell.host.accounts.homes.lookup name = none →
      (Path.ofString (Tilde.expand r.shell.host.login r.shell.host.accounts
        (shownDirectory home r.cwd))).isAbsolute = false := by
  have hshown : ShownAs home r.cwd (shownDirectory home r.cwd) := shownDirectory_shownAs hcwd
  refine ⟨promptText_of_home hhome, hshown, shownDirectory_eq_toText_iff hcwd hnamed,
    fun other hother hnamed' h => shownDirectory_inj hother hcwd hnamed' hnamed h,
    fun hslip => ?_, fun name names hroot hnames haccount => ?_⟩
  · have hdenotes := hshown.denotes hhome hcwd hnamed hslip
    refine ⟨hdenotes, fun hr hplain => ?_⟩
    have hne : shownDirectory home r.cwd ≠ "" := shownDirectory_ne_empty hcwd hnamed
    exact execute_cd_stays hr hne nul_mem_of_shownDirectory hplain
      (targetOf_of_denotes hne hcwd hdenotes)
  · rw [shownDirectory_slashless hroot hcwd hnames]
    exact isAbsolute_of_slashless names (hnamed name (by rw [hnames]; exact List.mem_cons_self))
      haccount

/-- A shell in a directory of a user whose home is given with a slash at its end, after a command
that failed. -/
def atWork : Repl :=
  { create { Host.scripted ⟨[("HOME", "/h/u/")]⟩ [] with
      files :=
        ⟨[(["h"], .directory), (["h", "u"], .directory), (["h", "u", "src"], .directory)], []⟩
      cwd := ["h", "u", "src"] } .default true with lastExit := 2 }

theorem resolved_atWork : atWork.shell.host.files.Resolved ["h", "u", "src"] := by
  refine ⟨((reached_root.into rfl).into rfl).into rfl, fun name hn => ?_⟩
  have hnames : ∀ name ∈ ["h", "u", "src"],
      name ≠ "" ∧ '/' ∉ name.toList ∧ name ≠ "." ∧ name ≠ ".." := by decide
  obtain ⟨hne, hslash, hdot, hdots⟩ := hnames name hn
  exact ⟨⟨hne, hslash, hdot⟩, hdots⟩

theorem prompt_names_directory_sample : atWork.home? = some ⟨.one, ["h", "u"]⟩ ∧
    promptText atWork = .ok "~/src [2]$ " atWork ∧
    Path.ofString (Tilde.expand atWork.shell.host.login atWork.shell.host.accounts "~/src") =
      atWork.cwd ∧
    (endOf (execute "cd ~/src" atWork)).cwd = atWork.cwd ∧
    answerOf (execute "cd ~/src" atWork) = .ok 0 := by
  have hhome : atWork.home? = some ⟨.one, ["h", "u"]⟩ := by decide
  have hshown : shownDirectory ⟨.one, ["h", "u"]⟩ atWork.cwd = "~/src" := by decide
  obtain ⟨hprompt, -, -, -, hback, -⟩ := prompt_names_directory hhome (by decide)
    (fun name hn => (resolved_atWork.proper name hn).1)
  rw [hshown] at hprompt hback
  obtain ⟨hdenotes, hstays⟩ := hback (.inl (by decide))
  obtain ⟨hcwd, hanswer⟩ := hstays ⟨_, rfl, resolved_atWork⟩ (Text.unblanked_of_all (by decide))
  exact ⟨hhome, hprompt, hdenotes, hcwd,
    hanswer ⟨by decide, by decide, by decide⟩ (by decide) (fun _ _ _ => List.not_mem_nil) _
      (Shell.fire_of_hooks_nil rfl _)⟩

def rooted : Repl :=
  { create (Host.scripted ⟨[("HOME", "/")]⟩ []) .default true with cwd := ⟨.one, ["tmp"]⟩ }

/-- The slash is cut off with the home: what is shown is neither the path nor one that starts at the
home, and it is read as the home of an account. -/
theorem root_home_misnamed : rooted.home? = some ⟨.one, []⟩ ∧
    Path.Encloses ⟨.one, []⟩ rooted.cwd ∧
    promptText rooted = .ok "~tmp $ " rooted ∧
    (∀ rest : Path, "~tmp" ≠ "~/" ++ rest.toText) ∧
    Path.ofString (Tilde.expand rooted.shell.host.login rooted.shell.host.accounts "~tmp") ≠
      rooted.cwd := by
  have hhome : rooted.home? = some ⟨.one, []⟩ := by decide
  refine ⟨hhome, .above .self, promptText_of_home hhome, fun rest h => ?_, by decide⟩
  have hsecond := congrArg (fun s : String => s.toList.tail.head?) h
  rw [String.toList_append] at hsecond
  cases hsecond

end Repl

end ShellHistory
