/-! Text cut at a delimiter: once, at the first one, or at every one. -/

namespace ShellHistory.Text

/-- What stands before and after the first `d`, or nothing when there is no `d`. -/
def cut? (d : Char) : List Char → Option (List Char × List Char)
  | [] => none
  | c :: rest =>
    if c = d then some ([], rest)
    else (cut? d rest).map fun (before, after) => (c :: before, after)

theorem cut?_eq_some_iff {d : Char} {s before after : List Char} :
    cut? d s = some (before, after) ↔ s = before ++ d :: after ∧ d ∉ before := by
  induction s generalizing before with
  | nil => simp [cut?]
  | cons c rest ih =>
    unfold cut?
    split
    · next h =>
      subst h
      cases before with
      | nil => simp [eq_comm]
      | cons b bs =>
        simp only [Option.some.injEq, Prod.mk.injEq, List.cons_append, List.cons.injEq,
          List.mem_cons, not_or]
        constructor
        · rintro ⟨h, _⟩
          cases h
        · rintro ⟨⟨rfl, _⟩, h, _⟩
          exact absurd rfl h
    · next h =>
      cases before with
      | nil =>
        simp only [Option.map_eq_some_iff, Prod.mk.injEq, List.nil_append, List.cons.injEq]
        constructor
        · rintro ⟨_, _, h, _⟩
          cases h
        · rintro ⟨⟨rfl, _⟩, _⟩
          exact absurd rfl h
      | cons b bs =>
        simp only [Option.map_eq_some_iff, Prod.mk.injEq, List.cons.injEq, List.cons_append,
          List.mem_cons, not_or, Prod.exists]
        constructor
        · rintro ⟨x, y, hc, ⟨rfl, rfl⟩, rfl⟩
          obtain ⟨h1, h2⟩ := ih.1 hc
          exact ⟨⟨rfl, h1⟩, fun e => h e.symm, h2⟩
        · rintro ⟨⟨rfl, h1⟩, _, h2⟩
          exact ⟨bs, after, ih.2 ⟨h1, h2⟩, ⟨rfl, rfl⟩, rfl⟩

theorem cut?_eq_none_iff {d : Char} {s : List Char} : cut? d s = none ↔ d ∉ s := by
  induction s with
  | nil => simp [cut?]
  | cons c rest ih =>
    unfold cut?
    split
    · next h => simp [h]
    · next h =>
      simp only [Option.map_eq_none_iff, ih, List.mem_cons, not_or]
      exact ⟨fun k => ⟨fun e => h e.symm, k⟩, fun k => k.2⟩

/-- The pieces between the delimiters: always one more than there are delimiters. -/
def fields (d : Char) : List Char → List (List Char)
  | [] => [[]]
  | c :: rest =>
    if c = d then [] :: fields d rest
    else match fields d rest with
      | piece :: more => (c :: piece) :: more
      | [] => [[c]]

theorem length_fields (d : Char) (s : List Char) : (fields d s).length = s.count d + 1 := by
  induction s with
  | nil => rfl
  | cons c rest ih =>
    unfold fields
    split
    · next h => simp [h, ih]
    · next h =>
      have hc : (c :: rest).count d = rest.count d := by simp [h]
      rw [hc, ← ih]
      split
      · next heq => simp [heq]
      · next heq => simp [heq] at ih

/-- The text without its line terminator: one `\n`, together with a `\r` right before it. -/
def dropTerminator (s : List Char) : List Char :=
  match s.reverse with
  | '\n' :: '\r' :: rest => rest.reverse
  | '\n' :: rest => rest.reverse
  | _ => s

def dropBreak (s : List Char) : List Char :=
  if s.getLast? = some '\n' then s.dropLast else s

/-- Every `\r\n` and every lone `\r` written as `\n`. -/
def unifyBreaks : List Char → List Char
  | [] => []
  | '\r' :: '\n' :: rest => '\n' :: unifyBreaks rest
  | '\r' :: rest => '\n' :: unifyBreaks rest
  | c :: rest => c :: unifyBreaks rest

def unifiedBreaks (s : String) : String := String.ofList (unifyBreaks s.toList)

theorem notMem_unifyBreaks (s : List Char) : '\r' ∉ unifyBreaks s := by
  fun_induction unifyBreaks s with
  | case1 => simp
  | case2 rest ih => simp [ih]
  | case3 rest h ih => simp [ih]
  | case4 c rest h1 h2 ih =>
    simp only [List.mem_cons, not_or]
    refine ⟨fun e => ?_, ih⟩
    exact h2 e.symm

theorem unifyBreaks_of_notMem {s : List Char} (h : '\r' ∉ s) : unifyBreaks s = s := by
  fun_induction unifyBreaks s with
  | case1 => rfl
  | case2 | case3 => exact absurd List.mem_cons_self h
  | case4 c rest _ _ ih => rw [ih fun hc => h (List.mem_cons_of_mem c hc)]

theorem mem_of_mem_unifyBreaks {c : Char} (hc : c ≠ '\n') {s : List Char}
    (h : c ∈ unifyBreaks s) : c ∈ s := by
  fun_induction unifyBreaks s with
  | case1 => exact h
  | case2 rest ih => exact List.mem_cons_of_mem _ (List.mem_cons_of_mem _ (ih (by simpa [hc] using h)))
  | case3 rest _ ih => exact List.mem_cons_of_mem _ (ih (by simpa [hc] using h))
  | case4 d rest _ _ ih =>
    rcases List.mem_cons.1 h with rfl | h
    · exact List.mem_cons_self
    · exact List.mem_cons_of_mem d (ih h)

theorem unifyBreaks_return {s : List Char} (h : s.head? ≠ some '\n') :
    unifyBreaks ('\r' :: s) = '\n' :: unifyBreaks s := by
  cases s with
  | nil => rfl
  | cons c s =>
    have hc : c ≠ '\n' := fun hc => h (by rw [hc]; rfl)
    rw [unifyBreaks]
    exact fun _ hs => hc (List.cons.inj hs).1

/-- Two texts are read one after the other, unless a line terminator is cut in two between them. -/
theorem unifyBreaks_append {s t : List Char}
    (h : s.getLast? = some '\r' → t.head? ≠ some '\n') :
    unifyBreaks (s ++ t) = unifyBreaks s ++ unifyBreaks t := by
  fun_induction unifyBreaks s with
  | case1 => rfl
  | case2 rest ih =>
    have hrest := ih fun hr => h (by simp [List.getLast?_cons, hr])
    simp [unifyBreaks, hrest]
  | case3 rest hbreak ih =>
    have hrest := ih fun hr => h (by simp [List.getLast?_cons, hr])
    have hhead : (rest ++ t).head? ≠ some '\n' := by
      cases rest with
      | nil => exact h rfl
      | cons d rest => exact fun hd => hbreak rest (by rw [Option.some.inj hd])
    rw [List.cons_append, unifyBreaks_return hhead, hrest]
    rfl
  | case4 c rest _ hc ih =>
    have hrest := ih fun hr => h (by simp [List.getLast?_cons, hr])
    simp_all [unifyBreaks]

theorem unifiedBreaks_append {s t : String}
    (h : s.toList.getLast? = some '\r' → t.toList.head? ≠ some '\n') :
    unifiedBreaks (s ++ t) = unifiedBreaks s ++ unifiedBreaks t := by
  rw [unifiedBreaks, String.toList_append, unifyBreaks_append h, String.ofList_append]
  rfl

theorem unifiedBreaks_of_notMem {s : String} (h : '\r' ∉ s.toList) : unifiedBreaks s = s := by
  rw [unifiedBreaks, unifyBreaks_of_notMem h, String.ofList_toList]

/-- The text with every occurrence of a non-empty `old` written as `new`, after `skip` characters
that an occurrence has already covered. What was written is not looked at again. -/
def replaceFrom (old new : List Char) : Nat → List Char → List Char
  | _, [] => []
  | skip + 1, _ :: rest => replaceFrom old new skip rest
  | 0, c :: rest =>
    if old.isPrefixOf (c :: rest) then new ++ replaceFrom old new (old.length - 1) rest
    else c :: replaceFrom old new 0 rest

/-- The text with every occurrence of a non-empty `old` written as `new`. -/
def replaceAll (old new s : List Char) : List Char := replaceFrom old new 0 s

end ShellHistory.Text
