import ShellHistory.Text.Digit
import Mathlib.Data.List.Basic
import Mathlib.Data.List.TakeDrop
import Mathlib.Data.List.TakeWhile

/-! Texts of nothing but digits. A digit need not be a decimal one, so not all of them can be read as
a number, and those that can must not be too long either. -/

namespace ShellHistory.Text

theorem decimal?_lt {c : Char} {d : Nat} (h : decimal? c = some d) : d < 10 := by
  obtain ⟨z, hz, rfl⟩ := Option.map_eq_some_iff.1 h
  have hrange := List.find?_some hz
  simp only [Bool.and_eq_true, decide_eq_true_eq] at hrange
  omega

theorem digitIn?_ten (c : Char) : digitIn? 10 c = decimal? c := by
  unfold digitIn?
  cases hd : decimal? c with
  | some d => simp [Option.filter, decimal?_lt hd]
  | none =>
    dsimp only
    split
    · simp [Option.filter]
    · rfl

/-- The digits of every kind, from the first to the last of each range. -/
def digitRanges : List (Nat × Nat) := decimalZeros.map (fun z => (z, z + 9)) ++ otherDigits

theorem exists_range_of_isDigit {c : Char} (h : isDigit c) :
    ∃ a ∈ digitRanges, a.1 ≤ c.toNat ∧ c.toNat ≤ a.2 := by
  rcases Bool.or_eq_true_iff.1 h with h | h
  · obtain ⟨d, hd⟩ := Option.isSome_iff_exists.1 h
    obtain ⟨z, hz, -⟩ := Option.map_eq_some_iff.1 hd
    have hrange := List.find?_some hz
    simp only [Bool.and_eq_true, decide_eq_true_eq] at hrange
    exact ⟨(z, z + 9), List.mem_append_left _ (List.mem_map.2 ⟨z, List.mem_of_find?_eq_some hz, rfl⟩),
      hrange.1, by omega⟩
  · obtain ⟨a, ha, hrange⟩ := List.any_eq_true.1 h
    exact ⟨a, List.mem_append_right _ ha, by simpa using hrange⟩

/-- The blank characters, from the first to the last of each range. -/
def blankRanges : List (Nat × Nat) :=
  [(9, 13), (28, 32), (0x85, 0x85), (0xA0, 0xA0), (0x1680, 0x1680), (0x2000, 0x200A),
    (0x2028, 0x2028), (0x2029, 0x2029), (0x202F, 0x202F), (0x205F, 0x205F), (0x3000, 0x3000)]

theorem exists_range_of_isBlank {c : Char} (h : isBlank c) :
    ∃ b ∈ blankRanges, b.1 ≤ c.toNat ∧ c.toNat ≤ b.2 := by
  simp only [isBlank, Bool.or_eq_true, Bool.and_eq_true, decide_eq_true_eq, beq_iff_eq] at h
  simp only [blankRanges, List.mem_cons, List.not_mem_nil, or_false, exists_eq_or_imp,
    exists_eq_left]
  omega

theorem isBlank_of_isDigit {c : Char} (h : isDigit c) : isBlank c = false := by
  have hapart : ∀ a ∈ digitRanges, ∀ b ∈ blankRanges, a.2 < b.1 ∨ b.2 < a.1 := by decide +kernel
  rw [Bool.eq_false_iff]
  intro hb
  obtain ⟨a, ha, hca⟩ := exists_range_of_isDigit h
  obtain ⟨b, hb, hcb⟩ := exists_range_of_isBlank hb
  have := hapart a ha b hb
  omega

theorem isDigit_of_decimal? {c : Char} {d : Nat} (h : decimal? c = some d) : isDigit c := by
  rw [isDigit, h]
  rfl

theorem trim_eq_self {p : Char → Bool} {s : List Char} (h : ∀ c ∈ s, p c = false) :
    trim p s = s := by
  have hdrop {l : List Char} (hl : ∀ c ∈ l, p c = false) : l.dropWhile p = l :=
    List.dropWhile_eq_self_iff.2 fun hlen => by simp [hl _ (List.getElem_mem hlen)]
  rw [trim, dropEndWhile, hdrop h, hdrop fun c hc => h c (List.mem_reverse.1 hc),
    List.reverse_reverse]

theorem fields_of_not_mem {d : Char} {s : List Char} (h : d ∉ s) : fields d s = [s] := by
  induction s with
  | nil => rfl
  | cons c rest ih =>
    rw [fields, if_neg fun hc => h (by simp [hc]), ih fun hm => h (List.mem_cons_of_mem c hm)]

theorem span_congr {p q : Char → Bool} {s : List Char} (h : ∀ c ∈ s, p c = q c) :
    s.span p = (s.takeWhile q, s.dropWhile q) := by
  rw [List.span_eq_takeWhile_dropWhile]
  induction s with
  | nil => rfl
  | cons c rest ih =>
    have hrest := Prod.mk.inj (ih fun d hd => h d (List.mem_cons_of_mem c hd))
    rw [List.takeWhile_cons, List.dropWhile_cons, List.takeWhile_cons, List.dropWhile_cons,
      h c List.mem_cons_self, hrest.1, hrest.2]

def isDecimal (c : Char) : Bool := (decimal? c).isSome

/-- The number that a text of decimal digits writes, if it is not too long to be read. -/
def numeral? (s : String) : Option Nat :=
  if s.toList ≠ [] ∧ s.toList.all isDecimal ∧ s.toList.length ≤ maxDigits then
    some (ofDigits 10 (s.toList.filterMap decimal?))
  else none

theorem isDigit_of_isDecimal {c : Char} (h : isDecimal c) : isDigit c := by
  obtain ⟨d, hd⟩ := Option.isSome_iff_exists.1 h
  exact isDigit_of_decimal? hd

theorem numeral?_of_not_digits {s : String} (h : s.toList.all isDigit = false) :
    numeral? s = none := by
  refine if_neg fun ⟨_, hall, _⟩ => ?_
  rw [Bool.eq_false_iff] at h
  exact h (List.all_eq_true.2 fun c hc => isDigit_of_isDecimal (List.all_eq_true.1 hall c hc))

/-- A text that only has digits has neither margin nor sign nor `_`, so it is read from its first
character on, up to the first digit without a value. -/
theorem readInt_of_digits {s : String} (h : s.toList.all isDigit) : readInt s =
    let run := s.toList.takeWhile isDecimal
    if run = [] then .error .malformed
    else if maxDigits < run.length then .error (.tooLong run.length)
    else if s.toList.dropWhile isDecimal ≠ [] then .error .malformed
    else .ok (ofDigits 10 (run.filterMap decimal?)) := by
  rw [List.all_eq_true] at h
  have hmargin : trim isMargin s.toList = s.toList :=
    trim_eq_self fun c hc => by rw [isMargin, isBlank_of_isDigit (h c hc), Bool.false_and]
  have hsplit : s.toList.span (fun c => (digitIn? 10 c).isSome || c = '_') =
      (s.toList.takeWhile isDecimal, s.toList.dropWhile isDecimal) := by
    refine span_congr fun c hc => ?_
    have hne : c ≠ '_' := by
      rintro rfl
      exact absurd (h '_' hc) (by decide)
    simp [digitIn?_ten, hne, isDecimal]
  have hfields : fields '_' (s.toList.takeWhile isDecimal) = [s.toList.takeWhile isDecimal] :=
    fields_of_not_mem fun hm => absurd (h '_' (List.takeWhile_subset _ hm)) (by decide)
  have hdigits : (s.toList.takeWhile isDecimal).filterMap (digitIn? 10) =
      (s.toList.takeWhile isDecimal).filterMap decimal? := by
    simp only [funext digitIn?_ten]
  have hlength : ((s.toList.takeWhile isDecimal).filterMap decimal?).length =
      (s.toList.takeWhile isDecimal).length := by
    have hvalue : ∀ c ∈ s.toList.takeWhile isDecimal, isDecimal c :=
      fun c hc => List.mem_takeWhile_imp hc
    exact List.filterMap_length_eq_length.2 hvalue
  have hmark : dropBaseMark 10 s.toList = s.toList := by
    unfold dropBaseMark
    split
    · exact if_neg fun hm => by simp [baseLetter?] at hm
    · rfl
  rw [readInt, readIntIn, hmargin]
  dsimp only
  split
  · next hs => exact absurd (h '-' (by rw [hs]; exact List.mem_cons_self)) (by decide)
  · next hs => exact absurd (h '+' (by rw [hs]; exact List.mem_cons_self)) (by decide)
  · rw [hmark, hsplit]
    dsimp only
    rw [hfields, hdigits, hlength]
    simp only [List.any_cons, List.any_nil, Bool.or_false, List.isEmpty_iff, true_and,
      Bool.false_eq_true, if_false]

/-- Of the texts that only have digits the numerals are those that are read as a number. -/
theorem toOption_readInt {s : String} (h : s.toList.all isDigit) :
    (readInt s).toOption = (numeral? s).map Int.ofNat := by
  rw [readInt_of_digits h]
  by_cases hall : s.toList.all isDecimal
  · have hrun : s.toList.takeWhile isDecimal = s.toList :=
      List.takeWhile_eq_self_iff.2 fun c hc => List.all_eq_true.1 hall c hc
    have hrest : s.toList.dropWhile isDecimal = [] :=
      List.dropWhile_eq_nil_iff.2 fun c hc => List.all_eq_true.1 hall c hc
    simp only [hrun, hrest, numeral?, hall]
    by_cases hs : s.toList = []
    · simp [hs, Except.toOption]
    · by_cases hl : maxDigits < s.toList.length
      · simp [hs, hl, Except.toOption]
      · simp [hs, hl, Nat.le_of_not_lt hl, Except.toOption]
  · have hrest : s.toList.dropWhile isDecimal ≠ [] := by
      rw [ne_eq, List.dropWhile_eq_nil_iff, ← List.all_eq_true]
      exact hall
    have hnone : numeral? s = none := if_neg fun hn => hall hn.2.1
    rw [hnone, Option.map_none]
    simp only [if_pos hrest]
    split
    · rfl
    · split <;> rfl

end ShellHistory.Text
