import Mathlib.Data.List.DropRight
import ShellHistory.Proofs.Reply

/-! The texts that answer, a reply and a selection, told from what they say. One line terminator is
taken off, then the first delimiter cuts; so what was written into such a text comes out of it
again, unless its own last character makes a terminator together with the one that was added. -/

namespace ShellHistory

namespace Text

/-- The line terminator that a text ends in. -/
def terminator (s : List Char) : List Char :=
  if ['\r', '\n'] <:+ s then ['\r', '\n'] else if ['\n'] <:+ s then ['\n'] else []

theorem dropTerminator_append_terminator (s : List Char) :
    dropTerminator s ++ terminator s = s := by
  obtain ⟨t, rfl⟩ : ∃ t, s = t.reverse := ⟨s.reverse, s.reverse_reverse.symm⟩
  have hcrlf : ['\r', '\n'] <:+ t.reverse ↔ ['\n', '\r'] <+: t :=
    List.reverse_prefix.symm.trans (by simp)
  have hbreak : ['\n'] <:+ t.reverse ↔ ['\n'] <+: t := List.reverse_prefix.symm.trans (by simp)
  unfold dropTerminator terminator
  rw [List.reverse_reverse, if_congr hcrlf rfl rfl, if_congr hbreak rfl rfl]
  split
  · simp
  · next rest hr =>
    have hcr : ¬ ['\r'] <+: rest := by
      rintro ⟨u, rfl⟩
      exact hr u rfl
    simp [hcr]
  · next h1 h2 =>
    have hlf : ¬ ['\n'] <+: t := by
      rintro ⟨u, rfl⟩
      exact h2 u rfl
    have hlfcr : ¬ ['\n', '\r'] <+: t := fun h => hlf ((List.prefix_append ['\n'] _).trans h)
    simp [hlf, hlfcr]

theorem dropTerminator_eq_iff {s x : List Char} : dropTerminator s = x ↔ s = x ++ terminator s := by
  constructor
  · rintro rfl
    exact (dropTerminator_append_terminator s).symm
  · intro h
    exact List.append_cancel_right ((dropTerminator_append_terminator s).trans h)

theorem dropTerminator_eq_self_iff {s : List Char} :
    dropTerminator s = s ↔ s.getLast? ≠ some '\n' := by
  have hbreak : ['\n'] <:+ s ↔ s.getLast? = some '\n' := List.singleton_suffix_iff_getLast?_eq_some
  have hcrlf (h : ['\r', '\n'] <:+ s) : ['\n'] <:+ s := (List.suffix_append ['\r'] _).trans h
  rw [dropTerminator_eq_iff, List.self_eq_append_right, terminator, ne_eq, ← hbreak]
  by_cases hc : ['\r', '\n'] <:+ s
  · simp [hc, hcrlf hc]
  · by_cases hb : ['\n'] <:+ s <;> simp [hc, hb]

/-- A line break that is added is all that is taken off, unless it makes a terminator with a `\r`
that is already there. -/
theorem dropTerminator_append_break_iff {s : List Char} :
    dropTerminator (s ++ ['\n']) = s ↔ s.getLast? ≠ some '\r' := by
  have hbreak : ['\n'] <:+ s ++ ['\n'] := List.suffix_append s _
  have hcrlf : ['\r', '\n'] <:+ s ++ ['\n'] ↔ s.getLast? = some '\r' :=
    (@List.suffix_append_self_iff _ ['\r'] s ['\n']).trans
      List.singleton_suffix_iff_getLast?_eq_some
  rw [dropTerminator_eq_iff, List.append_right_inj, terminator, if_congr hcrlf rfl rfl,
    if_pos hbreak]
  by_cases h : s.getLast? = some '\r' <;> simp [h]

theorem dropTerminator_append_crlf (s : List Char) : dropTerminator (s ++ ['\r', '\n']) = s := by
  simp [dropTerminator]

end Text

namespace Entry

theorem cut?_eq_some_iff {d : Char} {s : List Char} {e : Entry} :
    cut? d s = some e ↔ s = e.id.toList ++ d :: e.line.toList ∧ d ∉ e.id.toList := by
  obtain ⟨id, line⟩ := e
  rw [cut?, Option.map_eq_some_iff]
  constructor
  · rintro ⟨⟨before, after⟩, hc, he⟩
    cases he
    simpa using Text.cut?_eq_some_iff.1 hc
  · intro h
    exact ⟨(id.toList, line.toList), Text.cut?_eq_some_iff.2 h, by simp⟩

theorem cut?_eq_none_iff {d : Char} {s : List Char} : cut? d s = none ↔ d ∉ s := by
  rw [cut?, Option.map_eq_none_iff, Text.cut?_eq_none_iff]

end Entry

namespace Reply

theorem ofText_eq_entry_iff_cut? {raw : String} {e : Entry} :
    ofText raw = .entry e ↔ Entry.cut? '|' (Text.dropTerminator raw.toList) = some e := by
  unfold ofText
  cases Entry.cut? '|' (Text.dropTerminator raw.toList) <;> simp

theorem ofText_eq_malformed_iff {raw r : String} :
    ofText raw = .malformed r ↔ r = raw ∧ '|' ∉ raw.toList := by
  unfold ofText
  rw [Entry.cut?_dropTerminator]
  by_cases h : '|' ∈ raw.toList <;> simp [h, eq_comm]

theorem ofText_eq_entry_iff {raw : String} {e : Entry} :
    ofText raw = .entry e ↔ '|' ∉ e.id.toList ∧
      raw.toList = e.id.toList ++ '|' :: e.line.toList ++ Text.terminator raw.toList := by
  rw [ofText_eq_entry_iff_cut?, Entry.cut?_eq_some_iff, Text.dropTerminator_eq_iff, and_comm]

/-- Behind an id and its `|`, only the terminator is not taken for the line. -/
theorem ofText_eq_entry_iff_of_id {raw id line : String} {s : List Char} (hid : '|' ∉ id.toList)
    (hraw : raw.toList = id.toList ++ '|' :: s) :
    ofText raw = .entry ⟨id, line⟩ ↔ Text.dropTerminator s = line.toList := by
  rw [ofText_eq_entry_iff_cut?, hraw, Text.dropTerminator_append (by decide) (by decide),
    Entry.cut?_eq_some_iff]
  simp [hid]

/-- A reply is exactly the id before the first `|` and the line behind it, less one terminator; a
text without a `|` is none, and is kept as it is. The other way round, every line with an id before
it is read back whole, whatever it holds, unless its end and what follows make one terminator. -/
theorem reply_exact :
    (∀ raw r, ofText raw = .malformed r ↔ r = raw ∧ '|' ∉ raw.toList) ∧
    (∀ raw, (∃ e, ofText raw = .entry e) ↔ '|' ∈ raw.toList) ∧
    (∀ raw e, ofText raw = .entry e ↔ '|' ∉ e.id.toList ∧
      raw.toList = e.id.toList ++ '|' :: e.line.toList ++ Text.terminator raw.toList) ∧
    (∀ id line : String, '|' ∉ id.toList →
      (ofText (id ++ "|" ++ line ++ "\n") = .entry ⟨id, line⟩ ↔ line.toList.getLast? ≠ some '\r') ∧
      (ofText (id ++ "|" ++ line) = .entry ⟨id, line⟩ ↔ line.toList.getLast? ≠ some '\n') ∧
      ofText (id ++ "|" ++ line ++ "\r\n") = .entry ⟨id, line⟩) := by
  refine ⟨fun _ _ => ofText_eq_malformed_iff, fun raw => ?_, fun _ _ => ofText_eq_entry_iff,
    fun id line hid => ⟨?_, ?_, ?_⟩⟩
  · simp only [ofText_eq_entry_iff_cut?, ← Option.isSome_iff_exists, Entry.cut?_dropTerminator]
    by_cases h : '|' ∈ raw.toList <;> simp [h]
  · rw [ofText_eq_entry_iff_of_id (s := line.toList ++ ['\n']) hid (by simp),
      Text.dropTerminator_append_break_iff]
  · rw [ofText_eq_entry_iff_of_id (s := line.toList) hid (by simp), Text.dropTerminator_eq_self_iff]
  · rw [ofText_eq_entry_iff_of_id (s := line.toList ++ ['\r', '\n']) hid (by simp),
      Text.dropTerminator_append_crlf]

/-- A line that has every mark that a reply is read by. -/
theorem reply_exact_sample : '|' ∉ "9".toList ∧
    ofText ("9" ++ "|" ++ "for f in *; do\n  echo a|b \r" ++ "\r\n") =
      .entry ⟨"9", "for f in *; do\n  echo a|b \r"⟩ ∧
    ofText ("9" ++ "|" ++ "echo a|b\n" ++ "\n") = .entry ⟨"9", "echo a|b\n"⟩ ∧
    ofText ("9" ++ "|" ++ "echo a|b  ") = .entry ⟨"9", "echo a|b  "⟩ := by
  have h := reply_exact.2.2.2 "9"
  refine ⟨by decide, (h _ (by decide)).2.2, ?_, ?_⟩
  · exact (h "echo a|b\n" (by decide)).1.2 (by decide)
  · exact (h "echo a|b  " (by decide)).2.1.2 (by decide)

end Reply

namespace Text

theorem terminator_cases (s : List Char) :
    terminator s = [] ∨ terminator s = ['\n'] ∨ terminator s = ['\r', '\n'] := by
  unfold terminator
  split
  · exact .inr (.inr rfl)
  · split
    · exact .inr (.inl rfl)
    · exact .inl rfl

theorem dropEndWhile_eq_iff {d : Char} {s x : List Char} :
    dropEndWhile (· = d) s = x ↔
      ∃ n, s = x ++ List.replicate n d ∧ x.getLast? ≠ some d := by
  change s.rdropWhile (· = d) = x ↔ _
  constructor
  · rintro rfl
    refine ⟨(s.rtakeWhile (· = d)).length, ?_, fun hl => ?_⟩
    · have hall : s.rtakeWhile (· = d) = List.replicate (s.rtakeWhile (· = d)).length d :=
        List.eq_replicate_of_mem fun c hc => by simpa using List.mem_rtakeWhile_imp hc
      rw [← hall, List.rdropWhile_append_rtakeWhile]
    · have hne : s.rdropWhile (· = d) ≠ [] := fun h => by simp [h] at hl
      rw [List.getLast?_eq_some_getLast hne, Option.some.injEq] at hl
      exact List.rdropWhile_last_not _ s hne (by simpa using hl)
  · rintro ⟨n, rfl, hx⟩
    induction n with
    | zero =>
      rw [List.replicate_zero, List.append_nil, List.rdropWhile_eq_self_iff]
      intro hne hl
      exact hx (by rw [List.getLast?_eq_some_getLast hne]; simpa using hl)
    | succ n ih =>
      rw [List.replicate_succ', ← List.append_assoc, List.rdropWhile_concat_pos _ _ _ (by simp), ih]

end Text

namespace Entry

/-- An entry as a record of a listing, without the `NUL` behind it. -/
def record (e : Entry) : String := e.id ++ "\t" ++ e.line

/-- An entry that a listing can hold: none of the marks around its parts is in them, and its line
does not end in half a line terminator. -/
structure Listable (e : Entry) : Prop where
  tab : '\t' ∉ e.id.toList
  nul_id : '\x00' ∉ e.id.toList
  nul_line : '\x00' ∉ e.line.toList
  last : e.line.toList.getLast? ≠ some '\r'

/-- What is selected is what stands before a terminator and the `NUL`s in front of it. -/
theorem ofSelection?_eq_of_selected {raw : String} {s : List Char} {n : Nat}
    (hraw : raw.toList = s ++ List.replicate n '\x00' ++ Text.terminator raw.toList)
    (hs : s.getLast? ≠ some '\x00') :
    ofSelection? raw =
      if s = [] then none else some ((cut? '\t' s).getD ⟨"", String.ofList s⟩) := by
  have hdrop : Text.dropEndWhile (· = '\x00') (Text.dropTerminator raw.toList) = s :=
    Text.dropEndWhile_eq_iff.2 ⟨n, Text.dropTerminator_eq_iff.2 hraw, hs⟩
  unfold ofSelection?
  rw [hdrop]
  cases s <;> rfl

/-- Every output is a text, some `NUL`s and a terminator. -/
theorem exists_selected (raw : String) : ∃ s n,
    raw.toList = s ++ List.replicate n '\x00' ++ Text.terminator raw.toList ∧
      s.getLast? ≠ some '\x00' := by
  obtain ⟨n, hn, hs⟩ := Text.dropEndWhile_eq_iff.1
    (rfl : Text.dropEndWhile (· = '\x00') (Text.dropTerminator raw.toList) = _)
  exact ⟨_, n, Text.dropTerminator_eq_iff.1 hn, hs⟩

theorem ofSelection?_eq_none_iff {raw : String} : ofSelection? raw = none ↔
    ∃ n, ∃ t ∈ [[], ['\n'], ['\r', '\n']], raw.toList = List.replicate n '\x00' ++ t := by
  constructor
  · intro h
    obtain ⟨s, n, hraw, hs⟩ := exists_selected raw
    rw [ofSelection?_eq_of_selected hraw hs] at h
    by_cases hnil : s = []
    · subst hnil
      refine ⟨n, _, ?_, hraw⟩
      rcases Text.terminator_cases raw.toList with ht | ht | ht <;> simp [ht]
    · simp [hnil] at h
  · rintro ⟨n, t, ht, hraw⟩
    have hlast {c : Char} (hc : c ≠ '\x00') : (List.replicate n '\x00').getLast? ≠ some c := by
      intro h
      exact hc (List.eq_of_mem_replicate (List.mem_of_getLast? h))
    have hdrop : Text.dropTerminator raw.toList = List.replicate n '\x00' := by
      rw [hraw]
      simp only [List.mem_cons, List.not_mem_nil, or_false] at ht
      rcases ht with rfl | rfl | rfl
      · rw [List.append_nil]
        exact Text.dropTerminator_eq_self_iff.2 (hlast (by decide))
      · exact Text.dropTerminator_append_break_iff.2 (hlast (by decide))
      · exact Text.dropTerminator_append_crlf _
    exact ofSelection?_eq_of_selected (Text.dropTerminator_eq_iff.1 hdrop) (s := []) (by simp)

/-- Without a tab there is no id, and all that is selected is the line. -/
theorem ofSelection?_of_notMem {raw : String} {e : Entry} (htab : '\t' ∉ raw.toList)
    (he : ofSelection? raw = some e) : e.id = "" ∧ e.line.toList.getLast? ≠ some '\x00' ∧
      ∃ n, raw.toList = e.line.toList ++ List.replicate n '\x00' ++ Text.terminator raw.toList := by
  obtain ⟨s, n, hraw, hs⟩ := exists_selected raw
  have hcut : cut? '\t' s = none := by
    rw [cut?_eq_none_iff]
    intro hm
    exact htab (by rw [hraw]; simp [hm])
  rw [ofSelection?_eq_of_selected hraw hs, hcut] at he
  by_cases hnil : s = []
  · simp [hnil] at he
  · rw [if_neg hnil] at he
    cases he
    exact ⟨rfl, by simpa using hs, n, by simpa using hraw⟩

/-- A record that is printed is selected, whether a line break or a `NUL` follows it. -/
theorem Listable.ofSelection? {e : Entry} (h : e.Listable) {raw : String}
    (hraw : raw = e.record ++ "\n" ∨ raw = e.record ++ "\x00") : ofSelection? raw = some e := by
  have hrecord : e.record.toList = e.id.toList ++ '\t' :: e.line.toList := by simp [record]
  have hcut : cut? '\t' e.record.toList = some e := cut?_eq_some_iff.2 ⟨hrecord, h.tab⟩
  have hlast : e.record.toList.getLast? ≠ some '\x00' := by
    intro hl
    have hm := List.mem_of_getLast? hl
    rw [hrecord] at hm
    simp [h.nul_id, h.nul_line] at hm
  have hdrop : ∃ n,
      Text.dropTerminator raw.toList = e.record.toList ++ List.replicate n '\x00' := by
    rcases hraw with rfl | rfl
    · refine ⟨0, ?_⟩
      have hbreak := Text.dropTerminator_append_break_iff.2 h.last
      rw [String.toList_append, hrecord, List.append_assoc]
      exact (Text.dropTerminator_append (by decide) (by decide) _ _).trans (by simp [hbreak])
    · refine ⟨1, ?_⟩
      rw [String.toList_append]
      exact Text.dropTerminator_eq_self_iff.2 (by simp)
  obtain ⟨n, hn⟩ := hdrop
  have hne : e.record.toList ≠ [] := by simp [hrecord]
  rw [ofSelection?_eq_of_selected (Text.dropTerminator_eq_iff.1 hn) hlast, if_neg hne, hcut]
  rfl

end Entry

end ShellHistory
