import Mathlib.Data.List.Basic
import ShellHistory.Buffer

/-! The lines of the text that is edited, and the point among them. A move between lines puts the point
into the line that it aims at, or into the first or last one if there are not so many, and never beyond
the end of the line. -/

namespace ShellHistory

namespace Text

/-- The text up to a piece: every piece before it with the delimiter behind it. No piece has a
delimiter in it. -/
theorem fields_split {d : Char} {s : List Char} {pre post : List (List Char)} {piece : List Char}
    (h : fields d s = pre ++ piece :: post) :
    (∃ rest, s = pre.flatMap (· ++ [d]) ++ piece ++ rest) ∧ ∀ p ∈ pre ++ [piece], d ∉ p := by
  induction s generalizing pre piece with
  | nil =>
    rcases pre with _ | ⟨first, pre⟩
    · cases h
      exact ⟨⟨[], rfl⟩, by simp⟩
    · exact absurd (List.cons.inj h).2 (by simp)
  | cons c s ih =>
    unfold fields at h
    by_cases hc : c = d
    · subst hc
      rw [if_pos rfl] at h
      rcases pre with _ | ⟨first, pre⟩
      · cases h
        exact ⟨⟨_, rfl⟩, by simp⟩
      · obtain ⟨rfl, hrest⟩ := List.cons.inj h
        obtain ⟨⟨rest, hs⟩, hd⟩ := ih hrest
        exact ⟨⟨rest, by rw [hs]; simp⟩, by simpa using hd⟩
    · rw [if_neg hc] at h
      cases hf : fields d s with
      | nil => exact absurd (congrArg List.length hf) (by rw [length_fields]; simp)
      | cons first more =>
        -- the character goes into the first piece, which is `piece` itself or stands before it
        rw [hf] at h
        rcases pre with _ | ⟨first', pre⟩
        · cases h
          obtain ⟨⟨rest, hs⟩, hd⟩ := ih (hf.trans (List.nil_append _).symm)
          exact ⟨⟨rest, by rw [hs]; simp⟩, by simpa [Ne.symm hc] using hd⟩
        · obtain ⟨rfl, hmore⟩ := List.cons.inj h
          have hcons : fields d s = (first :: pre) ++ piece :: post :=
            hf.trans (congrArg (first :: ·) hmore)
          obtain ⟨⟨rest, hs⟩, hd⟩ := ih hcons
          exact ⟨⟨rest, by rw [hs]; simp⟩, by simpa [Ne.symm hc] using hd⟩

theorem notMem_of_mem_fields {d : Char} {s p : List Char} (h : p ∈ fields d s) : d ∉ p := by
  obtain ⟨pre, post, hsplit⟩ := List.append_of_mem h
  exact (fields_split hsplit).2 p (List.mem_append_right pre List.mem_cons_self)

theorem foldl_lengths (pre : List (List Char)) (d : Char) (n : Nat) :
    pre.foldl (fun n line => n + line.length + 1) n = n + (pre.flatMap (· ++ [d])).length := by
  induction pre generalizing n with
  | nil => rfl
  | cons first pre ih =>
    rw [List.foldl_cons, ih, List.flatMap_cons, List.length_append, List.length_append]
    simp only [List.length_singleton]
    omega

theorem count_flatMap_delimiter {d : Char} {pre : List (List Char)} (h : ∀ p ∈ pre, d ∉ p) :
    (pre.flatMap (· ++ [d])).count d = pre.length := by
  induction pre with
  | nil => rfl
  | cons first pre ih =>
    have hfirst := List.count_eq_zero.2 (h first List.mem_cons_self)
    rw [List.flatMap_cons, List.count_append, List.count_append, hfirst,
      ih fun p hp => h p (List.mem_cons_of_mem first hp)]
    simp only [List.count_singleton_self, List.length_cons]
    omega

theorem takeWhile_reverse_flatMap {d : Char} {piece : List Char} (h : d ∉ piece)
    (pre : List (List Char)) :
    (pre.flatMap (· ++ [d]) ++ piece).reverse.takeWhile (· ≠ d) = piece.reverse := by
  have hpiece : ∀ c ∈ piece.reverse, decide (c ≠ d) = true :=
    fun c hc => decide_eq_true fun he => h (he ▸ List.mem_reverse.1 hc)
  rw [List.reverse_append, List.takeWhile_append_of_pos hpiece]
  rcases List.eq_nil_or_concat pre with rfl | ⟨pre, last, rfl⟩
  · simp
  · simp [List.flatMap_append]

end Text

namespace Buffer

variable {b : Buffer}

theorem length_lines (b : Buffer) : b.lines.length = b.text.count '\n' + 1 :=
  Text.length_fields '\n' b.text

def line (b : Buffer) (row : Nat) : List Char := (b.lines[row]?).getD []

theorem notMem_line (b : Buffer) (row : Nat) : '\n' ∉ b.line row := by
  unfold line
  cases h : b.lines[row]? with
  | none => exact List.not_mem_nil
  | some p => exact Text.notMem_of_mem_fields (List.mem_of_getElem? h)

theorem take_position {row : Nat} (hr : row ≤ b.text.count '\n') (column : Nat) :
    b.text.take (b.position row column) =
      (b.lines.take row).flatMap (· ++ ['\n']) ++ (b.line row).take column := by
  have hlt : row < b.lines.length := by rw [length_lines]; omega
  have hline : b.line row = b.lines[row] := by
    rw [line, List.getElem?_eq_getElem hlt, Option.getD_some]
  have hsplit : b.lines = b.lines.take row ++ b.line row :: b.lines.drop (row + 1) := by
    rw [hline, List.getElem_cons_drop hlt, List.take_append_drop]
  obtain ⟨⟨rest, hs⟩, -⟩ := Text.fields_split hsplit
  -- the line is inside the text, so nothing is cut off at its end
  have hposition : b.position row column =
      ((b.lines.take row).flatMap (· ++ ['\n'])).length + min column (b.line row).length := by
    unfold position
    dsimp only
    rw [Nat.min_eq_left (by omega : row ≤ b.lines.length - 1), Text.foldl_lengths _ '\n',
      Nat.zero_add]
    refine Nat.min_eq_left ?_
    conv_rhs => rw [hs]
    rw [List.length_append, List.length_append]
    exact Nat.le_trans (Nat.add_le_add_left (Nat.min_le_right _ _) _) (Nat.le_add_right _ _)
  rw [hposition]
  conv_lhs => rw [hs]
  rw [List.append_assoc, List.take_length_add_append,
    List.take_append_of_le_length (Nat.min_le_right _ _), ← List.take_eq_take_min]

def aim (b : Buffer) : Nat :=
  match b.column with
  | none | some 0 => b.place
  | some column => column

def nearest (b : Buffer) (row : Nat) : Nat := min row (b.text.count '\n')

theorem nearest_le (b : Buffer) (row : Nat) : b.nearest row ≤ b.text.count '\n' :=
  Nat.min_le_right _ _

theorem position_nearest (b : Buffer) (row column : Nat) :
    b.position (b.nearest row) column = b.position row column := by
  have hrow : min (b.nearest row) (b.lines.length - 1) = min row (b.lines.length - 1) := by
    rw [length_lines, nearest]
    omega
  unfold position
  rw [hrow]

theorem before_moveTo (b : Buffer) (row : Nat) : (b.moveTo row).before =
    (b.lines.take (b.nearest row)).flatMap (· ++ ['\n']) ++ (b.line (b.nearest row)).take b.aim := by
  rw [← take_position (b.nearest_le row), position_nearest]
  rfl

/-- A move reaches the line that it aims at, or else the last one. -/
theorem row_moveTo (b : Buffer) (row : Nat) : (b.moveTo row).row = b.nearest row := by
  have hcolumn : ((b.line (b.nearest row)).take b.aim).count '\n' = 0 :=
    List.count_eq_zero.2 fun hm => b.notMem_line _ (List.mem_of_mem_take hm)
  have hlines : ∀ p ∈ b.lines.take (b.nearest row), '\n' ∉ p :=
    fun p hp => Text.notMem_of_mem_fields (List.mem_of_mem_take hp)
  have hle := b.nearest_le row
  rw [Buffer.row, before_moveTo, List.count_append, hcolumn, Text.count_flatMap_delimiter hlines,
    List.length_take, length_lines]
  omega

/-- In that line the point is where the move aims at, or else at the end. -/
theorem place_moveTo (b : Buffer) (row : Nat) :
    (b.moveTo row).place = min b.aim (b.line (b.nearest row)).length := by
  have hcolumn : '\n' ∉ (b.line (b.nearest row)).take b.aim :=
    fun hm => b.notMem_line _ (List.mem_of_mem_take hm)
  rw [place, before_moveTo, Text.takeWhile_reverse_flatMap hcolumn, List.length_reverse,
    List.length_take]

theorem count_text (b : Buffer) : b.text.count '\n' = b.row + b.after.count '\n' := by
  rw [row, ← List.count_append, before, after, List.take_append_drop]

/-- Up goes by as many lines as it is told, if there are so many above. -/
theorem row_up (b : Buffer) (count : Nat) : (b.up count).row + min count b.row = b.row := by
  have htext := b.count_text
  rw [up, row_moveTo, nearest]
  omega

/-- Down goes by as many lines as it is told, if there are so many below. -/
theorem row_down (b : Buffer) (count : Nat) :
    (b.down count).row = b.row + min count (b.after.count '\n') := by
  have htext := b.count_text
  rw [down, row_moveTo, nearest]
  omega

end Buffer
end ShellHistory
