import ShellHistory.Config
import ShellHistory.Dialect
import Mathlib.Data.List.Basic

/-! Lists of arguments given as one line. A variable cannot hold a list, and a document need not, so
there the arguments stand side by side with shell quoting. Whatever the arguments are, the line in
which each of them is quoted is read as these arguments and no others. -/

namespace ShellHistory

namespace Words

/-- Texts as the words of one line, each quoted. -/
def line (words : List String) : String := String.intercalate " " (words.map Dialect.bash.quote)

theorem toList_line (words : List String) :
    (line words).toList = [' '].intercalate ((words.map String.toList).map quoteChars) := by
  rw [line, String.toList_intercalate, List.map_map, List.map_map]
  congr 1
  exact List.map_congr_left fun w _ => String.toList_ofList

/-- A quoted text is never nothing, and a word starts with it. -/
theorem quoteChars_begins (s : List Char) :
    ∃ c more, quoteChars s = c :: more ∧ isSeparator c = false := by
  unfold quoteChars
  split
  · exact ⟨'\'', _, rfl, rfl⟩
  · next hs =>
    split
    · next hall =>
      obtain ⟨c, more, rfl⟩ := List.exists_cons_of_ne_nil hs
      exact ⟨c, more, rfl, isSeparator_of_isHarmless (List.all_eq_true.1 hall c List.mem_cons_self)⟩
    · exact ⟨'\'', _, rfl, rfl⟩

theorem splitFrom_gap_eq_bare {c : Char} (hc : isSeparator c = false) (rest : List Char) :
    splitFrom .gap [] (c :: rest) = splitFrom .bare [] (c :: rest) := by
  simp only [splitFrom, hc, Bool.false_eq_true, if_false]

theorem splitFrom_gap_quoteChars (s rest : List Char) :
    splitFrom .gap [] (quoteChars s ++ rest) = splitFrom .bare s.reverse rest := by
  obtain ⟨c, more, hs, hc⟩ := quoteChars_begins s
  have hbare := splitFrom_bare_quoteChars s [] rest
  rw [hs, List.cons_append] at hbare ⊢
  rw [splitFrom_gap_eq_bare hc, hbare, List.append_nil]

theorem splitFrom_intercalate (words : List (List Char)) :
    splitFrom .gap [] ([' '].intercalate (words.map quoteChars)) = .ok words := by
  induction words with
  | nil => rfl
  | cons w rest ih =>
    cases rest with
    | nil =>
      rw [List.map_singleton, List.intercalate_singleton, ← List.append_nil (quoteChars w),
        splitFrom_gap_quoteChars, splitFrom, List.reverse_reverse]
    | cons v rest =>
      rw [List.map_cons, List.map_cons, List.intercalate_cons_cons, List.append_assoc,
        splitFrom_gap_quoteChars, List.singleton_append, splitFrom, if_pos (by decide),
        ← List.map_cons, ih, List.reverse_reverse]
      rfl

/-- Reading a line of quoted words gives the words. -/
theorem split_line (words : List String) : split (line words) = .ok words := by
  rw [split, toList_line, splitFrom_intercalate]
  simp [Except.map]

example : line ["", "it's", "a b", "--session"] = "'' 'it'\"'\"'s' 'a b' --session" := by
  decide +kernel

end Words

namespace Value

theorem get?_insert_self (key : String) (v : Value) (entries : List (Value × Value)) :
    get? (insert (.text key) v entries) key = some v := by
  induction entries with
  | nil => simp [insert, get?, sameKey, sameBare, bare]
  | cons e rest ih =>
    obtain ⟨k, old⟩ := e
    unfold insert
    split
    · next hk => rw [get?, if_pos hk]
    · next hk => rw [get?, if_neg hk, ih]

theorem get?_insert_of_ne {key other : String} (h : other ≠ key) (v : Value)
    (entries : List (Value × Value)) :
    get? (insert (.text key) v entries) other = get? entries other := by
  refine get?_insert (.text key) v entries other ?_
  rw [Bool.eq_false_iff, ne_eq, sameKey_text_iff]
  exact fun he => h (by injection he with he; exact he.symm)

end Value

namespace Config

/-- The settings that are lists of arguments: those of the listing and those of a step. -/
inductive ArgumentList
  | history
  | move
  deriving DecidableEq, Repr

namespace ArgumentList

def name : ArgumentList → String
  | history => "VELLUM_HISTORY_ARGS"
  | move => "VELLUM_MOVE_ARGS"

def heading : ArgumentList → String
  | history => "history"
  | move => "move"

/-- A document that gives the list as `v`, beside what else it and the section hold. -/
def document (k : ArgumentList) (data entries : List (Value × Value)) (v : Value) : Value :=
  .map (Value.insert (.text k.heading) (.map (Value.insert (.text "args") v entries)) data)

def put (args : List String) : ArgumentList → Config → Config
  | history, c => { c with historyArgs := args }
  | move, c => { c with moveArgs := args }

end ArgumentList

variable (k : ArgumentList) (args : List String)

theorem argumentsOf_line (key : String) :
    argumentsOf key (some (.text (Words.line args))) = .ok args := by
  change (Words.split (Words.line args)).mapError Error.words = .ok args
  rw [Words.split_line]
  rfl

theorem argumentsOf_null (key : String) : argumentsOf key (some .null) = .ok [] := rfl

theorem sectionOf_insert_self (key : String) (entries data : List (Value × Value)) :
    sectionOf (Value.insert (.text key) (.map entries) data) key = .ok entries := by
  rw [sectionOf, Value.get?_insert_self]
  rfl

theorem sectionOf_insert_of_ne {key other : String} (h : other ≠ key) (v : Value)
    (data : List (Value × Value)) :
    sectionOf (Value.insert (.text key) v data) other = sectionOf data other := by
  rw [sectionOf, Value.get?_insert_of_ne h]
  rfl

/-- Of a set variable the others can tell as little as of one that is not there. -/
theorem get?_set_eq_erase {name other : String} (h : other ≠ name) (e : Environment)
    (value : String) : (e.set name value).get? other = (e.erase name).get? other := by
  rw [Environment.get?_set_of_ne e h, Environment.get?_erase_of_ne e h]

theorem argumentsIn_set (e : Environment) (name : String) (old : List String) :
    argumentsIn (e.set name (Words.line args)) name old = .ok args := by
  rw [argumentsIn, Environment.get?_set_self]
  exact Words.split_line args

theorem argumentsIn_erase (e : Environment) (name : String) (old : List String) :
    argumentsIn (e.erase name) name old = .ok old := by
  rw [argumentsIn, Environment.get?_erase_self]

theorem argumentsIn_set_of_ne {name other : String} (h : other ≠ name) (e : Environment)
    (value : String) (old : List String) :
    argumentsIn (e.set name value) other old = argumentsIn (e.erase name) other old := by
  rw [argumentsIn, get?_set_eq_erase h]
  rfl

theorem withEnvironment_set_line (c : Config) (e : Environment) :
    c.withEnvironment (e.set k.name (Words.line args)) =
      (c.withEnvironment (e.erase k.name)).map (k.put args) := by
  cases k with
  | history =>
    simp only [ArgumentList.name, withEnvironment, Environment.filled?, argumentsIn_set,
      argumentsIn_erase, ne_eq, String.reduceEq, not_false_eq_true, argumentsIn_set_of_ne,
      get?_set_eq_erase]
    cases argumentsIn (e.erase "VELLUM_HISTORY_ARGS") "VELLUM_MOVE_ARGS" c.moveArgs <;> rfl
  | move =>
    simp only [ArgumentList.name, withEnvironment, Environment.filled?, argumentsIn_set,
      argumentsIn_erase, ne_eq, String.reduceEq, not_false_eq_true, argumentsIn_set_of_ne,
      get?_set_eq_erase]
    cases argumentsIn (e.erase "VELLUM_MOVE_ARGS") "VELLUM_HISTORY_ARGS" c.historyArgs <;> rfl

section Bind

variable {ε α β : Type} {f f' : α → Except ε β} {g : β → β}

/-- What goes on alike up to a change of the result ends alike up to that change. -/
theorem bind_eq_map_bind {x : Except ε α} (h : ∀ a, f a = (f' a).map g) :
    x >>= f = (x >>= f').map g := by
  cases x with
  | error e => rfl
  | ok a => exact h a

theorem ok_bind_eq_map {a a' : α} (h : f a = (f' a').map g) :
    (Except.ok a >>= f) = (Except.ok a' >>= f').map g := h

end Bind

theorem ofValue_document_line (data entries : List (Value × Value)) :
    ofValue (k.document data entries (.text (Words.line args))) =
      (ofValue (k.document data entries .null)).map (k.put args) := by
  -- the sections are read one after the other, and only the one with the list from other entries
  cases k with
  | history =>
    simp only [ofValue, ArgumentList.document, ArgumentList.heading, Value.entries?, Value.opened,
      sectionOf_insert_self, ne_eq, String.reduceEq, not_false_eq_true, sectionOf_insert_of_ne,
      Value.get?_insert_of_ne]
    refine bind_eq_map_bind fun backend => bind_eq_map_bind fun selector =>
      bind_eq_map_bind fun height => ok_bind_eq_map ?_
    simp only [Value.get?_insert_self, argumentsOf_line, argumentsOf_null, ne_eq, String.reduceEq,
      not_false_eq_true, Value.get?_insert_of_ne]
    exact ok_bind_eq_map (bind_eq_map_bind fun move => bind_eq_map_bind fun moveArgs =>
      bind_eq_map_bind fun logging => rfl)
  | move =>
    simp only [ofValue, ArgumentList.document, ArgumentList.heading, Value.entries?, Value.opened,
      sectionOf_insert_self, ne_eq, String.reduceEq, not_false_eq_true, sectionOf_insert_of_ne,
      Value.get?_insert_of_ne]
    refine bind_eq_map_bind fun backend => bind_eq_map_bind fun selector =>
      bind_eq_map_bind fun height => bind_eq_map_bind fun history =>
      bind_eq_map_bind fun historyArgs => ok_bind_eq_map ?_
    simp only [Value.get?_insert_self, argumentsOf_line, argumentsOf_null]
    exact ok_bind_eq_map (bind_eq_map_bind fun logging => rfl)

/-- A list of arguments that is given as a line of quoted words, in a variable or in a document, is
read as it was, and all other settings are read as if it were not given. -/
theorem quoted_arguments_read :
    (∀ c : Config, c.withEnvironment ⟨[(k.name, Words.line args)]⟩ = .ok (k.put args c)) ∧
      (∀ (c : Config) (e : Environment), c.withEnvironment (e.set k.name (Words.line args)) =
        (c.withEnvironment (e.erase k.name)).map (k.put args)) ∧
      ofValue (k.document [] [] (.text (Words.line args))) = .ok (k.put args default) ∧
      ∀ data entries, ofValue (k.document data entries (.text (Words.line args))) =
        (ofValue (k.document data entries .null)).map (k.put args) := by
  refine ⟨fun c => ?_, fun c e => withEnvironment_set_line k args c e, ?_,
    fun data entries => ofValue_document_line k args data entries⟩
  · have h := withEnvironment_set_line k args c .empty
    cases k <;> exact h
  · rw [ofValue_document_line]
    cases k <;> rfl

end Config
end ShellHistory
