import ShellHistory.Config
import ShellHistory.Proofs.Act

/-! Configurations shown and read back. What is made of a setting when it is read is left as it is
when it is read once more; so a configuration that has been read, from a document or with an
environment laid over it, comes back whole from the document that shows it. -/

namespace ShellHistory

def Value.at? (v : Value) : List String → Option Value
  | [] => some v
  | key :: path =>
    match v.entries? with
    | none => none
    | some entries => (get? entries key).bind (at? · path)

namespace Config

def Normal (c : Config) : Prop :=
  c.selectorOptions.isSet = true ∨ c.selectorOptions = default.selectorOptions

def normalized (c : Config) : Config :=
  { c with selectorOptions :=
      if c.selectorOptions.isSet then c.selectorOptions else default.selectorOptions }

theorem normal_normalized (c : Config) : c.normalized.Normal := by
  unfold Normal normalized
  by_cases h : c.selectorOptions.isSet = true
  · exact .inl (by simp [h])
  · exact .inr (by simp [h])

theorem normalized_eq_self_iff {c : Config} : c.normalized = c ↔ c.Normal := by
  constructor
  · intro h
    rw [← h]
    exact c.normal_normalized
  · intro h
    obtain ⟨binary, selector, options, height, args, only, moveArgs, editor, level, file⟩ := c
    by_cases hs : options.isSet = true
    · simp [normalized, hs]
    · have ho : options = default.selectorOptions := h.resolve_left hs
      simp [normalized, ho]

theorem mapM_textOf_text (args : List String) : (args.map Value.text).mapM textOf = .ok args := by
  rw [mapM_textOf, if_neg (by simp [Value.hasLongNumber]), List.map_map]
  simp [Function.comp_def, Value.toText, Value.bare]

/-- Any configuration can be shown and read, and only its options can be told anew. -/
theorem ofValue_toValue (c : Config) : ofValue c.toValue = .ok c.normalized := by
  have hread : ofValue c.toValue = do
      let historyArgs ← (c.historyArgs.map Value.text).mapM textOf
      let moveArgs ← (c.moveArgs.map Value.text).mapM textOf
      return { c.normalized with historyArgs, moveArgs } := rfl
  rw [hread, mapM_textOf_text, mapM_textOf_text]
  rfl

theorem ofValue_toValue_eq_self_iff {c : Config} : ofValue c.toValue = .ok c ↔ c.Normal := by
  rw [ofValue_toValue, Except.ok.injEq, normalized_eq_self_iff]

theorem normal_of_ofValue {v : Value} {c : Config} (h : ofValue v = .ok c) : c.Normal := by
  unfold ofValue at h
  split at h
  · next data _ =>
    obtain ⟨backend, -, h⟩ := Act.except_bind_ok h
    obtain ⟨selector, -, h⟩ := Act.except_bind_ok h
    obtain ⟨height, -, h⟩ := Act.except_bind_ok h
    obtain ⟨history, -, h⟩ := Act.except_bind_ok h
    obtain ⟨historyArgs, -, h⟩ := Act.except_bind_ok h
    obtain ⟨move, -, h⟩ := Act.except_bind_ok h
    obtain ⟨moveArgs, -, h⟩ := Act.except_bind_ok h
    obtain ⟨logging, -, h⟩ := Act.except_bind_ok h
    cases h
    dsimp only [Normal]
    split
    · next hs => exact .inl hs
    · exact .inr rfl
  · cases h

/-- The options that an environment gives are a text, and an empty text is what they are told as. -/
theorem Normal.withEnvironment {c c' : Config} {e : Environment} (hc : c.Normal)
    (h : c.withEnvironment e = .ok c') : c'.Normal := by
  unfold Config.withEnvironment at h
  obtain ⟨historyArgs, -, h⟩ := Act.except_bind_ok h
  obtain ⟨moveArgs, -, h⟩ := Act.except_bind_ok h
  cases h
  unfold Normal
  dsimp only
  cases e.get? "FZF_CTRL_R_OPTS" with
  | none => exact hc
  | some options =>
    by_cases ho : options = ""
    · subst ho
      exact .inr rfl
    · exact .inl (by simpa [Value.isSet] using ho)

/-- A configuration that has been read, with an environment laid over it or without, is shown by a
document that is read as the same configuration, every setting of the same value and kind. In it
the arguments are lists of texts, the restriction to the session is a truth value and the height a
text. -/
theorem shown_read_back {v : Value} {e : Environment} {c : Config}
    (h : ofValue v = .ok c ∨ ∃ c₀, ofValue v = .ok c₀ ∧ c₀.withEnvironment e = .ok c) :
    ofValue c.toValue = .ok c ∧ (ofValue c.toValue).map toValue = .ok c.toValue ∧
      c.toValue.at? ["history", "args"] = some (.list (c.historyArgs.map .text)) ∧
      c.toValue.at? ["move", "args"] = some (.list (c.moveArgs.map .text)) ∧
      c.toValue.at? ["history", "session_only"] = some (.bool c.sessionOnly) ∧
      c.toValue.at? ["selector", "height"] = some (.text c.selectorHeight) := by
  have hnormal : c.Normal := by
    rcases h with h | ⟨c₀, h₀, he⟩
    · exact normal_of_ofValue h
    · exact (normal_of_ofValue h₀).withEnvironment he
  have hback : ofValue c.toValue = .ok c := ofValue_toValue_eq_self_iff.2 hnormal
  refine ⟨hback, ?_, rfl, rfl, rfl, rfl⟩
  rw [hback]
  rfl

/-- A document whose settings are of other kinds than they are used as, or not there at all. -/
def oddDocument : Value := .labelled 0 (.map [
  entry "backend" (.map [entry "binary" (.again 0)]),
  entry "selector" (.map [entry "options" (.float (.zero true)), entry "height" (.int 50)]),
  entry "history" (.map [entry "args" (.list [.int 1, .null]), entry "session_only" (.text "no")]),
  entry "move" .null,
  entry "editor" (.list [])])

def oddSettings : Config :=
  { default with
    binary := oddDocument
    selectorHeight := "50"
    historyArgs := ["1", "None"]
    sessionOnly := true
    editor := .list [] }

theorem shown_read_back_sample : ofValue oddDocument = .ok oddSettings ∧
    oddSettings.withEnvironment ⟨[("VELLUM_MOVE_ARGS", "--host 'my laptop'")]⟩ =
      .ok { oddSettings with moveArgs := ["--host", "my laptop"] } ∧
    ofValue { oddSettings with moveArgs := ["--host", "my laptop"] }.toValue =
      .ok { oddSettings with moveArgs := ["--host", "my laptop"] } := by
  have h₀ : ofValue oddDocument = .ok oddSettings := by
    rfl
  have h : oddSettings.withEnvironment ⟨[("VELLUM_MOVE_ARGS", "--host 'my laptop'")]⟩ =
      .ok { oddSettings with moveArgs := ["--host", "my laptop"] } := by
    rfl
  exact ⟨h₀, h, (shown_read_back (.inr ⟨_, h₀, h⟩)).1⟩

end Config
end ShellHistory
