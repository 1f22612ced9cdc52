import Mathlib.Data.List.Basic
import ShellHistory.Proofs.Preparation

/-! Environments laid over a configuration, one after the other. Each setting has a variable of its
own and one of three rules by which it counts, so what two environments make of a configuration is
what a single one makes of it, in which the second hides the first wherever its variables count. -/

namespace ShellHistory

inductive Setting
  | binary
  | selector
  | selectorOptions
  | selectorHeight
  | historyArgs
  | moveArgs
  | editor
  | logLevel
  | logFile
  deriving DecidableEq, Repr

namespace Setting

/-- When a variable counts: when it is there, when it is not empty, or when it is there, with the
words of its value. -/
inductive Rule
  | present
  | filled
  | words
  deriving DecidableEq, Repr

def name : Setting → String
  | binary => "VELLUM_BIN"
  | selector => "VELLUM_SELECTOR"
  | selectorOptions => "FZF_CTRL_R_OPTS"
  | selectorHeight => "FZF_TMUX_HEIGHT"
  | historyArgs => "VELLUM_HISTORY_ARGS"
  | moveArgs => "VELLUM_MOVE_ARGS"
  | editor => "VELLUM_EDITOR"
  | logLevel => "VELLUM_SHELL_LOG_LEVEL"
  | logFile => "VELLUM_SHELL_LOG"

def rule : Setting → Rule
  | binary | selector | selectorOptions => .present
  | selectorHeight | editor | logLevel | logFile => .filled
  | historyArgs | moveArgs => .words

def of (c : Config) : Setting → Value
  | binary => c.binary
  | selector => c.selector
  | selectorOptions => c.selectorOptions
  | selectorHeight => .text c.selectorHeight
  | historyArgs => .list (c.historyArgs.map .text)
  | moveArgs => .list (c.moveArgs.map .text)
  | editor => c.editor
  | logLevel => c.logLevel
  | logFile => c.logFile

namespace Rule

/-- What a rule makes of a setting whose variable has this value. -/
def apply : Rule → Option String → Value → Except Words.Error Value
  | _, none, old => .ok old
  | present, some s, _ => .ok (.text s)
  | filled, some s, old => .ok (if s = "" then old else .text s)
  | words, some s, _ => (Words.split s).map fun args => .list (args.map .text)

def combine (r : Rule) (lower upper : Option String) : Option String :=
  if r = filled ∧ upper = some "" then lower else upper.or lower

variable {r : Rule} {lower upper : Option String} {old x y : Value}

theorem apply_combine (hx : r.apply lower old = .ok x) (hy : r.apply upper x = .ok y) :
    r.apply (r.combine lower upper) old = .ok y := by
  unfold combine
  cases upper with
  | none =>
    cases hy
    rw [if_neg nofun]
    exact hx
  | some s =>
    cases r with
    | present => exact hy
    | words => exact hy
    | filled =>
      by_cases hs : s = ""
      · subst hs
        cases hy
        exact hx
      · rw [if_neg fun h => hs (Option.some.inj h.2)]
        simpa [apply, hs] using hy

theorem apply_again (hx : r.apply upper old = .ok x) : r.apply upper x = .ok x := by
  cases upper with
  | none => rfl
  | some s =>
    cases r with
    | present => exact hx
    | words => exact hx
    | filled =>
      by_cases hs : s = "" <;> simp_all [apply]

theorem apply_present (upper : Option String) (old : Value) :
    present.apply upper old = .ok ((upper.map .text).getD old) := by
  cases upper <;> rfl

theorem apply_filled (e : Environment) (name : String) (old : Value) :
    filled.apply (e.get? name) old = .ok (((e.filled? name).map .text).getD old) := by
  unfold Environment.filled?
  cases e.get? name with
  | none => rfl
  | some s => by_cases hs : s = "" <;> simp [apply, hs, Option.filter]

theorem apply_words (e : Environment) (name : String) (old : List String) :
    words.apply (e.get? name) (.list (old.map .text)) =
      (Config.argumentsIn e name old).map fun args => .list (args.map .text) := by
  unfold Config.argumentsIn
  cases e.get? name <;> rfl

end Rule

end Setting

namespace Environment

/-- The variables that do not count when they are empty. -/
def filledNames : List String :=
  ["FZF_TMUX_HEIGHT", "VELLUM_EDITOR", "VELLUM_SHELL_LOG_LEVEL", "VELLUM_SHELL_LOG"]

def Yields (upper : Environment) (name : String) : Prop :=
  name ∈ filledNames ∧ upper.get? name = some ""

instance (upper : Environment) (name : String) : Decidable (upper.Yields name) :=
  inferInstanceAs (Decidable (_ ∧ _))

/-- An environment that has what two have, the second over the first. -/
def Layered (lower upper m : Environment) : Prop :=
  ∀ name, m.get? name =
    if upper.Yields name then lower.get? name else (upper.get? name).or (lower.get? name)

def layer (lower upper : Environment) : Environment :=
  ⟨(upper.vars.filter fun (n, _) => ¬upper.Yields n) ++ lower.vars⟩

theorem lookup_filter (p : String → Bool) (vars : List (String × String)) (name : String) :
    (vars.filter fun (n, _) => p n).lookup name = if p name then vars.lookup name else none := by
  induction vars with
  | nil => simp
  | cons v rest ih =>
    obtain ⟨n, value⟩ := v
    by_cases hn : name = n
    · subst hn
      by_cases hp : p name = true
      · simp [hp]
      · simpa [hp] using ih
    · have hne : (name == n) = false := by simpa using hn
      by_cases hp : p n = true
      · simpa [hp, List.lookup_cons, hne] using ih
      · simpa [hp, List.lookup_cons, hne] using ih

theorem layered_layer (lower upper : Environment) : Layered lower upper (layer lower upper) := by
  intro name
  rw [get?, layer, List.lookup_append, lookup_filter fun n => ¬upper.Yields n]
  by_cases h : upper.Yields name
  · simp [h, get?]
  · simp [h, get?]

end Environment

theorem Setting.name_mem_filledNames_iff (s : Setting) :
    s.name ∈ Environment.filledNames ↔ s.rule = .filled := by
  cases s <;> decide

theorem Setting.get?_of_layered {lower upper m : Environment} (h : lower.Layered upper m)
    (s : Setting) :
    m.get? s.name = s.rule.combine (lower.get? s.name) (upper.get? s.name) := by
  rw [h s.name, Rule.combine]
  exact if_congr (and_congr_left fun _ => s.name_mem_filledNames_iff) rfl rfl

namespace Config

variable {c d : Config} {e : Environment}

theorem map_text_injective {args args' : List String}
    (h : Value.list (args.map .text) = .list (args'.map .text)) : args = args' :=
  List.map_injective_iff.2 (fun _ _ h => Value.text.inj h) (Value.list.inj h)

/-- Besides its settings a configuration has only the restriction to the session. -/
theorem eq_of_settings (h : ∀ s : Setting, s.of c = s.of d) (hs : c.sessionOnly = d.sessionOnly) :
    c = d := by
  have hheight := Value.text.inj (h .selectorHeight)
  have hhistory := map_text_injective (h .historyArgs)
  have hmove := map_text_injective (h .moveArgs)
  have hbinary := h .binary
  have hselector := h .selector
  have hoptions := h .selectorOptions
  have heditor := h .editor
  have hlevel := h .logLevel
  have hfile := h .logFile
  cases c
  cases d
  simp_all [Setting.of]

/-- An environment is applied setting by setting, each by the rule and the variable of its own. -/
theorem apply_of_withEnvironment (h : c.withEnvironment e = .ok d) (s : Setting) :
    s.rule.apply (e.get? s.name) (s.of c) = .ok (s.of d) := by
  unfold withEnvironment at h
  obtain ⟨historyArgs, hhistory, h⟩ := Act.except_bind_ok h
  obtain ⟨moveArgs, hmove, h⟩ := Act.except_bind_ok h
  cases h
  cases s with
  | binary | selector | selectorOptions => exact Setting.Rule.apply_present _ _
  | editor | logLevel | logFile => exact Setting.Rule.apply_filled e _ _
  | selectorHeight =>
    refine (Setting.Rule.apply_filled e _ _).trans ?_
    cases h : e.filled? "FZF_TMUX_HEIGHT" <;> simp [Setting.of, Setting.name, h]
  | historyArgs =>
    refine (Setting.Rule.apply_words e _ _).trans ?_
    rw [show Setting.historyArgs.name = "VELLUM_HISTORY_ARGS" from rfl, hhistory]
    rfl
  | moveArgs =>
    refine (Setting.Rule.apply_words e _ _).trans ?_
    rw [show Setting.moveArgs.name = "VELLUM_MOVE_ARGS" from rfl, hmove]
    rfl

theorem sessionOnly_of_withEnvironment (h : c.withEnvironment e = .ok d) :
    d.sessionOnly = c.sessionOnly := by
  unfold withEnvironment at h
  obtain ⟨historyArgs, -, h⟩ := Act.except_bind_ok h
  obtain ⟨moveArgs, -, h⟩ := Act.except_bind_ok h
  cases h
  rfl

theorem argumentsIn_of_apply {name : String} {old args : List String}
    (h : Setting.Rule.words.apply (e.get? name) (.list (old.map .text)) =
      .ok (.list (args.map .text))) : argumentsIn e name old = .ok args := by
  rw [Setting.Rule.apply_words] at h
  cases ha : argumentsIn e name old with
  | error w =>
    rw [ha] at h
    cases h
  | ok args' =>
    rw [ha] at h
    rw [map_text_injective (Except.ok.inj h)]

/-- A configuration in which every setting is as the rules have it is what the environment makes. -/
theorem withEnvironment_of_apply
    (h : ∀ s : Setting, s.rule.apply (e.get? s.name) (s.of c) = .ok (s.of d))
    (hs : d.sessionOnly = c.sessionOnly) : c.withEnvironment e = .ok d := by
  have hhistory := argumentsIn_of_apply (h .historyArgs)
  have hmove := argumentsIn_of_apply (h .moveArgs)
  cases hd : c.withEnvironment e with
  | error w =>
    unfold withEnvironment at hd
    rw [show Setting.historyArgs.name = "VELLUM_HISTORY_ARGS" from rfl] at hhistory
    rw [show Setting.moveArgs.name = "VELLUM_MOVE_ARGS" from rfl] at hmove
    rw [hhistory, hmove] at hd
    cases hd
  | ok d' =>
    refine congrArg Except.ok (eq_of_settings (fun s => ?_) ?_)
    · exact Except.ok.inj ((apply_of_withEnvironment hd s).symm.trans (h s))
    · rw [sessionOnly_of_withEnvironment hd, hs]

/-- Of two environments, one after the other, the configuration is that of a single one. -/
theorem withEnvironment_of_layered {c₁ c₂ : Config} {e₁ e₂ m : Environment}
    (h₁ : c.withEnvironment e₁ = .ok c₁) (h₂ : c₁.withEnvironment e₂ = .ok c₂)
    (hm : e₁.Layered e₂ m) : c.withEnvironment m = .ok c₂ := by
  refine withEnvironment_of_apply (fun s => ?_) ?_
  · rw [s.get?_of_layered hm]
    exact Setting.Rule.apply_combine (apply_of_withEnvironment h₁ s) (apply_of_withEnvironment h₂ s)
  · rw [sessionOnly_of_withEnvironment h₂, sessionOnly_of_withEnvironment h₁]

theorem withEnvironment_again (h : c.withEnvironment e = .ok d) : d.withEnvironment e = .ok d :=
  withEnvironment_of_apply (fun s => Setting.Rule.apply_again (apply_of_withEnvironment h s)) rfl

/-- A setting does not depend on any other, nor on a variable that is not its own. -/
theorem of_eq_of_withEnvironment {c' d' : Config} {e' : Environment}
    (h : c.withEnvironment e = .ok d) (h' : c'.withEnvironment e' = .ok d') {s : Setting}
    (hc : s.of c = s.of c') (he : e.get? s.name = e'.get? s.name) : s.of d = s.of d' := by
  have hs := apply_of_withEnvironment h s
  rw [hc, he, apply_of_withEnvironment h' s] at hs
  exact (Except.ok.inj hs).symm

theorem withEnvironment_error_iff (c : Config) (e : Environment) :
    (∃ w, c.withEnvironment e = .error w) ↔
      ∃ name ∈ ["VELLUM_HISTORY_ARGS", "VELLUM_MOVE_ARGS"], ∃ line w,
        e.get? name = some line ∧ Words.split line = .error w := by
  constructor
  · rintro ⟨w, h⟩
    obtain ⟨name, line, hname, hget, hsplit⟩ := withEnvironment_error h
    exact ⟨name, by simpa using hname, line, w, hget, hsplit⟩
  · rintro ⟨name, hname, line, w, hget, hsplit⟩
    cases hd : c.withEnvironment e with
    | error w => exact ⟨w, rfl⟩
    | ok d =>
      exfalso
      rw [List.mem_cons, List.mem_singleton] at hname
      -- the setting of the variable would be the words of a line that has none
      rcases hname with rfl | rfl
      · have hs := apply_of_withEnvironment hd .historyArgs
        simp [Setting.rule, Setting.name, Setting.Rule.apply, hget, hsplit, Except.map] at hs
      · have hs := apply_of_withEnvironment hd .moveArgs
        simp [Setting.rule, Setting.name, Setting.Rule.apply, hget, hsplit, Except.map] at hs

/-- Two environments laid over a configuration make of it what one does that has the variables of
both, the second over the first, though not where a variable does not count when it is empty. The
same environment once more changes nothing. Each setting is made of itself and of its own variable,
and the restriction to the session stays. Only a list of arguments that is badly quoted is refused. -/
theorem environments_layered (c : Config) (e₁ e₂ : Environment) :
    e₁.Layered e₂ (e₁.layer e₂) ∧
      (∀ c₁ c₂ m, c.withEnvironment e₁ = .ok c₁ → c₁.withEnvironment e₂ = .ok c₂ →
        e₁.Layered e₂ m → c.withEnvironment m = .ok c₂) ∧
      (∀ c₁, c.withEnvironment e₁ = .ok c₁ →
        c₁.withEnvironment e₁ = .ok c₁ ∧ c₁.sessionOnly = c.sessionOnly) ∧
      (∀ (s : Setting) (c' d d' : Config), c.withEnvironment e₁ = .ok d →
        c'.withEnvironment e₂ = .ok d' → s.of c = s.of c' → e₁.get? s.name = e₂.get? s.name →
        s.of d = s.of d') ∧
      ((∃ w, c.withEnvironment e₁ = .error w) ↔
        ∃ name ∈ ["VELLUM_HISTORY_ARGS", "VELLUM_MOVE_ARGS"], ∃ line w,
          e₁.get? name = some line ∧ Words.split line = .error w) :=
  ⟨e₁.layered_layer e₂, fun _ _ _ h₁ h₂ hm => withEnvironment_of_layered h₁ h₂ hm,
    fun _ h => ⟨withEnvironment_again h, sessionOnly_of_withEnvironment h⟩,
    fun _ _ _ _ h h' hc he => of_eq_of_withEnvironment h h' hc he,
    withEnvironment_error_iff c e₁⟩

/-- An empty editor lets the one below through. An empty selector and empty arguments count. -/
theorem environments_layered_sample :
    default.withEnvironment (Environment.layer
      ⟨[("VELLUM_EDITOR", "vi"), ("VELLUM_SELECTOR", "sk"), ("VELLUM_MOVE_ARGS", "-n 'a b'")]⟩
      ⟨[("VELLUM_EDITOR", ""), ("VELLUM_SELECTOR", ""), ("VELLUM_MOVE_ARGS", "")]⟩) =
      .ok { default with editor := .text "vi", selector := .text "", moveArgs := [] } := by
  obtain ⟨hlayered, hcompose, -⟩ := environments_layered default
    ⟨[("VELLUM_EDITOR", "vi"), ("VELLUM_SELECTOR", "sk"), ("VELLUM_MOVE_ARGS", "-n 'a b'")]⟩
    ⟨[("VELLUM_EDITOR", ""), ("VELLUM_SELECTOR", ""), ("VELLUM_MOVE_ARGS", "")]⟩
  exact hcompose
    { default with editor := .text "vi", selector := .text "sk", moveArgs := ["-n", "a b"] }
    _ _ rfl rfl hlayered

end Config
end ShellHistory
