/-! Environment variables: names with values, each name at most once as long as variables are set
through `set`. -/

namespace ShellHistory

structure Environment where
  vars : List (String × String)
  deriving DecidableEq, Repr

namespace Environment

def empty : Environment := ⟨[]⟩

def get? (e : Environment) (name : String) : Option String := e.vars.lookup name

def has (e : Environment) (name : String) : Bool := (e.get? name).isSome

def names (e : Environment) : List String := e.vars.map Prod.fst

def texts (e : Environment) : List String :=
  e.names.flatMap fun name => [name, (e.get? name).getD ""]

def filled? (e : Environment) (name : String) : Option String := (e.get? name).filter (· ≠ "")

def setIn (name value : String) : List (String × String) → List (String × String)
  | [] => [(name, value)]
  | (n, v) :: rest => if n = name then (n, value) :: rest else (n, v) :: setIn name value rest

def set (e : Environment) (name value : String) : Environment := ⟨setIn name value e.vars⟩

def erase (e : Environment) (name : String) : Environment :=
  ⟨e.vars.filter fun (n, _) => n ≠ name⟩

def merge (e added : Environment) : Environment :=
  added.vars.foldl (fun e (name, value) => e.set name value) e

theorem mem_names_iff {e : Environment} {name : String} :
    name ∈ e.names ↔ ∃ value, e.get? name = some value := by
  rw [← Option.isSome_iff_exists, get?, List.lookup_isSome_iff, names, List.mem_map]
  exact exists_congr fun v => and_congr_right fun _ => eq_comm.trans beq_iff_eq.symm

theorem mem_texts_iff {e : Environment} {text : String} :
    text ∈ e.texts ↔ ∃ name value, e.get? name = some value ∧ (text = name ∨ text = value) := by
  simp only [texts, List.mem_flatMap, mem_names_iff]
  constructor
  · rintro ⟨name, ⟨value, hv⟩, ht⟩
    exact ⟨name, value, hv, by simpa [hv] using ht⟩
  · rintro ⟨name, value, hv, ht⟩
    exact ⟨name, ⟨value, hv⟩, by simpa [hv] using ht⟩

@[simp] theorem get?_set_self (e : Environment) (name value : String) :
    (e.set name value).get? name = some value := by
  obtain ⟨vars⟩ := e
  simp only [set, get?]
  induction vars with
  | nil => simp [setIn]
  | cons v rest ih =>
    obtain ⟨n, _⟩ := v
    by_cases h : n = name
    · simp [setIn, h]
    · have h' : (name == n) = false := by simpa using fun e => h e.symm
      simp [setIn, h, List.lookup_cons, h', ih]

theorem get?_set_of_ne (e : Environment) {name other : String} (h : other ≠ name) (value : String) :
    (e.set name value).get? other = e.get? other := by
  obtain ⟨vars⟩ := e
  have h' : (other == name) = false := by simpa using h
  simp only [set, get?]
  induction vars with
  | nil => simp [setIn, List.lookup_cons, h']
  | cons v rest ih =>
    obtain ⟨n, _⟩ := v
    by_cases hn : n = name
    · subst hn
      simp [setIn, List.lookup_cons, h']
    · simp only [setIn, hn, if_false, List.lookup_cons, ih]

@[simp] theorem get?_erase_self (e : Environment) (name : String) :
    (e.erase name).get? name = none := by
  obtain ⟨vars⟩ := e
  simp only [erase, get?]
  induction vars with
  | nil => rfl
  | cons v rest ih =>
    obtain ⟨n, _⟩ := v
    by_cases h : n = name
    · simpa [h] using ih
    · have h' : (name == n) = false := by simpa using fun e => h e.symm
      simpa [h, List.lookup_cons, h'] using ih

theorem get?_erase_of_ne (e : Environment) {name other : String} (h : other ≠ name) :
    (e.erase name).get? other = e.get? other := by
  obtain ⟨vars⟩ := e
  have h' : (other == name) = false := by simpa using h
  simp only [erase, get?]
  induction vars with
  | nil => rfl
  | cons v rest ih =>
    obtain ⟨n, _⟩ := v
    by_cases hn : n = name
    · subst hn
      simpa [List.lookup_cons, h'] using ih
    · simp only [hn, ne_eq, not_false_eq_true, decide_true, List.filter_cons_of_pos,
        List.lookup_cons, ih]

end Environment
end ShellHistory
