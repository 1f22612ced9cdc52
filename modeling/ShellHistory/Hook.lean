import ShellHistory.Navigation

/-! Hooks: what a shell calls before it runs a line and before it draws a prompt. They are called in
the order in which they were registered, and nothing is registered twice by itself. -/

namespace ShellHistory

inductive Event
  | preexec
  | precmd
  deriving DecidableEq, Repr

def Event.name : Event → String
  | preexec => "preexec"
  | precmd => "precmd"

def Event.ofName? (s : String) : Option Event :=
  if s = "preexec" then some .preexec else if s = "precmd" then some .precmd else none

namespace Hook

inductive Ending
  | quiet
  | failing
  | interrupting
  deriving DecidableEq, Repr

inductive Action
  /-- Stores the line that is run. -/
  | capture (session : Session)
  /-- Ends the walk through the history of an integration, told by its number. -/
  | reset (integration : Nat)
  /-- Notes its name and arguments, registers observers by name and ending, and ends as told. -/
  | observe (ending : Ending) (adds : List (String × Ending))
  deriving DecidableEq, Repr

end Hook

structure Hook where
  name : String
  event : Event
  action : Hook.Action
  deriving DecidableEq, Repr

namespace Hook

def captureOf (s : Session) : Hook := ⟨"vellum-capture", .preexec, .capture s⟩

def resetOf (integration : Nat) : Hook := ⟨"vellum-reset", .precmd, .reset integration⟩

def observer (name : String) (event : Event) (ending : Ending) (adds : List (String × Ending)) :
    Hook :=
  ⟨name, event, .observe ending adds⟩

/-- The hooks that a hook registers when it is called. They register none themselves. -/
def added (h : Hook) : List Hook :=
  match h.action with
  | .observe _ adds => adds.map fun (name, ending) => observer name h.event ending []
  | _ => []

def weight : List Hook → Nat
  | [] => 0
  | h :: rest => 1 + h.added.length + weight rest

theorem weight_append (hs ks : List Hook) : weight (hs ++ ks) = weight hs + weight ks := by
  induction hs with
  | nil => simp [weight]
  | cons h rest ih =>
    simp only [List.cons_append, weight, ih]
    omega

theorem weight_observers (event : Event) (adds : List (String × Ending)) :
    weight (adds.map fun (name, ending) => observer name event ending []) = adds.length := by
  induction adds with
  | nil => rfl
  | cons add rest ih =>
    rw [List.map_cons, weight, ih, List.length_cons]
    simp only [added, observer, List.map_nil, List.length_nil]
    omega

theorem weight_added (h : Hook) : weight h.added = h.added.length := by
  unfold added
  split
  · rw [weight_observers, List.length_map]
  · rfl

end Hook

/-- The hooks of each event, in the order of their registration. -/
structure Registry where
  preexec : List Hook
  precmd : List Hook
  deriving DecidableEq, Repr

namespace Registry

def empty : Registry := ⟨[], []⟩

def hooks (r : Registry) : Event → List Hook
  | .preexec => r.preexec
  | .precmd => r.precmd

def names (r : Registry) (event : Event) : List String := (r.hooks event).map Hook.name

def register (r : Registry) (h : Hook) : Registry :=
  match h.event with
  | .preexec => { r with preexec := r.preexec ++ [h] }
  | .precmd => { r with precmd := r.precmd ++ [h] }

theorem hooks_register (r : Registry) (h : Hook) (event : Event) :
    (r.register h).hooks event = r.hooks event ++ if h.event = event then [h] else [] := by
  obtain ⟨name, e, action⟩ := h
  cases e <;> cases event <;> simp [register, hooks]

end Registry
end ShellHistory
