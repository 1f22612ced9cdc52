import ShellHistory.Yaml.Node
import ShellHistory.Yaml.Scalar

/-! The value of a document. A mapping may take over the entries of others with the key `<<`; its
own entries win over them, and of its own the last of a name wins. Collections are filled level by
level, so that of several faults the one at the least depth is met first. -/

namespace ShellHistory.Yaml.Document

inductive Error
  | malformed
  | noCharacter (code : Nat)
  | scalar (e : Scalar.Error)
  /-- A moment whose text is only the default value of a mapping. -/
  | momentOfMapping
  deriving DecidableEq, Repr

/-! ### Faults -/

structure Fault where
  depth : Nat
  error : Error
  deriving DecidableEq, Repr

def both {α β : Type} (x : Except Fault α) (y : Except Fault β) : Except Fault (α × β) :=
  match x, y with
  | .ok a, .ok b => .ok (a, b)
  | .error f, .ok _ => .error f
  | .ok _, .error g => .error g
  | .error f, .error g => .error (if g.depth < f.depth then g else f)

def every {α : Type} : List (Except Fault α) → Except Fault (List α)
  | [] => .ok []
  | x :: rest => (both x (every rest)).map fun (a, others) => a :: others

def malformed {α : Type} (depth : Nat) : Except Fault α := .error ⟨depth, .malformed⟩

/-! ### Shapes -/

inductive Shape
  | scalar (k : Scalar.Kind)
  | sequence
  | mapping
  | set
  /-- A list of single entries. -/
  | pairs
  deriving DecidableEq, Repr

def tagStart : String := "tag:yaml.org,2002:"

def tagShapes : List (String × Shape) :=
  [("bool", .scalar .bool), ("int", .scalar .int), ("float", .scalar .float),
   ("null", .scalar .null), ("timestamp", .scalar .moment), ("binary", .scalar .bytes),
   ("str", .scalar .text), ("merge", .scalar .merge), ("value", .scalar .default),
   ("seq", .sequence), ("map", .mapping), ("set", .set), ("omap", .pairs), ("pairs", .pairs)]

def shapeOfTag? (tag : String) : Option Shape :=
  tagShapes.findSome? fun (name, shape) => if tag = tagStart ++ name then some shape else none

/-- The shape of a node, if it is known: that of its tag, or else that of its look. -/
def shape? : Node → Option Shape
  | .scalar (some tag) _ _ | .unpaired (some tag) _ | .sequence (some tag) _
  | .mapping (some tag) _ => shapeOfTag? tag
  | .scalar none text plain => some (.scalar (if plain then Scalar.kindOf text else .text))
  | .unpaired none _ => some (.scalar .text)
  | .sequence none _ => some .sequence
  | .mapping none _ => some .mapping

variable (g : Graph)

/-- Whether a node is a mark: `<<` for entries taken over, `=` for a default value. -/
def isMark (k : Scalar.Kind) (number : Nat) : Bool :=
  (g.nodes[number]?.bind shape?) = some (.scalar k)

def isCollection (number : Nat) : Bool :=
  match g.nodes[number]?.bind shape? with
  | some (.scalar _) | none => false
  | some _ => true

/-- What a node is written as that stands for a scalar: a mapping does so by its default value. -/
def written? : (fuel : Nat) → Nat → Option (Text.Unpaired ⊕ String)
  | 0, _ => none
  | fuel + 1, number =>
    match g.nodes[number]? with
    | some (.scalar _ text _) => some (.inr text)
    | some (.unpaired _ t) => some (.inl t)
    | some (.mapping _ entries) =>
      (entries.find? fun (k, _) => isMark g .default k).bind fun (_, v) => written? fuel v
    | _ => none

/-- The entries of a mapping behind those that it takes over. Of a list of mappings that it takes
over, the first wins. A mapping that is taken over within itself, as the numbers in `around` tell,
gives its own entries only. -/
def entries? : (fuel : Nat) → (around : List Nat) → Nat → Option (List (Nat × Nat))
  | 0, _, _ => none
  | fuel + 1, around, number =>
    match g.nodes[number]? with
    | some (.mapping _ entries) => do
      let (marked, own) := entries.partition fun (k, _) => isMark g .merge k
      if around.contains number then return own
      let taken ← marked.mapM fun (_, v) =>
        match g.nodes[v]? with
        | some (.sequence _ items) =>
          (items.mapM (entries? fuel (number :: around))).map fun lists => lists.reverse.flatten
        | _ => entries? fuel (number :: around) v
      return taken.flatten ++ own
    | _ => none

/-! ### Values -/

def steps : Nat := g.nodes.size + 1

/-- The value with its number as a label, in a document that has aliases. -/
def label (number : Nat) (v : Value) : Value := if g.shared then .labelled number v else v

def isMapping (number : Nat) : Bool :=
  match g.nodes[number]? with
  | some (.mapping _ _) => true
  | _ => false

def scalarValue (k : Scalar.Kind) (number : Nat) : Except Error Value :=
  match written? g (steps g) number with
  | none => .error .malformed
  | some written =>
    if k = .moment && isMapping g number then .error .momentOfMapping
    else
      match Scalar.toValue? k written with
      | .ok (some v) => .ok (if k = .moment then label g number v else v)
      | .ok none => .error .malformed
      | .error e => .error (.scalar e)

def entry (part : Nat → Except Fault Value) (depth : Nat) (k v : Nat) :
    Except Fault (Value × Value) :=
  let key :=
    if isCollection g k then malformed depth
    else if isMark g .default k then
      match written? g (steps g) k with
      | some written => .ok (Scalar.textOf written)
      | none => malformed depth
    else part k
  both key (part v)

/-- The value of a node at a depth. Within itself, as the numbers in `around` tell, it is only its
label. -/
def value : (fuel : Nat) → (around : List Nat) → (depth : Nat) → Nat → Except Fault Value
  | 0, _, depth, _ => malformed depth
  | fuel + 1, around, depth, number =>
    if around.contains number then .ok (.again number)
    else
      match g.nodes[number]? with
      | none => malformed depth
      | some n =>
        let part := value fuel (number :: around) (depth + 1)
        let entries : Except Fault (List (Value × Value)) :=
          match entries? g (steps g) [] number with
          | some es => every (es.map fun (k, v) => entry g part (depth + 1) k v)
          | none => malformed (depth + 1)
        match shape? n, n with
        | none, _ => malformed depth
        | some (.scalar k), _ => (scalarValue g k number).mapError (⟨depth, ·⟩)
        | some .mapping, _ => entries.map fun es => label g number (.ofEntries es)
        | some .set, _ =>
          entries.map fun es => label g number (.ofMembers (es.map Prod.fst))
        | some .sequence, .sequence _ items =>
          (every (items.map part)).map fun vs => label g number (.list vs)
        | some .pairs, .sequence _ items =>
          let pairs := items.map fun item =>
            match g.nodes[item]? with
            | some (.mapping _ [(k, v)]) => (both (part k) (part v)).map fun (k, v) => .pair k v
            | _ => malformed (depth + 1)
          (every pairs).map fun vs => label g number (.list vs)
        | some .sequence, _ | some .pairs, _ => malformed (depth + 1)

/-- The value of a text's only document; an empty text has none. -/
def read (text : String) : Except Error Value :=
  match Graph.ofText? text.toList with
  | .error .malformed => .error .malformed
  | .error (.noCharacter code) => .error (.noCharacter code)
  | .ok none => .ok .null
  | .ok (some g) => (value g (steps g) [] 0 g.root).mapError Fault.error

end ShellHistory.Yaml.Document
