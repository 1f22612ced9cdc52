import ShellHistory.Yaml.Token

/-! The nodes of a document: what its tokens spell out, with tags written in full. Nodes are
numbered as they begin, and an alias is the number of the node it stands for, which may be one
around it. -/

namespace ShellHistory.Yaml

/-- A node with the numbers of its parts. A scalar keeps whether its value decides its kind, which
is so when it is plain. -/
inductive Node
  | scalar (tag : Option String) (text : String) (plain : Bool)
  | unpaired (tag : Option String) (t : Text.Unpaired)
  | sequence (tag : Option String) (items : List Nat)
  | mapping (tag : Option String) (entries : List (Nat × Nat))
  deriving DecidableEq, Repr

structure Graph where
  nodes : Array Node
  root : Nat
  /-- Whether there are aliases. -/
  shared : Bool

namespace Graph

/-- The tokens ahead, the tag handles in force, the nodes that have begun, and the anchors. -/
structure State where
  tokens : List Token
  handles : List (String × String)
  nodes : Array Node
  anchors : List (String × Nat)
  shared : Bool

abbrev Reader := StateT State (Except Error)

def peek : Reader Token := do return (← get).tokens.headD .streamEnd

def advance : Reader Unit := modify fun s => { s with tokens := s.tokens.tail }

def refuse {α : Type} : Reader α := do
  match ← peek with
  | .failed e => throw e
  | _ => throw .malformed

def expect (t : Token) : Reader Unit := do
  if (← peek) = t then advance else refuse

/-- Begins a node, which is taken for a scalar at first, and returns its number. -/
def begin (tag : Option String) : Reader Nat :=
  modifyGet fun s => (s.nodes.size, { s with nodes := s.nodes.push (.scalar tag "" (tag = none)) })

def empty : Reader Nat := begin none

def put (number : Nat) (n : Node) : Reader Unit :=
  modify fun s => { s with nodes := s.nodes.setIfInBounds number n }

def properties : Reader (Option String × Option TagName) := do
  match ← peek with
  | .anchor a =>
    advance
    match ← peek with
    | .tag t => advance; return (some a, some t)
    | _ => return (some a, none)
  | .tag t =>
    advance
    match ← peek with
    | .anchor a => advance; return (some a, some t)
    | _ => return (none, some t)
  | _ => return (none, none)

def fullTag : TagName → Reader String
  | ⟨none, suffix⟩ => return suffix
  | ⟨some handle, suffix⟩ => do
    match (← get).handles.lookup handle with
    | some start => return start ++ suffix
    | none => throw .malformed

def define (anchor : String) (number : Nat) : Reader Unit := do
  if ((← get).anchors.lookup anchor).isSome then throw .malformed
  modify fun s => { s with anchors := (anchor, number) :: s.anchors }

def resolve (anchor : String) : Reader Nat := do
  match (← get).anchors.lookup anchor with
  | some number =>
    modify fun s => { s with shared := true }
    return number
  | none => throw .malformed

/-- The tokens before which an item or a key of a block may be left out. -/
def isLeftOut (t : Token) : Bool := t = .key || t = .value || t = .blockEnd

mutual

/-- A node. Block collections are read where `block` holds, and items without an indentation of
their own where `bare` holds. -/
def read : Nat → (block bare : Bool) → Reader Nat
  | 0, _, _ => throw .malformed
  | fuel + 1, block, bare => do
    if let .alias anchor := ← peek then
      advance
      return ← resolve anchor
    let (anchor, tag) ← properties
    let tag ← match tag with
      | some t => some <$> fullTag t
      | none => pure none
    if let .failed e := ← peek then throw e
    -- the tag `!` leaves the kind to the value
    let kind := if tag = some "!" then none else tag
    let number ← begin kind
    if let some anchor := anchor then define anchor number
    match ← peek with
    | .scalar text plain =>
      advance
      put number (.scalar kind text (tag = some "!" || (plain && tag = none)))
    | .unpaired t =>
      advance
      put number (.unpaired kind t)
    | .flowSequence =>
      advance
      put number (.sequence kind (← readFlowItems fuel true))
    | .flowMapping =>
      advance
      put number (.mapping kind (← readFlowEntries fuel true))
    | .item =>
      if bare then put number (.sequence kind (← readBareItems fuel))
      else if anchor = none && tag = none then refuse
    | .blockSequence =>
      if block then
        advance
        put number (.sequence kind (← readItems fuel))
      else if anchor = none && tag = none then refuse
    | .blockMapping =>
      if block then
        advance
        put number (.mapping kind (← readEntries fuel))
      else if anchor = none && tag = none then refuse
    | _ => if anchor = none && tag = none then refuse
    return number

def readItems : Nat → Reader (List Nat)
  | 0 => throw .malformed
  | fuel + 1 => do
    if (← peek) = .item then
      advance
      let t ← peek
      let n ← if t = .item || t = .blockEnd then empty else read fuel true false
      return n :: (← readItems fuel)
    else
      expect .blockEnd
      return []

def readBareItems : Nat → Reader (List Nat)
  | 0 => throw .malformed
  | fuel + 1 => do
    if (← peek) = .item then
      advance
      let t ← peek
      let n ← if t = .item || isLeftOut t then empty else read fuel true false
      return n :: (← readBareItems fuel)
    else return []

def readPart : Nat → Reader Nat
  | 0 => throw .malformed
  | fuel + 1 => do
    if isLeftOut (← peek) then empty else read fuel true true

def readEntries : Nat → Reader (List (Nat × Nat))
  | 0 => throw .malformed
  | fuel + 1 => do
    if (← peek) = .key then
      advance
      let k ← readPart fuel
      let v ← do
        if (← peek) = .value then
          advance
          readPart fuel
        else empty
      return (k, v) :: (← readEntries fuel)
    else
      expect .blockEnd
      return []

/-- The value of a flow entry that ends before a comma or `close`. -/
def readFlowValue : Nat → Token → Reader Nat
  | 0, _ => throw .malformed
  | fuel + 1, close => do
    if (← peek) = .value then
      advance
      let t ← peek
      if t = .comma || t = close then empty else read fuel false false
    else empty

/-- The key of a flow entry that ends before a colon, a comma or `close`. -/
def readFlowKey : Nat → Token → Reader Nat
  | 0, _ => throw .malformed
  | fuel + 1, close => do
    let t ← peek
    if t = .value || t = .comma || t = close then empty else read fuel false false

/-- The items of a sequence in brackets. An item with a key is a mapping of one entry. -/
def readFlowItems : Nat → (first : Bool) → Reader (List Nat)
  | 0, _ => throw .malformed
  | fuel + 1, first => do
    if (← peek) = .flowSequenceEnd then
      advance
      return []
    if !first then expect .comma
    match ← peek with
    | .key =>
      advance
      let number ← begin none
      let k ← readFlowKey fuel .flowSequenceEnd
      let v ← readFlowValue fuel .flowSequenceEnd
      put number (.mapping none [(k, v)])
      return number :: (← readFlowItems fuel false)
    | .flowSequenceEnd =>
      advance
      return []
    | _ =>
      let n ← read fuel false false
      return n :: (← readFlowItems fuel false)

def readFlowEntries : Nat → (first : Bool) → Reader (List (Nat × Nat))
  | 0, _ => throw .malformed
  | fuel + 1, first => do
    if (← peek) = .flowMappingEnd then
      advance
      return []
    if !first then expect .comma
    match ← peek with
    | .key =>
      advance
      let k ← readFlowKey fuel .flowMappingEnd
      let v ← readFlowValue fuel .flowMappingEnd
      return (k, v) :: (← readFlowEntries fuel false)
    | .flowMappingEnd =>
      advance
      return []
    | _ =>
      let k ← read fuel false false
      return (k, ← empty) :: (← readFlowEntries fuel false)

end

def defaultHandles : List (String × String) :=
  [("!", "!"), ("!!", "tag:yaml.org,2002:")]

/-- The handles that directives declare, the defaults behind them. -/
def readDirectives : Nat → (versioned : Bool) → List (String × String) → Reader Unit
  | 0, _, _ => throw .malformed
  | fuel + 1, versioned, declared => do
    match ← peek with
    | .directive d =>
      advance
      match d with
      | .version major _ =>
        if versioned || major ≠ 1 then throw .malformed
        readDirectives fuel true declared
      | .tag handle start =>
        if (declared.lookup handle).isSome then throw .malformed
        readDirectives fuel versioned (declared ++ [(handle, start)])
      | .other => readDirectives fuel versioned declared
    | _ => modify fun s => { s with handles := declared ++ defaultHandles }

def skipEnds : Nat → Reader Unit
  | 0 => return
  | fuel + 1 => do
    if (← peek) = .documentEnd then
      advance
      skipEnds fuel

def readDocument (fuel : Nat) : Reader (Option Nat) := do
  match ← peek with
  | .streamEnd => return none
  | .directive _ | .documentStart =>
    readDirectives fuel false []
    expect .documentStart
    let n ← match ← peek with
      | .directive _ | .documentStart | .documentEnd | .streamEnd => empty
      | _ => read fuel true false
    skipEnds fuel
    expect .streamEnd
    return some n
  | _ =>
    let n ← read fuel true false
    skipEnds fuel
    expect .streamEnd
    return some n

/-- The nodes of the document that a text holds, if it is not empty. -/
def ofText? (s : List Char) : Except Error (Option Graph) := do
  let tokens := Token.scan s
  let fuel := 4 * tokens.length + 8
  let (root, state) ← (readDocument fuel).run ⟨tokens, defaultHandles, #[], [], false⟩
  return root.map fun root => ⟨state.nodes, root, state.shared⟩

end Graph
end ShellHistory.Yaml
