import ShellHistory.Yaml.Lexeme

/-! The tokens of a document. A key may be written without a mark of its own: what might turn out
to be one is remembered, and a `:` behind it on the same line settles it. Collections that are
marked by indentation alone get tokens where they start and end. -/

namespace ShellHistory.Yaml

inductive Token
  | directive (d : Directive)
  | documentStart
  | documentEnd
  | blockSequence
  | blockMapping
  | blockEnd
  | flowSequence
  | flowMapping
  | flowSequenceEnd
  | flowMappingEnd
  | item
  | comma
  | key
  | value
  | alias (name : String)
  | anchor (name : String)
  | tag (name : TagName)
  | scalar (text : String) (plain : Bool)
  /-- A quoted scalar that is no text. -/
  | unpaired (t : Text.Unpaired)
  | streamEnd
  /-- The text cannot be read on from here. -/
  | failed (e : Error)
  deriving DecidableEq, Repr

namespace Token

def ofCodes (codes : List Nat) : Token :=
  match Text.ofCodes codes with
  | .inl t => unpaired t
  | .inr text => scalar text false

inductive Opening
  | nothing
  | key
  | mapping
  deriving DecidableEq, Repr

structure Candidate where
  number : Nat
  required : Bool
  index : Nat
  line : Nat
  column : Nat
  deriving DecidableEq, Repr

def maxKeyLength : Nat := 1024

structure Scanner where
  source : Source
  /-- The tokens so far, the latest first. -/
  tokens : List (Opening × Token)
  /-- How many tokens there are. -/
  count : Nat
  /-- How many flow collections are open. -/
  flow : Nat
  indent : Int
  indents : List Int
  keyAllowed : Bool
  /-- The candidates, by the number of open flow collections. -/
  candidates : List (Nat × Candidate)

namespace Scanner

def ofText (s : List Char) : Scanner :=
  ⟨Source.ofText s, [], 0, 0, -1, [], true, []⟩

def push (t : Token) (s : Scanner) : Scanner :=
  { s with tokens := (.nothing, t) :: s.tokens, count := s.count + 1 }

def mark (number : Nat) (o : Opening) (s : Scanner) : Scanner :=
  { s with tokens := s.tokens.modify (s.count - 1 - number) fun (_, t) => (o, t) }

/-- Skips spaces, comments and line breaks; after a break outside of flow collections a key may
follow. -/
def skipGap : Nat → Scanner → Scanner
  | 0, s => s
  | fuel + 1, s =>
    match s.source.skipSpaces.skipComment.takeBreak with
    | ([], source) => { s with source := source }
    | (_, source) =>
      skipGap fuel { s with source := source, keyAllowed := s.keyAllowed || s.flow = 0 }

/-- Drops the candidates that came too long ago; a key that had to come is an error. -/
def dropStale (s : Scanner) : Except Error Scanner :=
  let isStale (c : Candidate) : Bool :=
    c.line ≠ s.source.line || s.source.index > c.index + maxKeyLength
  if s.candidates.any fun (_, c) => isStale c && c.required then .error .malformed
  else .ok { s with candidates := s.candidates.filter fun (_, c) => !isStale c }

def dropCandidate (s : Scanner) : Except Error Scanner :=
  if s.candidates.any fun (level, c) => level = s.flow && c.required then .error .malformed
  else .ok { s with candidates := s.candidates.filter fun (level, _) => level ≠ s.flow }

def saveCandidate (s : Scanner) : Except Error Scanner :=
  if s.keyAllowed then do
    let s ← s.dropCandidate
    let required := s.flow = 0 && s.indent = s.source.column
    let c := ⟨s.count, required, s.source.index, s.source.line, s.source.column⟩
    return { s with candidates := (s.flow, c) :: s.candidates }
  else .ok s

/-- Ends the block collections that are indented deeper than `column`. -/
def unwindFrom (column : Int) : List Int → Scanner → Scanner
  | [], s => s
  | outer :: rest, s =>
    if s.indent > column then
      unwindFrom column rest { s.push .blockEnd with indent := outer, indents := rest }
    else s

def unwind (column : Int) (s : Scanner) : Scanner :=
  if s.flow = 0 then unwindFrom column s.indents s else s

def isDeeper (column : Nat) (s : Scanner) : Bool := s.flow = 0 && s.indent < column

def deepen (column : Nat) (s : Scanner) : Scanner :=
  { s with indent := column, indents := s.indent :: s.indents }

def take (n : Nat) (t : Token) (s : Scanner) : Scanner :=
  { s with source := s.source.skip n }.push t

/-- Ends all block collections before something that stands between documents. -/
def leaveDocument (s : Scanner) : Except Error Scanner := do
  let s ← (s.unwind (-1)).dropCandidate
  return { s with keyAllowed := false }

def takeMark (opens mark : Token) (s : Scanner) : Except Error Scanner := do
  if s.flow = 0 ∧ !s.keyAllowed then throw .malformed
  let column := s.source.column
  let s := if s.isDeeper column then (s.push opens).deepen column else s
  let s ← s.dropCandidate
  return ({ s with keyAllowed := s.flow = 0 || opens == Token.blockSequence }).take 1 mark

/-- The mark of a value, which settles whether a key came before it. -/
def takeValue (s : Scanner) : Except Error Scanner := do
  match s.candidates.find? fun (level, _) => level = s.flow with
  | some (_, c) =>
    let s := { s with candidates := s.candidates.filter fun (level, _) => level ≠ s.flow }
    let s :=
      if s.isDeeper c.column then (s.mark c.number .mapping).deepen c.column
      else s.mark c.number .key
    return ({ s with keyAllowed := false }).take 1 .value
  | none =>
    if s.flow = 0 ∧ !s.keyAllowed then throw .malformed
    let column := s.source.column
    let s := if s.isDeeper column then (s.push .blockMapping).deepen column else s
    return (← ({ s with keyAllowed := s.flow = 0 }).dropCandidate).take 1 .value

def openFlow (t : Token) (s : Scanner) : Except Error Scanner := do
  let s ← s.saveCandidate
  return ({ s with flow := s.flow + 1, keyAllowed := true }).take 1 t

def closeFlow (t : Token) (s : Scanner) : Except Error Scanner := do
  let s ← s.dropCandidate
  if s.flow = 0 then throw .malformed
  return ({ s with flow := s.flow - 1, keyAllowed := false }).take 1 t

def startsPlain (s : Scanner) : Bool :=
  let c := s.source.peek
  let after := s.source.peekAt 1
  !(endsToken c || "-?:,[]\x7b\x7d#&*!|>'\"%@`".toList.contains c) ||
    (!endsToken after && (c = '-' || (s.flow = 0 && (c = '?' || c = ':'))))

def step (s : Scanner) : Except Error Scanner := do
  let c := s.source.peek
  let blankNext := endsToken (s.source.peekAt 1)
  let lineStart := s.source.column = 0
  if s.source.rest = [] then
    let s ← (s.unwind (-1)).dropCandidate
    return s.push .streamEnd
  else if c = '%' ∧ lineStart then
    let s ← s.leaveDocument
    let (d, source) ← Lexeme.takeDirective s.source
    return { s with source := source }.push (.directive d)
  else if lineStart ∧ s.source.atSeparator then
    return (← s.leaveDocument).take 3 (if c = '-' then .documentStart else .documentEnd)
  else if c = '[' then s.openFlow .flowSequence
  else if c = '\x7b' then s.openFlow .flowMapping
  else if c = ']' then s.closeFlow .flowSequenceEnd
  else if c = '\x7d' then s.closeFlow .flowMappingEnd
  else if c = ',' then
    return (← ({ s with keyAllowed := true }).dropCandidate).take 1 .comma
  else if c = '-' ∧ blankNext then s.takeMark .blockSequence .item
  else if c = '?' ∧ (s.flow ≠ 0 ∨ blankNext) then s.takeMark .blockMapping .key
  else if c = ':' ∧ (s.flow ≠ 0 ∨ blankNext) then s.takeValue
  else if c = '*' ∨ c = '&' then
    let s ← s.saveCandidate
    let (name, source) ← Lexeme.takeAnchor s.source
    return { s with source := source, keyAllowed := false }.push
      (if c = '*' then .alias name else .anchor name)
  else if c = '!' then
    let s ← s.saveCandidate
    let (name, source) ← Lexeme.takeTag s.source
    return { s with source := source, keyAllowed := false }.push (.tag name)
  else if (c = '|' ∨ c = '>') ∧ s.flow = 0 then
    let s ← ({ s with keyAllowed := true }).dropCandidate
    let (text, source) ← Lexeme.takeBlock (c = '>') s.indent s.source
    return { s with source := source }.push (.scalar text false)
  else if c = '\'' ∨ c = '"' then
    let s ← s.saveCandidate
    let (codes, source) ← Lexeme.takeQuoted (c = '"') s.source
    return { s with source := source, keyAllowed := false }.push (.ofCodes codes)
  else if s.startsPlain then
    let s ← s.saveCandidate
    let (text, broke, source) := Lexeme.takePlain (s.flow ≠ 0) s.indent s.source
    return { s with source := source, keyAllowed := broke }.push (.scalar text true)
  else throw .malformed

/-- The tokens in order, with the marks of the keys that were settled. -/
def finish (s : Scanner) : List Token :=
  s.tokens.reverse.flatMap fun (o, t) =>
    match o with
    | .nothing => [t]
    | .key => [.key, t]
    | .mapping => [.blockMapping, .key, t]

def run : Nat → Scanner → List Token
  | 0, s => (s.push (.failed .malformed)).finish
  | fuel + 1, s =>
    let gap := skipGap (s.source.rest.length + 1) s
    match gap.dropStale with
    | .error e => (gap.push (.failed e)).finish
    | .ok s =>
      let s := s.unwind s.source.column
      match s.step with
      | .error e => (s.push (.failed e)).finish
      | .ok s' => if s.source.rest = [] then s'.finish else run fuel s'

end Scanner

def scan (text : List Char) : List Token :=
  if !text.all isAllowed then [.failed .malformed]
  else
    let body := if text.head? = some '\ufeff' then text.drop 1 else text
    Scanner.run (text.length + 1) (Scanner.ofText body)

end Token
end ShellHistory.Yaml
