import ShellHistory.Json
import ShellHistory.Yaml.Source

/-! The parts of a document that are read character by character: directives, names, tags, and the
five ways to write a scalar. -/

namespace ShellHistory.Yaml

open Source

inductive Directive
  | version (major minor : Nat)
  | tag (handle replacement : String)
  | other
  deriving DecidableEq, Repr

structure TagName where
  handle : Option String
  suffix : String
  deriving DecidableEq, Repr

namespace Lexeme

def isNameChar (c : Char) : Bool := c.isAlphanum || c = '-' || c = '_'

def isTagChar (c : Char) : Bool :=
  c.isAlphanum || "-;/?:@&=+$,_.!~*'()[]".toList.contains c

def takeName (p : Char → Bool) (s : Source) : Except Error (List Char × Source) :=
  match s.span p with
  | ([], _) => .error .malformed
  | hit => .ok hit

def expect (p : Char → Bool) (s : Source) : Except Error Unit :=
  if p s.peek then .ok () else .error .malformed

/-- The bytes that `%` escapes name, two hexadecimal digits each. -/
def takeEscapedBytes : Nat → Source → Except Error (List UInt8 × Source)
  | 0, s => .ok ([], s)
  | fuel + 1, s =>
    if s.peek = '%' then
      match Json.hexDigit? (s.peekAt 1), Json.hexDigit? (s.peekAt 2) with
      | some a, some b => do
        let (more, s) ← takeEscapedBytes fuel (s.skip 3)
        return ((a * 16 + b).toUInt8 :: more, s)
      | _, _ => .error .malformed
    else .ok ([], s)

def takeTagTextFrom : Nat → Source → Except Error (List Char × Source)
  | 0, s => .ok ([], s)
  | fuel + 1, s =>
    if s.peek = '%' then do
      let (bytes, s) ← takeEscapedBytes s.rest.length s
      match String.fromUTF8? bytes.toByteArray with
      | none => throw .malformed
      | some t =>
        let (more, s) ← takeTagTextFrom fuel s
        return (t.toList ++ more, s)
    else if isTagChar s.peek then do
      let (more, s') ← takeTagTextFrom fuel s.next
      return (s.peek :: more, s')
    else .ok ([], s)

def takeTagText (s : Source) : Except Error (String × Source) := do
  if s.peek ≠ '%' ∧ !isTagChar s.peek then throw .malformed
  let (cs, s) ← takeTagTextFrom s.rest.length s
  return (String.ofList cs, s)

def takeHandle (s : Source) : Except Error (String × Source) :=
  if s.peek ≠ '!' then .error .malformed
  else if s.peekAt 1 = ' ' then .ok ("!", s.next)
  else
    let (name, s') := s.next.span isNameChar
    if s'.peek = '!' then .ok (String.ofList ('!' :: name ++ ['!']), s'.next)
    else .error .malformed

def finishLine (s : Source) : Except Error Source := do
  let s := s.skipSpaces.skipComment
  expect endsLine s
  return s.takeBreak.2

def takeNumber (s : Source) : Except Error (Nat × Source) := do
  let (ds, s) ← takeName Char.isDigit s
  return (Binary64.digitsValue 10 ds, s)

def takeDirective (s : Source) : Except Error (Directive × Source) := do
  let (name, s) ← takeName isNameChar s.next
  expect endsWord s
  if name = "YAML".toList then
    let (major, s) ← takeNumber s.skipSpaces
    expect (· = '.') s
    let (minor, s) ← takeNumber s.next
    expect endsWord s
    return (.version major minor, ← finishLine s)
  else if name = "TAG".toList then
    let (handle, s) ← takeHandle s.skipSpaces
    expect (· = ' ') s
    let (replacement, s) ← takeTagText s.skipSpaces
    expect endsWord s
    return (.tag handle replacement, ← finishLine s)
  else
    return (.other, ← finishLine (s.span fun c => !endsLine c).2)

def takeAnchor (s : Source) : Except Error (String × Source) := do
  let (name, s) ← takeName isNameChar s.next
  expect (fun c => endsToken c || "?:,]\x7d%@`".toList.contains c) s
  return (String.ofList name, s)

def takeTag (s : Source) : Except Error (TagName × Source) := do
  let (tag, s) ← do
    if s.peekAt 1 = '<' then
      let (suffix, s) ← takeTagText (s.skip 2)
      expect (· = '>') s
      pure (⟨none, suffix⟩, s.next)
    else if endsToken (s.peekAt 1) then pure (⟨none, "!"⟩, s.next)
    else
      -- a second `!` before the next blank ends a handle
      let word := s.next.rest.takeWhile fun c => !endsWord c
      if word.contains '!' then
        let (handle, s) ← takeHandle s
        let (suffix, s) ← takeTagText s
        pure (⟨some handle, suffix⟩, s)
      else
        let (suffix, s) ← takeTagText s.next
        pure (⟨some "!", suffix⟩, s)
  expect endsWord s
  return (tag, s)

/-! ### Scalars in quotes -/

def escape? : Char → Option Char
  | '0' => some '\x00'
  | 'a' => some '\x07'
  | 'b' => some '\x08'
  | 't' => some '\t'
  | '\t' => some '\t'
  | 'n' => some '\n'
  | 'v' => some '\x0b'
  | 'f' => some '\x0c'
  | 'r' => some '\r'
  | 'e' => some '\x1b'
  | ' ' => some ' '
  | '"' => some '"'
  | '\\' => some '\\'
  | '/' => some '/'
  | 'N' => some '\x85'
  | '_' => some '\u00a0'
  | 'L' => some '\u2028'
  | 'P' => some '\u2029'
  | _ => none

def escapeWidth? : Char → Option Nat
  | 'x' => some 2
  | 'u' => some 4
  | 'U' => some 8
  | _ => none

/-- The blank lines inside quotes; a document separator may not stand there. -/
def takeQuotedBreaks : Nat → Source → Except Error (List Char × Source)
  | 0, s => .ok ([], s)
  | fuel + 1, s =>
    if s.atSeparator then .error .malformed
    else
      let s := (s.span fun c => c = ' ' || c = '\t').2
      match s.takeBreak with
      | ([], s) => .ok ([], s)
      | (b, s) => do
        let (more, s) ← takeQuotedBreaks fuel s
        return (b ++ more, s)

/-- What a break and the blank lines after it stand for: one break is a space. -/
def folded (b more : List Char) : List Char :=
  if b = ['\n'] then (if more = [] then [' '] else more) else b ++ more

/-- One step inside quotes, as code points, `none` at the closing one. -/
def takeQuotedPart (double : Bool) (s : Source) : Except Error (Option (List Nat) × Source) := do
  let part (cs : List Char) : Option (List Nat) := some (cs.map Char.toNat)
  let c := s.peek
  if s.rest = [] then throw .malformed
  else if c = ' ' ∨ c = '\t' then
    let (blanks, s) := s.span fun c => c = ' ' || c = '\t'
    if s.rest = [] then throw .malformed
    match s.takeBreak with
    | ([], s) => return (part blanks, s)
    | (b, s) =>
      let (more, s) ← takeQuotedBreaks s.rest.length s
      return (part (folded b more), s)
  else if isBreak c then
    let (b, s) := s.takeBreak
    let (more, s) ← takeQuotedBreaks s.rest.length s
    return (part (folded b more), s)
  else if double then
    if c = '"' then return (none, s.next)
    else if c = '\\' then
      let s := s.next
      let e := s.peek
      if s.rest = [] then throw .malformed
      match escape? e, escapeWidth? e with
      | some ch, _ => return (part [ch], s.next)
      | none, some width =>
        let ds := s.next.rest.take width
        if ds.length = width ∧ ds.all (fun d => (Json.hexDigit? d).isSome) then
          let code := Binary64.digitsValue 16 ds
          if code > 0x10ffff then throw (.noCharacter code)
          return (some [code], s.skip (width + 1))
        else throw .malformed
      | none, none =>
        match s.takeBreak with
        | ([], _) => throw .malformed
        | (_, s) =>
          let (more, s) ← takeQuotedBreaks s.rest.length s
          return (part more, s)
    else return (part [c], s.next)
  else if c = '\'' then
    if s.peekAt 1 = '\'' then return (part ['\''], s.skip 2) else return (none, s.next)
  else return (part [c], s.next)

def takeQuotedFrom (double : Bool) : Nat → Source → Except Error (List Nat × Source)
  | 0, _ => .error .malformed
  | fuel + 1, s => do
    match ← takeQuotedPart double s with
    | (none, s) => return ([], s)
    | (some codes, s) =>
      let (more, s) ← takeQuotedFrom double fuel s
      return (codes ++ more, s)

/-- The code points of a quoted scalar, from its opening to its closing quote. -/
def takeQuoted (double : Bool) (s : Source) : Except Error (List Nat × Source) :=
  takeQuotedFrom double (s.rest.length + 1) s.next

/-! ### Block scalars -/

inductive Chomping
  | strip
  | clip
  | keep
  deriving DecidableEq, Repr

def chomping? : Char → Option Chomping
  | '+' => some .keep
  | '-' => some .strip
  | _ => none

def indentDigit? (c : Char) : Option Nat :=
  if '1' ≤ c ∧ c ≤ '9' then some (c.toNat - '0'.toNat) else none

def takeHeader (s : Source) : Except Error (Chomping × Option Nat × Source) := do
  let (chomping, width, s) :=
    match chomping? s.peek with
    | some ch =>
      match indentDigit? (s.peekAt 1) with
      | some n => (ch, some n, s.skip 2)
      | none => (ch, none, s.next)
    | none =>
      match indentDigit? s.peek with
      | some n =>
        match chomping? (s.peekAt 1) with
        | some ch => (ch, some n, s.skip 2)
        | none => (.clip, some n, s.next)
      | none => (.clip, none, s)
  expect endsWord s
  return (chomping, width, ← finishLine s)

/-- The breaks before the first line of text, and the deepest column seen among them. -/
def takeLeadingBreaks : Nat → Nat → Source → List Char × Nat × Source
  | 0, deepest, s => ([], deepest, s)
  | fuel + 1, deepest, s =>
    if s.peek = ' ' then
      let s := s.next
      takeLeadingBreaks fuel (max deepest s.column) s
    else
      match s.takeBreak with
      | ([], s) => ([], deepest, s)
      | (b, s) =>
        let (more, deepest, s) := takeLeadingBreaks fuel deepest s
        (b ++ more, deepest, s)

def skipIndent (indent : Nat) : Nat → Source → Source
  | 0, s => s
  | fuel + 1, s =>
    if s.column < indent ∧ s.peek = ' ' then skipIndent indent fuel s.next else s

def takeBlankLines (indent : Nat) : Nat → Source → List Char × Source
  | 0, s => ([], s)
  | fuel + 1, s =>
    let s := skipIndent indent s.rest.length s
    match s.takeBreak with
    | ([], s) => ([], s)
    | (b, s) =>
      let (more, s) := takeBlankLines indent fuel s
      (b ++ more, s)

/-- The lines of a block scalar after the breaks `breaks`, with the last break and the blank lines
behind it. -/
def takeBlockLines (fold : Bool) (indent : Nat) :
    Nat → List Char → Source → List Char × List Char × List Char × Source
  | 0, breaks, s => ([], [], breaks, s)
  | fuel + 1, breaks, s =>
    if s.column = indent ∧ s.rest ≠ [] then
      let flush := s.peek ≠ ' ' && s.peek ≠ '\t'
      let (line, s) := s.span fun c => !endsLine c
      let (b, s) := s.takeBreak
      let (blank, s) := takeBlankLines indent (s.rest.length + 1) s
      if s.column = indent ∧ s.rest ≠ [] then
        let joint :=
          if fold && b == ['\n'] && flush && s.peek ≠ ' ' && s.peek ≠ '\t' then
            (if blank = [] then [' '] else [])
          else b
        let (more, last, tail, s) := takeBlockLines fold indent fuel blank s
        (breaks ++ line ++ joint ++ more, last, tail, s)
      else (breaks ++ line, b, blank, s)
    else ([], [], breaks, s)

/-- A block scalar inside a collection that is indented by `outer` columns. -/
def takeBlock (fold : Bool) (outer : Int) (s : Source) : Except Error (String × Source) := do
  let (chomping, width, s) ← takeHeader s.next
  let least := (max (outer + 1) 1).toNat
  let (breaks, indent, s) := match width with
    | some n =>
      let indent := least + n - 1
      let (breaks, s) := takeBlankLines indent (s.rest.length + 1) s
      (breaks, indent, s)
    | none =>
      let (breaks, deepest, s) := takeLeadingBreaks (s.rest.length + 1) 0 s
      (breaks, max least deepest, s)
  let (body, last, tail, s) := takeBlockLines fold indent (s.rest.length + 1) breaks s
  let ending := match chomping with
    | .strip => []
    | .clip => last
    | .keep => last ++ tail
  return (String.ofList (body ++ ending), s)

/-! ### Plain scalars -/

def endsPlain (inFlow : Bool) (c after : Char) : Bool :=
  endsToken c ||
    (c = ':' && (endsToken after || (inFlow && ",[]\x7b\x7d".toList.contains after))) ||
    (inFlow && ",?[]\x7b\x7d".toList.contains c)

/-- The characters up to where a plain scalar ends or has a blank. -/
def plainWord (inFlow : Bool) : List Char → List Char
  | [] => []
  | c :: rest => if endsPlain inFlow c (rest.headD '\x00') then [] else c :: plainWord inFlow rest

/-- The breaks after a line of a plain scalar; `none` if a document separator ends them. -/
def takePlainBreaks : Nat → Source → Option (List Char) × Source
  | 0, s => (some [], s)
  | fuel + 1, s =>
    if s.atSeparator && s.column = 0 then (none, s)
    else
      let s := s.skipSpaces
      match s.takeBreak with
      | ([], s) => (some [], s)
      | (b, s) =>
        match takePlainBreaks fuel s with
        | (some more, s) => (some (b ++ more), s)
        | (none, s) => (none, s)

/-- What stands between two words of a plain scalar: the text it counts as (nothing ends the
scalar), whether a line was ended, and the rest. -/
def takePlainSpace (s : Source) : List Char × Bool × Source :=
  let (blanks, s) := s.span (· == ' ')
  match s.takeBreak with
  | ([], s) => (blanks, false, s)
  | (b, s) =>
    match takePlainBreaks (s.rest.length + 1) s with
    | (some more, s) => (folded b more, true, s)
    | (none, s) => ([], true, s)

/-- The words of a plain scalar after the space `space`, and whether the last thing read was a line
break. -/
def takePlainFrom (inFlow : Bool) (indent : Int) :
    Nat → List Char → Bool → Source → List Char × Bool × Source
  | 0, _, broke, s => ([], broke, s)
  | fuel + 1, space, broke, s =>
    if s.peek = '#' then ([], broke, s)
    else
      match plainWord inFlow s.rest with
      | [] => ([], broke, s)
      | word =>
        let s := s.skip word.length
        let (next, broke, s) := takePlainSpace s
        if next = [] ∨ s.peek = '#' ∨ (!inFlow ∧ (s.column : Int) < indent) then
          (space ++ word, broke, s)
        else
          let (more, broke, s) := takePlainFrom inFlow indent fuel next broke s
          (space ++ word ++ more, broke, s)

/-- A plain scalar inside a collection that is indented by `outer` columns, and whether it was
followed by a line break. -/
def takePlain (inFlow : Bool) (outer : Int) (s : Source) : String × Bool × Source :=
  let (cs, broke, s) := takePlainFrom inFlow (outer + 1) (s.rest.length + 1) [] false s
  (String.ofList cs, broke, s)

end Lexeme
end ShellHistory.Yaml
