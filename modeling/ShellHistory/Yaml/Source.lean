/-! A text that is being read: what is left of it, and the line and column that have been reached.
Past the end stands the character `NUL`, which no document may hold. -/

namespace ShellHistory.Yaml

inductive Error
  | malformed
  /-- An escape for a character that does not exist. -/
  | noCharacter (code : Nat)
  deriving DecidableEq, Repr

def isBreak (c : Char) : Bool :=
  c = '\r' || c = '\n' || c = '\x85' || c = '\u2028' || c = '\u2029'

def endsLine (c : Char) : Bool := c = '\x00' || isBreak c

def endsWord (c : Char) : Bool := c = ' ' || endsLine c

def endsToken (c : Char) : Bool := c = '\t' || endsWord c

def isAllowed (c : Char) : Bool :=
  let n := c.toNat
  n = 9 || n = 10 || n = 13 || (0x20 ≤ n && n ≤ 0x7e) || n = 0x85 || (0xa0 ≤ n && n ≤ 0xd7ff) ||
    (0xe000 ≤ n && n ≤ 0xfffd) || 0x10000 ≤ n

structure Source where
  rest : List Char
  index : Nat
  line : Nat
  column : Nat

namespace Source

def ofText (s : List Char) : Source := ⟨s, 0, 0, 0⟩

def peek (s : Source) : Char := s.rest.headD '\x00'

def peekAt (s : Source) (n : Nat) : Char := (s.rest[n]?).getD '\x00'

def next (s : Source) : Source :=
  match s.rest with
  | [] => s
  | c :: rest =>
    if c = '\r' ∧ rest.head? = some '\n' then ⟨rest, s.index + 1, s.line, s.column + 1⟩
    else if isBreak c then ⟨rest, s.index + 1, s.line + 1, 0⟩
    else if c = '\ufeff' then ⟨rest, s.index + 1, s.line, s.column⟩
    else ⟨rest, s.index + 1, s.line, s.column + 1⟩

def skip (s : Source) : Nat → Source
  | 0 => s
  | n + 1 => s.next.skip n

def span (p : Char → Bool) (s : Source) : List Char × Source :=
  let taken := s.rest.takeWhile p
  (taken, s.skip taken.length)

def skipSpaces (s : Source) : Source := (s.span (· == ' ')).2

def skipComment (s : Source) : Source :=
  if s.peek = '#' then (s.span fun c => !endsLine c).2 else s

/-- Reads a line break, which counts as `\n` unless it is a Unicode separator. -/
def takeBreak (s : Source) : List Char × Source :=
  let c := s.peek
  if c = '\r' ∧ s.peekAt 1 = '\n' then (['\n'], s.skip 2)
  else if c = '\r' ∨ c = '\n' ∨ c = '\x85' then (['\n'], s.next)
  else if c = '\u2028' ∨ c = '\u2029' then ([c], s.next)
  else ([], s)

def atSeparator (s : Source) : Bool :=
  (s.rest.take 3 == ['-', '-', '-'] || s.rest.take 3 == ['.', '.', '.']) && endsToken (s.peekAt 3)

end Source
end ShellHistory.Yaml
