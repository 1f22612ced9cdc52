import ShellHistory.Text.Blank
import ShellHistory.Text.Cut
import ShellHistory.Text.Literal

/-! Digits of every script, and whole numbers written with them. The decimal digits of a script
are ten consecutive characters, so a table of their zeros is enough. -/

namespace ShellHistory.Text

def decimalZeros : List Nat :=
  [0x30, 0x660, 0x6f0, 0x7c0, 0x966, 0x9e6, 0xa66, 0xae6, 0xb66, 0xbe6, 0xc66, 0xce6, 0xd66, 0xde6,
   0xe50, 0xed0, 0xf20, 0x1040, 0x1090, 0x17e0, 0x1810, 0x1946, 0x19d0, 0x1a80, 0x1a90, 0x1b50,
   0x1bb0, 0x1c40, 0x1c50, 0xa620, 0xa8d0, 0xa900, 0xa9d0, 0xa9f0, 0xaa50, 0xabf0, 0xff10, 0x104a0,
   0x10d30, 0x11066, 0x110f0, 0x11136, 0x111d0, 0x112f0, 0x11450, 0x114d0, 0x11650, 0x116c0,
   0x11730, 0x118e0, 0x11950, 0x11c50, 0x11d50, 0x11da0, 0x16a60, 0x16ac0, 0x16b50, 0x1d7ce,
   0x1d7d8, 0x1d7e2, 0x1d7ec, 0x1d7f6, 0x1e140, 0x1e2f0, 0x1e950, 0x1fbf0]

/-- Ranges of digits that are no decimal digits: superscripts, circled digits and the like. -/
def otherDigits : List (Nat × Nat) :=
  [(0xb2, 0xb3), (0xb9, 0xb9), (0x1369, 0x1371), (0x19da, 0x19da), (0x2070, 0x2070),
   (0x2074, 0x2079), (0x2080, 0x2089), (0x2460, 0x2468), (0x2474, 0x247c), (0x2488, 0x2490),
   (0x24ea, 0x24ea), (0x24f5, 0x24fd), (0x24ff, 0x24ff), (0x2776, 0x277e), (0x2780, 0x2788),
   (0x278a, 0x2792), (0x10a40, 0x10a43), (0x10e60, 0x10e68), (0x11052, 0x1105a),
   (0x1f100, 0x1f10a)]

def decimal? (c : Char) : Option Nat :=
  (decimalZeros.find? fun z => z ≤ c.toNat && c.toNat < z + 10).map (c.toNat - ·)

/-- A digit of any kind, with or without a decimal value. -/
def isDigit (c : Char) : Bool :=
  (decimal? c).isSome || otherDigits.any fun (first, last) => first ≤ c.toNat && c.toNat ≤ last

inductive NumberError
  /-- Something other than digits, a sign and single `_` between digits. -/
  | malformed
  /-- More digits than are read at all. -/
  | tooLong (digits : Nat)
  deriving DecidableEq, Repr

def maxDigits : Nat := 4300

def tooLongMessage (digits : Nat) : String :=
  "Exceeds the limit (" ++ toString maxDigits ++ " digits) for integer string conversion: value " ++
    "has " ++ toString digits ++ " digits; use sys.set_int_max_str_digits() to increase the limit"

/-- What is told of a number that has too many digits to be written. -/
def unwritableMessage : String :=
  "Exceeds the limit (" ++ toString maxDigits ++ " digits) for integer string conversion; use " ++
    "sys.set_int_max_str_digits() to increase the limit"

def maxShown : Nat := 200

def malformedMessage (base : Nat) (s : String) : String :=
  "invalid literal for int() with base " ++ toString base ++ ": " ++
    String.ofList ((literal s).toList.take maxShown)

def NumberError.message (e : NumberError) (s : String) : String :=
  match e with
  | malformed => malformedMessage 10 s
  | tooLong digits => tooLongMessage digits

/-- White space that may surround a number. The separators `0x1C` to `0x1F` may not. -/
def isMargin (c : Char) : Bool := isBlank c && !('\x1c' ≤ c && c ≤ '\x1f')

/-- The value of a digit to a base: of a decimal digit of any script, or of a letter. -/
def digitIn? (base : Nat) (c : Char) : Option Nat :=
  let value := match decimal? c with
    | some d => some d
    | none => if c.isAlpha then some (c.toLower.toNat - 'a'.toNat + 10) else none
  value.filter (· < base)

/-- The number that a list of digits writes, the most significant first. -/
def ofDigits (base : Nat) (ds : List Nat) : Nat :=
  ds.foldl (fun n d => n * base + d) 0

def baseLetter? : Nat → Option Char
  | 2 => some 'b'
  | 8 => some 'o'
  | 16 => some 'x'
  | _ => none

/-- The text without the announcement of the base, and without the `_` that may follow it. -/
def dropBaseMark (base : Nat) (s : List Char) : List Char :=
  match s with
  | zero :: letter :: rest =>
    if decimal? zero = some 0 ∧ baseLetter? base = some letter.toLower then
      match rest with
      | '_' :: rest => rest
      | rest => rest
    else s
  | _ => s

/-- A whole number to a base as people type it: white space around it, a sign, digits of any script
with single `_` between them. Only decimal numbers have a longest length. -/
def readIntIn (base : Nat) (s : String) : Except NumberError Int :=
  let (negative, body) := match trim isMargin s.toList with
    | '-' :: rest => (true, rest)
    | '+' :: rest => (false, rest)
    | rest => (false, rest)
  let (run, rest) := (dropBaseMark base body).span fun c => (digitIn? base c).isSome || c = '_'
  let digits := run.filterMap (digitIn? base)
  if (fields '_' run).any List.isEmpty then .error .malformed
  else if base = 10 ∧ maxDigits < digits.length then .error (.tooLong digits.length)
  else if rest ≠ [] then .error .malformed
  else
    let n : Int := ofDigits base digits
    .ok (if negative then -n else n)

def readInt (s : String) : Except NumberError Int := readIntIn 10 s

end ShellHistory.Text
