import ShellHistory.Text.Printable

/-! Text as a quoted literal, the way values are shown in messages: single quotes, or double quotes
when the text holds single quotes only, with escapes for what cannot be shown. -/

namespace ShellHistory.Text

def hex (width n : Nat) : List Char :=
  let ds := Nat.toDigits 16 n
  List.replicate (width - ds.length) '0' ++ ds

/-- The quote around a literal: double only where it saves escaping the single ones. -/
def literalQuote (s : List Char) : Char :=
  if '\'' ∈ s ∧ '"' ∉ s then '"' else '\''

def literalChar (q c : Char) : List Char :=
  if c = q ∨ c = '\\' then ['\\', c]
  else if c = '\n' then ['\\', 'n']
  else if c = '\r' then ['\\', 'r']
  else if c = '\t' then ['\\', 't']
  else if isPrintable c then [c]
  else if c.toNat ≤ 0xff then '\\' :: 'x' :: hex 2 c.toNat
  else if c.toNat ≤ 0xffff then '\\' :: 'u' :: hex 4 c.toNat
  else '\\' :: 'U' :: hex 8 c.toNat

def literal (s : String) : String :=
  let q := literalQuote s.toList
  String.ofList (q :: s.toList.flatMap (literalChar q) ++ [q])

/-- Bytes as a quoted literal: ASCII characters as in a text, and every other byte in digits. -/
def bytesLiteral (bytes : List UInt8) : String :=
  let cs := bytes.map fun b => Char.ofNat b.toNat
  let q := literalQuote cs
  let shown (c : Char) : List Char :=
    if c.toNat < 0x7f then literalChar q c else '\\' :: 'x' :: hex 2 c.toNat
  String.ofList ('b' :: q :: cs.flatMap shown ++ [q])

end ShellHistory.Text
