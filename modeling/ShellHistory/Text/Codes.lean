import ShellHistory.Text.Literal

/-! Texts as code points. An escape may put half of a surrogate pair into a text, and no text holds
one that stands alone. The system takes some of them for the bytes that are no text themselves. -/

namespace ShellHistory.Text

def isHalf (code : Nat) : Bool := 0xD800 ≤ code && code ≤ 0xDFFF

/-- Whether a half stands for a byte in what the system is told. -/
def isByte (code : Nat) : Bool := 0xDC80 ≤ code && code ≤ 0xDCFF

/-- Code points that are no text. -/
structure Unpaired where
  codes : List Nat
  half : codes.any isHalf = true
  deriving DecidableEq, Repr

namespace Unpaired

/-- Whether the system can be told them. -/
def isTold (t : Unpaired) : Bool := t.codes.all fun code => !isHalf code || isByte code

/-- The nearest text. A byte is shown as the replacement character, and a half that the system takes
for nothing as a `NUL`, which it does not take either. -/
def spelled (t : Unpaired) : String :=
  String.ofList (t.codes.map fun code =>
    if !isHalf code then Char.ofNat code else if isByte code then '\ufffd' else '\x00')

theorem spelled_ne_empty (t : Unpaired) : t.spelled ≠ "" := by
  obtain ⟨codes, h⟩ := t
  cases codes with
  | nil => cases h
  | cons code rest => simp [spelled]

def marked (t : Unpaired) : String :=
  String.ofList (t.codes.map fun code => if isHalf code then '\ufffd' else Char.ofNat code)

def literal (t : Unpaired) : String :=
  let q := literalQuote t.spelled.toList
  let shown (code : Nat) : List Char :=
    if isHalf code then '\\' :: 'u' :: hex 4 code else literalChar q (Char.ofNat code)
  String.ofList (q :: t.codes.flatMap shown ++ [q])

end Unpaired

/-- Bytes as a text, or as far as they are ASCII if they are none. -/
def ofBytes (content : List UInt8) : String :=
  (String.fromUTF8? ⟨content.toArray⟩).getD (String.ofList (content.map fun b =>
    if b < 0x80 then Char.ofNat b.toNat else '\ufffd'))

/-- The text that code points spell, unless a half stands among them. -/
def ofCodes (codes : List Nat) : Unpaired ⊕ String :=
  if h : codes.any isHalf then .inl ⟨codes, h⟩ else .inr (String.ofList (codes.map Char.ofNat))

end ShellHistory.Text
