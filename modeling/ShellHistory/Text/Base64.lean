/-! Bytes as printable text: four characters for three bytes, six bits each. Reading skips what is
none of the characters, and ends where padding completes a group of four. -/

namespace ShellHistory.Text.Base64

def alphabet : List Char :=
  "ABCDEFGHIJKLMNOPQRSTUVWXYZabcdefghijklmnopqrstuvwxyz0123456789+/".toList

def value? (c : Char) : Option Nat := alphabet.findIdx? (· = c)

/-- The character of a value, of which only the six lowest bits count. -/
def character (n : Nat) : Char := (alphabet[n % 64]?).getD 'A'

/-- Reads on after `read` characters of a group, whose last bits are `left`, and `pads` marks of
padding. A group cannot be left open. -/
def decodeFrom : (read left pads : Nat) → List Char → Option (List UInt8)
  | read, _, _, [] => if read = 0 then some [] else none
  | read, left, pads, c :: rest =>
    if c = '=' then
      if read < 2 then decodeFrom read left pads rest
      else if 4 ≤ read + pads + 1 then some []
      else decodeFrom read left (pads + 1) rest
    else
      match value? c with
      | none => decodeFrom read left pads rest
      | some v =>
        match read with
        | 0 => decodeFrom 1 v 0 rest
        | 1 => (decodeFrom 2 (v % 16) 0 rest).map (UInt8.ofNat (left * 4 + v / 16) :: ·)
        | 2 => (decodeFrom 3 (v % 4) 0 rest).map (UInt8.ofNat (left * 16 + v / 4) :: ·)
        | _ => (decodeFrom 0 0 0 rest).map (UInt8.ofNat (left * 64 + v) :: ·)

def decode? (s : List Char) : Option (List UInt8) :=
  if s.all fun c => c.toNat < 128 then decodeFrom 0 0 0 s else none

def encode : List UInt8 → List Char
  | [] => []
  | [a] => [character (a.toNat / 4), character (a.toNat * 16), '=', '=']
  | [a, b] =>
    [character (a.toNat / 4), character (a.toNat * 16 + b.toNat / 16), character (b.toNat * 4), '=']
  | a :: b :: c :: rest =>
    character (a.toNat / 4) :: character (a.toNat * 16 + b.toNat / 16) ::
      character (b.toNat * 4 + c.toNat / 64) :: character c.toNat :: encode rest

def lineLength : Nat := 57

def encodeLines : List UInt8 → List Char
  | [] => []
  | b :: rest =>
    encode (b :: rest.take (lineLength - 1)) ++ '\n' :: encodeLines (rest.drop (lineLength - 1))
termination_by bytes => bytes.length
decreasing_by
  simp only [List.length_drop, List.length_cons]
  omega

end ShellHistory.Text.Base64
