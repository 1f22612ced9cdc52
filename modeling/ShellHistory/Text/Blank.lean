/-! Blank characters, and text cut at its ends or into words along them. A blank is any character
that Unicode counts as white space, the separators `0x1C` to `0x1F` among them. -/

namespace ShellHistory.Text

/-- White space of any script, line breaks included. -/
def isBlank (c : Char) : Bool :=
  let n := c.toNat
  (9 ≤ n && n ≤ 13) || (28 ≤ n && n ≤ 32) || n == 0x85 || n == 0xA0 || n == 0x1680 ||
    (0x2000 ≤ n && n ≤ 0x200A) || n == 0x2028 || n == 0x2029 || n == 0x202F || n == 0x205F ||
    n == 0x3000

def dropEndWhile (p : Char → Bool) (s : List Char) : List Char :=
  (s.reverse.dropWhile p).reverse

/-- The text without the characters at either end on which `p` holds. -/
def trim (p : Char → Bool) (s : List Char) : List Char := dropEndWhile p (s.dropWhile p)

def strip (s : String) : String := String.ofList (trim isBlank s.toList)

def runs (sep : Char → Bool) : List Char → List (List Char)
  | [] => []
  | c :: rest =>
    if sep c then runs sep rest
    else match rest, runs sep rest with
      | d :: _, word :: more => if sep d then [c] :: word :: more else (c :: word) :: more
      | _, more => [c] :: more

def words (s : String) : List String :=
  (runs isBlank s.toList).map String.ofList

end ShellHistory.Text
