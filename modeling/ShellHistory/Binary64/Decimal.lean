import ShellHistory.Binary64

/-! Decimal text of a floating-point number: the fewest digits that read back as it, of those the
nearest. Numbers from `10 ^ -4` up to below `10 ^ 16` are written positionally, others with an
exponent. -/

namespace ShellHistory.Binary64

/-- The reals that round to a positive number, `lower` to `upper` in units of `1 / den`, the ends
belonging to them iff `closed`. -/
structure Interval where
  lower : Nat
  value : Nat
  upper : Nat
  den : Nat
  closed : Bool

def interval (m : Nat) (e : Int) : Interval :=
  -- below a power of two the neighbour is only half as far away
  let below := if m = Nat.pow 2 52 ∧ e > minExponent then 1 else 2
  let (unit, den) := ratio 1 (e - 2)
  ⟨(4 * m - below) * unit, 4 * m * unit, (4 * m + 2) * unit, den, m % 2 = 0⟩

def Interval.contains (i : Interval) (num den : Nat) : Bool :=
  let n := num * i.den
  if i.closed then i.lower * den ≤ n && n ≤ i.upper * den
  else i.lower * den < n && n < i.upper * den

def powerOfTen (k : Int) : Nat × Nat :=
  if k < 0 then (1, Nat.pow 10 (-k).toNat) else (Nat.pow 10 k.toNat, 1)

/-- The nearer neighbour on the grid of multiples of `10 ^ k` that reads back, if one does. -/
def onGrid? (i : Interval) (k : Int) : Option Nat :=
  let (a, b) := powerOfTen k
  let low := i.value * b / (i.den * a)
  let fits (n : Nat) := i.contains (n * a) b
  match fits low, fits (low + 1) with
  | true, false => some low
  | false, true => some (low + 1)
  | false, false => none
  | true, true =>
    let rest := 2 * (i.value * b % (i.den * a))
    if rest < i.den * a ∨ (rest = i.den * a ∧ low % 2 = 0) then some low else some (low + 1)

/-- The place of the leading digit: the `k` with `10 ^ (k - 1) ≤ value < 10 ^ k`. -/
def leadingPlace (i : Interval) : Int :=
  let guess : Int := (((i.value.log2 : Int) - i.den.log2) * 30103) / 100000
  let reaches (k : Int) : Bool :=
    let (a, b) := powerOfTen k
    i.den * a ≤ i.value * b
  if reaches (guess + 1) then guess + 2
  else if reaches guess then guess + 1
  else if reaches (guess - 1) then guess
  else guess - 1

/-- The digits, without trailing zeros, and the place `k` of the point in `0.digits * 10 ^ k`. -/
def shortest (m : Nat) (e : Int) : List Char × Int :=
  let i := interval m e
  let k := leadingPlace i
  let hit := (List.range 17).findSome? fun (n : Nat) =>
    (onGrid? i (k - (n + 1))).map fun d => (d, k - (n + 1))
  let (d, scale) := hit.getD (0, 0)
  let digits := Nat.toDigits 10 d
  (Text.dropEndWhile (· == '0') digits, scale + digits.length)

def exponentText (x : Int) : List Char :=
  let digits := Nat.toDigits 10 x.natAbs
  'e' :: (if x < 0 then '-' else '+') :: (if digits.length < 2 then '0' :: digits else digits)

def sizeText (m : Nat) (e : Int) : List Char :=
  if m = 0 then ['0', '.', '0']
  else
    let (digits, point) := shortest m e
    if point ≤ -4 ∨ 16 < point then
      match digits with
      | [d] => d :: exponentText (point - 1)
      | d :: more => d :: '.' :: more ++ exponentText (point - 1)
      | [] => []
    else if point ≤ 0 then
      '0' :: '.' :: List.replicate (-point).toNat '0' ++ digits
    else
      let whole := point.toNat
      if digits.length ≤ whole then
        digits ++ List.replicate (whole - digits.length) '0' ++ ['.', '0']
      else digits.take whole ++ '.' :: digits.drop whole

def toText : Binary64 → String
  | .finite s m e => String.ofList (if s then '-' :: sizeText m e else sizeText m e)
  | .infinite s => if s then "-inf" else "inf"
  | .nan => "nan"

def spanDigits (s : List Char) : List Char × List Char := s.span Char.isDigit

def digitsValue (base : Nat) (s : List Char) : Nat :=
  Text.ofDigits base (s.map fun c =>
    if c.isDigit then c.toNat - '0'.toNat else c.toLower.toNat - 'a'.toNat + 10)

/-- The exponent at the end of a decimal: nothing, or `e`, an optional sign and digits. -/
def readExponent? : List Char → Option Int
  | [] => some 0
  | e :: rest =>
    if e = 'e' ∨ e = 'E' then
      let (negative, digits) := match rest with
        | '-' :: more => (true, more)
        | '+' :: more => (false, more)
        | more => (false, more)
      if digits ≠ [] ∧ digits.all Char.isDigit then
        let n : Int := digitsValue 10 digits
        some (if negative then -n else n)
      else none
    else none

/-- An unsigned decimal: digits with an optional point, at least one of them, then an exponent. -/
def readUnsigned? (s : List Char) : Option Binary64 :=
  let (whole, rest) := spanDigits s
  let (fraction, rest) := match rest with
    | '.' :: more => spanDigits more
    | _ => ([], rest)
  if whole = [] ∧ fraction = [] then none
  else (readExponent? rest).map fun x =>
    ofDecimal false (digitsValue 10 (whole ++ fraction)) (x - fraction.length)

def plainDigit (c : Char) : Char :=
  match Text.decimal? c with
  | some d => Char.ofNat ('0'.toNat + d)
  | none => c

/-- A number as people type it: white space around it, a sign, then a decimal, `inf` or `nan`. -/
def read? (s : String) : Option Binary64 :=
  let (negative, body) := match (Text.trim Text.isMargin s.toList).map plainDigit with
    | '-' :: rest => (true, rest)
    | '+' :: rest => (false, rest)
    | rest => (false, rest)
  let size := match (String.ofList (body.map Char.toLower)) with
    | "inf" | "infinity" => some (.infinite false)
    | "nan" => some .nan
    | _ => readUnsigned? body
  if negative then size.map neg else size

end ShellHistory.Binary64
