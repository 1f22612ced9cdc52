import ShellHistory.Text.Digit

/-! Floating-point numbers of 64 bits, held as a mantissa and a power of two, so that reading and
rounding are exact arithmetic on natural numbers. -/

namespace ShellHistory

/-- A number of the format. A finite one is `mantissa * 2 ^ exponent`. -/
inductive Binary64
  | finite (negative : Bool) (mantissa : Nat) (exponent : Int)
  | infinite (negative : Bool)
  | nan
  deriving DecidableEq, Repr

namespace Binary64

def minExponent : Int := -1074

def maxExponent : Int := 971

def zero (negative : Bool) : Binary64 := .finite negative 0 minExponent

/-- `num / den` in units of `2 ^ exponent`, as a quotient's numerator and denominator. -/
def scaled (num den : Nat) (exponent : Int) : Nat × Nat :=
  if exponent < 0 then (num * Nat.pow 2 (-exponent).toNat, den)
  else (num, den * Nat.pow 2 exponent.toNat)

/-- The whole number nearest to `num / den`; of two nearest ones the even one. -/
def nearest (num den : Nat) : Nat :=
  let q := num / den
  let twice := 2 * (num % den)
  if den < twice ∨ (twice = den ∧ q % 2 = 1) then q + 1 else q

/-- The number nearest to `num / den`. Ties go to the even mantissa, and what exceeds the largest
number by half a unit or more is infinite. -/
def ofRatio (negative : Bool) (num den : Nat) : Binary64 :=
  if num = 0 then zero negative
  else
    let guess : Int := (num.log2 : Int) - den.log2 - 52
    let (n, d) := scaled num den guess
    let fitted := if n / d < Nat.pow 2 52 then guess - 1 else guess
    let exponent := max fitted minExponent
    let (n, d) := scaled num den exponent
    let m := nearest n d
    let (m, exponent) := if m = Nat.pow 2 53 then (Nat.pow 2 52, exponent + 1) else (m, exponent)
    if exponent > maxExponent then .infinite negative else .finite negative m exponent

def ofDecimal (negative : Bool) (n : Nat) (power : Int) : Binary64 :=
  let size : Int := (Nat.toDigits 10 n).length + power
  if n = 0 ∨ size < -400 then zero negative
  else if size > 400 then .infinite negative
  else if power < 0 then ofRatio negative n (Nat.pow 10 (-power).toNat)
  else ofRatio negative (n * Nat.pow 10 power.toNat) 1

def neg : Binary64 → Binary64
  | .finite s m e => .finite (!s) m e
  | .infinite s => .infinite (!s)
  | .nan => .nan

def ratio (m : Nat) (e : Int) : Nat × Nat :=
  if e < 0 then (m, Nat.pow 2 (-e).toNat) else (m * Nat.pow 2 e.toNat, 1)

def fraction (negative : Bool) (m : Nat) (e : Int) : Int × Nat :=
  let (a, b) := ratio m e
  (if negative then -a else a, b)

/-- The sum of two numbers, rounded. It is a negative zero only if both are. -/
def add : Binary64 → Binary64 → Binary64
  | .nan, _ | _, .nan => .nan
  | .infinite s, .infinite t => if s = t then .infinite s else .nan
  | .infinite s, .finite _ _ _ | .finite _ _ _, .infinite s => .infinite s
  | .finite s m e, .finite t n f =>
    let (a, b) := fraction s m e
    let (c, d) := fraction t n f
    let sum := a * d + c * b
    if sum = 0 then zero (s && t) else ofRatio (sum < 0) sum.natAbs (b * d)

def mul : Binary64 → Binary64 → Binary64
  | .nan, _ | _, .nan => .nan
  | .infinite _, .finite _ 0 _ | .finite _ 0 _, .infinite _ => .nan
  | .infinite s, .infinite t | .infinite s, .finite t _ _ | .finite s _ _, .infinite t =>
    .infinite (s != t)
  | .finite s m e, .finite t n f =>
    let (a, b) := ratio m e
    let (c, d) := ratio n f
    ofRatio (s != t) (a * c) (b * d)

/-- The number nearest to a natural number, unless that is too large. -/
def ofNat? (n : Nat) : Option Binary64 :=
  match ofRatio false n 1 with
  | .infinite _ => none
  | x => some x

def isZero : Binary64 → Bool
  | .finite _ 0 _ => true
  | _ => false

def toInt? : Binary64 → Option Int
  | .finite s m e =>
    let (a, b) := fraction s m e
    if a % b = 0 then some (a / b) else none
  | _ => none

end Binary64
end ShellHistory
