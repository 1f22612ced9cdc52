import ShellHistory.Text.Base64
import ShellHistory.Text.Cut
import ShellHistory.Text.Lower
import ShellHistory.Value
import ShellHistory.Yaml.Source

/-! What a plain scalar is by its look: a truth value, a number, nothing, a moment or just text.
Numbers may hold `_` between their digits, and `:` between digits to the base of sixty. -/

namespace ShellHistory.Yaml.Scalar

inductive Kind
  | bool
  | int
  | float
  | null
  | moment
  | bytes
  | text
  /-- The mark of entries taken over from another mapping. -/
  | merge
  /-- The mark of a default value. -/
  | default
  deriving DecidableEq, Repr

inductive Error
  | int (base : Nat) (text : String)
  | noDigits
  | tooLong (digits : Nat)
  | float (text : String)
  | bool (text : String)
  | moment
  | impossible (e : MomentError)
  /-- Too many parts to the base of sixty. -/
  | tooLarge
  deriving DecidableEq, Repr

def Error.message : Error → String
  | int base text => Text.malformedMessage base text
  | noDigits => "string index out of range"
  | tooLong digits => Text.tooLongMessage digits
  | float text => "could not convert string to float: " ++ Text.literal text
  | bool word => Text.literal word
  | moment => "'NoneType' object has no attribute 'groupdict'"
  | impossible e => e.message
  | tooLarge => "int too large to convert to float"

def truthWords : List (String × Bool) :=
  [("yes", true), ("no", false), ("true", true), ("false", false), ("on", true), ("off", false)]

def capitalized (s : String) : String :=
  match s.toList with
  | [] => s
  | c :: rest => String.ofList (c.toUpper :: rest)

def upper (s : String) : String := String.ofList (s.toList.map Char.toUpper)

/-- A word in one of its three spellings: `word`, `Word` or `WORD`. -/
def spells (word s : String) : Bool := s = word || s = capitalized word || s = upper word

def isBool (s : String) : Bool := truthWords.any fun (w, _) => spells w s

def isNull (s : String) : Bool := s = "" || s = "~" || spells "null" s

def isDigitOr_ (c : Char) : Bool := c.isDigit || c = '_'

def unsigned : List Char → List Char
  | '+' :: rest => rest
  | '-' :: rest => rest
  | s => s

/-- Parts to the base of sixty behind the first: one or two digits below sixty after each colon. -/
def sixtiethsEnd : List Char → List Char
  | ':' :: a :: b :: rest =>
    if a.isDigit && a < '6' && b.isDigit then sixtiethsEnd rest
    else if a.isDigit then sixtiethsEnd (b :: rest)
    else ':' :: a :: b :: rest
  | ':' :: a :: [] => if a.isDigit then [] else [':', a]
  | s => s

/-- What follows a whole part of digits and `_`, and whether there is one. -/
def afterDigits : List Char → Option (List Char)
  | c :: rest => if c.isDigit then some (rest.dropWhile isDigitOr_) else none
  | [] => none

def isInt (s : List Char) : Bool :=
  match unsigned s with
  | '0' :: 'b' :: d :: rest => (d :: rest).all fun c => c = '0' || c = '1' || c = '_'
  | '0' :: 'x' :: d :: rest =>
    (d :: rest).all fun c => c.isDigit || ('a' ≤ c && c ≤ 'f') || ('A' ≤ c && c ≤ 'F') || c = '_'
  | '0' :: rest => rest.all fun c => ('0' ≤ c && c ≤ '7') || c = '_'
  | body =>
    match afterDigits body with
    | some rest => sixtiethsEnd rest = []
    | none => false

/-- An exponent of ten, whose sign may not be left out, or nothing. -/
def isExponent : List Char → Bool
  | [] => true
  | e :: sign :: d :: rest =>
    (e = 'e' || e = 'E') && (sign = '+' || sign = '-') && (d :: rest).all Char.isDigit
  | _ => false

def isFloat (s : List Char) : Bool :=
  let body := unsigned s
  let decimal := match afterDigits body with
    | some ('.' :: rest) => isExponent (rest.dropWhile isDigitOr_)
    | some rest =>
      rest.head? = some ':' &&
        match sixtiethsEnd rest with
        | '.' :: more => more.all isDigitOr_
        | _ => false
    | none => false
  let fraction := match s with
    | '.' :: rest => (afterDigits rest).any isExponent
    | _ => false
  let special := match body with
    | '.' :: rest => spells "inf" (String.ofList rest)
    | _ => false
  decimal || fraction || special || s = ".nan".toList || s = ".NaN".toList || s = ".NAN".toList

def takeDigits (least most : Nat) (s : List Char) : Option (Nat × List Char) :=
  let ds := (s.take most).takeWhile Char.isDigit
  if ds.length < least then none else some (Binary64.digitsValue 10 ds, s.drop ds.length)

def takeChar (c : Char) : List Char → Option (List Char)
  | d :: rest => if d = c then some rest else none
  | [] => none

def microseconds (ds : List Char) : Nat :=
  let six := ds.take 6
  Binary64.digitsValue 10 (six ++ List.replicate (6 - six.length) '0')

/-- An offset at the end of a time: nothing, `Z`, or a sign, hours and perhaps minutes. -/
def readOffset? (s : List Char) : Option (Option Int) :=
  match s.dropWhile fun c => c = ' ' || c = '\t' with
  | [] => if s = [] then some none else none
  | ['Z'] => some (some 0)
  | sign :: rest =>
    if sign = '+' ∨ sign = '-' then do
      let (hours, rest) ← takeDigits 1 2 rest
      let minutes ← match rest with
        | [] => pure 0
        | _ => do
          let (minutes, rest) ← takeDigits 2 2 (← takeChar ':' rest)
          if rest = [] then pure minutes else none
      let size : Int := hours * 60 + minutes
      return some (if sign = '-' then -size else size)
    else none

def readClock? (s : List Char) : Option Clock := do
  let body := match s with
    | 'T' :: rest | 't' :: rest => rest
    | _ => s.dropWhile fun c => c = ' ' || c = '\t'
  if body.length = s.length then none
  let (hour, rest) ← takeDigits 1 2 body
  let (minute, rest) ← takeDigits 2 2 (← takeChar ':' rest)
  let (second, rest) ← takeDigits 2 2 (← takeChar ':' rest)
  let (fraction, rest) := match rest with
    | '.' :: more => more.span Char.isDigit
    | _ => ([], rest)
  let offset ← readOffset? rest
  return ⟨hour, minute, second, microseconds fraction, offset⟩

def readMoment? (s : List Char) : Option Moment := do
  let (year, rest) ← takeDigits 4 4 s
  let (month, rest) ← takeDigits 1 2 (← takeChar '-' rest)
  let (day, rest) ← takeDigits 1 2 (← takeChar '-' rest)
  if rest = [] then return ⟨⟨year, month, day⟩, none⟩
  let clock ← readClock? rest
  return ⟨⟨year, month, day⟩, some clock⟩

def isMoment (s : List Char) : Bool :=
  match readMoment? s with
  | some ⟨_, none⟩ => s.length = 10
  | some ⟨_, some _⟩ => true
  | none => false

/-- The kind of a plain scalar. A line break at its very end does not count. -/
def kindOf (s : String) : Kind :=
  let cs := if s = "\n" then ['\n'] else Text.dropBreak s.toList
  let s := String.ofList cs
  if isBool s then .bool
  else if isFloat cs then .float
  else if isInt cs then .int
  else if s = "<<" then .merge
  else if isNull s then .null
  else if isMoment cs then .moment
  else if s = "=" then .default
  else .text

def without_ (s : List Char) : List Char := s.filter (· ≠ '_')

def readIn (base : Nat) (s : List Char) : Except Error Int :=
  match Text.readIntIn base (String.ofList s) with
  | .ok n => .ok n
  | .error .malformed => .error (.int base (String.ofList s))
  | .error (.tooLong n) => .error (.tooLong n)

def ofSixtieths (parts : List Int) : Int := parts.foldl (fun n part => n * 60 + part) 0

def toInt (text : String) : Except Error Int := do
  let s := without_ text.toList
  let negative := s.head? = some '-'
  let body := unsigned s
  if s = [] then throw .noDigits
  let size ←
    match body with
    | ['0'] => pure 0
    | '0' :: 'b' :: rest => readIn 2 rest
    | '0' :: 'x' :: rest => readIn 16 rest
    | '0' :: _ => readIn 8 body
    | [] => throw .noDigits
    | _ =>
      if body.contains ':' then ofSixtieths <$> (Text.fields ':' body).mapM (readIn 10)
      else readIn 10 body
  return if negative then -size else size

def readDecimal (s : List Char) : Except Error Binary64 :=
  match Binary64.read? (String.ofList s) with
  | some x => .ok x
  | none => .error (.float (String.ofList s))

/-- The parts of a number to the base of sixty, the last first, added up from there. -/
def addSixtieths (sum : Binary64) (unit : Nat) : List Binary64 → Except Error Binary64
  | [] => .ok sum
  | part :: more =>
    match Binary64.ofNat? unit with
    | some u => addSixtieths (sum.add (part.mul u)) (unit * 60) more
    | none => .error .tooLarge

def toFloat (text : String) : Except Error Binary64 := do
  let s := Text.lower (without_ text.toList)
  let negative := s.head? = some '-'
  let body := unsigned s
  if s = [] then throw .noDigits
  let size ←
    if body = ".inf".toList then pure (.infinite false)
    else if body = ".nan".toList then pure .nan
    else if body.contains ':' then do
      let parts ← (Text.fields ':' body).mapM readDecimal
      addSixtieths (.zero false) 1 parts.reverse
    else readDecimal body
  return if negative then size.neg else size

def toBool (text : String) : Except Error Bool :=
  let word := String.ofList (Text.lower text.toList)
  match truthWords.lookup word with
  | some b => .ok b
  | none => .error (.bool word)

def toMoment (text : String) : Except Error Moment :=
  match readMoment? (Text.dropBreak text.toList) with
  | none => .error .moment
  | some m => m.check.mapError .impossible

def textOf : Text.Unpaired ⊕ String → Value
  | .inl t => .unpaired t
  | .inr text => .text text

/-- The value of a scalar of a kind, where the kind has values. What is no text has no other kind:
it is read with the replacement character in it, which no kind allows. -/
def toValue? (k : Kind) (written : Text.Unpaired ⊕ String) : Except Error (Option Value) :=
  let text := match written with
    | .inl t => t.marked
    | .inr text => text
  match k with
  | .bool => (toBool text).map fun b => some (.bool b)
  | .int => (toInt text).map fun n => some (.int n)
  | .float => (toFloat text).map fun x => some (.float x)
  | .null => .ok (some .null)
  | .moment => (toMoment text).map fun m => some (.moment m)
  | .bytes => .ok ((Text.Base64.decode? text.toList).map .bytes)
  | .text => .ok (some (textOf written))
  | .merge | .default => .ok none

end ShellHistory.Yaml.Scalar
