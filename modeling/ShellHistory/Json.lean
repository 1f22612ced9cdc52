import ShellHistory.Value

/-! Reading JSON documents. Beyond the standard, `NaN` and the infinities are numbers; of several
members with one name the last one counts, in the place of the first. -/

namespace ShellHistory.Json

inductive Error
  | malformed
  /-- A whole number with more digits than are read. -/
  | tooLong (digits : Nat)
  deriving DecidableEq, Repr

def isSpace (c : Char) : Bool := c = ' ' || c = '\t' || c = '\n' || c = '\r'

def skipSpace (s : List Char) : List Char := s.dropWhile isSpace

def escape? : Char → Option Char
  | '"' => some '"'
  | '\\' => some '\\'
  | '/' => some '/'
  | 'b' => some '\x08'
  | 'f' => some '\x0c'
  | 'n' => some '\n'
  | 'r' => some '\r'
  | 't' => some '\t'
  | _ => none

def hexDigit? (c : Char) : Option Nat :=
  if c.isDigit then some (c.toNat - '0'.toNat)
  else if 'a' ≤ c ∧ c ≤ 'f' then some (c.toNat - 'a'.toNat + 10)
  else if 'A' ≤ c ∧ c ≤ 'F' then some (c.toNat - 'A'.toNat + 10)
  else none

def unit? : List Char → Option (Nat × List Char)
  | a :: b :: c :: d :: rest =>
    match hexDigit? a, hexDigit? b, hexDigit? c, hexDigit? d with
    | some a, some b, some c, some d => some (((a * 16 + b) * 16 + c) * 16 + d, rest)
    | _, _, _, _ => none
  | _ => none

theorem length_of_unit? {s rest : List Char} {n : Nat} (h : unit? s = some (n, rest)) :
    rest.length < s.length := by
  unfold unit? at h
  split at h
  · split at h
    · simp only [Option.some.injEq, Prod.mk.injEq] at h
      obtain ⟨-, rfl⟩ := h
      simp only [List.length_cons]
      omega
    · cases h
  · cases h

/-- What follows `\u`: one code point, or two units of a pair. A half of a pair may stand alone. -/
def codePoint? (s : List Char) : Option (Nat × List Char) :=
  match unit? s with
  | none => none
  | some (high, rest) =>
    if 0xD800 ≤ high ∧ high ≤ 0xDBFF then
      match rest with
      | '\\' :: 'u' :: more =>
        match unit? more with
        | some (low, after) =>
          if 0xDC00 ≤ low ∧ low ≤ 0xDFFF then
            some (0x10000 + (high - 0xD800) * 0x400 + (low - 0xDC00), after)
          else some (high, rest)
        | none => some (high, rest)
      | _ => some (high, rest)
    else some (high, rest)

theorem length_of_codePoint? {s rest : List Char} {n : Nat} (h : codePoint? s = some (n, rest)) :
    rest.length < s.length := by
  unfold codePoint? at h
  split at h
  · cases h
  · next high r hu =>
    have hr := length_of_unit? hu
    split at h
    · split at h
      · next more =>
        split at h
        · next low after hl =>
          have := length_of_unit? hl
          split at h <;> simp only [Option.some.injEq, Prod.mk.injEq] at h <;>
            obtain ⟨-, rfl⟩ := h <;> simp only [List.length_cons] at * <;> omega
        · simp only [Option.some.injEq, Prod.mk.injEq] at h
          obtain ⟨-, rfl⟩ := h
          exact hr
      · simp only [Option.some.injEq, Prod.mk.injEq] at h
        obtain ⟨-, rfl⟩ := h
        exact hr
    · simp only [Option.some.injEq, Prod.mk.injEq] at h
      obtain ⟨-, rfl⟩ := h
      exact hr

/-- The code points of a text up to its closing quote, and what follows. -/
def readText (s : List Char) : Option (List Nat × List Char) :=
  match s with
  | [] => none
  | '"' :: rest => some ([], rest)
  | '\\' :: 'u' :: rest =>
    match h : codePoint? rest with
    | none => none
    | some (n, after) =>
      have := length_of_codePoint? h
      (readText after).map fun (codes, tail) => (n :: codes, tail)
  | '\\' :: e :: rest =>
    match escape? e with
    | none => none
    | some c => (readText rest).map fun (codes, tail) => (c.toNat :: codes, tail)
  | c :: rest =>
    if c = '\\' ∨ c.toNat < 0x20 then none
    else (readText rest).map fun (codes, tail) => (c.toNat :: codes, tail)
termination_by s.length
decreasing_by all_goals simp_wf; try omega

def literals : List (List Char × Value) :=
  [("null".toList, .null), ("true".toList, .bool true), ("false".toList, .bool false),
   ("NaN".toList, .float .nan), ("Infinity".toList, .float (.infinite false)),
   ("-Infinity".toList, .float (.infinite true))]

def literal? (s : List Char) : Option (Value × List Char) :=
  literals.findSome? fun (word, v) =>
    if word.isPrefixOf s then some (v, s.drop word.length) else none

def spanFraction (s : List Char) : List Char × List Char :=
  match s with
  | '.' :: more =>
    match Binary64.spanDigits more with
    | ([], _) => ([], s)
    | (digits, rest) => (digits, rest)
  | _ => ([], s)

def spanExponent (s : List Char) : Option Int × List Char :=
  match s with
  | e :: more =>
    if e = 'e' ∨ e = 'E' then
      let (negative, body) := match more with
        | '-' :: r => (true, r)
        | '+' :: r => (false, r)
        | r => (false, r)
      match Binary64.spanDigits body with
      | ([], _) => (none, s)
      | (digits, rest) =>
        let n : Int := Binary64.digitsValue 10 digits
        (some (if negative then -n else n), rest)
    else (none, s)
  | [] => (none, s)

/-- A number: a sign, a whole part without needless zeros, a fraction, an exponent. -/
def readNumber (s : List Char) : Except Error (Value × List Char) :=
  let (negative, body) := match s with
    | '-' :: rest => (true, rest)
    | rest => (false, rest)
  let (whole, rest) := match body with
    | '0' :: rest => (['0'], rest)
    | _ => Binary64.spanDigits body
  if whole = [] then .error .malformed
  else
    let (fraction, rest) := spanFraction rest
    let (exponent, rest) := spanExponent rest
    if fraction = [] ∧ exponent = none then
      if whole.length > Text.maxDigits then .error (.tooLong whole.length)
      else
        let n : Int := Binary64.digitsValue 10 whole
        .ok (.int (if negative then -n else n), rest)
    else
      let x := Binary64.ofDecimal negative (Binary64.digitsValue 10 (whole ++ fraction))
        (exponent.getD 0 - fraction.length)
      .ok (.float x, rest)

mutual

/-- One value and what follows it. Each level of nesting and each item takes one unit of `fuel`. -/
def readValue : Nat → List Char → Except Error (Value × List Char)
  | 0, _ => .error .malformed
  | fuel + 1, s =>
    match s with
    | '"' :: rest =>
      match readText rest with
      | some (codes, tail) => .ok (.ofCodes codes, tail)
      | none => .error .malformed
    | '[' :: rest =>
      match skipSpace rest with
      | ']' :: tail => .ok (.list [], tail)
      | start => (readItems fuel start).map fun (items, tail) => (.list items, tail)
    | '\x7b' :: rest =>
      match skipSpace rest with
      | '\x7d' :: tail => .ok (.map [], tail)
      | start => (readMembers fuel [] start).map fun (entries, tail) => (.map entries, tail)
    | s =>
      match literal? s with
      | some hit => .ok hit
      | none => readNumber s

/-- The items of a list, at least one, up to the closing bracket. -/
def readItems : Nat → List Char → Except Error (List Value × List Char)
  | 0, _ => .error .malformed
  | fuel + 1, s => do
    let (v, rest) ← readValue fuel s
    match skipSpace rest with
    | ',' :: more => do
      let (vs, tail) ← readItems fuel (skipSpace more)
      return (v :: vs, tail)
    | ']' :: tail => return ([v], tail)
    | _ => throw .malformed

/-- The members of an object, at least one, up to the closing brace. -/
def readMembers : Nat → List (Value × Value) → List Char →
    Except Error (List (Value × Value) × List Char)
  | 0, _, _ => .error .malformed
  | fuel + 1, entries, s =>
    match s with
    | '"' :: start =>
      match readText start with
      | none => .error .malformed
      | some (key, rest) =>
        match skipSpace rest with
        | ':' :: more => do
          let (v, rest) ← readValue fuel (skipSpace more)
          let entries := Value.insert (.ofCodes key) v entries
          match skipSpace rest with
          | ',' :: more => readMembers fuel entries (skipSpace more)
          | '\x7d' :: tail => return (entries, tail)
          | _ => throw .malformed
        | _ => .error .malformed
    | _ => .error .malformed

end

def read (s : String) : Except Error Value := do
  let (v, rest) ← readValue (s.toList.length + 1) (skipSpace s.toList)
  if skipSpace rest = [] then return v else throw .malformed

end ShellHistory.Json
