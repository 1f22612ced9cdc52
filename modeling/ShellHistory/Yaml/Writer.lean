import ShellHistory.Yaml.Scalar

/-! Writing values as documents in block style. Keys are sorted, sequences stand in the column of
their key, long lines are folded at single spaces, and characters outside of ASCII are escaped. A
labelled value that occurs again is written once, with an anchor, and then as an alias. -/

namespace ShellHistory.Yaml.Writer

def lineWidth : Nat := 80

def indentWidth : Nat := 2

structure Pen where
  out : List Char
  column : Nat
  /-- Whether white space was written last. -/
  blank : Bool
  /-- Whether the line holds nothing but indentation and marks. -/
  fresh : Bool
  /-- The labels whose values have been written. -/
  known : List Nat

namespace Pen

def start : Pen := ⟨[], 0, true, true, []⟩

def write (cs : List Char) (p : Pen) : Pen :=
  { p with out := cs.reverse ++ p.out, column := p.column + cs.length }

def breakLine (p : Pen) : Pen :=
  { p with out := '\n' :: p.out, column := 0, blank := true, fresh := true }

/-- Writes a mark, apart from what stands before it if `apart` holds. -/
def mark (cs : List Char) (apart : Bool) (p : Pen) : Pen :=
  { (if apart && !p.blank then p.write (' ' :: cs) else p.write cs) with
    blank := false, fresh := false }

def leadingMark (cs : List Char) (p : Pen) : Pen :=
  { p.mark cs true with fresh := p.fresh }

/-- Goes to a column, on a new line unless the present one is still fresh. -/
def indentTo (column : Nat) (p : Pen) : Pen :=
  let p :=
    if !p.fresh || p.column > column || (p.column = column && !p.blank) then p.breakLine else p
  if p.column < column then
    { p.write (List.replicate (column - p.column) ' ') with blank := true }
  else p

end Pen

/-! ### Scalars -/

def segments (s : List Char) : List (List Char) :=
  s.splitBy fun a b => (a == ' ') == (b == ' ') && (a == '\n') == (b == '\n')

/-- Whether a run is one space at which a full line may be folded. -/
def foldsAt (segment : List Char) (split : Bool) (p : Pen) : Bool :=
  segment = [' '] && p.column > lineWidth && split

def plainSegments (split : Bool) (indent : Nat) : List (List Char) → Pen → Pen
  | [], p => p
  | segment :: rest, p =>
    let p :=
      if foldsAt segment split p then { p.indentTo indent with blank := false, fresh := false }
      else p.write segment
    plainSegments split indent rest p

def writePlain (split : Bool) (indent : Nat) (s : List Char) (p : Pen) : Pen :=
  if s = [] then p
  else
    let p := if p.blank then p else p.write [' ']
    plainSegments split indent (segments s) { p with blank := false, fresh := false }

def singleSegments (split : Bool) (indent : Nat) (first : Bool) : List (List Char) → Pen → Pen
  | [], p => p
  | segment :: rest, p =>
    let p :=
      if segment.head? = some '\n' then
        -- a break counts as a space, so one more is written than there are
        ((List.range (segment.length + 1)).foldl (fun p _ => p.breakLine) p).indentTo indent
      else if foldsAt segment split p && !first && rest ≠ [] then p.indentTo indent
      else p.write (segment.flatMap fun c => if c = '\'' then [c, c] else [c])
    singleSegments split indent false rest p

def writeSingle (split : Bool) (indent : Nat) (s : List Char) (p : Pen) : Pen :=
  (singleSegments split indent true (segments s) (p.mark ['\''] true)).mark ['\''] false

def escapeLetter? (c : Char) : Option Char :=
  [('\x00', '0'), ('\x07', 'a'), ('\x08', 'b'), ('\t', 't'), ('\n', 'n'), ('\x0b', 'v'),
    ('\x0c', 'f'), ('\r', 'r'), ('\x1b', 'e'), ('"', '"'), ('\\', '\\'), ('\x85', 'N'),
    ('\u00a0', '_'), ('\u2028', 'L'), ('\u2029', 'P')].lookup c

def hexUpper (width n : Nat) : List Char := (Text.hex width n).map Char.toUpper

def escaped (c : Char) : List Char :=
  match escapeLetter? c with
  | some e => ['\\', e]
  | none =>
    if c.toNat ≤ 0xff then '\\' :: 'x' :: hexUpper 2 c.toNat
    else if c.toNat ≤ 0xffff then '\\' :: 'u' :: hexUpper 4 c.toNat
    else '\\' :: 'U' :: hexUpper 8 c.toNat

/-- Whether a character stands for itself between double quotes. -/
def isBareInDouble (c : Char) : Bool := ' ' ≤ c && c ≤ '~' && c ≠ '"' && c ≠ '\\'

/-- The rest of a text between double quotes. `pending` holds, in reverse, what is not yet written;
a line may be folded before a space and behind an escape, with a `\` at its end. -/
def doubleFrom (split : Bool) (indent : Nat) : Bool → List Char → List Char → Pen → Pen
  | _, pending, [], p => p.write pending.reverse
  | first, pending, c :: rest, p =>
    let bare := isBareInDouble c
    let (p, pending) := if bare then (p, pending) else (p.write pending.reverse, [])
    let p := if bare then p else p.write (escaped c)
    let full := p.column + pending.length > (if bare then lineWidth else lineWidth + 1)
    let (p, pending) :=
      if !first && rest ≠ [] && (c = ' ' || pending = []) && full && split then
        let p := (p.write (pending.reverse ++ ['\\'])).indentTo indent
        let p := { p with blank := false, fresh := false }
        let ahead := if bare then some c else rest.head?
        (if ahead = some ' ' then p.write ['\\'] else p, [])
      else (p, pending)
    doubleFrom split indent false (if bare then c :: pending else pending) rest p

def writeDouble (split : Bool) (indent : Nat) (s : List Char) (p : Pen) : Pen :=
  (doubleFrom split indent true [] s (p.mark ['"'] true)).mark ['"'] false

def writeLines (indent : Nat) (s : List Char) (p : Pen) : Pen :=
  ((Text.fields '\n' s).filter (· ≠ [])).foldl (fun p line => (p.indentTo indent).write line)
    (p.mark ['|'] true).breakLine |>.breakLine

structure Analysis where
  multiline : Bool
  plain : Bool
  single : Bool

def isGap (c : Char) : Bool := endsToken c

/-- Whether a mark of the language stands where a plain scalar may not have it, given the
character before. -/
def hasMark : Option Char → List Char → Bool
  | _, [] => false
  | before, c :: rest =>
    let apart := rest.head?.all isGap
    let here := match before with
      | none =>
        "#,[]\x7b\x7d&*!|>'\"%@`".toList.contains c || ((c = '?' || c = ':' || c = '-') && apart)
      | some b => (c = ':' && apart) || (c = '#' && isGap b)
    here || hasMark (some c) rest

def hasPair (a b : Char) : List Char → Bool
  | c :: d :: rest => (c = a && d = b) || hasPair a b (d :: rest)
  | _ => false

def analyze (s : List Char) : Analysis :=
  let special := s.any fun c => !(c = '\n' || (' ' ≤ c && c ≤ '~'))
  let edge (c : Option Char) : Bool := c = some ' ' || c = some '\n'
  let separator := s.take 3 = ['-', '-', '-'] || s.take 3 = ['.', '.', '.']
  let multiline := s.contains '\n'
  let single := !(special || hasPair '\n' ' ' s || hasPair ' ' '\n' s)
  ⟨multiline,
   single && !multiline && !edge s.head? && !edge s.getLast? && !separator && !hasMark none s,
   single⟩

def floatText (x : Binary64) : String :=
  match x with
  | .nan => ".nan"
  | .infinite s => if s then "-.inf" else ".inf"
  | x =>
    let cs := x.toText.toList
    if cs.contains '.' then String.ofList cs
    else String.ofList (cs.flatMap fun c => if c = 'e' then ['.', '0', 'e'] else [c])

def scalarText : Value → String
  | .null => "null"
  | .bool b => if b then "true" else "false"
  | .int n => toString n
  | .float x => floatText x
  | .moment m => m.toText
  | .text s => s
  | .unpaired t => t.spelled
  | .bytes content => String.ofList (Text.Base64.encodeLines content)
  | .list _ | .pair _ _ | .set _ | .map _ | .labelled _ _ | .again _ => ""

def tellsKind : Value → Bool
  | .text s => Scalar.kindOf s = .text
  | _ => true

def bytesTag : List Char := "!!binary".toList

def setTag : List Char := "!!set".toList

def pairTag : List Char := "!!python/tuple".toList

/-- Writes a scalar in the plainest way that reads back; bytes have a tag and lines of their own. A
key has to stay on one line. -/
def writeScalar (isKey : Bool) (indent : Nat) (v : Value) (p : Pen) : Pen :=
  let s := (scalarText v).toList
  if let .bytes content := v then
    let p := p.mark bytesTag true
    if content = [] then writeDouble true indent [] p else writeLines indent s p
  else
    let a := analyze s
    if tellsKind v && a.plain && !(isKey && (s = [] || a.multiline)) then
      writePlain (!isKey) indent s p
    else if a.single && !(isKey && a.multiline) then writeSingle (!isKey) indent s p
    else writeDouble (!isKey) indent s p

/-! ### Order and labels -/

/-- The place of a number key: below all numbers, among them as a fraction, or above them. -/
def keyPlace? : Value → Option (Int × Int × Nat)
  | .bool b => some (0, if b then 1 else 0, 1)
  | .int n => some (0, n, 1)
  | .float (.finite s m e) => some (0, Binary64.fraction s m e)
  | .float (.infinite s) => some (if s then -1 else 1, 0, 1)
  | _ => none

def keyLe? (a b : Value) : Option Bool :=
  match a, b with
  | .text s, .text t => some (s ≤ t)
  | .bytes s, .bytes t => some (s ≤ t)
  | .moment m, .moment n => if m.comparable n then some (m.instant ≤ n.instant) else none
  | a, b =>
    match keyPlace? a, keyPlace? b with
    | some (r, x, d), some (q, y, e) => some (r < q || (r = q && x * e ≤ y * d))
    | _, _ => none

/-- The entries by their keys, if all keys can be compared, else as they come. -/
def sorted (entries : List (Value × Value)) : List (Value × Value) :=
  let le? (a b : Value × Value) : Option Bool := keyLe? a.1.bare b.1.bare
  if entries.all fun a => entries.all fun b => (le? a b).isSome then
    entries.mergeSort fun a b => (le? a b).getD true
  else entries

mutual

def ordered : Value → Value
  | .list items => .list (orderedItems items)
  | .pair a b => .pair (ordered a) (ordered b)
  | .set members => .set ((sorted (members.map (·, .null))).map Prod.fst)
  | .map entries => .map (sorted (orderedEntries entries))
  | .labelled n v => .labelled n (ordered v)
  | v => v

def orderedItems : List Value → List Value
  | [] => []
  | v :: rest => ordered v :: orderedItems rest

def orderedEntries : List (Value × Value) → List (Value × Value)
  | [] => []
  | (k, v) :: rest => (k, ordered v) :: orderedEntries rest

end

/-- The labels that have been met, and those of them that have been met again, in this order. -/
structure Census where
  met : List Nat
  repeated : List Nat

def Census.repeat (n : Nat) (c : Census) : Census :=
  if c.repeated.contains n then c else { c with repeated := c.repeated ++ [n] }

mutual

/-- Counts the labels of a value. What is met again is not gone into. -/
def count : Value → Census → Census
  | .list items, c | .set items, c => countAll items c
  | .pair a b, c => count b (count a c)
  | .map entries, c => countEntries entries c
  | .labelled n v, c =>
    if c.met.contains n then c.repeat n else count v { c with met := n :: c.met }
  | .again n, c => c.repeat n
  | _, c => c

def countAll : List Value → Census → Census
  | [], c => c
  | v :: rest, c => countAll rest (count v c)

def countEntries : List (Value × Value) → Census → Census
  | [], c => c
  | (k, v) :: rest, c => countEntries rest (count v (count k c))

end

def anchorsOf (v : Value) : List (Nat × String) :=
  (count v ⟨[], []⟩).repeated.zipIdx.map fun (n, index) => (n, "id" ++ Moment.padded 3 (index + 1))

/-! ### Collections -/

/-- Makes a label known, with the anchor of its value if it has one. -/
def introduce (anchors : List (Nat × String)) (n : Nat) (p : Pen) : Pen :=
  let p := { p with known := n :: p.known }
  match anchors.lookup n with
  | some anchor => p.mark ('&' :: anchor.toList) true
  | none => p

def refer (anchors : List (Nat × String)) (n : Nat) (p : Pen) : Pen :=
  p.mark ('*' :: ((anchors.lookup n).getD "").toList) true

/-- The length of a tag that a key would have if it were written with one. -/
def tagLength : Value → Nat
  | .null => "!!null".length
  | .bool _ => "!!bool".length
  | .int _ => "!!int".length
  | .float _ => "!!float".length
  | .moment _ => "!!timestamp".length
  | _ => "!!str".length

def isSimpleKey (k : Value) : Bool :=
  let s := (scalarText k).toList
  s.length + tagLength k < 128 && s ≠ [] && !(analyze s).multiline

/-- Writes a key of a mapping in a column, and the mark behind it. -/
def writeKey (anchors : List (Nat × String)) (column : Nat) (k : Value) (p : Pen) : Pen :=
  let p := p.indentTo column
  let (repeated, k, p) := match k with
    | .labelled n k =>
      if p.known.contains n then (some n, k, p) else (none, k, introduce anchors n p)
    | k => (none, k, p)
  match repeated with
  | some n => (refer anchors n p).mark [':'] false
  | none =>
    if isSimpleKey k then (writeScalar true (column + indentWidth) k p).mark [':'] false
    else
      let p := writeScalar false (column + indentWidth) k (p.leadingMark ['?'])
      (p.indentTo column).leadingMark [':']

def startItem (column : Nat) (p : Pen) : Pen := (p.indentTo column).leadingMark ['-']

/-- The column of a sequence inside a collection in column `outer`: that of a key before it. -/
def sequenceColumn (outer : Option Nat) (inMapping : Bool) (p : Pen) : Nat :=
  if inMapping && !p.fresh then outer.getD 0 else outer.elim 0 (· + indentWidth)

def writeMembers (anchors : List (Nat × String)) (column : Nat) (members : List Value) (p : Pen) :
    Pen :=
  members.foldl
    (fun p k => writeScalar false (column + indentWidth) .null (writeKey anchors column k p)) p

mutual

/-- Writes a value inside a collection in column `outer`, if it is inside one. -/
def writeValue (anchors : List (Nat × String)) (outer : Option Nat) (inMapping : Bool) :
    Value → Pen → Pen
  | .list [], p => (p.mark ['['] true).mark [']'] false
  | .list (item :: items), p =>
    let column := sequenceColumn outer inMapping p
    writeItems anchors column items
      (writeValue anchors (some column) false item (startItem column p))
  | .pair a b, p =>
    let p := p.mark pairTag true
    let column := sequenceColumn outer inMapping p
    let p := writeValue anchors (some column) false a (startItem column p)
    writeValue anchors (some column) false b (startItem column p)
  | .set members, p =>
    let p := p.mark setTag true
    if members.isEmpty then (p.mark ['\x7b'] true).mark ['\x7d'] false
    else writeMembers anchors (outer.elim 0 (· + indentWidth)) members p
  | .map [], p => (p.mark ['\x7b'] true).mark ['\x7d'] false
  | .map (entry :: entries), p =>
    let column := outer.elim 0 (· + indentWidth)
    writeEntries anchors column entries (writeEntry anchors column entry p)
  | .labelled n v, p =>
    if p.known.contains n then refer anchors n p
    else writeValue anchors outer inMapping v (introduce anchors n p)
  | .again n, p => refer anchors n p
  | v, p => writeScalar false (outer.elim 0 id + indentWidth) v p

def writeItems (anchors : List (Nat × String)) (column : Nat) : List Value → Pen → Pen
  | [], p => p
  | item :: items, p =>
    writeItems anchors column items
      (writeValue anchors (some column) false item (startItem column p))

def writeEntry (anchors : List (Nat × String)) (column : Nat) : Value × Value → Pen → Pen
  | (k, v), p => writeValue anchors (some column) true v (writeKey anchors column k p)

def writeEntries (anchors : List (Nat × String)) (column : Nat) :
    List (Value × Value) → Pen → Pen
  | [], p => p
  | entry :: entries, p =>
    writeEntries anchors column entries (writeEntry anchors column entry p)

end

def write (v : Value) : String :=
  let v := ordered v
  let p := (writeValue (anchorsOf v) none false v .start).indentTo 0
  String.ofList p.out.reverse

end ShellHistory.Yaml.Writer
