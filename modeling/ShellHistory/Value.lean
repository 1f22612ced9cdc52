import ShellHistory.Binary64.Decimal
import ShellHistory.Moment
import ShellHistory.Text.Codes
import ShellHistory.Text.Digit

/-! The values that a configuration document can hold. A document may use one value at several
places, even within itself; such a value has a label, and where it stands within itself there is
only the label. -/

namespace ShellHistory

inductive Value
  | null
  | bool (b : Bool)
  | int (n : Int)
  | float (x : Binary64)
  | text (s : String)
  /-- What is written as a text and is none. -/
  | unpaired (t : Text.Unpaired)
  | bytes (content : List UInt8)
  | moment (m : Moment)
  | list (items : List Value)
  | pair (first second : Value)
  | set (members : List Value)
  | map (entries : List (Value × Value))
  | labelled (label : Nat) (v : Value)
  /-- The labelled value around, once more. -/
  | again (label : Nat)
  deriving Repr

namespace Value

def bare : Value → Value
  | labelled _ v => bare v
  | v => v

def kind : Value → String
  | null => "NoneType"
  | bool _ => "bool"
  | int _ => "int"
  | float _ => "float"
  | text _ | unpaired _ => "str"
  | bytes _ => "bytes"
  | moment ⟨_, none⟩ => "date"
  | moment ⟨_, some _⟩ => "datetime"
  | list _ => "list"
  | pair _ _ => "tuple"
  | set _ => "set"
  | map _ | again _ => "dict"
  | labelled _ v => kind v

/-- The kind of a value, with the family of kinds that a moment belongs to. -/
def fullKind (v : Value) : String :=
  match v.bare with
  | moment _ => "datetime." ++ v.kind
  | _ => v.kind

def isSet : Value → Bool
  | null => false
  | bool b => b
  | int n => n ≠ 0
  | float x => !x.isZero
  | text s => !s.isEmpty
  | bytes content => !content.isEmpty
  | list items => !items.isEmpty
  | set members => !members.isEmpty
  | map entries => !entries.isEmpty
  | unpaired _ | moment _ | pair _ _ | again _ => true
  | labelled _ v => isSet v

/-! ### Labels -/

mutual

def fill (n : Nat) (w : Value) : Value → Value
  | again m => if m = n then w else again m
  | labelled m v => if m = n then labelled m v else labelled m (fill n w v)
  | list items => list (fillItems n w items)
  | pair a b => pair (fill n w a) (fill n w b)
  | set members => set (fillItems n w members)
  | map entries => map (fillEntries n w entries)
  | v => v

def fillItems (n : Nat) (w : Value) : List Value → List Value
  | [] => []
  | v :: rest => fill n w v :: fillItems n w rest

def fillEntries (n : Nat) (w : Value) : List (Value × Value) → List (Value × Value)
  | [] => []
  | (k, v) :: rest => (fill n w k, fill n w v) :: fillEntries n w rest

end

/-- The value as it is seen from outside: its parts stand on their own. -/
def opened : Value → Value
  | labelled n v => fill n (labelled n v) v
  | v => v

def items? (v : Value) : Option (List Value) :=
  match v.opened with
  | list items => some items
  | _ => none

def entries? (v : Value) : Option (List (Value × Value)) :=
  match v.opened with
  | map entries => some entries
  | _ => none

/-! ### Keys -/

/-- The number that a value counts as when it is a key, where it has one. -/
def keyNumber? : Value → Option Int
  | bool b => some (if b then 1 else 0)
  | int n => some n
  | float x => x.toInt?
  | _ => none

def sameBare (a b : Value) : Bool :=
  match a, b with
  | null, null => true
  | text s, text t => s = t
  | unpaired s, unpaired t => s.codes = t.codes
  | bytes s, bytes t => s = t
  | moment m, moment n => m.same n
  | float x, float y => if x.isZero then y.isZero else x = y && x ≠ .nan
  | a, b =>
    match a.keyNumber?, b.keyNumber? with
    | some m, some n => m = n
    | _, _ => false

/-- Whether two values are the same key. Numbers are the same when they are equal, whatever their
kind; collections are no keys. -/
def sameKey (a b : Value) : Bool := sameBare a.bare b.bare

def insert (k v : Value) : List (Value × Value) → List (Value × Value)
  | [] => [(k, v)]
  | (k', v') :: rest => if sameKey k' k then (k', v) :: rest else (k', v') :: insert k v rest

def ofEntries (entries : List (Value × Value)) : Value :=
  map (entries.foldl (fun m (k, v) => insert k v m) [])

/-- The set of the given keys: whole numbers in ascending order, others as they come. -/
def ofMembers (keys : List Value) : Value :=
  let distinct := (keys.foldl (fun m k => insert k null m) []).map Prod.fst
  if distinct.all fun k => k.keyNumber?.isSome then
    set (distinct.mergeSort fun a b => a.keyNumber?.getD 0 ≤ b.keyNumber?.getD 0)
  else set distinct

def get? (entries : List (Value × Value)) (key : String) : Option Value :=
  match entries with
  | [] => none
  | (k, v) :: rest => if sameKey k (text key) then some v else get? rest key

@[simp] theorem get?_nil (key : String) : get? [] key = none := rfl

theorem sameKey_text_iff (v : Value) (s : String) : sameKey v (text s) ↔ v.bare = text s := by
  unfold sameKey
  rw [show (text s).bare = text s from rfl]
  cases h : v.bare <;> simp [sameBare, keyNumber?]

theorem get?_insert (k v : Value) (entries : List (Value × Value)) (key : String)
    (h : sameKey k (text key) = false) : get? (insert k v entries) key = get? entries key := by
  induction entries with
  | nil => simp [insert, get?, h]
  | cons e rest ih =>
    obtain ⟨k', v'⟩ := e
    unfold insert
    split
    · next hs =>
      have : sameKey k' (text key) = false := by
        cases ht : sameKey k' (text key) with
        | false => rfl
        | true =>
          have hk' := (sameKey_text_iff k' key).1 ht
          have hk : sameKey k (text key) := by
            unfold sameKey at hs
            rw [hk'] at hs
            refine (sameKey_text_iff k key).2 ?_
            cases hb : k.bare <;> simp_all [sameBare, keyNumber?]
          exact absurd hk (by simp [h])
      simp [get?, this]
    · simp only [get?, ih]

/-! ### Text -/

def ofCodes (codes : List Nat) : Value :=
  match Text.ofCodes codes with
  | .inl t => unpaired t
  | .inr s => text s

def spelling? : Value → Option String
  | text s => some s
  | unpaired t => some t.spelled
  | _ => none

def ellipsis : Value → String
  | list _ => "[...]"
  | _ => "\x7b...\x7d"

mutual

/-- The value as it is shown inside a list or a mapping: texts are quoted there. `around` holds
what is shown of the labelled values around it. -/
def shownWithin (around : List (Nat × String)) : Value → String
  | null => "None"
  | bool b => if b then "True" else "False"
  | int n => toString n
  | float x => x.toText
  | text s => Text.literal s
  | unpaired t => t.literal
  | bytes content => Text.bytesLiteral content
  | moment m => m.shown
  | list items => "[" ++ String.intercalate ", " (shownItems around items) ++ "]"
  | pair a b => "(" ++ shownWithin around a ++ ", " ++ shownWithin around b ++ ")"
  | set [] => "set()"
  | set (m :: members) =>
    "\x7b" ++ String.intercalate ", " (shownWithin around m :: shownItems around members) ++ "\x7d"
  | map entries =>
    "\x7b" ++ String.intercalate ", " (shownEntries around entries) ++ "\x7d"
  | labelled n v =>
    match around.lookup n with
    | some mark => mark
    | none => shownWithin ((n, ellipsis v) :: around) v
  | again n => (around.lookup n).getD ""

def shownItems (around : List (Nat × String)) : List Value → List String
  | [] => []
  | v :: rest => shownWithin around v :: shownItems around rest

def shownEntries (around : List (Nat × String)) : List (Value × Value) → List String
  | [] => []
  | (k, v) :: rest =>
    (shownWithin around k ++ ": " ++ shownWithin around v) :: shownEntries around rest

end

mutual

/-- Whether a whole number within the value has more digits than are ever written. -/
def hasLongNumber : Value → Bool
  | int n => Text.maxDigits < (Nat.toDigits 10 n.natAbs).length
  | list items => anyLongNumber items
  | pair a b => hasLongNumber a || hasLongNumber b
  | set members => anyLongNumber members
  | map entries => anyLongEntry entries
  | labelled _ v => hasLongNumber v
  | null | bool _ | float _ | text _ | unpaired _ | bytes _ | moment _ | again _ => false

def anyLongNumber : List Value → Bool
  | [] => false
  | v :: rest => hasLongNumber v || anyLongNumber rest

def anyLongEntry : List (Value × Value) → Bool
  | [] => false
  | (k, v) :: rest => hasLongNumber k || hasLongNumber v || anyLongEntry rest

end

def toText (v : Value) : String :=
  match v.bare with
  | text s => s
  | unpaired t => t.spelled
  | moment m => m.toText
  | _ => v.shownWithin []

end Value
end ShellHistory
