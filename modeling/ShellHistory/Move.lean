import ShellHistory.Text.Blank
import ShellHistory.Text.Cut

/-! Steps through the history: the arguments that ask for one, and the texts that answer. A reply is
an id, `|` and a line; a selection is an id, a tab and a line. Only the first delimiter counts,
because the line may hold more of them. -/

namespace ShellHistory

/-- One step through the history. `typed` restricts it to the lines that start so. -/
structure Move where
  direction : Int
  session : String
  cursor : String
  typed : Option String
  extra : List String
  deriving DecidableEq, Repr

namespace Move

def previous : Int := -1

def next : Int := 1

/-- The arguments of a step: flags before `--`, direction and cursor after it. A step of any other
size has none. -/
def args? (m : Move) : Option (List String) :=
  if m.direction = previous ∨ m.direction = next then
    some (["move", "--with-id", "--session"] ++
      (m.typed.map fun typed => "--prefix=" ++ typed).toList ++ m.extra ++
      ["--", toString m.direction, m.cursor])
  else none

end Move

structure Entry where
  id : String
  line : String
  deriving DecidableEq, Repr

inductive Reply
  | entry (e : Entry)
  | malformed (raw : String)
  deriving DecidableEq, Repr

def Entry.cut? (delimiter : Char) (s : List Char) : Option Entry :=
  (Text.cut? delimiter s).map fun (id, line) => ⟨String.ofList id, String.ofList line⟩

def Reply.ofText (raw : String) : Reply :=
  match Entry.cut? '|' (Text.dropTerminator raw.toList) with
  | some e => .entry e
  | none => .malformed raw

/-- Reads what the selector printed: nothing, an entry, or a line without an id. -/
def Entry.ofSelection? (raw : String) : Option Entry :=
  match Text.dropEndWhile (· = '\x00') (Text.dropTerminator raw.toList) with
  | [] => none
  | s => some ((Entry.cut? '\t' s).getD ⟨"", String.ofList s⟩)

end ShellHistory
