import ShellHistory.Text.Cut

/-! The text that is edited at a prompt, and the point in it. The point moves between lines and
keeps to the column it started from as far as the lines are long enough. -/

namespace ShellHistory

/-- A text and a point in it, counted in characters. `column` is where moves between lines aim, as
long as nothing else has happened since. -/
structure Buffer where
  text : List Char
  point : Nat
  column : Option Nat
  point_le : point ≤ text.length
  deriving DecidableEq, Repr

namespace Buffer

def empty : Buffer := ⟨[], 0, none, Nat.le_refl 0⟩

def before (b : Buffer) : List Char := b.text.take b.point

def after (b : Buffer) : List Char := b.text.drop b.point

def row (b : Buffer) : Nat := b.before.count '\n'

def place (b : Buffer) : Nat := (b.before.reverse.takeWhile (· ≠ '\n')).length

def lines (b : Buffer) : List (List Char) := Text.fields '\n' b.text

/-- The position of a column of a line. What lies beyond the last line or the end of a line is
moved back there. -/
def position (b : Buffer) (row column : Nat) : Nat :=
  let row := min row (b.lines.length - 1)
  let start := (b.lines.take row).foldl (fun n line => n + line.length + 1) 0
  min (start + min column ((b.lines[row]?).getD []).length) b.text.length

def moveTo (b : Buffer) (row : Nat) : Buffer :=
  let column := match b.column with
    | none | some 0 => b.place
    | some column => column
  { b with
    point := b.position row column
    column := some column
    point_le := Nat.min_le_right _ _ }

def up (b : Buffer) (count : Nat) : Buffer := b.moveTo (b.row - count)

def down (b : Buffer) (count : Nat) : Buffer := b.moveTo (b.row + count)

/-- Replaces text and point. The column is kept only where neither changes. -/
def replace (b : Buffer) (text : List Char) (point : Nat) : Buffer :=
  let point := min point text.length
  ⟨text, point, if text = b.text ∧ point = b.point then b.column else none, Nat.min_le_right _ _⟩

def replaceText (b : Buffer) (text : List Char) : Buffer := b.replace text text.length

end Buffer
end ShellHistory
