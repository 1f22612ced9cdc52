/-! Command lines cut into words by the quoting rules of a POSIX shell. Blanks separate words;
single quotes keep everything, double quotes keep everything but `\` before `"` and `\`, and
outside of quotes `\` keeps the next character. Nothing is expanded and no character starts a
comment. -/

namespace ShellHistory.Words

inductive Error
  | openQuote
  | openEscape
  deriving DecidableEq, Repr

def Error.message : Error → String
  | openQuote => "No closing quotation"
  | openEscape => "No escaped character"

/-- Where the reader stands: between words, in a word, inside quotes, or behind a `\`. -/
inductive Mode
  | gap
  | bare
  | single
  | double
  | escaped
  | escapedInDouble
  deriving DecidableEq, Repr

def isSeparator (c : Char) : Bool := c = ' ' || c = '\t' || c = '\r' || c = '\n'

/-- Reads on from a mode, with the characters of the open word in reverse. -/
def splitFrom : Mode → List Char → List Char → Except Error (List (List Char))
  | .gap, _, [] => .ok []
  | .bare, word, [] => .ok [word.reverse]
  | .single, _, [] | .double, _, [] => .error .openQuote
  | .escaped, _, [] | .escapedInDouble, _, [] => .error .openEscape
  | .gap, word, c :: rest =>
    if isSeparator c then splitFrom .gap word rest
    else if c = '\'' then splitFrom .single [] rest
    else if c = '"' then splitFrom .double [] rest
    else if c = '\\' then splitFrom .escaped [] rest
    else splitFrom .bare [c] rest
  | .bare, word, c :: rest =>
    if isSeparator c then (splitFrom .gap [] rest).map (word.reverse :: ·)
    else if c = '\'' then splitFrom .single word rest
    else if c = '"' then splitFrom .double word rest
    else if c = '\\' then splitFrom .escaped word rest
    else splitFrom .bare (c :: word) rest
  | .single, word, c :: rest =>
    if c = '\'' then splitFrom .bare word rest else splitFrom .single (c :: word) rest
  | .double, word, c :: rest =>
    if c = '"' then splitFrom .bare word rest
    else if c = '\\' then splitFrom .escapedInDouble word rest
    else splitFrom .double (c :: word) rest
  | .escaped, word, c :: rest => splitFrom .bare (c :: word) rest
  | .escapedInDouble, word, c :: rest =>
    if c = '"' ∨ c = '\\' then splitFrom .double (c :: word) rest
    else splitFrom .double (c :: '\\' :: word) rest

def split (line : String) : Except Error (List String) :=
  (splitFrom .gap [] line.toList).map (·.map String.ofList)

end ShellHistory.Words
