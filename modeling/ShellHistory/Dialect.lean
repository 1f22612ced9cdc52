import ShellHistory.Dialect.Script
import ShellHistory.Search
import ShellHistory.Words.Quoted

/-! How bash, zsh and fish are spoken to: their quoting, and the statements by which a shell takes
over a session, a step through the history, or a line that was searched. -/

namespace ShellHistory

inductive Dialect
  | bash
  | zsh
  | fish
  deriving DecidableEq, Repr

namespace Dialect

def all : List Dialect := [bash, zsh, fish]

def name : Dialect → String
  | bash => "bash"
  | zsh => "zsh"
  | fish => "fish"

def ofName? (s : String) : Option Dialect := all.find? fun d => d.name = s

def fishChar (c : Char) : List Char := if c = '\\' ∨ c = '\'' then ['\\', c] else [c]

def fishQuote (s : String) : String :=
  String.ofList ('\'' :: s.toList.flatMap fishChar ++ ['\''])

def quote : Dialect → String → String
  | bash | zsh => Words.quote
  | fish => fishQuote

def assign (d : Dialect) (name value : String) : String :=
  match d with
  | bash | zsh => name ++ "=" ++ d.quote value
  | fish => "set -g " ++ name ++ " " ++ d.quote value

def exportVariable (d : Dialect) (name value : String) : String :=
  match d with
  | bash | zsh => "export " ++ name ++ "=" ++ d.quote value
  | fish => "set -gx " ++ name ++ " " ++ d.quote value

def sentinel : Dialect → String
  | bash => "readonly __VELLUM_SETUP=1"
  | zsh => "typeset -gr __VELLUM_SETUP=1"
  | fish => "set -g __vellum_setup 1"

def cursorName : Dialect → String
  | bash | zsh => "__VELLUM_LINE"
  | fish => "__vellum_line"

/-- Replaces the line that is edited. In bash the point goes to its end, counted by the shell. -/
def setLine (d : Dialect) (line : String) : List String :=
  match d with
  | bash => [d.assign "READLINE_LINE" line, "READLINE_POINT=$\x7b#READLINE_LINE\x7d"]
  | zsh => [d.assign "LBUFFER" line]
  | fish => ["commandline -r -- " ++ d.quote line]

/-- Moves within the line that is edited, where the shell can be told to. -/
def moveWithin (d : Dialect) (direction : Int) : List String :=
  match d with
  | bash => []
  | zsh => [if direction = Move.previous then "zle up-line" else "zle down-line"]
  | fish => ["commandline -f " ++ if direction = Move.previous then "up-line" else "down-line"]

def ofStatements (statements : List String) : String := String.intercalate "\n" statements

def sessionStatements (d : Dialect) (s : Session) : String :=
  ofStatements
    (s.toEnvironment.vars.map (fun (name, value) => d.exportVariable name value) ++ [d.sentinel])

/-- What a step through the history makes the shell do; nothing when nothing changes. -/
def navigationStatements (d : Dialect) (outcome : Navigation.Outcome) (cursor : String)
    (direction : Int) : String :=
  match outcome with
  | .bypass => ofStatements (d.moveWithin direction)
  | .unchanged => ""
  | .replaced line => ofStatements (d.assign d.cursorName cursor :: d.setLine line)

def searchStatements (d : Dialect) (line : Option String) : String :=
  match line with
  | none => ""
  | some line => ofStatements (d.setLine line)

def template : Dialect → String
  | bash => bashScript
  | zsh => zshScript
  | fish => fishScript

def script (d : Dialect) (program : String) : String :=
  String.ofList
    (Text.replaceAll placeholder.toList (Words.quote program).toList d.template.toList)

end Dialect
end ShellHistory
