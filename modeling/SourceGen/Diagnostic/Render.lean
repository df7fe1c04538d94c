import SourceGen.Diagnostic.Basic
import SourceGen.Text.Lines

/-!
# Reports of diagnostics

A diagnostic is shown on one line, or as a report that quotes the line it points at with a caret under the
column.
-/

namespace SourceGen

open SourceGen.Text

/-- A row of blanks. -/
def blanks (n : Nat) : String := String.ofList (List.replicate n ' ')

namespace Diagnostic

/-- The diagnostic on one line. -/
def text (d : Diagnostic) : String :=
  let head := d.severity.word ++ " " ++ d.id ++ ": " ++ d.message
  match d.location with
  | some l => head ++ " (" ++ l.text ++ ")"
  | none => head

/-- The quoted line with a caret under the column. -/
def excerpt (l : Location) (line : String) : String :=
  let number := toString l.line
  let margin := "  " ++ blanks number.length ++ " |"
  margin ++ "\n  " ++ number ++ " | " ++ line ++ "\n" ++ margin ++ " " ++ blanks (l.column - 1) ++ "^\n"

/-- The line of a text that a place is on; a line zero is taken for the first. -/
def lineAt? (source : String) (l : Location) : Option String :=
  (lines source.toList)[l.line - 1]?.map String.ofList

/-- The report of a diagnostic, given the text of the file it points into. -/
def report (d : Diagnostic) (source : Option String) : String :=
  let head := d.severity.word ++ "[" ++ d.id ++ "]: " ++ d.message ++ "\n"
  match d.location with
  | none => head
  | some l =>
    head ++ "  --> " ++ l.text ++ "\n" ++
      (match source.bind (lineAt? · l) with
        | some line => excerpt l line
        | none => "")

end Diagnostic

end SourceGen
