import SourceGen.Text.Split

/-!
# Lines

A line ends at a line feed, and a carriage return before it belongs to the end. What follows the last line
feed is a line too, unless it is empty; no end was read there, so a carriage return stays.
-/

namespace SourceGen.Text

/-- A line without the carriage return before its end. -/
def withoutReturn (line : List Char) : List Char :=
  if line.getLast? = some '\r' then line.dropLast else line

/-- The lines that the segments between line feeds stand for. -/
def linesOfSegments : List (List Char) → List (List Char)
  | [] => []
  | [last] => if last.isEmpty then [] else [last]
  | segment :: rest => withoutReturn segment :: linesOfSegments rest

/-- The lines of a text. -/
def lines (text : List Char) : List (List Char) :=
  linesOfSegments (split '\n' text)

end SourceGen.Text
