/-!
# Splitting and joining

Texts as lists of segments with a separator between them.
-/

namespace SourceGen.Text

/-- The segments between separators; a text without separator is one segment. -/
def split (separator : Char) : List Char → List (List Char)
  | [] => [[]]
  | c :: cs =>
    if c = separator then [] :: split separator cs
    else
      match split separator cs with
      | s :: ss => (c :: s) :: ss
      | [] => [[c]]

/-- The segments of a text between separators. -/
def splitText (separator : Char) (s : String) : List String :=
  (split separator s.toList).map String.ofList

/-- Names joined by `::`. -/
def joinPath (names : List String) : String :=
  "::".intercalate names

/-- The text without a given end, if it has that end. -/
def withoutEnd (ending s : String) : String :=
  if ending.toList.isSuffixOf s.toList then
    String.ofList (s.toList.take (s.toList.length - ending.toList.length))
  else s

/-- The text without a given start, if it has that start. -/
def withoutStart (start s : String) : String :=
  if start.toList.isPrefixOf s.toList then String.ofList (s.toList.drop start.toList.length) else s

end SourceGen.Text
