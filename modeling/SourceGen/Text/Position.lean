/-!
# Positions

Places in a text, by line and column. Both count from one; columns count characters.
-/

namespace SourceGen.Text

/-- A place in a text. -/
structure Position where
  line : Nat
  column : Nat
deriving DecidableEq, Repr

/-- The first place of a text. -/
def Position.first : Position := ⟨1, 1⟩

/-- The place after `c`. -/
def Position.advance (p : Position) (c : Char) : Position :=
  if c = '\n' then ⟨p.line + 1, 1⟩ else ⟨p.line, p.column + 1⟩

/-- The place of the character at `offset`. -/
def positionAt (text : List Char) (offset : Nat) : Position :=
  (text.take offset).foldl Position.advance .first

end SourceGen.Text
