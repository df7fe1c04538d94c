/-!
# Layout marks

A laid-out text before lines are chosen: words, places where a line may end, and groups of such places. In
a group that does not fit on the line, a consistent group ends a line at every place, an inconsistent one
only where the next piece would not fit.
-/

namespace SourceGen

/-- How the places of a group break that does not fit. -/
inductive BreakStyle
  | consistent
  | inconsistent
deriving DecidableEq, Repr

/-- A place where a line may end. -/
structure LineBreak where
  /-- Blanks that stand here if the line goes on. -/
  blanks : Nat := 0
  /-- What is added to the indentation of the group if the line ends. -/
  offset : Int := 0
  /-- What ends the line. -/
  before : String := ""
  /-- What starts the next line. -/
  after : String := ""
  /-- What stands here if the line goes on. -/
  within : String := ""
  /-- Whether the place vanishes at the end of a group. -/
  ifNonempty : Bool := false
  /-- Whether the place vanishes if the words of its group alone have no room where the group starts. -/
  ifRoom : Bool := false
  /-- Whether the line always goes on. -/
  never : Bool := false
deriving DecidableEq, Repr

/-- A piece of a layout. -/
inductive LayoutMark
  | /-- A word. -/
    text (s : String)
  | /-- A width that no line has room for, without text. -/
    overflow
  | /-- A place where a line may end. -/
    line (place : LineBreak)
  | /-- The start of a group; a broken group changes the indentation by `offset`. -/
    enter (offset : Int) (style : BreakStyle)
  | /-- The end of a group. -/
    leave
deriving DecidableEq, Repr

/-- A width that no line has room for. -/
def unboundedWidth : Nat := 0xffff

/-- The width of a mark if the line goes on. Widths count bytes. -/
def LayoutMark.width : LayoutMark → Nat
  | .text s => s.utf8ByteSize
  | .overflow => unboundedWidth
  | .line place => place.blanks
  | .enter _ _ => 0
  | .leave => 0

end SourceGen
