import SourceGen.Token.Basic

/-!
# Token text

The canonical text of a token sequence. Neighbours stand one blank apart, except that nothing follows a
punctuation character that touches the next token. Round and square brackets hug their content, braces
keep a blank inside.
-/

namespace SourceGen

/-- A printed token, and whether the next one follows without a blank. -/
structure Piece where
  text : String
  joint : Bool
deriving DecidableEq, Repr

namespace Piece

/-- A piece that is followed by a blank. -/
def alone (text : String) : Piece := ⟨text, false⟩

/-- Pieces in a row; `touch` says that the first one follows its predecessor without a blank. -/
def joinFrom (touch : Bool) : List Piece → String
  | [] => ""
  | p :: ps => (if touch then p.text else " " ++ p.text) ++ joinFrom p.joint ps

/-- The text of a sequence of pieces. -/
def join (ps : List Piece) : String := joinFrom true ps

end Piece

namespace Delimiter

/-- The opening bracket as its own token. -/
def opening : Delimiter → String
  | .paren => "("
  | .bracket => "["
  | .brace => "\x7b"

/-- The closing bracket as its own token. -/
def closing : Delimiter → String
  | .paren => ")"
  | .bracket => "]"
  | .brace => "\x7d"

/-- The text of a bracketed sequence with the given content. -/
def enclose (d : Delimiter) (content : List Piece) : Piece :=
  match d with
  | .paren => .alone ("(" ++ Piece.join content ++ ")")
  | .bracket => .alone ("[" ++ Piece.join content ++ "]")
  | .brace =>
    .alone ("\x7b " ++ Piece.join content ++ (if content.isEmpty then "\x7d" else " \x7d"))

end Delimiter

namespace TokenTree

mutual

/-- The printed form of a tree. -/
def piece : TokenTree → Piece
  | .word s => .alone s
  | .lifetime s => .alone s
  | .literal s => .alone s
  | .punct c joint => ⟨c.toString, joint⟩
  | .group d inner => d.enclose (pieces inner)

/-- The printed form of a sequence. -/
def pieces : List TokenTree → List Piece
  | [] => []
  | t :: ts => t.piece :: pieces ts

end

/-- The canonical text of a sequence. -/
def text (ts : List TokenTree) : String := Piece.join (pieces ts)

end TokenTree

end SourceGen
