import SourceGen.Syntax.Parser.Statement
import SourceGen.Syntax.Size
import SourceGen.Text.Position
import SourceGen.Token.Lexer

/-!
# Parsing texts

Whole texts: files, single imports and lists of attributes. A failed parse has a place in the text. The
end of a text has no token to point at, so a failure there is placed at the very beginning.
-/

namespace SourceGen

open SourceGen.Text

namespace Parser

/-- The nesting depth that suffices for the given tokens. -/
def depthFor (trees : List TokenTree) : Nat := 4 * TokenTree.sizeAll trees + 16

/-- A file: inner attributes and items. -/
def file (g : Grammar) : Parser SourceFile := do
  let attrs ← innerAttrs g
  return ⟨attrs, ← manyToEnd (item g)⟩

/-- A single import with its attributes and visibility. -/
def useItem (g : Grammar) : Parser Item := do
  let attrs ← outerAttrList g
  let vis ← visibility
  match ← useDecl false with
  | some d => return .mk attrs vis d
  | none => fail

/-- Parses all tokens of a stream. -/
def run {α : Type} (p : Grammar → Parser α) (trees : List TokenTree) : Except Nat α :=
  runAll (p (grammar (depthFor trees))) trees

end Parser

/-- A parsed text with what is needed to find places in it. -/
structure ParsedText where
  file : SourceFile
  /-- The characters that were lexed. -/
  body : List Char
  /-- The offset of every lexeme in `body`. -/
  offsets : Array Nat

namespace ParsedText

/-- The text without a byte order mark and without a first line that names an interpreter. -/
def bodyOf (text : List Char) : List Char :=
  let text := match text with
    | '\ufeff' :: r => r
    | _ => text
  match text with
  | '#' :: '!' :: r =>
    if (Blank.skip r).head? = some '[' then text else text.dropWhile (· != '\n')
  | _ => text

/-- The place of a lexeme; past the last one it is the beginning of the text. -/
def place (body : List Char) (offsets : Array Nat) (index : Nat) : Position :=
  match offsets[index]? with
  | some offset => positionAt body offset
  | none => .first

/-- Parses the text of a file; a failure has its place. -/
def parse (text : String) : Except Position ParsedText :=
  let body := bodyOf text.toList
  match TokenStream.ofChars body with
  | .error offset => .error (positionAt body offset)
  | .ok stream =>
    match Parser.run Parser.file stream.trees with
    | .error index => .error (place body stream.offsets index)
    | .ok file => .ok ⟨file, body, stream.offsets⟩

/-- The place of a lexeme of the text. -/
def placeOf (p : ParsedText) (index : Nat) : Position := place p.body p.offsets index

end ParsedText

/-- Parses a text that is not a file; places do not matter. -/
def parseFragment? {α : Type} (p : Grammar → Parser α) (text : String) : Option α :=
  match TokenStream.ofChars text.toList with
  | .error _ => none
  | .ok stream => (Parser.run p stream.trees).toOption

/-- Parses the text of a single import. -/
def Item.parseUse? (text : String) : Option Item := parseFragment? Parser.useItem text

/-- Parses the text of outer attributes. -/
def Attr.parseOuter? (text : String) : Option (List Attr) := parseFragment? Parser.outerAttrList text

end SourceGen
