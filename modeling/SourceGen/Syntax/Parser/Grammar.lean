import SourceGen.Syntax.Parser.Basic
import SourceGen.Syntax.Precedence

/-!
# The recursive part of the grammar

Types, patterns, expressions and items contain each other. Each of their parsers is written over a
`Grammar`, a record of the parsers it calls on smaller input; the record of all parsers is then tied
together with a bound on the nesting depth.
-/

namespace SourceGen

/-- The parsers that call each other. -/
structure Grammar where
  /-- A type; the flag admits bounds joined by `+`. -/
  type : Bool → Parser Node
  /-- A bound of a type parameter. -/
  bound : Parser Node
  /-- A pattern without alternatives. -/
  pattern : Parser Node
  /-- An expression; the flag admits struct literals. -/
  expr : Bool → Parser Node
  /-- An operand of binary operators; the flag admits struct literals. -/
  operand : Bool → Parser Node
  /-- An expression that ends early after a block, as in statements and match arms. -/
  earlyExpr : Parser Node
  /-- An operand followed by operators that bind at least as strongly as the given precedence. -/
  operators : Bool → Precedence → Node → Parser Node
  /-- The statements between braces; the flag admits inner attributes before them. -/
  statements : Bool → Parser (List Node)
  /-- An item. -/
  item : Parser Item

/-- The grammar that accepts nothing; it stands below the deepest nesting. -/
def Grammar.none : Grammar where
  type := fun _ => Parser.fail
  bound := Parser.fail
  pattern := Parser.fail
  expr := fun _ => Parser.fail
  operand := fun _ => Parser.fail
  earlyExpr := Parser.fail
  operators := fun _ _ _ => Parser.fail
  statements := fun _ => Parser.fail
  item := Parser.fail

end SourceGen
