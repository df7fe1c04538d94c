/-!
# Token trees

The source text below the grammar: words, lifetimes, literals and single punctuation characters, nested by
matching delimiters. A punctuation character remembers whether the next one touches it, since `> =` and
`>=` are different operators. Positions are not part of a token, so two texts with the same tokens have
equal token trees.
-/

namespace SourceGen

/-- A pair of brackets. -/
inductive Delimiter
  | paren
  | bracket
  | brace
deriving DecidableEq, Repr

/-- A token, or a sequence of tokens between brackets. -/
inductive TokenTree
  | /-- An identifier or keyword. -/
    word (text : String)
  | /-- A lifetime, quote included. -/
    lifetime (text : String)
  | /-- A literal as written. -/
    literal (text : String)
  | /-- A punctuation character; `joint` says that the next token touches it and is punctuation too. -/
    punct (char : Char) (joint : Bool)
  | /-- A bracketed sequence. -/
    group (delimiter : Delimiter) (inner : List TokenTree)
deriving Repr

namespace TokenTree

mutual

/-- Number of lexemes in a tree; a bracket is one lexeme. -/
def size : TokenTree → Nat
  | .word _ => 1
  | .lifetime _ => 1
  | .literal _ => 1
  | .punct _ _ => 1
  | .group _ inner => 2 + sizeAll inner

/-- Number of lexemes in a sequence. -/
def sizeAll : List TokenTree → Nat
  | [] => 0
  | t :: ts => t.size + sizeAll ts

end

mutual

/-- Whether two trees are the same. -/
def beq : TokenTree → TokenTree → Bool
  | .word a, .word b => a == b
  | .lifetime a, .lifetime b => a == b
  | .literal a, .literal b => a == b
  | .punct a j, .punct b k => a == b && j == k
  | .group d xs, .group e ys => d == e && beqAll xs ys
  | _, _ => false

/-- Whether two sequences are the same. -/
def beqAll : List TokenTree → List TokenTree → Bool
  | [], [] => true
  | x :: xs, y :: ys => x.beq y && beqAll xs ys
  | _, _ => false

end

instance : BEq TokenTree := ⟨beq⟩

end TokenTree

end SourceGen
