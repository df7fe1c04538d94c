import SourceGen.Token.Basic

/-!
# Spacing

A token tree remembers of every punctuation character whether the next one touches it. That tells operators
apart, `>=` from `> =`, but between other characters it is a matter of layout: a comma may touch a minus or
not. `relax` keeps the first kind of spacing and forgets the second, so two texts with the same tokens have the
same relaxed trees; `unspaced` forgets all spacing.
-/

namespace SourceGen

namespace TokenTree

/-- Whether two punctuation characters are neighbours in an operator. -/
def couples (c d : Char) : Bool :=
  match d with
  | '=' => ['=', '<', '>', '!', '+', '-', '*', '/', '%', '^', '&', '|', '.'].contains c
  | '>' => ['-', '=', '>'].contains c
  | ':' => c == ':'
  | '.' => c == '.'
  | '&' => c == '&'
  | '|' => c == '|'
  | '<' => c == '<'
  | _ => false

/-- Whether a punctuation character is the neighbour of the next token in an operator. -/
def couplesNext (c : Char) : List TokenTree → Bool
  | .punct d _ :: _ => couples c d
  | _ => false

mutual

/-- A tree without the spacing that is a matter of layout; `after` is what comes next. -/
def relaxBefore (after : List TokenTree) : TokenTree → TokenTree
  | .punct c joint => .punct c (joint && couplesNext c after)
  | .group d inner => .group d (relax inner)
  | .word s => .word s
  | .lifetime s => .lifetime s
  | .literal s => .literal s

/-- Trees in a row without the spacing that is a matter of layout. -/
def relax : List TokenTree → List TokenTree
  | [] => []
  | t :: ts => t.relaxBefore ts :: relax ts

end

mutual

/-- A tree without any spacing. -/
def unspaced : TokenTree → TokenTree
  | .punct c _ => .punct c false
  | .group d inner => .group d (unspacedAll inner)
  | .word s => .word s
  | .lifetime s => .lifetime s
  | .literal s => .literal s

/-- Trees in a row without any spacing. -/
def unspacedAll : List TokenTree → List TokenTree
  | [] => []
  | t :: ts => t.unspaced :: unspacedAll ts

end

end TokenTree

end SourceGen
