import SourceGen.Text.Quoted
import SourceGen.Token.Basic
import SourceGen.Token.Blank
import SourceGen.Token.Literal

/-!
# Lexing

From characters to token trees. A text is first cut into lexemes, each with the offset of its first
character, and the lexemes are then nested by their brackets. The trees hold no offsets: the `i`-th lexeme
of a text has the `i`-th offset, brackets included, so whoever needs a place counts lexemes.
-/

namespace SourceGen

open SourceGen.Text

/-- A token tree without brackets, or a bracket. -/
inductive Lexeme
  | leaf (token : TokenTree)
  | opening (delimiter : Delimiter)
  | closing (delimiter : Delimiter)

namespace Lexeme

/-- The punctuation characters. -/
def isPunctuation (c : Char) : Bool :=
  "~!@#$%^&*-=+|;:,<.>/?'".toList.contains c

/-- The punctuation character at the start, unless a comment starts there. -/
def punctuation? : List Char → Option (Char × List Char)
  | '/' :: '/' :: _ => none
  | '/' :: '*' :: _ => none
  | c :: cs => if isPunctuation c then some (c, cs) else none
  | [] => none

/-- The identifier at the start, raw or not, and what follows it. -/
def identifier? : List Char → Option (List Char × List Char)
  | 'r' :: '#' :: cs =>
    match Literal.afterIdentifier cs with
    | some rest =>
      let name := cs.take (cs.length - rest.length)
      if ["_", "super", "self", "Self", "crate"].contains (String.ofList name) then none
      else some ('r' :: '#' :: name, rest)
    | none => none
  | cs => (Literal.afterIdentifier cs).map fun rest => (cs.take (cs.length - rest.length), rest)

/-- Whether a malformed text literal starts here, so that its letters are no identifier. -/
def startsTextLiteral (cs : List Char) : Bool :=
  ["r\"", "r#\"", "r##", "b\"", "b'", "br\"", "br#", "c\"", "cr\"", "cr#"].any fun s =>
    s.toList.isPrefixOf cs

/-- The lifetime or punctuation character at the start. A quote before a literal stands alone. -/
def mark? (cs : List Char) : Option (TokenTree × List Char) :=
  match punctuation? cs with
  | some ('\'', rest) =>
    match identifier? rest with
    | some (name, after) =>
      let closes := after.head? = some '\''
      let runsOn := after.head? = some '#' && !(['r', '#'].isPrefixOf rest)
      if closes || runsOn then none
      else if (Literal.after rest).isSome || startsTextLiteral rest then some (.punct '\'' true, rest)
      else some (.lifetime (String.ofList ('\'' :: name)), after)
    | none => none
  | some (c, rest) => some (.punct c (punctuation? rest).isSome, rest)
  | none => none

/-- The token at the start that is no bracket. -/
def leaf? (cs : List Char) : Option (TokenTree × List Char) :=
  match Literal.after cs with
  | some rest => some (.literal (String.ofList (cs.take (cs.length - rest.length))), rest)
  | none =>
    match mark? cs with
    | some r => some r
    | none =>
      if startsTextLiteral cs then none
      else (identifier? cs).map fun r => (.word (String.ofList r.1), r.2)

/-- Content of a documentation comment, whether it documents what encloses it, and what follows. -/
def documentation? (cs : List Char) : Option (List Char × Bool × List Char) :=
  match cs with
  | '/' :: '/' :: '!' :: r => let (content, rest) := Blank.lineComment r; some (content, true, rest)
  | '/' :: '*' :: '!' :: r => (Blank.blockComment 1 r).map fun (content, rest) => (content, true, rest)
  | '/' :: '/' :: '/' :: r =>
    if r.head? = some '/' then none
    else let (content, rest) := Blank.lineComment r; some (content, false, rest)
  | '/' :: '*' :: '*' :: r =>
    if r.head? = some '*' then none
    else (Blank.blockComment 1 r).map fun (content, rest) => (content, false, rest)
  | _ => none

/-- Whether every carriage return is followed by a line feed. -/
def hasPairedReturns : List Char → Bool
  | [] => true
  | '\r' :: '\n' :: cs => hasPairedReturns cs
  | c :: cs => c != '\r' && hasPairedReturns cs

/-- The attribute that a documentation comment stands for. -/
def ofDocumentation (content : List Char) (inner : Bool) : List Lexeme :=
  [.leaf (.punct '#' false)] ++ (if inner then [.leaf (.punct '!' false)] else []) ++
    [.opening .bracket, .leaf (.word "doc"), .leaf (.punct '=' false),
      .leaf (.literal (stringLiteral content)), .closing .bracket]

/-- The bracket that `c` is. -/
def bracket? (c : Char) : Option Lexeme :=
  match c with
  | '(' => some (.opening .paren)
  | '[' => some (.opening .bracket)
  | '\x7b' => some (.opening .brace)
  | ')' => some (.closing .paren)
  | ']' => some (.closing .bracket)
  | '\x7d' => some (.closing .brace)
  | _ => none

/-- The text of a literal that could not be read; it is a literal of its own. -/
def unreadableLiteral : String := "(/*ERROR*/)"

/-- The lexemes of the token at the start; only a documentation comment has several. -/
def next? (cs : List Char) : Option (List Lexeme × List Char) :=
  let document := (documentation? cs).filter fun r => hasPairedReturns r.1
  match document with
  | some (content, inner, rest) => some (ofDocumentation content inner, rest)
  | none =>
    if unreadableLiteral.toList.isPrefixOf cs then
      some ([.leaf (.literal unreadableLiteral)], cs.drop unreadableLiteral.length)
    else
      match cs with
      | [] => none
      | c :: r =>
        match bracket? c with
        | some l => some ([l], r)
        | none => (leaf? cs).map fun t => ([.leaf t.1], t.2)

/-- All lexemes from `offset` on with their offsets, and the offset where no token can be read, if any. -/
def scan (offset : Nat) (cs : List Char) : List (Nat × Lexeme) × Option Nat :=
  let start := Blank.skip cs
  let offset := offset + (cs.length - start.length)
  if start.isEmpty then ([], none)
  else
    match next? start with
    | none => ([], some offset)
    | some (lexemes, rest) =>
      if rest.length < cs.length then
        let (later, fault) := scan (offset + (start.length - rest.length)) rest
        (lexemes.map (offset, ·) ++ later, fault)
      else ([], some offset)
termination_by cs.length

/-- A bracket that waits for its partner: its kind, its offset, and the trees before it in reverse. -/
structure Pending where
  delimiter : Delimiter
  offset : Nat
  before : List TokenTree

/-- Nests lexemes by their brackets; `done` holds the trees since the innermost open bracket in reverse.
A bracket without partner is reported at its offset, and so is the place `fault` where the lexemes end
early. -/
def nest (fault : Option Nat) : List Pending → List TokenTree → List (Nat × Lexeme) →
    Except Nat (List TokenTree)
  | stack, done, [] =>
    match fault with
    | some offset => .error offset
    | none =>
      match stack with
      | [] => .ok done.reverse
      | p :: _ => .error p.offset
  | stack, done, (_, .leaf t) :: ls => nest fault stack (t :: done) ls
  | stack, done, (offset, .opening d) :: ls => nest fault (⟨d, offset, done⟩ :: stack) [] ls
  | [], _, (offset, .closing _) :: _ => .error offset
  | p :: stack, done, (offset, .closing d) :: ls =>
    if p.delimiter = d then nest fault stack (.group d done.reverse :: p.before) ls
    else .error offset

end Lexeme

/-- A lexed text: its token trees and the offset of every lexeme. -/
structure TokenStream where
  trees : List TokenTree
  offsets : Array Nat

/-- The lexed form of a text, or the offset of its first lexical fault. A byte order mark is no token. -/
def TokenStream.ofChars (cs : List Char) : Except Nat TokenStream :=
  let (offset, body) := match cs with
    | '\ufeff' :: r => (1, r)
    | _ => (0, cs)
  let (lexemes, fault) := Lexeme.scan offset body
  (Lexeme.nest fault [] [] lexemes).map fun trees =>
    ⟨trees, (lexemes.map (·.1)).toArray⟩

end SourceGen
