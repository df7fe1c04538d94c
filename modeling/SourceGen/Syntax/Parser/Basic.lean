import SourceGen.Syntax.Basic

/-!
# Parsers

A parser reads token trees and fails at the index of a lexeme. Inside brackets it sees only the bracketed
tokens; the end of the content has the index of the closing bracket. Content that is left over is no
failure of its own: it is noted, and reported only if everything else can be parsed.
-/

namespace SourceGen

/-- What a parser still has to read. -/
structure Input where
  rest : List TokenTree
  /-- Index of the lexeme that comes next. -/
  index : Nat
  /-- Index of the first token left over inside brackets. -/
  leftover : Option Nat

/-- A parser; it fails with the index of the lexeme where the failure shows. -/
abbrev Parser := StateT Input (Except Nat)

/-- A test on the tokens that come next. -/
abbrev Look := List TokenTree → Bool

namespace Look

/-- The words that are no identifiers. -/
def keywords : List String :=
  ["_", "abstract", "as", "async", "await", "become", "box", "break", "const", "continue", "crate",
    "do", "dyn", "else", "enum", "extern", "false", "final", "fn", "for", "if", "impl", "in", "let",
    "loop", "macro", "match", "mod", "move", "mut", "override", "priv", "pub", "ref", "return", "Self",
    "self", "static", "struct", "super", "trait", "true", "try", "type", "typeof", "unsafe", "unsized",
    "use", "virtual", "where", "while", "yield"]

/-- A given word. -/
def word (s : String) : Look
  | .word t :: _ => s == t
  | _ => false

/-- Any word. -/
def anyWord : Look
  | .word _ :: _ => true
  | _ => false

/-- A word that is no keyword. -/
def ident : Look
  | .word t :: _ => !keywords.contains t
  | _ => false

/-- A lifetime. -/
def lifetime : Look
  | .lifetime _ :: _ => true
  | _ => false

/-- An operator, given by its characters. -/
def opChars : List Char → Look
  | [c], .punct d _ :: _ => c == d
  | c :: cs, .punct d true :: ts => c == d && opChars cs ts
  | _, _ => false

/-- An operator. -/
def op (s : String) : Look := opChars s.toList

/-- A number literal. -/
def number : Look
  | .literal s :: _ => s.toList.head?.any Char.isDigit
  | _ => false

/-- A literal, signed numbers and truth values included. -/
def literal : Look
  | .literal _ :: _ => true
  | .word t :: _ => t == "true" || t == "false"
  | .punct '-' _ :: ts => number ts
  | _ => false

/-- A string literal without prefix letters other than the raw mark. -/
def stringLiteral : Look
  | .literal s :: _ =>
    match s.toList with
    | '"' :: _ => true
    | 'r' :: _ => true
    | _ => false
  | _ => false

/-- A bracketed sequence. -/
def group (d : Delimiter) : Look
  | .group e _ :: _ => d == e
  | _ => false

/-- Any bracketed sequence. -/
def anyGroup : Look
  | .group _ _ :: _ => true
  | _ => false

/-- Round brackets. -/
def parens : Look := group .paren

/-- Square brackets. -/
def brackets : Look := group .bracket

/-- Braces. -/
def braces : Look := group .brace

/-- A test on the tokens after the first one. -/
def second (l : Look) : Look := fun ts => l (ts.drop 1)

/-- A test on the tokens after the first two. -/
def third (l : Look) : Look := fun ts => l (ts.drop 2)

/-- One of several words. -/
def words (ss : List String) : Look := fun ts => ss.any (word · ts)

end Look

namespace Parser

/-- Fails at the next token. -/
def fail {α : Type} : Parser α := fun s => .error s.index

/-- Fails at a given lexeme. -/
def failAt {α : Type} (index : Nat) : Parser α := fun _ => .error index

/-- Index of the next lexeme. -/
def index : Parser Nat := fun s => .ok (s.index, s)

/-- Whether the coming tokens pass a test. -/
def sees (l : Look) : Parser Bool := fun s => .ok (l s.rest, s)

/-- Whether nothing is left. -/
def atEnd : Parser Bool := fun s => .ok (s.rest.isEmpty, s)

/-- Takes one token tree. -/
def next : Parser TokenTree := fun s =>
  match s.rest with
  | t :: ts => .ok (t, { s with rest := ts, index := s.index + t.size })
  | [] => .error s.index

/-- Takes `n` token trees. -/
def skip (n : Nat) : Parser Unit := fun s =>
  .ok ((), { s with
    rest := s.rest.drop n
    index := s.index + TokenTree.sizeAll (s.rest.take n) })

/-- Runs a parser without taking anything; tells whether it succeeds. -/
def succeeds {α : Type} (p : Parser α) : Parser Bool := fun s =>
  match p s with
  | .ok _ => .ok (true, s)
  | .error _ => .ok (false, s)

/-- Runs a parser without taking anything, for its result. -/
def ahead {α : Type} (p : Parser α) : Parser α := fun s =>
  match p s with
  | .ok (a, _) => .ok (a, s)
  | .error e => .error e

/-- Runs a parser, and takes nothing if it fails. -/
def attempt {α : Type} (p : Parser α) : Parser (Option α) := fun s =>
  match p s with
  | .ok (a, t) => .ok (some a, t)
  | .error _ => .ok (none, s)

/-- Runs `p` if the coming tokens pass the test. -/
def whenSees (l : Look) (p : Parser Node) : Parser Node := do
  if ← sees l then p else return .absent

/-- A given operator. -/
def op (s : String) : Parser Node := do
  if ← sees (Look.op s) then
    skip s.length
    return .op s
  else fail

/-- A given operator, if it comes next. -/
def op? (s : String) : Parser Node := whenSees (Look.op s) (op s)

/-- A given word. -/
def word (s : String) : Parser Node := do
  if ← sees (Look.word s) then
    skip 1
    return .word s
  else fail

/-- A given word, if it comes next. -/
def word? (s : String) : Parser Node := whenSees (Look.word s) (word s)

/-- Any word. -/
def anyWord : Parser String := do
  match (← get).rest with
  | .word s :: _ => skip 1; return s
  | _ => fail

/-- A word that is no keyword. -/
def ident : Parser String := do
  if ← sees Look.ident then anyWord else fail

/-- A lifetime. -/
def lifetime : Parser Node := do
  match (← get).rest with
  | .lifetime s :: _ => skip 1; return .leaf (.lifetime s)
  | _ => fail

/-- A lifetime, if it comes next. -/
def lifetime? : Parser Node := whenSees Look.lifetime lifetime

/-- A literal; a signed number is one literal. -/
def literal : Parser Node := do
  match (← get).rest with
  | .literal s :: _ => skip 1; return .leaf (.literal s)
  | .word s :: _ =>
    if s == "true" || s == "false" then
      skip 1
      return .leaf (.literal s)
    else fail
  | .punct '-' _ :: .literal s :: _ =>
    if Look.number [.literal s] then
      skip 2
      return .leaf (.literal ("-" ++ s))
    else fail
  | _ => fail

/-- Runs a parser on the content of brackets and another one on what follows them. Content that the first
one leaves over is noted after what the second one notes. -/
def insideThen {α β : Type} (d : Delimiter) (p : Parser α) (q : α → Parser β) : Parser β := fun s =>
  match s.rest with
  | .group e inner :: rest =>
    if d = e then
      match p { rest := inner, index := s.index + 1, leftover := s.leftover } with
      | .ok (a, t) =>
        let after := { rest, index := s.index + 2 + TokenTree.sizeAll inner, leftover := t.leftover }
        match q a after with
        | .ok (b, u) =>
          let overlooked := u.leftover.isNone && !t.rest.isEmpty
          .ok (b, if overlooked then { u with leftover := some t.index } else u)
        | .error e => .error e
      | .error e => .error e
    else .error s.index
  | _ => .error s.index

/-- Runs a parser on the content of brackets. -/
def inside {α : Type} (d : Delimiter) (p : Parser α) : Parser α := insideThen d p pure

/-- Brackets with the parts that a parser finds in them. -/
def group (d : Delimiter) (p : Parser (List Node)) : Parser Node := do
  return .group d (← inside d p)

/-- A bracketed sequence of any kind, kept as tokens. -/
def rawGroup : Parser Node := do
  if ← sees Look.anyGroup then return .raw [← next] else fail

/-- Braces and what stands between them, kept as tokens. -/
def rawBraces : Parser Node := do
  if ← sees Look.braces then return .raw [← next] else fail

/-- The tokens between an earlier state and now, kept as written. -/
def since (start : Input) : Parser (List TokenTree) := fun s =>
  .ok (start.rest.take (start.rest.length - s.rest.length), s)

/-- Repeats a step until it answers nothing; `fuel` bounds the number of repetitions. -/
def repeatFor {α : Type} (step : Parser (Option α)) : Nat → Parser (List α)
  | 0 => return []
  | fuel + 1 => do
    match ← step with
    | some a => return a :: (← repeatFor step fuel)
    | none => return []

/-- Repeats a step, which has to take a token, until it answers nothing. -/
def many {α : Type} (step : Parser (Option α)) : Parser (List α) := fun s =>
  repeatFor step (s.rest.length + 1) s

/-- Repeats a parser, which has to take a token, while the coming tokens pass a test. -/
def manyWhile {α : Type} (l : Look) (p : Parser α) : Parser (List α) :=
  many do if ← sees l then return some (← p) else return none

/-- Repeats a parser, which has to take a token, to the end. -/
def manyToEnd {α : Type} (p : Parser α) : Parser (List α) :=
  many do if ← atEnd then return none else return some (← p)

/-- Elements with a separator between them, until `stop` holds where an element or a separator is due. -/
def separatedFor (separator : String) (stop : Parser Bool) (element : Parser Node) :
    Nat → Parser (List Node)
  | 0 => return []
  | fuel + 1 => do
    if ← stop then return []
    let e ← element
    if ← stop then return [e]
    let c ← op separator
    return e :: c :: (← separatedFor separator stop element fuel)

/-- Elements with a separator between them, until `stop` holds where an element or a separator is due. -/
def separated (separator : String) (stop : Parser Bool) (element : Parser Node) :
    Parser (List Node) := fun s =>
  separatedFor separator stop element (s.rest.length + 1) s

/-- Comma-separated elements to the end. -/
def commaList (element : Parser Node) : Parser (List Node) :=
  separated "," atEnd element

/-- Elements joined by `+`: `stop` is asked before each element, and a missing `+` ends the list. -/
def plusFor (stop : Look) (element : Parser Node) : Nat → Parser (List Node)
  | 0 => return []
  | fuel + 1 => do
    if ← sees stop then return []
    let e ← element
    if ← sees (Look.op "+") then
      let c ← op "+"
      return e :: c :: (← plusFor stop element fuel)
    else return [e]

/-- Elements joined by `+`: `stop` is asked before each element, and a missing `+` ends the list. -/
def plusList (stop : Look) (element : Parser Node) : Parser (List Node) := fun s =>
  plusFor stop element (s.rest.length + 1) s

/-- Parses all tokens of a text; on failure the index of the lexeme to blame. -/
def runAll {α : Type} (p : Parser α) (trees : List TokenTree) : Except Nat α :=
  match p { rest := trees, index := 0, leftover := none } with
  | .ok (a, s) =>
    match s.leftover with
    | some i => .error i
    | none => if s.rest.isEmpty then .ok a else .error s.index
  | .error i => .error i

end Parser

end SourceGen
