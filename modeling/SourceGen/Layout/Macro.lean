import SourceGen.Layout.Basic
import SourceGen.Token.Text

/-!
# Layout of macro tokens

The arguments of a macro have no grammar, so the blanks between their tokens follow from the tokens alone:
what came before, and what comes next.
-/

namespace SourceGen

/-- A token as the layout of macros sees it: a lifetime is a quote and a name. -/
inductive MacroToken
  | group (delimiter : Delimiter) (inner : List TokenTree)
  | word (text : String)
  | punct (char : Char) (joint : Bool)
  | literal (text : String)

namespace MacroToken

/-- The tokens of a tree. -/
def ofTree : TokenTree → List MacroToken
  | .group d inner => [.group d inner]
  | .word s => [.word s]
  | .lifetime s => [.punct '\'' true, .word (String.ofList (s.toList.drop 1))]
  | .literal s => [.literal s]
  | .punct c joint => [.punct c joint]

/-- The tokens of a sequence. -/
def ofTrees (ts : List TokenTree) : List MacroToken := ts.flatMap ofTree

/-- The words that are never called. -/
def keywords : List String :=
  ["as", "async", "await", "box", "break", "const", "continue", "crate", "dyn", "else", "enum", "extern",
    "fn", "for", "if", "impl", "in", "let", "loop", "macro", "match", "mod", "move", "mut", "pub", "ref",
    "return", "static", "struct", "trait", "type", "unsafe", "use", "where", "while", "yield"]

/-- Whether a token is one of several punctuation characters. -/
def isPunct (chars : List Char) : MacroToken → Bool
  | .punct c _ => chars.contains c
  | _ => false

/-- Whether the next token touches this one. -/
def touches : MacroToken → Bool
  | .punct c joint => joint || c == '$'
  | _ => false

end MacroToken

/-- What the tokens so far have led to. -/
inductive MacroState
  | start
  | dollar
  | dollarWord
  | dollarWordColon
  | dollarCrate
  | dollarParen
  | dollarParenSeparator
  | pound
  | poundBang
  | dot
  | colon
  | colons
  | word
  | wordBang
  | delimited
  | other
deriving DecidableEq

namespace MacroState

/-- Whether a token stands apart from the one before it, and what it leads to. The flag tells whether the
tokens are the pattern of a macro rule. -/
def next (pattern : Bool) (s : MacroState) (t : MacroToken) : Bool × MacroState :=
  let isCall := s == .word || s == .delimited
  match s, t with
  | .dollar, .word w =>
    (false, if pattern then .dollarWord else if w == "crate" then .dollarCrate else .other)
  | .dollarWord, .punct ':' false => (false, .dollarWordColon)
  | .dollarWordColon, .word _ => (false, .other)
  | .dollarParen, .punct c joint =>
    if "+*?".toList.contains c && !joint then (false, .other)
    else if joint then (false, .dollarParen) else (false, .dollarParenSeparator)
  | .dollarParen, .word _ => (false, .dollarParenSeparator)
  | .dollarParen, .literal _ => (false, .dollarParenSeparator)
  | .dollarParenSeparator, .punct '+' _ => (false, .other)
  | .dollarParenSeparator, .punct '*' _ => (false, .other)
  | .pound, .punct '!' _ => (false, .poundBang)
  | .dollar, .group .paren _ => (false, .dollarParen)
  | .pound, .group .bracket _ => (false, .other)
  | .poundBang, .group .bracket _ => (false, .other)
  | .word, .group .paren _ => (false, .delimited)
  | .word, .group .bracket _ => (false, .delimited)
  | .word, .punct '!' false => (false, .wordBang)
  | .wordBang, .group .paren _ => (false, .other)
  | .wordBang, .group .bracket _ => (false, .other)
  | .colon, .punct ':' _ => (false, .colons)
  | _, .group .paren _ => (true, .delimited)
  | _, .group .bracket _ => (true, .delimited)
  | _, .group .brace _ => (true, .other)
  | _, .word w =>
    if MacroToken.keywords.contains w then (true, .other) else (s != .dot && s != .colons, .word)
  | _, .literal l => (s != .dot, if l.endsWith "." then .other else .word)
  | _, .punct c joint =>
    if c == ',' || c == ';' then (false, .other)
    else if c == '.' && !pattern then (!isCall, .dot)
    else if c == ':' && joint then (s != .word && s != .dollarCrate, .colon)
    else if c == '$' then (true, .dollar)
    else if c == '#' then (true, .pound)
    else (true, .other)

end MacroState

namespace Layout

/-- A group between its brackets; content between braces stands apart from them. -/
def delimited (d : Delimiter) (isEmpty : Bool) (content : Layout) : Layout := do
  text d.opening
  if !isEmpty then
    if d = .brace then space
    content
    if d = .brace then space
  text d.closing

/-- Macro tokens from a state on. `fuel` bounds the nesting of groups. -/
def macroTokensFor (pattern : Bool) : Nat → List TokenTree → Layout
  | 0, _ => impossible
  | fuel + 1, trees =>
    let rec go (s : MacroState) (touching : Bool) : List MacroToken → Layout
      | [] => return ()
      | t :: ts => do
        let (apart, next) := s.next pattern t
        if !touching then
          if apart then space else if t.isPunct ['.'] then softLine
        match t with
        | .group d inner => delimited d inner.isEmpty (macroTokensFor pattern fuel inner)
        | .word w => text w
        | .punct c _ => text c.toString
        | .literal l => text l
        go next t.touches ts
    go .start true (MacroToken.ofTrees trees)

/-- Macro tokens; the flag tells whether they are the pattern of a macro rule. -/
def macroTokens (pattern : Bool) (trees : List TokenTree) : Layout :=
  macroTokensFor pattern (TokenTree.sizeAll trees + 1) trees

/-- Tokens in a group of their own, between two places. -/
def boxed (place content : Layout) : Layout := do
  openAll indentation
  place
  openSome 0
  content
  close
  place
  outdent
  close

/-- The arguments of a macro call with their brackets. -/
def macroArgs (d : Delimiter) (inner : List TokenTree) : Layout := do
  text (if d = .brace then " \x7b" else d.opening)
  if !inner.isEmpty then
    boxed (if d = .brace then hardLine else softLine) (macroTokens false inner)
  text d.closing

/-- What a macro definition reads next. -/
inductive RuleState
  | pattern
  | equals
  | greater
  | expansion
  | separator
deriving DecidableEq

/-- The rules of a macro definition; the state after them is passed on. -/
def macroRules (s : RuleState) : List MacroToken → LayoutWriter RuleState
  | [] => return s
  | t :: ts =>
    match s, t with
    | .pattern, .group d inner => do
      text d.opening
      if !inner.isEmpty then boxed softLine (macroTokens true inner)
      text d.closing
      macroRules .equals ts
    | .equals, .punct '=' true => do
      text " ="
      macroRules .greater ts
    | .greater, .punct '>' false => do
      text ">"
      macroRules .expansion ts
    | .expansion, .group _ inner => do
      text " \x7b"
      neverLine
      if !inner.isEmpty then boxed hardLine (macroTokens false inner)
      text "\x7d"
      macroRules .separator ts
    | .separator, .punct ';' false => do
      text ";"
      hardLine
      macroRules .pattern ts
    | _, _ => fun _ => none

/-- A macro definition by rules. -/
def macroDefinition (name : String) (rules : List TokenTree) : Layout := do
  text "macro_rules! "
  text name
  text " \x7b"
  openAll indentation
  hardLineIfNonempty
  match ← macroRules .pattern (MacroToken.ofTrees rules) with
  | .pattern => pure ()
  | .separator =>
    text ";"
    hardLine
  | _ => hardLine
  outdent
  close
  text "\x7d"

end Layout

end SourceGen
