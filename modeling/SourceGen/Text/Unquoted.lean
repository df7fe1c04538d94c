import SourceGen.Token.Literal

/-!
# Values of string literals

The text that a string literal stands for: escapes are replaced, and after a backslash at the end of a line
the blanks of the next line are skipped. A raw literal stands for what is written between its quotes.
-/

namespace SourceGen.Text

open SourceGen.Literal

/-- The value of an escape by code point, after its opening brace, and what follows it. -/
def codePointEscape? (value : Nat) : List Char → Option (Char × List Char)
  | [] => none
  | c :: cs =>
    if c = '\x7d' then some (Char.ofNat value, cs)
    else if c = '_' then codePointEscape? value cs
    else if isHexDigit c then codePointEscape? (value * 16 + hexValue c) cs
    else none

/-- What follows the blanks at the start of a continued line. -/
def afterBlanks (cs : List Char) : List Char :=
  cs.dropWhile fun c => c = ' ' || c = '\t' || c = '\n' || c = '\r'

/-- The character of an escape after its backslash, nothing for a continued line, and what follows. -/
def escape? : List Char → Option (Option Char × List Char)
  | 'n' :: cs => some (some '\n', cs)
  | 'r' :: cs => some (some '\r', cs)
  | 't' :: cs => some (some '\t', cs)
  | '0' :: cs => some (some '\x00', cs)
  | '\\' :: cs => some (some '\\', cs)
  | '\'' :: cs => some (some '\'', cs)
  | '"' :: cs => some (some '"', cs)
  | 'x' :: a :: b :: cs => some (some (Char.ofNat (16 * hexValue a + hexValue b)), cs)
  | 'u' :: '\x7b' :: cs => (codePointEscape? 0 cs).map fun r => (some r.1, r.2)
  | '\n' :: cs => some (none, afterBlanks cs)
  | '\r' :: '\n' :: cs => some (none, afterBlanks cs)
  | _ => none

/-- The value of the text up to the closing quote; `fuel` bounds the number of characters. -/
def quotedValueFor : Nat → List Char → Option (List Char)
  | 0, _ => none
  | _, [] => none
  | fuel + 1, c :: cs =>
    if c = '"' then some []
    else if c = '\\' then
      match escape? cs with
      | some (some d, rest) => (quotedValueFor fuel rest).map (d :: ·)
      | some (none, rest) => quotedValueFor fuel rest
      | none => none
    else if c = '\r' then
      match cs with
      | '\n' :: rest => (quotedValueFor fuel rest).map ('\n' :: ·)
      | _ => none
    else (quotedValueFor fuel cs).map (c :: ·)

/-- The value of a raw text: everything up to a quote followed by the given number of marks. -/
def rawValue (marks : List Char) : List Char → List Char
  | [] => []
  | c :: cs => if c = '"' && marks.isPrefixOf cs then [] else c :: rawValue marks cs

/-- The text that a string literal stands for; other literals have none. -/
def unquoted? (literal : String) : Option String :=
  match literal.toList with
  | '"' :: cs => (quotedValueFor (cs.length + 1) cs).map String.ofList
  | 'r' :: cs =>
    let marks := cs.takeWhile (· = '#')
    match cs.dropWhile (· = '#') with
    | '"' :: body => some (String.ofList (rawValue marks body))
    | _ => none
  | _ => none

end SourceGen.Text
