import SourceGen.Text.Identifier

/-!
# Literals

Recognisers for the literals of the source language. A recogniser looks at the start of a character
sequence and answers what is left after the literal, or nothing when no literal of its kind stands there.
-/

namespace SourceGen.Literal

open SourceGen.Text

/-- What follows the identifier at the start. -/
def afterIdentifier : List Char → Option (List Char)
  | [] => none
  | c :: cs => if isIdentifierStart c then some (cs.dropWhile isIdentifierContinue) else none

/-- What follows the suffix of a literal, if there is one. -/
def afterSuffix (cs : List Char) : List Char :=
  (afterIdentifier cs).getD cs

/-- The kinds of text literals; they differ in the characters and escapes they admit. -/
inductive TextKind
  | string
  | bytes
  | cString
deriving DecidableEq

/-- Whether a character may stand unescaped in a text literal. -/
def TextKind.admits (k : TextKind) (c : Char) : Bool :=
  match k with
  | .string => true
  | .bytes => c.toNat < 128
  | .cString => c != '\x00'

/-- Whether `c` is a hexadecimal digit. -/
def isHexDigit (c : Char) : Bool :=
  c.isDigit || ('a' ≤ c && c ≤ 'f') || ('A' ≤ c && c ≤ 'F')

/-- The value of a hexadecimal digit. -/
def hexValue (c : Char) : Nat :=
  if c.isDigit then c.toNat - 48 else if 'a' ≤ c then c.toNat - 87 else c.toNat - 55

/-- Length and value of the digits and closing brace of a code point escape. -/
def codePoint (digits value : Nat) : List Char → Option (Nat × Nat)
  | [] => none
  | c :: cs =>
    if c = '\x7d' then
      if digits > 0 && (value < 0xd800 || (0xdfff < value && value < 0x110000)) then some (1, value)
      else none
    else if c = '_' then
      if digits > 0 then (codePoint digits value cs).map fun r => (r.1 + 1, r.2) else none
    else if isHexDigit c && digits < 6 then
      (codePoint (digits + 1) (value * 16 + hexValue c) cs).map fun r => (r.1 + 1, r.2)
    else none

/-- Length of the blanks after the line end of a continued line. -/
def continuation : List Char → Option Nat
  | [] => none
  | '\r' :: '\n' :: cs => (continuation cs).map (· + 2)
  | c :: cs =>
    if c = '\r' then none
    else if c = ' ' || c = '\t' || c = '\n' then (continuation cs).map (· + 1)
    else some 0

/-- Length of an escape after its backslash. -/
def escapeLength (k : TextKind) : List Char → Option Nat
  | 'x' :: a :: b :: _ =>
    let fits := match k with
      | .string => '0' ≤ a && a ≤ '7' && isHexDigit b
      | .bytes => isHexDigit a && isHexDigit b
      | .cString => isHexDigit a && isHexDigit b && !(a = '0' && b = '0')
    if fits then some 3 else none
  | 'u' :: '\x7b' :: cs =>
    match codePoint 0 0 cs with
    | some (n, value) =>
      match k with
      | .string => some (n + 2)
      | .bytes => none
      | .cString => if value = 0 then none else some (n + 2)
    | none => none
  | '0' :: _ => if k = .cString then none else some 1
  | '\n' :: cs => (continuation cs).map (· + 1)
  | '\r' :: '\n' :: cs => (continuation cs).map (· + 2)
  | c :: _ => if ['n', 'r', 't', '\\', '\'', '"'].contains c then some 1 else none
  | [] => none

/-- What follows the closing quote of a text literal with escapes. -/
def afterCooked (k : TextKind) : List Char → Option (List Char)
  | [] => none
  | '"' :: cs => some (afterSuffix cs)
  | '\r' :: '\n' :: cs => afterCooked k cs
  | '\\' :: cs =>
    match escapeLength k cs with
    | some n => afterCooked k (cs.drop n)
    | none => none
  | c :: cs => if c != '\r' && k.admits c then afterCooked k cs else none
termination_by cs => cs.length
decreasing_by all_goals (simp; try omega)

/-- What follows the closing quote and number signs of a raw text literal. -/
def afterRawBody (k : TextKind) (hashes : List Char) : List Char → Option (List Char)
  | [] => none
  | '\r' :: '\n' :: cs => afterRawBody k hashes cs
  | c :: cs =>
    if c = '"' && hashes.isPrefixOf cs then some (afterSuffix (cs.drop hashes.length))
    else if c != '\r' && k.admits c then afterRawBody k hashes cs
    else none

/-- What follows a raw text literal whose leading letters are already taken. -/
def afterRaw (k : TextKind) (cs : List Char) : Option (List Char) :=
  let hashes := cs.takeWhile (· = '#')
  match cs.dropWhile (· = '#') with
  | '"' :: body => if hashes.length ≤ 255 then afterRawBody k hashes body else none
  | _ => none

/-- What follows a text literal of any kind. -/
def afterText : List Char → Option (List Char)
  | '"' :: cs => afterCooked .string cs
  | 'r' :: cs => afterRaw .string cs
  | 'b' :: '"' :: cs => afterCooked .bytes cs
  | 'b' :: 'r' :: cs => afterRaw .bytes cs
  | 'c' :: '"' :: cs => afterCooked .cString cs
  | 'c' :: 'r' :: cs => afterRaw .cString cs
  | _ => none

/-- What follows the closing single quote. -/
def afterQuote : List Char → Option (List Char)
  | '\'' :: cs => some (afterSuffix cs)
  | _ => none

/-- What follows a character literal whose opening quote is already taken. -/
def afterCharBody (k : TextKind) : List Char → Option (List Char)
  | [] => none
  | '\\' :: cs =>
    match cs with
    | '\n' :: _ => none
    | '\r' :: _ => none
    | _ =>
      match escapeLength k cs with
      | some n => afterQuote (cs.drop n)
      | none => none
  | c :: cs => if k.admits c then afterQuote cs else none

/-- What follows a character or byte literal. -/
def afterCharacter : List Char → Option (List Char)
  | '\'' :: cs => afterCharBody .string cs
  | 'b' :: '\'' :: cs => afterCharBody .bytes cs
  | _ => none

/-- Whether `c` is a decimal digit or a digit separator. -/
def isDigitOrLowLine (c : Char) : Bool := c.isDigit || c = '_'

/-- What follows an exponent without its letter; `signed` tells that its sign is taken. -/
def afterExponent (signed : Bool) : List Char → Option (List Char)
  | [] => none
  | c :: cs =>
    if c = '+' || c = '-' then
      if signed then none else afterExponent true cs
    else if c.isDigit then some (cs.dropWhile isDigitOrLowLine)
    else if c = '_' then afterExponent signed cs
    else none

/-- What follows the digits of a number with a fraction or an exponent. -/
def afterFloatDigits : List Char → Option (List Char)
  | [] => none
  | c :: cs =>
    if !c.isDigit then none
    else
      match cs.dropWhile isDigitOrLowLine with
      | '.' :: rest =>
        if rest.head?.any fun d => d = '.' || isIdentifierStart d then none
        else
          let afterFraction := rest.dropWhile isDigitOrLowLine
          match afterFraction with
          | e :: power =>
            if e = 'e' || e = 'E' then some ((afterExponent false power).getD afterFraction)
            else some afterFraction
          | [] => some []
      | e :: power => if e = 'e' || e = 'E' then afterExponent false power else none
      | [] => none

/-- What follows a number suffix; a number must not run into an identifier character. -/
def afterNumber (rest : List Char) : Option (List Char) :=
  let rest := afterSuffix rest
  if rest.head?.any isIdentifierContinue then none else some rest

/-- What follows the digits of a whole number in the given base; `empty` tells that no digit was seen. -/
def afterDigits (base : Nat) (empty : Bool) : List Char → Option (List Char)
  | [] => if empty then none else some []
  | c :: cs =>
    if c.isDigit then
      if c.toNat - 48 < base then afterDigits base false cs else none
    else if isHexDigit c && base = 16 then afterDigits base false cs
    else if c = '_' then
      if empty && base = 10 then none else afterDigits base empty cs
    else if empty then none
    else some (c :: cs)

/-- What follows the digits of a whole number, base mark included. -/
def afterWholeDigits : List Char → Option (List Char)
  | '0' :: 'x' :: cs => afterDigits 16 true cs
  | '0' :: 'o' :: cs => afterDigits 8 true cs
  | '0' :: 'b' :: cs => afterDigits 2 true cs
  | cs => afterDigits 10 true cs

/-- What follows a literal of any kind. -/
def after (cs : List Char) : Option (List Char) :=
  afterText cs
    <|> afterCharacter cs
    <|> ((afterFloatDigits cs).bind afterNumber)
    <|> ((afterWholeDigits cs).bind afterNumber)

/-- Whether a number literal has a fraction or an exponent. -/
def isFloat (s : String) : Bool :=
  let digits := fun c : Char => c.isDigit || c == '_'
  match s.toList.dropWhile digits with
  | '.' :: _ => true
  | e :: power =>
    (e == 'e' || e == 'E') &&
      (let marks := power.takeWhile fun c => c.isDigit || c == '_' || c == '+' || c == '-'
       marks.any Char.isDigit)
  | [] => false

end SourceGen.Literal
