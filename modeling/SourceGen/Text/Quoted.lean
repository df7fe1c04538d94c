import SourceGen.Text.Printable

/-!
# Quoted text

A text between double quotes, as the source language writes string literals: quotes, backslashes and the
common control characters have short escapes, every other character without a visible form of its own is
written by its hexadecimal code point. Two forms differ only in how they write the null character.
-/

namespace SourceGen.Text

/-- The digit of a number below sixteen, in lower case. -/
def hexDigit (n : Nat) : Char :=
  if n < 10 then Char.ofNat (48 + n) else Char.ofNat (87 + n)

/-- The hexadecimal digits of `n`, most significant first, without leading zeros. -/
def hexDigits (n : Nat) : List Char :=
  if n < 16 then [hexDigit n] else hexDigits (n / 16) ++ [hexDigit (n % 16)]
termination_by n

/-- The escape by code point, such as `\u{301}`. -/
def codePointEscape (c : Char) : List Char :=
  '\\' :: 'u' :: '\x7b' :: (hexDigits c.toNat ++ ['\x7d'])

/-- How one character is written between double quotes; the single quote needs no escape. -/
def escapeChar (c : Char) : List Char :=
  if c = '\x00' then ['\\', '0']
  else if c = '\t' then ['\\', 't']
  else if c = '\r' then ['\\', 'r']
  else if c = '\n' then ['\\', 'n']
  else if c = '\\' then ['\\', '\\']
  else if c = '"' then ['\\', '"']
  else if isGraphemeExtend c || !isPrintable c then codePointEscape c
  else [c]

/-- `s` between double quotes. -/
def quoted (s : String) : String :=
  String.ofList ('"' :: (s.toList.flatMap escapeChar ++ ['"']))

/-- The escaped body of a string literal: a null character before an octal digit is written `\x00`, so
that the digit is not read as part of the escape. -/
def literalBody : List Char → List Char
  | [] => []
  | c :: cs =>
    (if c = '\x00' then
      match cs with
      | d :: _ => if '0' ≤ d && d ≤ '7' then ['\\', 'x', '0', '0'] else ['\\', '0']
      | [] => ['\\', '0']
    else escapeChar c) ++ literalBody cs

/-- The string literal whose value is `cs`. -/
def stringLiteral (cs : List Char) : String :=
  String.ofList ('"' :: (literalBody cs ++ ['"']))

end SourceGen.Text
