import SourceGen.Program.Reference
import SourceGen.Text.Lines
import SourceGen.Token.Literal

/-!
# Reading dependency tables

A reader of the table of dependencies in a TOML manifest. An entry stands on a line of its own: a bare key, and either a
version requirement or an inline table with a path. Both are basic strings, in which a backslash opens one of seven short
escapes or a code point of exactly four or eight hexadecimal digits, and control characters other than the tab do not
stand as they are.
-/

namespace SourceGen.Toml

open SourceGen.Text SourceGen.Literal

/-- Blanks within a line. -/
def isBlank (c : Char) : Bool := c = ' ' || c = '\t'

/-- A text without blanks at its start. -/
def skipBlanks (s : List Char) : List Char := s.dropWhile isBlank

/-! ### Basic strings -/

/-- Whether a character stands for itself in a basic string. -/
def isUnescaped (c : Char) : Bool :=
  c = '\t' || (32 ≤ c.toNat && c.toNat ≠ 127 && c ≠ '"' && c ≠ '\\')

/-- What a short escape stands for, by the character behind its backslash. -/
def shortEscape? : Char → Option Char
  | 'b' => some '\x08'
  | 't' => some '\t'
  | 'n' => some '\n'
  | 'f' => some '\x0c'
  | 'r' => some '\r'
  | '"' => some '"'
  | '\\' => some '\\'
  | _ => none

/-- How many digits an escape has behind the first one, by the character behind its backslash. -/
def digitsLeft? : Char → Option Nat
  | 'u' => some 3
  | 'U' => some 7
  | _ => none

/-- The character of a code point; half a pair has none. -/
def scalar? (n : Nat) : Option Char :=
  if n < 0xd800 || (0xdfff < n && n < 0x110000) then some (Char.ofNat n) else none

/-- Where a reader is in a basic string. -/
inductive Place
  | text
  | /-- Behind a backslash. -/
    escape
  | /-- At a digit of a code point, with the number of the digits behind it and the value of those before it. -/
    digit (left value : Nat)

/-- The value of a basic string up to its closing quote, and what follows. -/
def readString : Place → List Char → Option (List Char × List Char)
  | _, [] => none
  | .text, c :: s =>
    if c = '"' then some ([], s)
    else if c = '\\' then readString .escape s
    else if isUnescaped c then (readString .text s).map fun (cs, rest) => (c :: cs, rest)
    else none
  | .escape, c :: s =>
    match shortEscape? c with
    | some d => (readString .text s).map fun (cs, rest) => (d :: cs, rest)
    | none => (digitsLeft? c).bind fun left => readString (.digit left 0) s
  | .digit left value, c :: s =>
    if isHexDigit c then
      let value := 16 * value + hexValue c
      match left with
      | 0 => (scalar? value).bind fun d => (readString .text s).map fun (cs, rest) => (d :: cs, rest)
      | left + 1 => readString (.digit left value) s
    else none

/-! ### Entries -/

/-- Whether a character may stand in a bare key. -/
def isKeyChar (c : Char) : Bool := c.isAlphanum || c = '_' || c = '-'

/-- Whether a text is a bare key. -/
def isBareKey (s : String) : Bool := !s.toList.isEmpty && s.toList.all isKeyChar

/-- A bare key, and what follows. -/
def readKey? (s : List Char) : Option (String × List Char) :=
  let key := s.takeWhile isKeyChar
  if key.isEmpty then none else some (String.ofList key, s.dropWhile isKeyChar)

/-- What follows a sign that may have blanks before it. -/
def readSign? (sign : Char) (s : List Char) : Option (List Char) :=
  match skipBlanks s with
  | [] => none
  | c :: rest => if c = sign then some rest else none

/-- A basic string that may have blanks before it, and what follows. -/
def readText? (s : List Char) : Option (String × List Char) :=
  (readSign? '"' s).bind fun s => (readString .text s).map fun (cs, rest) => (String.ofList cs, rest)

/-- Whether nothing but a comment is left of a line. -/
def isEnd (s : List Char) : Bool :=
  match skipBlanks s with
  | [] => true
  | c :: _ => c = '#'

/-- The entry of a line. -/
def readDependency? (line : List Char) : Option Reference := do
  let (name, rest) ← readKey? (skipBlanks line)
  let rest ← readSign? '=' rest
  match readSign? '\x7b' rest with
  | some rest =>
    let (key, rest) ← readKey? (skipBlanks rest)
    let rest ← readSign? '=' rest
    let (path, rest) ← readText? rest
    let rest ← readSign? '\x7d' rest
    if key = "path" && isEnd rest then some ⟨name, .path path⟩ else none
  | none =>
    let (requirement, rest) ← readText? rest
    if isEnd rest then some ⟨name, .version requirement⟩ else none

/-- The entries of lines up to the next table; empty lines and comments have none. -/
def readTable? : List (List Char) → Option (List Reference)
  | [] => some []
  | line :: lines =>
    match skipBlanks line with
    | [] => readTable? lines
    | c :: _ =>
      if c = '#' then readTable? lines
      else if c = '[' then some []
      else (readDependency? line).bind fun r => (readTable? lines).map (r :: ·)

/-- The line before the dependencies. -/
def header : List Char := "[dependencies]".toList

/-- The lines behind the header of the dependencies. -/
def tableLines (manifest : String) : List (List Char) :=
  ((lines manifest.toList).reverse.takeWhile (· ≠ header)).reverse

/-- The dependencies that a manifest names. -/
def dependencies? (manifest : String) : Option (List Reference) := readTable? (tableLines manifest)

end SourceGen.Toml
