import SourceGen.Json.Value
import SourceGen.Token.Literal

/-!
# Reading JSON

A reader of one JSON text. It refuses texts that nest too deep, numbers that are too large for a double, and
escapes that stand for half a character; what follows the value has to be blank.
-/

namespace SourceGen.Json

open SourceGen.Literal

/-- Blanks between the parts of a value. -/
def isBlank (c : Char) : Bool := c = ' ' || c = '\t' || c = '\n' || c = '\r'

/-- A text without blanks at its start. -/
def skipBlanks (s : List Char) : List Char := s.dropWhile isBlank

/-- How deep values may nest. -/
def maxDepth : Nat := 127

/-- The number of four hexadecimal digits. -/
def hexQuad? (a b c d : Char) : Option Nat :=
  if isHexDigit a && isHexDigit b && isHexDigit c && isHexDigit d then
    some (((hexValue a * 16 + hexValue b) * 16 + hexValue c) * 16 + hexValue d)
  else none

/-- The character of an escape by code unit after its first unit. A unit of the upper half of a pair needs one
of the lower half behind it. -/
def readUnit (unit : Nat) (s : List Char) : Option (Char × List Char) :=
  if 0xdc00 ≤ unit && unit ≤ 0xdfff then none
  else if 0xd800 ≤ unit && unit ≤ 0xdbff then
    match s with
    | '\\' :: 'u' :: a :: b :: c :: d :: rest =>
      (hexQuad? a b c d).bind fun low =>
        if 0xdc00 ≤ low && low ≤ 0xdfff then
          some (Char.ofNat (0x10000 + (unit - 0xd800) * 0x400 + (low - 0xdc00)), rest)
        else none
    | _ => none
  else some (Char.ofNat unit, s)

/-- The character of an escape, after its backslash. -/
def readEscape (s : List Char) : Option (Char × List Char) :=
  match s with
  | '"' :: rest => some ('"', rest)
  | '\\' :: rest => some ('\\', rest)
  | '/' :: rest => some ('/', rest)
  | 'b' :: rest => some ('\x08', rest)
  | 'f' :: rest => some ('\x0c', rest)
  | 'n' :: rest => some ('\n', rest)
  | 'r' :: rest => some ('\r', rest)
  | 't' :: rest => some ('\t', rest)
  | 'u' :: a :: b :: c :: d :: rest => (hexQuad? a b c d).bind (readUnit · rest)
  | _ => none

/-- The text up to the closing quote and what comes after it; `fuel` bounds the number of characters. -/
def readText : Nat → List Char → Option (List Char × List Char)
  | 0, _ => none
  | _, [] => none
  | fuel + 1, c :: s =>
    if c = '"' then some ([], s)
    else if c = '\\' then
      (readEscape s).bind fun (d, rest) => (readText fuel rest).map fun (cs, rest) => (d :: cs, rest)
    else if c.toNat < 0x20 then none
    else (readText fuel s).map fun (cs, rest) => (c :: cs, rest)

/-- The number of decimal digits. -/
def readNat (digits : List Char) : Nat := digits.foldl (fun n c => 10 * n + hexValue c) 0

/-! ### Sizes of numbers

A number is held as a word of 64 bits and a power of ten. Both are rounded to doubles before they are
multiplied, so a number just below the greatest double can be too large. -/

/-- The digits before the point as far as they fit a word, and how many are left out. -/
def wholeDigits : Nat → List Char → Nat × Nat
  | word, [] => (word, 0)
  | word, c :: cs =>
    let next := 10 * word + hexValue c
    if next < 1 <<< 64 then wholeDigits next cs else (word, cs.length + 1)

/-- The word with the digits behind the point as far as they fit, and how many these are. -/
def fractionDigits : Nat → List Char → Nat × Nat
  | word, [] => (word, 0)
  | word, c :: cs =>
    let next := 10 * word + hexValue c
    if next < 1 <<< 64 then
      let (word, n) := fractionDigits next cs
      (word, n + 1)
    else (word, 0)

/-- The nearest number of 53 significant bits; a tie goes to the even one. -/
def roundToDouble (n : Nat) : Nat :=
  let unit := 1 <<< (n.log2 - 52)
  let q := n / unit
  let r := n % unit
  if unit < 2 * r || (unit = 2 * r && q % 2 = 1) then (q + 1) * unit else q * unit

/-- The least number that is rounded beyond all doubles. -/
def doubleLimit : Nat := 1 <<< 1024 - 1 <<< 970

/-- The greatest power of ten that is a double. -/
def maxPower : Int := 308

/-- Whether `word · 10 ^ exponent` is too large for a double. -/
def exceedsDouble (word : Nat) (exponent : Int) : Bool :=
  if word = 0 || exponent < 0 then false
  else if maxPower < exponent then true
  else doubleLimit ≤ roundToDouble word * roundToDouble (Nat.pow 10 exponent.toNat)

/-- Digits before anything else. -/
def readDigits (s : List Char) : List Char × List Char :=
  (s.takeWhile Char.isDigit, s.dropWhile Char.isDigit)

/-- The digits before the point; a zero stands alone. -/
def readInteger (s : List Char) : Option (List Char × List Char) :=
  let (digits, rest) := readDigits s
  match digits with
  | [] => none
  | '0' :: _ :: _ => none
  | _ => some (digits, rest)

/-- The digits behind the point, if there is one. -/
def readFraction : List Char → Option (Option (List Char) × List Char)
  | '.' :: s =>
    let (digits, rest) := readDigits s
    if digits.isEmpty then none else some (some digits, rest)
  | s => some (none, s)

/-- The exponent after its sign. -/
def readPower (negative : Bool) (s : List Char) : Option (Option Int × List Char) :=
  let (digits, rest) := readDigits s
  if digits.isEmpty then none
  else some (some (if negative then -(readNat digits : Int) else readNat digits), rest)

/-- The exponent, if there is one. -/
def readExponent : List Char → Option (Option Int × List Char)
  | c :: s =>
    if c = 'e' || c = 'E' then
      match s with
      | '+' :: s => readPower false s
      | '-' :: s => readPower true s
      | _ => readPower false s
    else some (none, c :: s)
  | [] => some (none, [])

/-- A number. -/
def readNumber (s : List Char) : Option (JsonValue × List Char) := do
  let (negative, s) := match s with
    | '-' :: s => (true, s)
    | _ => (false, s)
  let (whole, s) ← readInteger s
  let (fraction, s) ← readFraction s
  let (power, s) ← readExponent s
  let (word, left) := wholeDigits 0 whole
  let (scaled, taken) := fractionDigits word (fraction.getD [])
  if exceedsDouble scaled (power.getD 0 + left - taken) then none
  else if !negative && fraction.isNone && power.isNone && left = 0 then some (.natural word, s)
  else some (.otherNumber, s)

/-- A word that stands for a value. -/
def readWord (word : String) (v : JsonValue) (s : List Char) : Option (JsonValue × List Char) :=
  if word.toList.isPrefixOf s then some (v, s.drop word.length) else none

mutual

/-- A value that may nest `room` deep, and what comes after it; `fuel` bounds the number of steps. -/
def readValue : Nat → Nat → List Char → Option (JsonValue × List Char)
  | 0, _, _ => none
  | fuel + 1, room, s =>
    match skipBlanks s with
    | '"' :: s => (readText (s.length + 1) s).map fun (cs, rest) => (.text (String.ofList cs), rest)
    | 't' :: s => readWord "rue" (.bool true) s
    | 'f' :: s => readWord "alse" (.bool false) s
    | 'n' :: s => readWord "ull" .null s
    | '[' :: s =>
      if room = 0 then none
      else
        match skipBlanks s with
        | ']' :: rest => some (.array [], rest)
        | s => (readElements fuel (room - 1) s).map fun (vs, rest) => (.array vs, rest)
    | '{' :: s =>
      if room = 0 then none
      else
        match skipBlanks s with
        | '}' :: rest => some (.object [], rest)
        | s => (readPairs fuel (room - 1) s).map fun (ps, rest) => (.object ps, rest)
    | s => readNumber s

/-- The values of an array up to its end, of which at least one is left. -/
def readElements : Nat → Nat → List Char → Option (List JsonValue × List Char)
  | 0, _, _ => none
  | fuel + 1, room, s =>
    (readValue fuel room s).bind fun (v, s) =>
      match skipBlanks s with
      | ']' :: rest => some ([v], rest)
      | ',' :: s => (readElements fuel room s).map fun (vs, rest) => (v :: vs, rest)
      | _ => none

/-- The pairs of an object up to its end, of which at least one is left. -/
def readPairs : Nat → Nat → List Char → Option (List (String × JsonValue) × List Char)
  | 0, _, _ => none
  | fuel + 1, room, s =>
    match skipBlanks s with
    | '"' :: s =>
      (readText (s.length + 1) s).bind fun (key, s) =>
        match skipBlanks s with
        | ':' :: s =>
          (readValue fuel room s).bind fun (v, s) =>
            match skipBlanks s with
            | '}' :: rest => some ([(String.ofList key, v)], rest)
            | ',' :: s => (readPairs fuel room s).map fun (ps, rest) => ((String.ofList key, v) :: ps, rest)
            | _ => none
        | _ => none
    | _ => none

end

/-- The value that a text stands for. -/
def read? (s : List Char) : Option JsonValue :=
  match readValue (2 * s.length + 2) maxDepth s with
  | some (v, rest) => if (skipBlanks rest).isEmpty then some v else none
  | none => none

end SourceGen.Json
