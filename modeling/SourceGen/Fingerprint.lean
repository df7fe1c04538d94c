/-!
# Fingerprints

A fingerprint stands for a text or for a list of fingerprints. What a pass remembers is keyed by
fingerprints, and nothing but their equality is ever used, so every notion that needs them is stated over
an arbitrary `Digest`. The program itself runs on `Fingerprint`, a 64-bit SipHash with one compression and
three finalisation rounds under a zero key.
-/

namespace SourceGen

/-- A way to summarise texts and lists of summaries. -/
class Digest (δ : Type) where
  /-- Summary of a text. -/
  ofText : String → δ
  /-- Summary of a list of summaries, in order. -/
  combine : List δ → δ

/-- A 64-bit summary. -/
structure Fingerprint where
  value : UInt64
deriving DecidableEq, Repr

namespace Fingerprint

/-- The four words of the hash state. -/
structure Words where
  a : UInt64
  b : UInt64
  c : UInt64
  d : UInt64

/-- The word turned left by `n` bits, for `n` between 1 and 63. -/
def rotate (x n : UInt64) : UInt64 :=
  (x <<< n) ||| (x >>> (64 - n))

/-- One round of mixing. -/
def Words.round (w : Words) : Words :=
  let a := w.a + w.b
  let b := rotate w.b 13 ^^^ a
  let a := rotate a 32
  let c := w.c + w.d
  let d := rotate w.d 16 ^^^ c
  let a := a + d
  let d := rotate d 21 ^^^ a
  let c := c + b
  let b := rotate b 17 ^^^ c
  let c := rotate c 32
  ⟨a, b, c, d⟩

/-- Takes one message word into the state. -/
def Words.absorb (w : Words) (m : UInt64) : Words :=
  let w := { w with d := w.d ^^^ m }.round
  { w with a := w.a ^^^ m }

/-- The state before the first byte, under a zero key. -/
def Words.start : Words :=
  ⟨0x736f6d6570736575, 0x646f72616e646f6d, 0x6c7967656e657261, 0x7465646279746573⟩

/-- The word of at most eight bytes, least significant first. -/
def littleEndian : List UInt8 → UInt64
  | [] => 0
  | b :: bs => b.toUInt64 ||| (littleEndian bs <<< 8)

/-- Takes a message into the state: whole words first, then the last bytes with the length on top. -/
def absorbAll (length : Nat) (w : Words) : List UInt8 → Words
  | b0 :: b1 :: b2 :: b3 :: b4 :: b5 :: b6 :: b7 :: rest =>
    absorbAll length (w.absorb (littleEndian [b0, b1, b2, b3, b4, b5, b6, b7])) rest
  | tail => w.absorb (littleEndian tail ||| (length.toUInt64 <<< 56))

/-- The hash of a byte sequence. -/
def ofBytes (bytes : List UInt8) : Fingerprint :=
  let w := absorbAll bytes.length .start bytes
  let w := { w with c := w.c ^^^ 0xff }.round.round.round
  ⟨w.a ^^^ w.b ^^^ w.c ^^^ w.d⟩

/-- The eight bytes of a fingerprint, least significant first. -/
def toBytes (f : Fingerprint) : List UInt8 :=
  (List.range 8).map fun i => (f.value >>> (8 * i).toUInt64).toUInt8

/-- The hash of a text: its UTF-8 bytes closed by a byte that no text contains. -/
def ofText (s : String) : Fingerprint :=
  ofBytes (s.toUTF8.toList ++ [0xff])

/-- The hash of a list of fingerprints. -/
def combine (fs : List Fingerprint) : Fingerprint :=
  ofBytes (fs.flatMap toBytes)

instance : Digest Fingerprint := ⟨ofText, combine⟩

/-- The `i`-th hexadecimal digit from the right. -/
def digit (f : Fingerprint) (i : Nat) : Char :=
  let n := ((f.value >>> (4 * i).toUInt64) &&& 15).toNat
  if n < 10 then Char.ofNat (48 + n) else Char.ofNat (87 + n)

/-- Sixteen hexadecimal digits. -/
def toHex (f : Fingerprint) : String :=
  String.ofList ((List.range 16).reverse.map f.digit)

end Fingerprint

end SourceGen
