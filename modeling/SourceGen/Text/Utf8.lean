/-!
# Bytes as text

Reading UTF-8. A byte sequence falls into characters and broken sequences, where a broken sequence is as much
of a character as there is. Where text is wanted at any price, a broken sequence becomes one replacement
character.
-/

namespace SourceGen.Text

/-- A piece of a byte sequence. -/
inductive Utf8Piece
  | char (c : Char)
  | /-- The first `length` bytes of a character, and then something else. -/
    broken (length : Nat)
  | /-- The first bytes of a character, and then the end. -/
    unfinished
deriving DecidableEq, Repr

/-- What a leading byte asks for: the bits it adds, how many bytes follow, and the bounds of the first of
them. -/
def utf8Lead? (b : UInt8) : Option (Nat × Nat × UInt8 × UInt8) :=
  if b < 0x80 then some (b.toNat, 0, 0x80, 0xbf)
  else if b < 0xc2 then none
  else if b < 0xe0 then some (b.toNat - 0xc0, 1, 0x80, 0xbf)
  else if b < 0xf0 then
    some (b.toNat - 0xe0, 2, if b = 0xe0 then 0xa0 else 0x80, if b = 0xed then 0x9f else 0xbf)
  else if b < 0xf5 then
    some (b.toNat - 0xf0, 3, if b = 0xf0 then 0x90 else 0x80, if b = 0xf4 then 0x8f else 0xbf)
  else none

/-- Reads the bytes that follow a leading byte, of which `taken` bytes and the bits in `value` were read. -/
def utf8Follow (low high : UInt8) (value taken : Nat) : Nat → List UInt8 → Utf8Piece × List UInt8
  | 0, bs => (.char (Char.ofNat value), bs)
  | _ + 1, [] => (.unfinished, [])
  | n + 1, b :: bs =>
    if low ≤ b && b ≤ high then utf8Follow 0x80 0xbf (64 * value + (b.toNat - 0x80)) (taken + 1) n bs
    else (.broken taken, b :: bs)

/-- Following bytes are taken from the front. -/
theorem length_utf8Follow_le (low high : UInt8) (value taken n : Nat) (bs : List UInt8) :
    (utf8Follow low high value taken n bs).2.length ≤ bs.length := by
  induction n generalizing low high value taken bs with
  | zero => simp [utf8Follow]
  | succ n ih =>
    cases bs with
    | nil => simp [utf8Follow]
    | cons b bs =>
      rw [utf8Follow]
      split
      · exact Nat.le_succ_of_le (ih ..)
      · simp

/-- The first piece of a byte sequence that starts with `b`, and what comes after it. -/
def utf8Piece (b : UInt8) (bs : List UInt8) : Utf8Piece × List UInt8 :=
  match utf8Lead? b with
  | none => (.broken 1, bs)
  | some (value, count, low, high) => utf8Follow low high value 1 count bs

/-- What comes after a piece is shorter. -/
theorem length_utf8Piece_le (b : UInt8) (bs : List UInt8) : (utf8Piece b bs).2.length ≤ bs.length := by
  unfold utf8Piece
  split
  · simp
  · exact length_utf8Follow_le ..

/-- The pieces of a byte sequence. -/
def utf8Pieces : List UInt8 → List Utf8Piece
  | [] => []
  | b :: bs => (utf8Piece b bs).1 :: utf8Pieces (utf8Piece b bs).2
termination_by bs => bs.length
decreasing_by
  have := length_utf8Piece_le b bs
  simp only [List.length_cons]
  omega

/-- What a piece becomes where text is wanted at any price. -/
def Utf8Piece.charOrMark : Utf8Piece → Char
  | .char c => c
  | _ => '\ufffd'

/-- The text of a byte sequence, with a mark for every broken sequence. -/
def decodeLossy (bytes : List UInt8) : String :=
  String.ofList ((utf8Pieces bytes).map Utf8Piece.charOrMark)

/-- Why a byte sequence is no text: where its first broken sequence starts, and its length unless the bytes
end there. -/
structure Utf8Error where
  index : Nat
  length : Option Nat
deriving DecidableEq, Repr

/-- The text of the error. -/
def Utf8Error.text (e : Utf8Error) : String :=
  match e.length with
  | some n => "invalid utf-8 sequence of " ++ toString n ++ " bytes from index " ++ toString e.index
  | none => "incomplete utf-8 byte sequence from index " ++ toString e.index

/-- The characters of pieces, of which the first starts at `index`. -/
def decodePieces (index : Nat) : List Utf8Piece → Except Utf8Error (List Char)
  | [] => .ok []
  | .char c :: ps => (decodePieces (index + c.utf8Size) ps).map (c :: ·)
  | .broken n :: _ => .error ⟨index, some n⟩
  | .unfinished :: _ => .error ⟨index, none⟩

/-- The text of a byte sequence. -/
def decode (bytes : List UInt8) : Except Utf8Error String :=
  (decodePieces 0 (utf8Pieces bytes)).map String.ofList

end SourceGen.Text
