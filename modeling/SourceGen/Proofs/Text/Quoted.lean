import Mathlib.Logic.Function.Basic
import Mathlib.Tactic.Lemma
import Mathlib.Tactic.SplitIfs
import SourceGen.Text.Quoted
import SourceGen.Text.Unquoted

/-!
# Reading quoted text back

A quoted text, read as a string literal, gives the text again (`unquoted?_quoted`), so two texts with one
quoted form are equal. Inside a quoted form no quote stands without a backslash before it; this is why a
text that ends with a quoted form falls apart in one way only (`append_quoted_inj`).
-/

namespace SourceGen.Text

open SourceGen.Literal

/-! ### Code points -/

lemma hexDigit_spec : ∀ n < 16, hexDigit n ≠ '\x7d' ∧ hexDigit n ≠ '_' ∧ hexDigit n ≠ '"' ∧
    isHexDigit (hexDigit n) = true ∧ hexValue (hexDigit n) = n := by
  decide

/-- Hexadecimal digits are read as their number. -/
lemma codePointEscape?_hexDigits (n : Nat) (rest : List Char) :
    codePointEscape? 0 (hexDigits n ++ rest) = codePointEscape? n rest := by
  induction n using Nat.strongRecOn generalizing rest with
  | ind n ih =>
    rw [hexDigits]
    split
    case isTrue small =>
      obtain ⟨close, line, -, digit, value⟩ := hexDigit_spec n small
      simp [codePointEscape?, close, line, digit, value]
    case isFalse large =>
      obtain ⟨close, line, -, digit, value⟩ := hexDigit_spec (n % 16) (Nat.mod_lt n (by decide))
      have smaller : n / 16 < n := Nat.div_lt_self (by omega) (by decide)
      rw [List.append_assoc, ih (n / 16) smaller]
      simp [codePointEscape?, close, line, digit, value, Nat.div_add_mod']

lemma quote_notMem_hexDigits (n : Nat) : '"' ∉ hexDigits n := by
  induction n using Nat.strongRecOn with
  | ind n ih =>
    rw [hexDigits]
    split
    case isTrue small =>
      obtain ⟨-, -, quote, -, -⟩ := hexDigit_spec n small
      exact fun h => quote (List.mem_singleton.mp h).symm
    case isFalse large =>
      obtain ⟨-, -, quote, -, -⟩ := hexDigit_spec (n % 16) (Nat.mod_lt n (by decide))
      have smaller : n / 16 < n := Nat.div_lt_self (by omega) (by decide)
      intro h
      cases List.mem_append.mp h with
      | inl h => exact ih (n / 16) smaller h
      | inr h => exact quote (List.mem_singleton.mp h).symm

/-! ### Characters -/

/-- How a character is quoted: by a backslash and one more character, by its code point, or not at all. -/
lemma escapeChar_cases (c : Char) :
    (∃ d, escapeChar c = ['\\', d] ∧ ∀ rest, escape? (d :: rest) = some (some c, rest)) ∨
      escapeChar c = codePointEscape c ∨ (escapeChar c = [c] ∧ c ≠ '"' ∧ c ≠ '\\' ∧ c ≠ '\r') := by
  rw [escapeChar]
  split_ifs with nul tab ret line back quote hidden
  · exact .inl ⟨'0', rfl, fun rest => nul ▸ rfl⟩
  · exact .inl ⟨'t', rfl, fun rest => tab ▸ rfl⟩
  · exact .inl ⟨'r', rfl, fun rest => ret ▸ rfl⟩
  · exact .inl ⟨'n', rfl, fun rest => line ▸ rfl⟩
  · exact .inl ⟨'\\', rfl, fun rest => by rw [back]; rfl⟩
  · exact .inl ⟨'"', rfl, fun rest => by rw [quote]; rfl⟩
  · exact .inr (.inl rfl)
  · exact .inr (.inr ⟨rfl, quote, back, ret⟩)

/-- One quoted character is read back. -/
lemma quotedValueFor_escapeChar (c : Char) (fuel : Nat) (rest : List Char) :
    quotedValueFor (fuel + 1) (escapeChar c ++ rest) = (quotedValueFor fuel rest).map (c :: ·) := by
  obtain ⟨d, eq, read⟩ | eq | ⟨eq, quote, back, ret⟩ := escapeChar_cases c
  · simp [eq, quotedValueFor, read]
  · have read : escape? ('u' :: '\x7b' :: (hexDigits c.toNat ++ '\x7d' :: rest)) = some (some c, rest) := by
      simp [escape?, codePointEscape?_hexDigits, codePointEscape?, Char.ofNat_toNat]
    simp [eq, codePointEscape, quotedValueFor, read]
  · simp [eq, quotedValueFor, quote, back, ret]

/-- A quoted text is read back. -/
lemma quotedValueFor_escapeAll (cs : List Char) {fuel : Nat} (enough : cs.length < fuel) :
    quotedValueFor fuel (cs.flatMap escapeChar ++ ['"']) = some cs := by
  induction cs generalizing fuel with
  | nil =>
    obtain ⟨fuel, rfl⟩ := Nat.exists_eq_succ_of_ne_zero (Nat.ne_of_gt enough)
    rfl
  | cons c cs ih =>
    obtain ⟨fuel, rfl⟩ := Nat.exists_eq_succ_of_ne_zero (Nat.ne_of_gt (Nat.zero_lt_of_lt enough))
    rw [List.flatMap_cons, List.append_assoc, quotedValueFor_escapeChar, ih (Nat.lt_of_succ_lt_succ enough)]
    rfl

lemma one_le_length_escapeChar (c : Char) : 1 ≤ (escapeChar c).length := by
  obtain ⟨d, eq, -⟩ | eq | ⟨eq, -⟩ := escapeChar_cases c <;> simp [eq, codePointEscape]

lemma length_le_length_escapeAll (cs : List Char) : cs.length ≤ (cs.flatMap escapeChar).length := by
  induction cs with
  | nil => exact Nat.le_refl _
  | cons c cs ih =>
    have one := one_le_length_escapeChar c
    rw [List.flatMap_cons, List.length_append, List.length_cons]
    omega

lemma toList_quoted (s : String) :
    (quoted s).toList = '"' :: (s.toList.flatMap escapeChar ++ ['"']) :=
  String.toList_ofList

/-- A quoted text stands for the text. -/
theorem unquoted?_quoted (s : String) : unquoted? (quoted s) = some s := by
  have enough : s.toList.length < (s.toList.flatMap escapeChar ++ ['"']).length + 1 := by
    have length := length_le_length_escapeAll s.toList
    rw [List.length_append]
    omega
  rw [unquoted?, toList_quoted]
  simp only [quotedValueFor_escapeAll s.toList enough, Option.map_some, String.ofList_toList]

/-- Texts with one quoted form are equal. -/
lemma quoted_injective : Function.Injective quoted := by
  intro s t eq
  have read := congrArg unquoted? eq
  rw [unquoted?_quoted, unquoted?_quoted] at read
  exact Option.some.inj read

/-! ### String literals -/

/-- A character of a string literal is quoted, or it is a null character in its long form. -/
lemma literalBody_cons (c : Char) (cs : List Char) :
    ∃ e, literalBody (c :: cs) = e ++ literalBody cs ∧
      (e = escapeChar c ∨ c = '\x00' ∧ e = ['\\', 'x', '0', '0']) := by
  rw [literalBody.eq_def]
  dsimp only
  split
  case isTrue nul =>
    have short : ['\\', '0'] = escapeChar c := by rw [nul]; rfl
    cases cs with
    | nil => exact ⟨_, rfl, .inl short⟩
    | cons d cs =>
      dsimp only
      split
      case isTrue => exact ⟨_, rfl, .inr ⟨nul, rfl⟩⟩
      case isFalse => exact ⟨_, rfl, .inl short⟩
  case isFalse => exact ⟨_, rfl, .inl rfl⟩

/-- The body of a string literal is read back. -/
lemma quotedValueFor_literalBody (cs : List Char) {fuel : Nat} (enough : cs.length < fuel) :
    quotedValueFor fuel (literalBody cs ++ ['"']) = some cs := by
  induction cs generalizing fuel with
  | nil =>
    obtain ⟨fuel, rfl⟩ := Nat.exists_eq_succ_of_ne_zero (Nat.ne_of_gt enough)
    rfl
  | cons c cs ih =>
    obtain ⟨fuel, rfl⟩ := Nat.exists_eq_succ_of_ne_zero (Nat.ne_of_gt (Nat.zero_lt_of_lt enough))
    have rest := ih (Nat.lt_of_succ_lt_succ enough)
    obtain ⟨e, eq, rfl | ⟨rfl, rfl⟩⟩ := literalBody_cons c cs
    · rw [eq, List.append_assoc, quotedValueFor_escapeChar, rest]
      rfl
    · have zero : Char.ofNat (16 * hexValue '0' + hexValue '0') = '\x00' := by decide
      simp [eq, quotedValueFor, escape?, zero, rest]

lemma length_le_length_literalBody (cs : List Char) : cs.length ≤ (literalBody cs).length := by
  induction cs with
  | nil => exact Nat.le_refl _
  | cons c cs ih =>
    obtain ⟨e, eq, escaped⟩ := literalBody_cons c cs
    have one : 1 ≤ e.length := by
      obtain rfl | ⟨-, rfl⟩ := escaped
      · exact one_le_length_escapeChar c
      · exact Nat.le_add_left 1 3
    rw [eq, List.length_append, List.length_cons]
    omega

/-- A string literal stands for its value. -/
lemma unquoted?_stringLiteral (cs : List Char) : unquoted? (stringLiteral cs) = some (String.ofList cs) := by
  have enough : cs.length < (literalBody cs ++ ['"']).length + 1 := by
    have length := length_le_length_literalBody cs
    rw [List.length_append]
    omega
  have chars : (stringLiteral cs).toList = '"' :: (literalBody cs ++ ['"']) := String.toList_ofList
  rw [unquoted?, chars]
  simp only [quotedValueFor_literalBody cs enough, Option.map_some]

/-! ### Where a quoted text starts -/

/-- Whether every quote has a backslash before it; `last` stands before the first character. -/
def guarded (last : Char) : List Char → Bool
  | [] => true
  | c :: cs => (c ≠ '"' || last = '\\') && guarded c cs

/-- Characters that are no quotes need no backslash. -/
lemma guarded_append {xs rest : List Char} (none_quote : '"' ∉ xs) (h : ∀ last, guarded last rest = true)
    (last : Char) : guarded last (xs ++ rest) = true := by
  induction xs generalizing last with
  | nil => exact h last
  | cons x xs ih =>
    obtain ⟨ne, later⟩ := not_or.mp (List.mem_cons.not.mp none_quote)
    simp [guarded, Ne.symm ne, ih later]

lemma guarded_escapeChar (c : Char) {rest : List Char} (h : ∀ last, guarded last rest = true) (last : Char) :
    guarded last (escapeChar c ++ rest) = true := by
  obtain ⟨d, eq, -⟩ | eq | ⟨eq, quote, -, -⟩ := escapeChar_cases c
  · simp [eq, guarded, h]
  · refine guarded_append ?_ h last
    simp [eq, codePointEscape, quote_notMem_hexDigits]
  · refine guarded_append ?_ h last
    exact eq ▸ fun h => quote (List.mem_singleton.mp h).symm

/-- In a quoted text every quote has a backslash before it. -/
lemma guarded_escapeAll (cs : List Char) (last : Char) : guarded last (cs.flatMap escapeChar) = true := by
  induction cs generalizing last with
  | nil => rfl
  | cons c cs ih => exact guarded_escapeChar c ih last

/-- In a string literal every quote has a backslash before it. -/
lemma guarded_literalBody (cs : List Char) (last : Char) : guarded last (literalBody cs) = true := by
  induction cs generalizing last with
  | nil => rfl
  | cons c cs ih =>
    obtain ⟨e, eq, rfl | ⟨-, rfl⟩⟩ := literalBody_cons c cs
    · exact eq ▸ guarded_escapeChar c ih last
    · exact eq ▸ guarded_append (by decide) ih last

lemma not_guarded (before after : List Char) (last : Char) :
    guarded last (before ++ ' ' :: '"' :: after) = false := by
  induction before generalizing last with
  | nil => simp [guarded]
  | cons c cs ih => simp [guarded, ih]

/-- A quoted text has one place after a blank where it can start. -/
lemma blank_quoted_inj {a b : List Char} {s t : String}
    (h : a ++ ' ' :: (quoted s).toList = b ++ ' ' :: (quoted t).toList) : a = b ∧ s = t := by
  -- the body of one text cannot hold the start of the other
  have inside : ∀ {x : List Char} {u v : String}, (' ' :: (quoted u).toList) = x ++ ' ' :: (quoted v).toList →
      x = [] := by
    intro x u v eq
    simp only [toList_quoted] at eq
    cases x with
    | nil => rfl
    | cons y x =>
      obtain ⟨-, eq⟩ := List.cons.inj eq
      cases x with
      | nil => cases eq
      | cons z x =>
        obtain ⟨-, eq⟩ := List.cons.inj eq
        have body : u.toList.flatMap escapeChar = x ++ ' ' :: '"' :: v.toList.flatMap escapeChar := by
          have ended : u.toList.flatMap escapeChar ++ ['"'] =
              (x ++ ' ' :: '"' :: v.toList.flatMap escapeChar) ++ ['"'] := by
            rw [List.append_assoc]
            exact eq
          exact List.append_cancel_right ended
        have guard := guarded_escapeAll u.toList ' '
        rw [body, not_guarded] at guard
        cases guard
  obtain ⟨x, rfl, eq⟩ | ⟨x, rfl, eq⟩ := List.append_eq_append_iff.mp h
  · obtain rfl := inside eq
    have same := String.toList_inj.mp (List.cons.inj eq).2
    exact ⟨(List.append_nil a).symm, quoted_injective same⟩
  · obtain rfl := inside eq
    have same := String.toList_inj.mp (List.cons.inj eq).2
    exact ⟨List.append_nil b, (quoted_injective same).symm⟩

end SourceGen.Text
