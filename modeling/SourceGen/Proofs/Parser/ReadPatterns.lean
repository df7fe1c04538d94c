import SourceGen.Proofs.Parser.ReadTypes

/-!
# Reading patterns

The parsers of field names and patterns read their results, if the parsers that they are written over do. The index of
a field is a number, however it is written.
-/

set_option synthInstance.maxHeartbeats 100000
set_option synthInstance.maxSize 1000000

namespace SourceGen

open LexemeKind

namespace Parser

/-! ### Indices -/

/-- A character of a number. -/
def IsNumeral (c : Char) : Prop := c.isAlphanum = true ∨ c = '_' ∨ c = '.'

lemma isNumber_iff {s : String} : isNumber s = true ↔ ∀ c ∈ s.toList, IsNumeral c := by
  simp [isNumber, IsNumeral, or_assoc]

/-- The value of a digit in any base up to sixteen. -/
lemma isAlphanum_of_digit {c : Char} {base : Nat} (h : (if c.isDigit then c.toNat - 48
    else if 'a' ≤ c && c ≤ 'f' then c.toNat - 87 else if 'A' ≤ c && c ≤ 'F' then c.toNat - 55 else base) < base) :
    c.isAlphanum = true := by
  change (c.isUpper || c.isLower || c.isDigit) = true
  split at h
  · simp [*]
  · split at h
    · next lower =>
      have : c.isLower = true := by
        change (decide (97 ≤ c.toNat) && decide (c.toNat ≤ 122)) = true
        simp [Char.le_def, UInt32.le_iff_toNat_le] at lower ⊢
        omega
      simp [this]
    · split at h
      · next upper =>
        have : c.isUpper = true := by
          change decide (65 ≤ c.toNat ∧ c.toNat ≤ 90) = true
          simp [Char.le_def, UInt32.le_iff_toNat_le] at upper ⊢
          omega
        simp [this]
      · omega

lemma isNumeral_of_wholeValue {base : Nat} {cs : List Char} {acc n : Nat}
    (h : wholeValue base acc cs = some n) : ∀ c ∈ cs, IsNumeral c := by
  induction cs generalizing acc with
  | nil => exact List.forall_mem_nil _
  | cons c cs ih =>
    rw [wholeValue] at h
    by_cases line : c = '_'
    · rw [if_pos line] at h
      exact List.forall_mem_cons.mpr ⟨.inr (.inl line), ih h⟩
    · rw [if_neg line] at h
      obtain ⟨digit, h⟩ := Option.ite_none_right_eq_some.mp h
      exact List.forall_mem_cons.mpr ⟨.inl (isAlphanum_of_digit digit), ih h⟩

lemma isNumeral_of_tupleIndex {s : String} {n : Nat} (h : tupleIndex? s = some n) : ∀ c ∈ s.toList, IsNumeral c := by
  have value := (Option.filter_eq_some_iff.mp h).1
  have zero : IsNumeral '0' := .inl (by decide)
  have letter : IsNumeral 'x' ∧ IsNumeral 'o' ∧ IsNumeral 'b' := by
    refine ⟨.inl ?_, .inl ?_, .inl ?_⟩ <;> decide
  split at value
  · next cs eq =>
    rw [eq]
    exact List.forall_mem_cons.mpr ⟨zero, List.forall_mem_cons.mpr ⟨letter.1, isNumeral_of_wholeValue value⟩⟩
  · next cs eq =>
    rw [eq]
    exact List.forall_mem_cons.mpr ⟨zero, List.forall_mem_cons.mpr ⟨letter.2.1, isNumeral_of_wholeValue value⟩⟩
  · next cs eq =>
    rw [eq]
    exact List.forall_mem_cons.mpr ⟨zero, List.forall_mem_cons.mpr ⟨letter.2.2, isNumeral_of_wholeValue value⟩⟩
  · exact isNumeral_of_wholeValue value

/-- A literal that consists of the characters of a number and is no truth value. -/
lemma lexemes_of_isNumber {s : String} (number : isNumber s = true) (truth : s ≠ "true" ∧ s ≠ "false") :
    (Leaf.literal s).lexemes = [.number] := by
  rw [Leaf.lexemes, if_neg (not_or.mpr truth)]
  split
  · next eq =>
    have := isNumber_iff.mp number '-' (by simp [eq])
    revert this
    simp [IsNumeral]
  · rw [ofLiteral, if_pos number]

lemma lexemes_of_tupleIndex {s : String} {n : Nat} (h : tupleIndex? s = some n) :
    (Leaf.literal s).lexemes = [.number] := by
  refine lexemes_of_isNumber (isNumber_iff.mpr (isNumeral_of_tupleIndex h)) ⟨?_, ?_⟩
  · rintro rfl
    cases h
  · rintro rfl
    cases h

@[simp] lemma lexemes_repr (n : Nat) : (Leaf.literal n.repr).lexemes = [.number] := by
  have digits : ∀ c ∈ n.repr.toList, c.isDigit = true := by
    intro c hc
    rw [Nat.repr, String.toList_ofList] at hc
    exact Nat.isDigit_of_mem_toDigits (by decide) (by decide) hc
  refine lexemes_of_isNumber (isNumber_iff.mpr fun c hc => .inl ?_) ⟨?_, ?_⟩
  · rw [Char.isAlphanum, digits c hc, Bool.or_true]
  · intro eq
    have := digits 't' (by rw [eq]; decide)
    cases this
  · intro eq
    have := digits 'f' (by rw [eq]; decide)
    cases this

instance reads_fieldName : Reads fieldName Spells True := by
  have index : Reads (do
      match (← get).rest with
      | .literal s :: _ =>
        match tupleIndex? s with
        | some n => skip 1; return .leaf (.literal (toString n))
        | none => fail
      | _ => fail : Parser Node) Spells True := by
    refine reads_one fun {s u n} ok => ?_
    obtain ⟨ts, i, left⟩ := s
    cases ts with
    | nil => cases ok
    | cons t ts =>
      cases t with
      | literal l =>
        change (match tupleIndex? l with
          | some n => do skip 1; return .leaf (.literal (toString n))
          | none => fail : Parser Node) _ = _ at ok
        cases index : tupleIndex? l with
        | none =>
          rw [index] at ok
          cases ok
        | some n =>
          rw [index] at ok
          cases ok
          refine ⟨rfl, _, rfl, fun placed => ⟨?_, nofun⟩⟩
          rw [lexemes_literal placed, lexemes_of_tupleIndex index]
          exact (lexemes_repr n).symm
      | _ => cases ok
  unfold fieldName
  exact reads_of_step (by simp)

/-! ### Patterns -/

attribute [local simp] Node.lexemes Node.lexemesAll

variable (g : Grammar) [g.Reads]

/-- What continues a node that is no type. -/
@[simp] abbrev Extends (p : Node) (n : Node) (ks : List LexemeKind) : Prop :=
  n.lexemes = p.lexemes ++ ks ∧ (n.isAbsent = true → n.lexemes = [])

instance reads_rangeMark (b : Bool) :
    Reads (rangeMark b) (fun n ks => ks = n.lexemes ∧ n.isAbsent = false) True := by
  have dots : ofOp "..." = ofOp "..=" := by decide
  unfold rangeMark
  refine reads_of_step ?_
  simp +contextual [dots]

instance reads_rangeBound : Reads (rangeBound g) Spells True := by
  unfold rangeBound
  refine reads_of_step ?_
  simp +contextual

instance reads_rangePattern (lower : Node) :
    Reads (rangePattern g lower) (Extends lower) (lower.isAbsent = true → lower.lexemes = []) := by
  unfold rangePattern
  refine reads_of_step ?_
  simp +contextual

instance reads_barPattern : Reads (do
    let bar ← op "|"
    let p ← g.pattern
    return [bar, p]) Spells True :=
  reads_of_step (by simp)

instance reads_alternatives : Reads (alternatives g) Spells True := by
  unfold alternatives
  refine reads_of_step ?_
  simp +contextual

@[simp] lemma lexemes_shorthandField (attrs byRef mutability name : Node) :
    (shorthandField attrs byRef mutability name).lexemes =
      attrs.lexemes ++ byRef.lexemes ++ mutability.lexemes ++ name.lexemes := by
  simp [shorthandField]

@[simp] lemma isAbsent_shorthandField (attrs byRef mutability name : Node) :
    (shorthandField attrs byRef mutability name).isAbsent = false := rfl

instance reads_fieldPattern (attrs : Node) : Reads (fieldPattern g attrs) (Extends attrs) True := by
  unfold fieldPattern
  refine reads_of_step ?_
  simp +contextual

lemma reads_fieldPatternsFor (n : Nat) : Reads (fieldPatternsFor g n) Spells True := by
  induction n with
  | zero =>
    unfold fieldPatternsFor
    exact reads_of_step (by simp)
  | succ n ih =>
    unfold fieldPatternsFor
    refine reads_of_step ?_
    simp +contextual

instance reads_pathPattern : Reads (pathPattern g) Spells True := by
  have := reads_fieldPatternsFor g
  unfold pathPattern
  refine reads_of_step ?_
  simp +contextual

instance reads_identPattern : Reads (identPattern g) Spells True := by
  unfold identPattern
  refine reads_of_step ?_
  simp +contextual

instance reads_parenPattern : Reads (parenPattern g) Spells True := by
  unfold parenPattern
  have (o : Input) (content : List Node) (js : List LexemeKind) : Step o js Spells
      (match content with
        | [.form .restPattern _] => return .form .tuple [.group .paren content]
        | [_] => return .form .paren [.group .paren content]
        | _ => return .form .tuple [.group .paren content] : Parser Node)
      (js = (Node.group .paren content).lexemes) := by
    split <;> exact .weaken .pure (by simp +contextual)
  refine reads_of_step ?_
  simp +contextual

instance reads_sliceElement : Reads (sliceElement g) Spells True := by
  unfold sliceElement
  have (o : Input) (start : Nat) (n : Node) (js : List LexemeKind) : Step o js Spells
      (match n with
        | .form .range [lower, dots, upper] =>
          if lower.isAbsent || upper.isAbsent then failAt (start + lower.size)
          else return .form .range [lower, dots, upper]
        | p => return p : Parser Node) (Spells n js) := by
    split
    · exact .weaken inferInstance (by simp +contextual)
    · exact .pure
  refine reads_of_step ?_
  simp +contextual

instance reads_pattern : Reads (pattern g) Spells True := by
  unfold pattern
  refine reads_of_step ?_
  simp +contextual

end Parser

end SourceGen
