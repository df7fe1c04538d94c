import SourceGen.Proofs.Parser.ReadPatterns
import SourceGen.Proofs.Text.Split

/-!
# Reading expressions

The parsers of expressions read their results, if the parsers that they are written over do.
-/

set_option synthInstance.maxHeartbeats 100000
set_option synthInstance.maxSize 1000000

namespace SourceGen

open LexemeKind

namespace Parser

attribute [local simp] Node.lexemes Node.lexemesAll

variable (g : Grammar) [g.Reads]

/-! ### Operators -/

lemma reads_rightOperandFor (b : Bool) (p : Precedence) (n : Nat) : ∀ e, Reads (rightOperandFor g b p n e)
    (Extends e) (e.isAbsent = true → e.lexemes = []) := by
  induction n with
  | zero =>
    intro e
    unfold rightOperandFor
    exact reads_of_step (by simp)
  | succ n ih =>
    intro e
    unfold rightOperandFor
    dsimp only
    refine reads_of_step ?_
    simp +contextual

instance reads_rightOperand (b : Bool) (p : Precedence) : Reads (rightOperand g b p) Spells True := by
  have := reads_rightOperandFor g b p
  unfold rightOperand
  refine reads_of_step ?_
  simp +contextual

instance reads_rangeAfter (b : Bool) (lower : Node) : Reads (rangeAfter g b lower) (Extends lower) True := by
  unfold rangeAfter
  refine reads_of_step ?_
  simp +contextual

instance reads_castType : Reads (castType g) Spells True := by
  unfold castType
  refine reads_of_step ?_
  simp +contextual

lemma reads_operatorsFor (b : Bool) (p : Precedence) (n : Nat) : ∀ e, Reads (operatorsFor g b p n e)
    (Extends e) (e.isAbsent = true → e.lexemes = []) := by
  induction n with
  | zero =>
    intro e
    unfold operatorsFor
    exact reads_of_step (by simp)
  | succ n ih =>
    intro e
    unfold operatorsFor
    dsimp only
    split
    · exact reads_of_step (by simp)
    · refine .of_get fun s => ?_
      split
      · refine reads_of_step ?_
        simp +contextual
      · refine reads_of_step ?_
        simp +contextual

instance reads_operators (b : Bool) (p : Precedence) (e : Node) :
    Reads (operators g b p e) (Extends e) (e.isAbsent = true → e.lexemes = []) where
  clean := fun {s _ _} ok => (reads_operatorsFor g b p (s.rest.length + 1) e).clean ok
  run := fun h {s _ _} ok => (reads_operatorsFor g b p (s.rest.length + 1) e).run h ok

instance reads_expr (b : Bool) : Reads (expr g b) Spells True := by
  unfold expr
  refine reads_of_step ?_
  simp +contextual

/-! ### Attributes and fields -/

@[simp] lemma lexemes_attributed (attrs : List Attr) (e : Node) :
    (attributed attrs e).lexemes = attrs.flatMap Attr.lexemes ++ e.lexemes := by
  unfold attributed
  split
  · next none =>
    rw [List.isEmpty_iff.mp none]
    rfl
  · dsimp only
    split <;> simp

@[simp] lemma isAbsent_attributed {attrs : List Attr} {e : Node} :
    (attributed attrs e).isAbsent = true ↔ attrs = [] ∧ e.isAbsent = true := by
  unfold attributed
  split
  · next none => simp [List.isEmpty_iff.mp none]
  · next some =>
    have some : attrs ≠ [] := fun none => some (List.isEmpty_iff.mpr none)
    dsimp only
    split <;> simp [some]

lemma lexemes_indexedFields {dot : Node} {parts : List (List Char)} {first : Bool} {e e' : Node}
    (h : indexedFields e dot parts first = some e') :
    e'.lexemes = e.lexemes ++ (if first && !parts.isEmpty then dot.lexemes ++ [.number] else []) ∧
      (parts ≠ [] → e'.isAbsent = false) ∧ ∀ p ∈ parts, ∀ c ∈ p, IsNumeral c := by
  induction parts generalizing e first with
  | nil =>
    cases h
    simp
  | cons p ps ih =>
    rw [indexedFields] at h
    split at h
    · next n index =>
      split at h
      · cases h
      · obtain ⟨spells, absent, rest⟩ := ih h
        refine ⟨?_, fun _ => ?_, List.forall_mem_cons.mpr ⟨?_, rest⟩⟩
        · rw [spells]
          cases first <;> simp [isFiller, show ofOp "." = [.mark '.'] from rfl]
        · cases ps with
          | nil =>
            cases h
            rfl
          | cons _ _ => exact absent (List.cons_ne_nil _ _)
        · simpa using isNumeral_of_tupleIndex index
    · cases h

/-- A literal that stands for field accesses is a number. -/
lemma lexemes_of_indexedFields {l : String} {e dot e' : Node}
    (h : indexedFields e dot
      (Text.split '.' (if l.toList.getLast? == some '.' then l.toList.dropLast else l.toList)) true = some e') :
    (Leaf.literal l).lexemes = [.number] := by
  have numerals := (lexemes_indexedFields h).2.2
  refine lexemes_of_isNumber (isNumber_iff.mpr fun c hc => ?_) ⟨?_, ?_⟩
  · by_cases dot : c = '.'
    · exact .inr (.inr dot)
    · have there : c ∈ if l.toList.getLast? == some '.' then l.toList.dropLast else l.toList := by
        split
        · next ends =>
          obtain ⟨cs, eq⟩ := List.getLast?_eq_some_iff.mp (beq_iff_eq.mp ends)
          rw [eq] at hc ⊢
          simpa [dot] using hc
        · exact hc
      obtain ⟨p, hp, hc⟩ := Text.mem_split there dot
      exact numerals p hp c hc
  · rintro rfl
    cases h
  · rintro rfl
    cases h

/-- Field accesses by a number are read from one literal. -/
instance reads_indexFields (e dot : Node) : Reads (indexFields e dot)
    (fun r ks => r.1.lexemes = e.lexemes ++ dot.lexemes ++ ks ∧ r.1.isAbsent = false) True := by
  refine reads_one fun {s u r} ok => ?_
  obtain ⟨ts, i, left⟩ := s
  cases ts with
  | nil => cases ok
  | cons t ts =>
    cases t with
    | literal l =>
      change (match indexedFields e dot
          (Text.split '.' (if l.toList.getLast? == some '.' then l.toList.dropLast else l.toList)) true with
        | some e => do skip 1; return (e, l.toList.getLast? == some '.')
        | none => fail : Parser (Node × Bool)) _ = _ at ok
      cases fields : indexedFields e dot
        (Text.split '.' (if l.toList.getLast? == some '.' then l.toList.dropLast else l.toList)) true with
      | none =>
        rw [fields] at ok
        cases ok
      | some e' =>
        rw [fields] at ok
        cases ok
        obtain ⟨spells, absent, -⟩ := lexemes_indexedFields fields
        refine ⟨rfl, _, rfl, fun placed => ⟨?_, absent (Text.split_ne_nil _ _)⟩⟩
        rw [lexemes_literal placed, lexemes_of_indexedFields fields, spells]
        simp [Text.split_ne_nil]
    | _ => cases ok

instance reads_member (e dot : Node) : Reads (member g e dot)
    (fun n ks => n.lexemes = e.lexemes ++ dot.lexemes ++ ks ∧ n.isAbsent = false) True := by
  unfold member
  refine reads_of_step ?_
  simp +contextual

instance reads_afterDot (e dot : Node) : Reads (afterDot g e dot)
    (fun n ks => n.lexemes = e.lexemes ++ dot.lexemes ++ ks ∧ n.isAbsent = false) True := by
  unfold afterDot
  refine reads_of_step ?_
  simp +contextual [isFiller, show ofOp "." = [.mark '.'] from rfl]

lemma reads_trailersFor (n : Nat) : ∀ e, Reads (trailersFor g n e)
    (Extends e) (e.isAbsent = true → e.lexemes = []) := by
  induction n with
  | zero =>
    intro e
    unfold trailersFor
    exact reads_of_step (by simp)
  | succ n ih =>
    intro e
    unfold trailersFor
    refine reads_of_step ?_
    simp +contextual

instance reads_trailers (e : Node) :
    Reads (trailers g e) (Extends e) (e.isAbsent = true → e.lexemes = []) where
  clean := fun {s _ _} ok => (reads_trailersFor g (s.rest.length + 1) e).clean ok
  run := fun h {s _ _} ok => (reads_trailersFor g (s.rest.length + 1) e).run h ok

/-! ### Blocks -/

/-- The spelling of a block. -/
@[simp] abbrev SpellsBlock (n : Node) (ks : List LexemeKind) : Prop := ks = n.lexemes ∧ ∃ ns, n = .group .brace ns

instance reads_block : Reads (block g) SpellsBlock True := by
  unfold block
  refine reads_of_step ?_
  simp +contextual

instance reads_body : Reads (body g) SpellsBlock True := by
  unfold body
  refine reads_of_step ?_
  simp +contextual

lemma reads_ifFor (n : Nat) : Reads (ifFor g n) Spells True := by
  induction n with
  | zero =>
    unfold ifFor
    exact reads_of_step (by simp)
  | succ n ih =>
    unfold ifFor
    refine reads_of_step ?_
    simp +contextual

instance reads_ifExpr : Reads (ifExpr g) Spells True where
  clean := fun {s _ _} ok => (reads_ifFor g (s.rest.length + 1)).clean ok
  run := fun h {s _ _} ok => (reads_ifFor g (s.rest.length + 1)).run h ok

instance reads_whileLoop (label : Node) : Reads (whileLoop g label) (Extends label) True := by
  unfold whileLoop
  refine reads_of_step ?_
  simp +contextual

instance reads_forLoop (label : Node) : Reads (forLoop g label) (Extends label) True := by
  unfold forLoop
  refine reads_of_step ?_
  simp +contextual

instance reads_loopExpr (label : Node) : Reads (loopExpr g label) (Extends label) True := by
  unfold loopExpr
  refine reads_of_step ?_
  simp +contextual

instance reads_blockExpr (label : Node) : Reads (blockExpr g label) (Extends label) True := by
  unfold blockExpr
  refine reads_of_step ?_
  simp +contextual

instance reads_labelled : Reads (labelled g) Spells True := by
  unfold labelled
  refine reads_of_step ?_
  simp +contextual

instance reads_arm : Reads (arm g) Spells True := by
  unfold arm
  refine reads_of_step ?_
  simp +contextual

instance reads_matchExpr : Reads (matchExpr g) Spells True := by
  unfold matchExpr
  refine reads_of_step ?_
  simp +contextual

/-! ### Atoms -/

instance reads_closureParam : Reads (closureParam g) Spells True := by
  unfold closureParam
  refine reads_of_step ?_
  simp +contextual

instance reads_closure (b : Bool) : Reads (closure g b) Spells True := by
  unfold closure
  dsimp only
  refine reads_of_step ?_
  simp +contextual

instance reads_fieldValue : Reads (fieldValue g) Spells True := by
  unfold fieldValue
  refine reads_of_step ?_
  simp +contextual

lemma reads_fieldValuesFor (n : Nat) : Reads (fieldValuesFor g n) Spells True := by
  induction n with
  | zero =>
    unfold fieldValuesFor
    exact reads_of_step (by simp)
  | succ n ih =>
    unfold fieldValuesFor
    refine reads_of_step ?_
    simp +contextual

instance reads_pathExpr (b : Bool) : Reads (pathExpr g b) Spells True := by
  have := reads_fieldValuesFor g
  unfold pathExpr
  refine reads_of_step ?_
  simp +contextual

instance reads_parenExpr : Reads (parenExpr g) Spells True := by
  unfold parenExpr
  have (o : Input) (content : List Node) (js : List LexemeKind) : Step o js Spells
      (match content with
        | [_] => return .form .paren [.group .paren content]
        | _ => return .form .tuple [.group .paren content] : Parser Node)
      (js = (Node.group .paren content).lexemes) := by
    split <;> exact .weaken .pure (by simp +contextual)
  refine reads_of_step ?_
  simp +contextual

instance reads_arrayExpr : Reads (arrayExpr g) Spells True := by
  unfold arrayExpr
  refine reads_of_step ?_
  simp +contextual

instance reads_breakExpr (b : Bool) : Reads (breakExpr g b) Spells True := by
  unfold breakExpr
  refine reads_of_step ?_
  simp +contextual

instance reads_keywordExpr (f : Form) (w : String) :
    Reads (keywordExpr g f w) Spells (f ≠ .absent ∧ f ≠ .phantom) := by
  unfold keywordExpr
  refine reads_of_step ?_
  simp +contextual [-Node.lexemes, Node.lexemes_form]

instance reads_atom (b : Bool) : Reads (atom g b) Spells True := by
  unfold atom
  refine reads_of_step ?_
  simp +contextual

/-! ### Operands -/

instance Step.withAttrs {o start : Input} {ks : List LexemeKind} {first : Nat} {attrs : List Attr} {e : Node}
    [Begun o [] start] :
    Step o ks Spells (withAttrs start first attrs e)
      (ks = attrs.flatMap Attr.lexemes ++ e.lexemes ∧ (e.isAbsent = true → e.lexemes = [])) := by
  unfold Parser.withAttrs
  split
  · exact .weaken inferInstance (by simp +contextual)
  · exact .weaken inferInstance (by simp +contextual)

instance Clean.withAttrs {start : Input} {first : Nat} {attrs : List Attr} {e : Node} :
    Clean (withAttrs start first attrs e) := by
  unfold Parser.withAttrs
  split <;> infer_instance

instance reads_operand (b : Bool) : Reads (operand g b) Spells True := by
  unfold operand
  dsimp only
  refine reads_of_step ?_
  simp +contextual

instance reads_blockLike? :
    Reads (blockLike? g) (fun e ks => e.elim (ks = []) (Spells · ks)) True := by
  unfold blockLike?
  refine reads_of_step ?_
  simp +contextual

instance reads_earlyExpr : Reads (earlyExpr g) Spells True := by
  unfold earlyExpr
  refine reads_of_step ?_
  simp +contextual

end Parser

end SourceGen
