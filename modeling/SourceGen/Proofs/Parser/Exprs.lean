import Mathlib.Data.List.Find
import SourceGen.Proofs.Parser.Types

/-!
# Patterns and expressions

The parsers of patterns and expressions take no notice of layout, if the parsers that they are written over
do not.
-/

namespace SourceGen.Parser

-- the rules for a parser with many alternatives make a large instance
set_option synthInstance.maxSize 100000000

variable (g : Grammar) [blind : g.Blind]

/-! ### Patterns -/

/-- The name or index of a field is read alike. -/
instance alike_fieldName : Alike fieldName fieldName := by
  unfold fieldName
  refine .andThenSame inferInstance fun isName => .branch inferInstance ?_
  refine .andThenSame inferInstance fun isIndex => .branch ?_ inferInstance
  refine .andThen inferInstance fun r => ?_
  have heads := r.heads
  generalize r.left.rest = ts, r.right.rest = us at heads
  cases heads with
  | literal l _ =>
    dsimp only
    cases tupleIndex? l <;> infer_instance
  | _ => infer_instance

/-- The mark of a range is read alike. -/
instance alike_rangeMark {b c : Bool} [Like b c] : Alike (rangeMark b) (rangeMark c) := by
  unfold rangeMark
  infer_instance

/-- A bound of a range pattern is read alike, or is missing in both. -/
instance alike_rangeBound : Alike (rangeBound g) (rangeBound g) := by
  unfold rangeBound
  infer_instance

/-- Marks that are alike need an upper bound both or neither. -/
instance like_needsUpper {e e' : Node} [Like e e'] : Like (needsUpper e) (needsUpper e') := by
  unfold needsUpper
  infer_instance

/-- A range pattern is read alike after a lower bound that is. -/
instance alike_rangePattern {e e' : Node} [Like e e'] : Alike (rangePattern g e) (rangePattern g e') := by
  unfold rangePattern
  infer_instance

/-- Whether an alternative follows does not depend on layout. -/
instance blind_startsAlternative : startsAlternative.Blind := by
  unfold startsAlternative
  infer_instance

/-- A pattern with alternatives is read alike. -/
instance alike_alternatives : Alike (alternatives g) (alternatives g) := by
  unfold alternatives
  infer_instance

/-- A field that binds its own name is the same for parts that are alike. -/
instance like_shorthandField {a a' r r' m m' n n' : Node} [Like a a'] [Like r r'] [Like m m'] [Like n n'] :
    Like (shorthandField a r m n) (shorthandField a' r' m' n') := by
  unfold shorthandField
  infer_instance

/-- A field of a struct pattern is read alike. -/
instance alike_fieldPattern {e e' : Node} [Like e e'] : Alike (fieldPattern g e) (fieldPattern g e') := by
  unfold fieldPattern
  infer_instance

/-- The fields of a struct pattern are read alike, one after the other. -/
instance alike_fieldPatternsFor {m n : Nat} [h : Like m n] :
    Alike (fieldPatternsFor g m) (fieldPatternsFor g n) := by
  obtain rfl := h.same
  clear h
  induction m with
  | zero =>
    unfold fieldPatternsFor
    infer_instance
  | succ n ih =>
    unfold fieldPatternsFor
    infer_instance

/-- A pattern that starts with a path is read alike. -/
instance alike_pathPattern : Alike (pathPattern g) (pathPattern g) := by
  unfold pathPattern
  infer_instance

/-- A pattern that binds a name is read alike. -/
instance alike_identPattern : Alike (identPattern g) (identPattern g) := by
  unfold identPattern
  infer_instance

/-- A pattern in round brackets is read alike, as a tuple or as its only element. -/
instance alike_parenPattern : Alike (parenPattern g) (parenPattern g) := by
  unfold parenPattern
  refine .andThen inferInstance fun content => ?_
  have rows := content.like.rows
  generalize content.left = ns, content.right = ms at rows
  cases rows with
  | nil => infer_instance
  | cons first others =>
    cases first.heads with
    | form f _ => cases others.rows <;> cases f <;> infer_instance
    | _ => cases others.rows <;> infer_instance

/-- An element of a slice pattern is read alike. -/
instance alike_sliceElement : Alike (sliceElement g) (sliceElement g) := by
  unfold sliceElement
  refine .andThenSame inferInstance fun start => .andThen inferInstance fun p => ?_
  obtain ⟨n, m, like⟩ := p
  have plain : Alike (pure n) (pure m) := inferInstance
  cases like.heads with
  | form f parts =>
    cases f with
    | range =>
      cases parts.rows with
      | nil => exact plain
      | cons _ rest =>
        cases rest.rows with
        | nil => exact plain
        | cons _ rest' =>
          cases rest'.rows with
          | nil => exact plain
          | cons _ rest'' => cases rest''.rows <;> infer_instance
    | _ => exact plain
  | _ => exact plain

/-- A pattern is read alike. -/
instance alike_pattern : Alike (pattern g) (pattern g) := by
  unfold pattern
  infer_instance

/-! ### Expressions -/

/-- Whether an expression begins does not depend on layout. -/
instance blind_startsExpr : startsExpr.Blind := by
  unfold startsExpr
  infer_instance

/-- The operators of the table are operators of the language. -/
lemma operator_of_mem {o : String × Precedence} (mem : o ∈ binaryOperators) : Look.Operator o.1 := by
  have all : ∀ o ∈ binaryOperators, Look.areCoupled o.1.toList = true := by decide
  exact ⟨all o mem⟩

/-- The binary operator at the start does not depend on layout. -/
lemma binaryOperator?_eq {s t : Input} (like : Like s t) : binaryOperator? s.rest = binaryOperator? t.rest := by
  unfold binaryOperator?
  refine List.find?_congr fun o mem => ?_
  have operator := operator_of_mem mem
  exact Input.look_eq (Look.op o.1) like

/-- The precedence of the operator at the start does not depend on layout. -/
lemma nextPrecedence_eq {s t : Input} (like : Like s t) : nextPrecedence s.rest = nextPrecedence t.rest := by
  unfold nextPrecedence
  rw [binaryOperator?_eq like, Input.look_eq (Look.op "=") like, Input.look_eq (Look.op "=>") like,
    Input.look_eq (Look.op "..") like, Input.look_eq (Look.word "as") like]

/-- The right operand of an operator is read alike, as deep as it may be. -/
instance alike_rightOperandFor (b : Bool) (p : Precedence) {m n : Nat} [h : Like m n] {e e' : Node} [like : Like e e'] :
    Alike (rightOperandFor g b p m e) (rightOperandFor g b p n e') := by
  obtain rfl := h.same
  clear h
  induction m generalizing e e' with
  | zero =>
    unfold rightOperandFor
    infer_instance
  | succ n ih =>
    unfold rightOperandFor
    refine .andThen inferInstance fun r => ?_
    rw [nextPrecedence_eq r.like]
    infer_instance

/-- The right operand of an operator is read alike. -/
instance alike_rightOperand (b : Bool) (p : Precedence) : Alike (rightOperand g b p) (rightOperand g b p) := by
  unfold rightOperand
  infer_instance

/-- Whether a range ends without upper bound does not depend on layout. -/
instance blind_endsRange (b : Bool) : (endsRange b).Blind := by
  unfold endsRange
  infer_instance

/-- A range is read alike after a lower bound that is. -/
instance alike_rangeAfter (b : Bool) {e e' : Node} [Like e e'] : Alike (rangeAfter g b e) (rangeAfter g b e') := by
  unfold rangeAfter
  infer_instance

/-- Whether something follows a cast that must not does not depend on layout. -/
instance blind_followsCast : followsCast.Blind := by
  unfold followsCast
  infer_instance

/-- The type of a cast is read alike. -/
instance alike_castType : Alike (castType g) (castType g) := by
  unfold castType
  infer_instance

/-- The operators after an operand are read alike, one after the other. -/
instance alike_operatorsFor (b : Bool) (p : Precedence) {m n : Nat} [h : Like m n] {e e' : Node} [like : Like e e'] :
    Alike (operatorsFor g b p m e) (operatorsFor g b p n e') := by
  obtain rfl := h.same
  clear h
  induction m generalizing e e' with
  | zero =>
    unfold operatorsFor
    infer_instance
  | succ n ih =>
    unfold operatorsFor
    refine .choose inferInstance inferInstance (.andThen inferInstance fun r => ?_)
    dsimp only
    -- the operator is found in a table, so its rule is not one of an operator known beforehand
    rw [binaryOperator?_eq r.like]
    cases found : binaryOperator? r.right.rest with
    | none => infer_instance
    | some o =>
      have operator : Look.Operator o.1 := operator_of_mem (List.mem_of_find?_eq_some found)
      infer_instance

/-- The operators after an operand are read alike. -/
instance alike_operators (b : Bool) (p : Precedence) {e e' : Node} [Like e e'] :
    Alike (operators g b p e) (operators g b p e') where
  run := fun {s t} h => (alike_operatorsFor g b p (m := s.rest.length + 1) (n := t.rest.length + 1)).run h

/-- An expression is read alike. -/
instance alike_expr (b : Bool) : Alike (expr g b) (expr g b) := by
  unfold expr
  infer_instance

/-- A field, a method call or `await` after a dot is read alike. -/
instance alike_member {e e' d d' : Node} [Like e e'] [Like d d'] : Alike (member g e d) (member g e' d') := by
  unfold member
  infer_instance

/-- Field accesses by a number literal are read alike. -/
instance alike_indexFields {e e' d d' : Node} [Like e e'] [Like d d'] :
    Alike (indexFields e d) (indexFields e' d') := by
  unfold indexFields
  refine .andThen inferInstance fun r => ?_
  have heads := r.heads
  generalize r.left.rest = ts, r.right.rest = us at heads
  cases heads with
  | literal l _ =>
    dsimp only
    have fields (parts : List (List Char)) : Like (indexedFields e d parts true) (indexedFields e' d' parts true) :=
      inferInstance
    have options := (fields (Text.split '.' (if l.toList.getLast? == some '.' then l.toList.dropLast else l.toList))).options
    generalize indexedFields e d _ true = x, indexedFields e' d' _ true = y at options
    cases options <;> infer_instance
  | _ => infer_instance

/-- What follows a dot is read alike, a number such as `0.1` included. -/
instance alike_afterDot {e e' d d' : Node} [Like e e'] [Like d d'] : Alike (afterDot g e d) (afterDot g e' d') := by
  unfold afterDot
  infer_instance

/-- What follows an atom is read alike, step by step. -/
instance alike_trailersFor {m n : Nat} [h : Like m n] {e e' : Node} [like : Like e e'] :
    Alike (trailersFor g m e) (trailersFor g n e') := by
  obtain rfl := h.same
  clear h
  induction m generalizing e e' with
  | zero =>
    unfold trailersFor
    infer_instance
  | succ n ih =>
    unfold trailersFor
    infer_instance

/-- What follows an atom is read alike. -/
instance alike_trailers {e e' : Node} [Like e e'] : Alike (trailers g e) (trailers g e') where
  run := fun {s t} h => (alike_trailersFor g (m := s.rest.length + 1) (n := t.rest.length + 1)).run h

/-- A block without inner attributes is read alike. -/
instance alike_block : Alike (block g) (block g) := by
  unfold block
  infer_instance

/-- A block that may have inner attributes is read alike. -/
instance alike_body : Alike (body g) (body g) := by
  unfold body
  infer_instance

/-- An `if` is read alike, branch by branch. -/
instance alike_ifFor {m n : Nat} [h : Like m n] :
    Alike (ifFor g m) (ifFor g n) := by
  obtain rfl := h.same
  clear h
  induction m with
  | zero =>
    unfold ifFor
    infer_instance
  | succ n ih =>
    unfold ifFor
    infer_instance

/-- An `if` is read alike. -/
instance alike_ifExpr : Alike (ifExpr g) (ifExpr g) where
  run := fun {s t} h => (alike_ifFor g (m := s.rest.length + 1) (n := t.rest.length + 1)).run h

/-- A `while` loop is read alike. -/
instance alike_whileLoop {e e' : Node} [Like e e'] : Alike (whileLoop g e) (whileLoop g e') := by
  unfold whileLoop
  infer_instance

/-- A `for` loop is read alike. -/
instance alike_forLoop {e e' : Node} [Like e e'] : Alike (forLoop g e) (forLoop g e') := by
  unfold forLoop
  infer_instance

/-- A `loop` is read alike. -/
instance alike_loopExpr {e e' : Node} [Like e e'] : Alike (loopExpr g e) (loopExpr g e') := by
  unfold loopExpr
  infer_instance

/-- A block is read alike after its label. -/
instance alike_blockExpr {e e' : Node} [Like e e'] : Alike (blockExpr g e) (blockExpr g e') := by
  unfold blockExpr
  infer_instance

/-- A labelled loop or block is read alike. -/
instance alike_labelled : Alike (labelled g) (labelled g) := by
  unfold labelled
  infer_instance

/-- An arm of a `match` is read alike. -/
instance alike_arm : Alike (arm g) (arm g) := by
  unfold arm
  infer_instance

/-- A `match` is read alike. -/
instance alike_matchExpr : Alike (matchExpr g) (matchExpr g) := by
  unfold matchExpr
  infer_instance

/-- A parameter of a closure is read alike. -/
instance alike_closureParam : Alike (closureParam g) (closureParam g) := by
  unfold closureParam
  infer_instance

/-- A closure is read alike. -/
instance alike_closure (b : Bool) : Alike (closure g b) (closure g b) := by
  unfold closure
  infer_instance

/-- A field of a struct literal is read alike. -/
instance alike_fieldValue : Alike (fieldValue g) (fieldValue g) := by
  unfold fieldValue
  infer_instance

/-- The fields of a struct literal are read alike, one after the other. -/
instance alike_fieldValuesFor {m n : Nat} [h : Like m n] :
    Alike (fieldValuesFor g m) (fieldValuesFor g n) := by
  obtain rfl := h.same
  clear h
  induction m with
  | zero =>
    unfold fieldValuesFor
    infer_instance
  | succ n ih =>
    unfold fieldValuesFor
    infer_instance

/-- An expression that starts with a path is read alike. -/
instance alike_pathExpr (b : Bool) : Alike (pathExpr g b) (pathExpr g b) := by
  unfold pathExpr
  infer_instance

/-- An expression in round brackets is read alike, as a tuple or as its only element. -/
instance alike_parenExpr : Alike (parenExpr g) (parenExpr g) := by
  unfold parenExpr
  refine .andThen inferInstance fun content => ?_
  have rows := content.like.rows
  generalize content.left = ns, content.right = ms at rows
  cases rows with
  | nil => infer_instance
  | cons _ others => cases others.rows <;> infer_instance

/-- An array is read alike. -/
instance alike_arrayExpr : Alike (arrayExpr g) (arrayExpr g) := by
  unfold arrayExpr
  infer_instance

/-- A `break` is read alike. -/
instance alike_breakExpr (b : Bool) : Alike (breakExpr g b) (breakExpr g b) := by
  unfold breakExpr
  infer_instance

/-- A keyword with an expression is read alike. -/
instance alike_keywordExpr (f : Form) (kw : String) : Alike (keywordExpr g f kw) (keywordExpr g f kw) := by
  unfold keywordExpr
  infer_instance

/-- Whether the binder of a closure begins does not depend on layout. -/
instance blind_startsBinder : startsBinder.Blind := by
  unfold startsBinder
  infer_instance

/-- Whether a closure begins does not depend on layout. -/
instance blind_startsClosure : startsClosure.Blind := by
  unfold startsClosure
  infer_instance

/-- An atom is read alike. -/
instance alike_atom (b : Bool) : Alike (atom g b) (atom g b) := by
  unfold atom
  infer_instance

/-- An operand with attributes is read alike, or kept with them in both readings. -/
instance alike_withAttrs {s s' : Input} {i i' : Nat} {as as' : List Attr} {e e' : Node} [Like s s'] [Like i i']
    [Like as as'] [like : Like e e'] : Alike (withAttrs s i as e) (withAttrs s' i' as' e') := by
  unfold withAttrs
  cases like.heads <;> infer_instance

/-- An operand is read alike. -/
instance alike_operand (b : Bool) : Alike (operand g b) (operand g b) := by
  unfold operand
  infer_instance

/-- An expression that starts with a block is read alike, or is missing in both. -/
instance alike_blockLike? : Alike (blockLike? g) (blockLike? g) := by
  unfold blockLike?
  infer_instance

/-- An expression that ends early is read alike. -/
instance alike_earlyExpr : Alike (earlyExpr g) (earlyExpr g) := by
  unfold earlyExpr
  infer_instance

end SourceGen.Parser
