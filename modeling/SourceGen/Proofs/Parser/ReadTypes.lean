import SourceGen.Proofs.Parser.ReadPaths

/-!
# Reading types

The parsers of attributes, types and generics read their results, if the parsers that they are written over do. What
they read of types does not end in `=`.
-/

set_option synthInstance.maxHeartbeats 100000
set_option synthInstance.maxSize 1000000

namespace SourceGen

open LexemeKind

namespace Parser

attribute [local simp] Node.lexemes Node.lexemesAll Node.typeOps

variable (g : Grammar) [g.Reads]

/-! ### Attributes -/

instance reads_attrPath : Reads attrPath (fun p ks => ks = p.lexemes) True := by
  unfold attrPath
  refine reads_of_step ?_
  simp +contextual [NamePath.lexemes, NamePath.nameLexemes]

instance reads_attrArgs : Reads (attrArgs g) Spells True := by
  unfold attrArgs
  refine reads_of_step ?_
  simp +contextual

instance : Spelled Attr := ⟨Attr.lexemes, fun _ => True⟩

instance reads_innerAttr : Reads (innerAttr g) (fun a ks => ks = a.lexemes ∧ a.inner = true) True := by
  unfold innerAttr
  refine reads_of_step ?_
  simp +contextual [Attr.lexemes, Attr.inner]

instance reads_outerAttr : Reads (outerAttr g) (fun a ks => ks = a.lexemes ∧ a.inner = false) True := by
  unfold outerAttr
  refine reads_of_step ?_
  simp +contextual [Attr.lexemes, Attr.inner]

instance reads_innerAttrs :
    Reads (innerAttrs g) (fun as ks => ks = as.flatMap Attr.lexemes ∧ ∀ a ∈ as, a.inner = true) True := by
  unfold innerAttrs
  infer_instance

instance reads_outerAttrList :
    Reads (outerAttrList g) (fun as ks => ks = as.flatMap Attr.lexemes ∧ ∀ a ∈ as, a.inner = false) True := by
  unfold outerAttrList
  infer_instance

instance reads_outerAttrs : Reads (outerAttrs g) Spells True := by
  unfold outerAttrs
  refine reads_of_step ?_
  simp +contextual

/-! ### Bounds -/

instance reads_boundModifier : Reads boundModifier SpellsType True := by
  unfold boundModifier
  refine reads_of_step ?_
  rintro - -
  refine ⟨trivial, ?_⟩
  rintro n ks ⟨rfl, rfl | rfl⟩ <;> simp

instance reads_constCondition (b : Bool) :
    Reads (constCondition b) (fun isConst ks => (isConst = false → ks = []) ∧ Closed ks) True := by
  unfold constCondition
  dsimp only
  refine reads_of_step ?_
  simp +contextual

/-- What a bound is read from that is kept as tokens does not end in `=`. -/
@[simp] abbrev SpellsBound (b : Option Node) (ks : List LexemeKind) : Prop := b.elim (Closed ks) (SpellsType · ks)

instance reads_genericParam (b : Bool) : Reads (genericParam g b) Spells True := by
  unfold genericParam
  refine reads_of_step ?_
  simp +contextual

instance reads_boundPath : Reads (boundPath g) SpellsType True := by
  unfold boundPath
  refine reads_of_step ?_
  simp +contextual [withLastArgs_spells]

instance reads_traitBound (b : Bool) : Reads (traitBound g b) SpellsBound True := by
  unfold traitBound
  dsimp only
  refine reads_of_step ?_
  simp +contextual
  grind [Closed.append, Node.Closes.closed]

instance reads_boundWith (b c : Bool) : Reads (boundWith g b c) SpellsType True := by
  unfold boundWith
  refine reads_of_step ?_
  simp +contextual [Option.forall]

instance reads_bound : Reads (bound g) SpellsType True := by
  unfold bound
  infer_instance

instance reads_objectBound : Reads (objectBound g) SpellsType True := by
  unfold objectBound
  infer_instance

/-- The spelling of parts that follow each other in a type. -/
@[simp] abbrev SpellsParts (ns : List Node) (ks : List LexemeKind) : Prop := ks = Node.lexemesAll ns ∧ Node.ClosesAll ns

lemma reads_boundsAfter (b c d : Bool) (n : Nat) : Reads (boundsAfter g b c d n) SpellsParts True := by
  induction n with
  | zero =>
    unfold boundsAfter
    exact reads_of_step (by simp)
  | succ n ih =>
    unfold boundsAfter
    refine reads_of_step ?_
    simp +contextual

instance reads_implBounds (b : Bool) : Reads (implBounds g b) SpellsParts True where
  clean := fun {s _ _} ok => (reads_boundsAfter g b true true (s.rest.length + 1)).clean ok
  run := fun h {s _ _} ok => (reads_boundsAfter g b true true (s.rest.length + 1)).run h ok

instance reads_objectBounds (b : Bool) : Reads (objectBounds g b) SpellsParts True where
  clean := fun {s _ _} ok => (reads_boundsAfter g b false false (s.rest.length + 1)).clean ok
  run := fun h {s _ _} ok => (reads_boundsAfter g b false false (s.rest.length + 1)).run h ok

/-! ### Named types -/

/-- What continues a node, as its result tells. -/
@[simp] abbrev Continues (p : Node) (n : Node) (ks : List LexemeKind) : Prop :=
  n.lexemes = p.lexemes ++ ks ∧ (p.Closes → n.Closes) ∧
    ((p.isAbsent = true → p.lexemes = []) → n.isAbsent = true → n.lexemes = [])

lemma reads_withParenArgs (n : Nat) : ∀ p, Reads (withParenArgs g n p) (Continues p) True := by
  induction n with
  | zero =>
    intro p
    unfold withParenArgs
    exact reads_of_step (by simp +contextual)
  | succ n ih =>
    intro p
    unfold withParenArgs
    refine reads_of_step ?_
    simp +contextual [withLastArgs_spells, withMore_spells]
    grind [withLastArgs_spells, withMore_spells]

instance reads_namedType (p : Parser Node) [Reads p SpellsType True] : Reads (namedType g p) SpellsType True := by
  have := reads_withParenArgs g
  unfold namedType
  refine reads_of_step ?_
  simp +contextual

/-! ### Function types -/

instance reads_abi : Reads abi SpellsType True := by
  unfold abi
  refine reads_of_step ?_
  simp +contextual

instance reads_argName : Reads argName Spells True := by
  unfold argName
  refine reads_of_step ?_
  simp +contextual

instance reads_bareArg (b : Bool) : Reads (bareArg g b) Spells True := by
  unfold bareArg
  dsimp only
  refine reads_of_step ?_
  simp +contextual

lemma reads_bareArgsFor (n : Nat) : ∀ b, Reads (bareArgsFor g b n) Spells True := by
  induction n with
  | zero =>
    intro p
    unfold bareArgsFor
    exact reads_of_step (by simp)
  | succ n ih =>
    intro p
    unfold bareArgsFor
    refine reads_of_step ?_
    simp +contextual

instance reads_fnType (binder : Node) : Reads (fnType g binder) (Continues binder) True := by
  have := reads_bareArgsFor g
  unfold fnType
  refine reads_of_step ?_
  simp +contextual

/-! ### Types -/

instance reads_builtin : Reads builtin (fun _ ks => Closed ks) True := by
  unfold builtin
  refine reads_of_step ?_
  simp +contextual [TokenTree.lexemes, TokenTree.lexemesAll]

instance reads_moreBounds : Reads (moreBounds g) SpellsParts True := by
  have : Reads (do
      let plus ← op "+"
      let b ← objectBound g
      return [plus, b]) SpellsParts True := reads_of_step (by simp)
  unfold moreBounds
  refine reads_of_step ?_
  simp [closesAll_flatten]

lemma reads_moreTypeBounds (n : Nat) : Reads (moreTypeBounds g n) SpellsParts True := by
  induction n with
  | zero =>
    unfold moreTypeBounds
    exact reads_of_step (by simp)
  | succ n ih =>
    unfold moreTypeBounds
    refine reads_of_step ?_
    simp +contextual

@[simp] lemma lexemes_bareObject (bs : List Node) : (bareObject bs).lexemes = Node.lexemesAll bs := by
  simp [bareObject]

@[simp] lemma closes_bareObject (bs : List Node) : (bareObject bs).Closes ↔ Node.ClosesAll bs := by
  simp [bareObject]

@[simp] lemma isAbsent_bareObject (bs : List Node) : (bareObject bs).isAbsent = false := rfl

lemma bracketedBound_spells {first b : Node} (h : bracketedBound first = some b) :
    b.lexemes = (Node.group .paren [first]).lexemes ∧ (first.Closes → b.Closes) := by
  have brackets : ofOp "(" = [.opening .paren] ∧ ofOp ")" = [.closing .paren] := by decide
  unfold bracketedBound at h
  split at h <;> cases h <;> simp [brackets]

/-- A single type between round brackets closes. -/
def ClosesInside (n : Node) : Prop := ∀ first : Node, n = .form .paren [.group .paren [first]] → first.Closes

instance reads_parenContent : Reads (parenContent g)
    (fun r ks => [.opening .paren] ++ ks ++ [.closing .paren] = r.2.lexemes ∧ r.2.isAbsent = false ∧ r.2.Closes ∧
      ClosesInside r.2) True := by
  unfold parenContent
  refine reads_of_step ?_
  simp +contextual [ClosesInside]

instance reads_afterParens (b c : Bool) (n : Node) :
    Reads (afterParens g b c n) (Continues n) (ClosesInside n) := by
  unfold afterParens
  split
  · exact reads_of_step (by simp +contextual)
  · split
    · next first =>
      cases h : bracketedBound first with
      | none => exact reads_of_step (by simp +contextual)
      | some b =>
        refine reads_of_step ?_
        simp +contextual [bracketedBound_spells h, ClosesInside]
    · exact reads_of_step (by simp +contextual)

instance reads_parenType (b : Bool) : Reads (parenType g b) SpellsType True := by
  unfold parenType
  refine reads_of_step ?_
  simp +contextual

instance reads_afterPath (b : Bool) (binder p : Node) : Reads (afterPath g b binder p)
    (fun n ks => n.lexemes = binder.lexemes ++ p.lexemes ++ ks ∧ (binder.Closes → p.Closes → n.Closes) ∧
      ((p.isAbsent = true → p.lexemes = []) → n.isAbsent = true → n.lexemes = []))
    (binder.isAbsent = true → binder.lexemes = []) := by
  have := reads_moreTypeBounds g
  unfold afterPath
  refine reads_of_step ?_
  simp +contextual

instance reads_pathType (b : Bool) : Reads (pathType g b) SpellsType True := by
  unfold pathType
  refine reads_of_step ?_
  simp +contextual

instance reads_unboundType (b : Bool) : Reads (unboundType g b) SpellsType True := by
  unfold unboundType
  dsimp only
  refine reads_of_step ?_
  have star : ofOp "*" = [.mark '*'] := rfl
  simp +contextual [star, closed_cons, Node.ClosesAll.closed]

instance reads_type (b : Bool) : Reads (type g b) SpellsType True := by
  unfold type boundType
  refine reads_of_step ?_
  simp +contextual [Closed.append, Node.Closes.closed]

/-! ### Generics -/

instance reads_generics : Reads (generics g) SpellsType True := by
  unfold generics
  refine reads_of_step ?_
  simp +contextual

/-- Elements of a type and the operators between them. -/
lemma closesAll_of_mem {sep : String} {ns : List Node} (known : sep ∈ Node.typeOps)
    (h : ∀ n ∈ ns, n = .op sep ∨ n.IsType) : Node.ClosesAll ns := by
  rw [Node.closesAll_iff]
  intro n hn
  rcases h n hn with rfl | ⟨-, closes⟩
  · exact Node.closes_op.mpr known
  · exact closes

instance reads_wherePredicate : Reads (wherePredicate g) SpellsType True := by
  have plus : "+" ∈ Node.typeOps := by decide
  unfold wherePredicate
  refine reads_of_step ?_
  simp +contextual [closesAll_of_mem plus]

lemma reads_predicatesFor (n : Nat) : Reads (predicatesFor g n) SpellsParts True := by
  induction n with
  | zero =>
    unfold predicatesFor
    exact reads_of_step (by simp)
  | succ n ih =>
    unfold predicatesFor
    refine reads_of_step ?_
    simp +contextual

instance reads_whereClause : Reads (whereClause g) SpellsType True := by
  have := reads_predicatesFor g
  unfold whereClause
  refine reads_of_step ?_
  simp +contextual

end Parser

end SourceGen
