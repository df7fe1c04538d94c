import SourceGen.Proofs.Parser.Alike

/-!
# Paths and types

The parsers of paths, attributes, types and generics take no notice of layout, if the parsers that they are
written over do not.
-/

namespace SourceGen

-- the rules for a parser with many alternatives make a large instance
set_option synthInstance.maxSize 100000000

/-- A grammar none of whose parsers takes notice of layout. -/
class Grammar.Blind (g : Grammar) : Prop where
  type : ∀ b, Parser.Alike (g.type b) (g.type b)
  bound : Parser.Alike g.bound g.bound
  pattern : Parser.Alike g.pattern g.pattern
  expr : ∀ b, Parser.Alike (g.expr b) (g.expr b)
  operand : ∀ b, Parser.Alike (g.operand b) (g.operand b)
  earlyExpr : Parser.Alike g.earlyExpr g.earlyExpr
  operators : ∀ b p {e e' : Node}, Like e e' → Parser.Alike (g.operators b p e) (g.operators b p e')
  statements : ∀ b, Parser.Alike (g.statements b) (g.statements b)
  item : Parser.Alike g.item g.item

namespace Parser

variable (g : Grammar) [blind : g.Blind]

-- what such a grammar offers is found by its instances
instance alike_type_of (b : Bool) : Alike (g.type b) (g.type b) := blind.type b
instance alike_bound_of : Alike g.bound g.bound := blind.bound
instance alike_pattern_of : Alike g.pattern g.pattern := blind.pattern
instance alike_expr_of (b : Bool) : Alike (g.expr b) (g.expr b) := blind.expr b
instance alike_operand_of (b : Bool) : Alike (g.operand b) (g.operand b) := blind.operand b
instance alike_earlyExpr_of : Alike g.earlyExpr g.earlyExpr := blind.earlyExpr
instance alike_operators_of (b : Bool) (p : Precedence) {e e' : Node} [like : Like e e'] :
    Alike (g.operators b p e) (g.operators b p e') := blind.operators b p like
instance alike_statements_of (b : Bool) : Alike (g.statements b) (g.statements b) := blind.statements b
instance alike_item_of : Alike g.item g.item := blind.item

/-! ### Paths -/

/-- A path of names is read alike, name by name. -/
instance alike_names {l : Look} [l.Blind] {m n : Nat} [h : Like m n] :
    Alike (namePath.names l m) (namePath.names l n) := by
  obtain rfl := h.same
  clear h
  induction m with
  | zero =>
    unfold namePath.names
    infer_instance
  | succ n ih =>
    unfold namePath.names
    infer_instance

/-- A path with or without a leading `::` is read alike. -/
instance alike_namePath : Alike namePath namePath := by
  unfold namePath
  dsimp only
  infer_instance

/-- A block without label is read alike. -/
instance alike_plainBlock : Alike (plainBlock g) (plainBlock g) := by
  unfold plainBlock
  infer_instance

/-- A constant as a generic argument is read alike. -/
instance alike_constArgument : Alike (constArgument g) (constArgument g) := by
  unfold constArgument
  infer_instance

/-- A return type is read alike, or is missing in both. -/
instance alike_returns (b : Bool) : Alike (returns g b) (returns g b) := by
  unfold returns
  infer_instance

/-- Arguments of function traits are read alike. -/
instance alike_parenArgs : Alike (parenArgs g) (parenArgs g) := by
  unfold parenArgs
  infer_instance

/-- Whether a bound list goes on does not depend on layout. -/
instance blind_startsBound (b : Bool) : (startsBound b).Blind := by
  unfold startsBound
  infer_instance

/-- Whether angle brackets hold parameters does not depend on layout. -/
instance blind_startsGenerics : startsGenerics.Blind := by
  unfold startsGenerics
  infer_instance

/-- A binder is read alike if its lifetimes are. -/
instance alike_forLifetimes {p q : Parser Node} [Alike p q] : Alike (forLifetimes p) (forLifetimes q) := by
  unfold forLifetimes
  infer_instance

/-- The lifetimes that a bound may capture are read alike. -/
instance alike_preciseCapture : Alike preciseCapture preciseCapture := by
  unfold preciseCapture
  infer_instance

/-- A generic argument is read alike. -/
instance alike_genericArgument : Alike (genericArgument g) (genericArgument g) := by
  unfold genericArgument
  infer_instance

/-- Generic arguments in angle brackets are read alike. -/
instance alike_angled : Alike (angled g) (angled g) := by
  unfold angled
  infer_instance

/-- A segment of a path is read alike. -/
instance alike_segment (b : Bool) : Alike (segment g b) (segment g b) := by
  unfold segment
  infer_instance

/-- Whether a further segment follows does not depend on layout. -/
instance blind_startsSegment : startsSegment.Blind := by
  unfold startsSegment
  infer_instance

/-- The segments after the first one are read alike. -/
instance alike_moreSegments (b : Bool) : Alike (moreSegments g b) (moreSegments g b) := by
  unfold moreSegments
  infer_instance

/-- A path is read alike. -/
instance alike_path (b : Bool) : Alike (path g b) (path g b) := by
  unfold path
  infer_instance

/-- What follows the type of a qualified path is read alike. -/
instance alike_qualifiedRest (b : Bool) : Alike (qualifiedRest g b) (qualifiedRest g b) := by
  unfold qualifiedRest
  infer_instance

/-- A path is read alike, qualified or not. -/
instance alike_anyPath (b : Bool) : Alike (anyPath g b) (anyPath g b) := by
  unfold anyPath
  infer_instance

/-- Whether arguments in round brackets follow a path does not depend on layout. -/
instance blind_startsParenArgs : startsParenArgs.Blind := by
  unfold startsParenArgs
  infer_instance

/-- A macro call is read alike after a path that is. -/
instance alike_macroCall {n m : Node} [Like n m] : Alike (macroCall n) (macroCall m) := by
  unfold macroCall
  infer_instance

/-- Arguments in round brackets after a path are read alike, and a `::` before them is dropped in both. -/
instance alike_pathParenArgs : Alike (pathParenArgs g) (pathParenArgs g) := by
  unfold pathParenArgs
  refine .andThen inferInstance fun colons => .andThen inferInstance fun args => ?_
  have first := colons.like.heads
  have second := args.like.heads
  generalize colons.left = n, colons.right = m at first
  generalize args.left = n', args.right = m' at second
  have plain : Alike (pure n') (pure m') := by cases second <;> infer_instance
  -- only a `::` that was read is dropped, and only before arguments that were read
  cases first with
  | leaf l =>
    cases second with
    | form f parts => cases f <;> infer_instance
    | _ => exact plain
  | _ => exact plain

/-! ### Attributes, bounds and generics -/

/-- The path of an attribute is read alike. -/
instance alike_attrPath : Alike attrPath attrPath := by
  unfold attrPath
  infer_instance

/-- The arguments of an attribute are read alike: an expression, or tokens that are kept. -/
instance alike_attrArgs : Alike (attrArgs g) (attrArgs g) := by
  unfold attrArgs
  refine .andThenSame inferInstance fun isGroup => .branch inferInstance ?_
  refine .andThenSame inferInstance fun isValue => .branch ?_ inferInstance
  refine .andThen inferInstance fun eq => .andThenSame (@alike_sees _ ⟨fun ts => ?_⟩) inferInstance
  -- a lone literal may have a sign, and the test looks at the tokens only
  match ts with
  | [] => rfl
  | [t] => cases t <;> exact Look.blind_literal.eq [_]
  | [t, u] =>
    cases t with
    | punct c joint => exact Look.blind_literal.eq [.punct c joint, u]
    | _ => rfl
  | t :: _ :: _ :: _ => cases t <;> rfl

/-- An inner attribute is read alike. -/
instance alike_innerAttr : Alike (innerAttr g) (innerAttr g) := by
  unfold innerAttr
  infer_instance

/-- An outer attribute is read alike. -/
instance alike_outerAttr : Alike (outerAttr g) (outerAttr g) := by
  unfold outerAttr
  infer_instance

/-- Inner attributes are read alike. -/
instance alike_innerAttrs : Alike (innerAttrs g) (innerAttrs g) := by
  unfold innerAttrs
  infer_instance

/-- All attributes before an item are read alike. -/
instance alike_outerAttrList : Alike (outerAttrList g) (outerAttrList g) := by
  unfold outerAttrList
  infer_instance

/-- Outer attributes are read alike, without the inner ones among them. -/
instance alike_outerAttrs : Alike (outerAttrs g) (outerAttrs g) := by
  unfold outerAttrs
  infer_instance

/-- The mark before a trait bound is read alike, or is missing in both. -/
instance alike_boundModifier : Alike boundModifier boundModifier := by
  unfold boundModifier
  infer_instance

/-- A bound has `const` before it in both readings or in none. -/
instance alike_constCondition (b : Bool) : Alike (constCondition b) (constCondition b) := by
  unfold constCondition
  infer_instance

/-- A generic parameter is read alike. -/
instance alike_genericParam (b : Bool) : Alike (genericParam g b) (genericParam g b) := by
  unfold genericParam
  infer_instance

/-- The path of a trait bound is read alike. -/
instance alike_boundPath : Alike (boundPath g) (boundPath g) := by
  unfold boundPath
  infer_instance

/-- A trait bound is read alike, or kept as tokens in both readings. -/
instance alike_traitBound (b : Bool) : Alike (traitBound g b) (traitBound g b) := by
  unfold traitBound
  infer_instance

/-- A bound of a type is read alike, whatever the flags admit. -/
instance alike_boundWith (b c : Bool) : Alike (boundWith g b c) (boundWith g b c) := by
  unfold boundWith
  infer_instance

/-- A bound of a type parameter is read alike. -/
instance alike_bound : Alike (bound g) (bound g) := by
  unfold bound
  infer_instance

/-- A bound of a trait object is read alike. -/
instance alike_objectBound : Alike (objectBound g) (objectBound g) := by
  unfold objectBound
  infer_instance

/-- Bounds are read alike, one after the other. -/
instance alike_boundsAfter (b c d : Bool) {m n : Nat} [h : Like m n] :
    Alike (boundsAfter g b c d m) (boundsAfter g b c d n) := by
  obtain rfl := h.same
  clear h
  induction m with
  | zero =>
    unfold boundsAfter
    infer_instance
  | succ n ih =>
    unfold boundsAfter
    infer_instance

/-- The bounds of an `impl` type are read alike. -/
instance alike_implBounds (b : Bool) : Alike (implBounds g b) (implBounds g b) where
  run := fun {s t} h => (alike_boundsAfter g b true true (m := s.rest.length + 1) (n := t.rest.length + 1)).run h

/-- The bounds of a trait object are read alike. -/
instance alike_objectBounds (b : Bool) : Alike (objectBounds g b) (objectBounds g b) where
  run := fun {s t} h => (alike_boundsAfter g b false false (m := s.rest.length + 1) (n := t.rest.length + 1)).run h

/-- Arguments in round brackets and segments after them are put alike onto a path. -/
instance alike_withParenArgs {m n : Nat} [h : Like m n] {p q : Node} [like : Like p q] :
    Alike (withParenArgs g m p) (withParenArgs g n q) := by
  obtain rfl := h.same
  clear h
  induction m generalizing p q with
  | zero =>
    unfold withParenArgs
    infer_instance
  | succ n ih =>
    unfold withParenArgs
    infer_instance

/-- A path that names a type is read alike. -/
instance alike_namedType {p p' : Parser Node} [Alike p p'] : Alike (namedType g p) (namedType g p') := by
  unfold namedType
  infer_instance

/-- Whether a function type begins does not depend on layout. -/
instance blind_startsFnType : startsFnType.Blind := by
  unfold startsFnType
  infer_instance

/-- A calling convention is read alike. -/
instance alike_abi : Alike abi abi := by
  unfold abi
  infer_instance

/-- Whether a parameter of a function type has a name does not depend on layout. -/
instance blind_startsNamedArg : startsNamedArg.Blind := by
  unfold startsNamedArg
  infer_instance

/-- The name of a parameter of a function type is read alike. -/
instance alike_argName : Alike argName argName := by
  unfold argName
  infer_instance

/-- A parameter of a function type is read alike. -/
instance alike_bareArg (b : Bool) : Alike (bareArg g b) (bareArg g b) := by
  unfold bareArg
  infer_instance

/-- The parameters of a function type are read alike, one after the other. -/
instance alike_bareArgsFor (b : Bool) {m n : Nat} [h : Like m n] :
    Alike (bareArgsFor g b m) (bareArgsFor g b n) := by
  obtain rfl := h.same
  clear h
  induction m generalizing b with
  | zero =>
    unfold bareArgsFor
    infer_instance
  | succ n ih =>
    unfold bareArgsFor
    infer_instance

/-- A function type is read alike after a binder that is. -/
instance alike_fnType {n m : Node} [Like n m] : Alike (fnType g n) (fnType g m) := by
  unfold fnType
  infer_instance

/-- Whether a path starts that is neither rooted nor qualified does not depend on layout. -/
instance blind_startsName : startsName.Blind := by
  unfold startsName
  infer_instance

/-- Whether a path type starts does not depend on layout. -/
instance blind_startsPath : startsPath.Blind := by
  unfold startsPath
  infer_instance

/-- Whether built-in syntax starts does not depend on layout. -/
instance blind_startsBuiltin : startsBuiltin.Blind := by
  unfold startsBuiltin
  infer_instance

/-- Built-in syntax is kept alike. -/
instance alike_builtin : Alike builtin builtin := by
  unfold builtin
  infer_instance

/-- The bounds after a first one are read alike. -/
instance alike_moreBounds : Alike (moreBounds g) (moreBounds g) := by
  unfold moreBounds
  infer_instance

/-- The bounds after a path are read alike, one after the other. -/
instance alike_moreTypeBounds {m n : Nat} [h : Like m n] :
    Alike (moreTypeBounds g m) (moreTypeBounds g n) := by
  obtain rfl := h.same
  clear h
  induction m with
  | zero =>
    unfold moreTypeBounds
    infer_instance
  | succ n ih =>
    unfold moreTypeBounds
    infer_instance

/-- A list of bounds without `dyn` is the same type for bounds that are alike. -/
instance like_bareObject {ns ms : List Node} [Like ns ms] : Like (bareObject ns) (bareObject ms) := by
  unfold bareObject
  infer_instance

/-- What stands between round brackets at the start of a type is read alike. -/
instance alike_parenContent : Alike (parenContent g) (parenContent g) := by
  unfold parenContent
  infer_instance

/-- A type in round brackets is read alike: as a tuple, a list of bounds or a type. -/
instance alike_parenType (b : Bool) : Alike (parenType g b) (parenType g b) := by
  unfold parenType afterParens
  refine @Alike.insideThen _ _ _ _ _ _ _ _ _ inferInstance fun r => ?_
  obtain ⟨⟨isBound, n⟩, ⟨_, m⟩, like⟩ := r
  obtain rfl : isBound = _ := (Like.fst (h := like)).same
  have node : Like n m := Like.snd (h := like)
  have plain : Alike (pure n) (pure m) := inferInstance
  refine .branch inferInstance ?_
  -- a single type between the brackets is looked at again, since a `+` after them makes it a bound
  cases node.heads with
  | form f parts =>
    cases f with
    | paren =>
      cases parts.rows with
      | nil => exact plain
      | cons part others =>
        cases part.heads with
        | group d inner =>
          cases d with
          | paren =>
            cases inner.rows with
            | nil => exact plain
            | @cons first first' _ _ one more =>
              cases more.rows with
              | cons _ _ => exact plain
              | nil =>
                cases others.rows with
                | cons _ _ => exact plain
                | nil =>
                  refine .andThenSame inferInstance fun plus => .branch ?_ plain
                  have bounds : Like (bracketedBound first) (bracketedBound first') := inferInstance
                  have options := bounds.options
                  generalize bracketedBound first = x, bracketedBound first' = y at options
                  cases options <;> infer_instance
          | _ => exact plain
        | _ => exact plain
    | _ => exact plain
  | _ => exact plain

/-- A type that starts with a path is read alike after a binder and a path that are. -/
instance alike_afterPath (b : Bool) {n m p q : Node} [Like n m] [Like p q] :
    Alike (afterPath g b n p) (afterPath g b m q) := by
  unfold afterPath
  infer_instance

/-- A type that starts with a path is read alike. -/
instance alike_pathType (b : Bool) : Alike (pathType g b) (pathType g b) := by
  unfold pathType
  infer_instance

/-- A type without binder is read alike. -/
instance alike_unboundType (b : Bool) : Alike (unboundType g b) (unboundType g b) := by
  unfold unboundType
  infer_instance

/-- A type is read alike. -/
instance alike_type (b : Bool) : Alike (type g b) (type g b) := by
  unfold type boundType
  infer_instance

/-- Generic parameters are read alike. -/
instance alike_generics : Alike (generics g) (generics g) := by
  unfold generics
  infer_instance

/-- Whether the bounds of a predicate end does not depend on layout. -/
instance blind_endsPredicate : endsPredicate.Blind := by
  unfold endsPredicate
  infer_instance

/-- A predicate of a `where` clause is read alike. -/
instance alike_wherePredicate : Alike (wherePredicate g) (wherePredicate g) := by
  unfold wherePredicate
  infer_instance

/-- The predicates of a `where` clause are read alike, one after the other. -/
instance alike_predicatesFor {m n : Nat} [h : Like m n] :
    Alike (predicatesFor g m) (predicatesFor g n) := by
  obtain rfl := h.same
  clear h
  induction m with
  | zero =>
    unfold predicatesFor
    infer_instance
  | succ n ih =>
    unfold predicatesFor
    infer_instance

/-- A `where` clause is read alike. -/
instance alike_whereClause : Alike (whereClause g) (whereClause g) := by
  unfold whereClause
  infer_instance

end Parser

end SourceGen
