import SourceGen.Proofs.Syntax.Spacing

/-!
# Parts and their spacing

The grammar decides by parts that it has already read: whether a path has arguments, whether an operand is a
range. None of these questions looks at the spacing of kept tokens, and where a part is rebuilt its kept
tokens are handed on as they are.
-/

namespace SourceGen.Parser

open Node

/-- Whether an expression is a range does not depend on spacing. -/
lemma isRange_unspaced : ∀ n : Node, isRange n.unspaced = isRange n
  | .form f _ => by cases f <;> rfl
  | .leaf _ | .raw _ | .group _ _ | .attr _ | .item _ => rfl

/-- Whether an expression is a comparison does not depend on spacing. -/
lemma isComparison_unspaced : ∀ n : Node, isComparison n.unspaced = isComparison n
  | .form f [] | .form f [_] | .form f [_, _] | .form f (_ :: _ :: _ :: _ :: _) => by cases f <;> rfl
  | .form f [_, o, _] => by
    cases f with
    | binary => exact congrArg (fun p => decide (p = Precedence.comparison)) (operatorPrecedence_unspaced o)
    | _ => rfl
  | .leaf _ | .raw _ | .group _ _ | .attr _ | .item _ => rfl

/-- Whether a field is named by a word does not depend on spacing. -/
lemma isNamedField_unspaced (n : Node) : isNamedField n.unspaced = isNamedField n := by
  cases n <;> rfl

/-- Whether a bound names a trait does not depend on spacing. -/
lemma isTraitBound_unspaced : ∀ n : Node, isTraitBound n.unspaced = isTraitBound n
  | .form f _ => by cases f <;> rfl
  | .leaf _ | .raw _ | .group _ _ | .attr _ | .item _ => rfl

/-- Whether a parameter is variadic does not depend on spacing. -/
lemma isVariadic_unspaced : ∀ n : Node, isVariadic n.unspaced = isVariadic n
  | .form f _ => by cases f <;> rfl
  | .leaf _ | .raw _ | .group _ _ | .attr _ | .item _ => rfl

/-- Whether a type is an unqualified path does not depend on spacing. -/
lemma isPathType_unspaced : ∀ n : Node, isPathType n.unspaced = isPathType n
  | .form f _ => by cases f <;> rfl
  | .leaf _ | .raw _ | .group _ _ | .attr _ | .item _ => rfl

/-- Whether a path is qualified does not depend on spacing. -/
lemma isQualified_unspaced : ∀ n : Node, isQualified n.unspaced = isQualified n
  | .form f _ => by cases f <;> rfl
  | .leaf _ | .raw _ | .group _ _ | .attr _ | .item _ => rfl

/-- Whether a path is a single segment does not depend on spacing. -/
lemma isPlainSegment_unspaced : ∀ n : Node, isPlainSegment n.unspaced = isPlainSegment n
  | .form f ps => by
    by_cases isPath : f = .path
    · subst isPath
      match ps with
      | [] => rfl
      | n :: _ :: _ => simp [isPlainSegment, unspaced, unspacedAll]
      | [.leaf l] => cases l <;> rfl
      | [.raw _] | [.group _ _] | [.attr _] | [.item _] => rfl
      | [.form f ps] =>
        by_cases isSegment : f = .segment
        · subst isSegment
          match ps with
          | [] | [_] => rfl
          | _ :: args :: _ :: _ => simp [isPlainSegment, unspaced, unspacedAll]
          | [_, args] =>
            cases args with
            | form f _ => cases f <;> rfl
            | _ => rfl
        · simp [isPlainSegment, unspaced, unspacedAll, isSegment]
    · simp [isPlainSegment, unspaced, isPath]
  | .leaf _ | .raw _ | .group _ _ | .attr _ | .item _ => rfl

/-- The name and the arguments of a single segment keep their spacing. -/
lemma segmentParts_unspaced : ∀ n : Node, segmentParts n.unspaced = unspacedAll (segmentParts n)
  | .form f ps => by
    by_cases isPath : f = .path
    · subst isPath
      match ps with
      | [] => rfl
      | n :: _ :: _ => simp [segmentParts, unspaced, unspacedAll, absent]
      | [.leaf _] | [.raw _] | [.group _ _] | [.attr _] | [.item _] => rfl
      | [.form f ps] =>
        by_cases isSegment : f = .segment
        · subst isSegment
          match ps with
          | [] | [_] | [_, _] | _ :: _ :: _ :: _ => rfl
        · simp [segmentParts, unspaced, unspacedAll, isSegment, absent]
    · simp [segmentParts, unspaced, unspacedAll, isPath, absent]
  | .leaf _ | .raw _ | .group _ _ | .attr _ | .item _ => rfl

/-- Whether a path has names only does not depend on spacing. -/
lemma isNamesOnly_unspaced : ∀ n : Node, isNamesOnly n.unspaced = isNamesOnly n
  | .form f ps => by
    cases f with
    | path =>
      unfold isNamesOnly
      simp only [unspaced, unspacedAll_eq_map, List.all_map]
      congr
      funext p
      cases p <;> rfl
    | _ => rfl
  | .leaf _ | .raw _ | .group _ _ | .attr _ | .item _ => rfl

/-- Whether angle brackets are empty does not depend on spacing. -/
lemma isEmptyAngled_unspaced : ∀ n : Node, isEmptyAngled n.unspaced = isEmptyAngled n
  | .form f ps => by
    cases f with
    | angled =>
      unfold isEmptyAngled
      simp only [unspaced, unspacedAll_eq_map, List.all_map, Function.comp_def, isOp_unspaced]
    | _ => rfl
  | .leaf _ | .raw _ | .group _ _ | .attr _ | .item _ => rfl

/-- The last part without spacing is the last one of the parts without spacing. -/
lemma getLast?_unspacedAll (ns : List Node) : (unspacedAll ns).getLast? = ns.getLast?.map unspaced := by
  rw [unspacedAll_eq_map, List.getLast?_map]

/-- Whether a path ends without arguments does not depend on spacing. -/
lemma endsPlain_unspaced : ∀ n : Node, endsPlain n.unspaced = endsPlain n
  | .form f ps => by
    rw [unspaced]
    unfold endsPlain
    cases f with
    | path | qualifiedPath =>
      simp only [getLast?_unspacedAll]
      match ps.getLast? with
      | none => rfl
      | some (.leaf l) => cases l <;> rfl
      | some (.raw _) | some (.group _ _) | some (.attr _) | some (.item _) => rfl
      | some (.form f ps) =>
        cases f with
        | segment =>
          match ps with
          | [] | [_] | _ :: _ :: _ :: _ => rfl
          | [_, args] => exact isEmptyAngled_unspaced args
        | _ => rfl
    | _ => rfl
  | .leaf _ | .raw _ | .group _ _ | .attr _ | .item _ => rfl

/-- Arguments that are put onto the last segment of a path keep their spacing. -/
lemma withLastArgs_unspaced (args : Node) :
    ∀ n : Node, withLastArgs args.unspaced n.unspaced = (withLastArgs args n).unspaced
  | .form f ps => by
    have before : (unspacedAll ps).dropLast = unspacedAll ps.dropLast := by
      rw [unspacedAll_eq_map, unspacedAll_eq_map, List.map_dropLast]
    rw [unspaced]
    unfold withLastArgs
    simp only [getLast?_unspacedAll, before]
    match ps.getLast? with
    | none => rfl
    | some (.leaf _) | some (.raw _) | some (.group _ _) | some (.attr _) | some (.item _) =>
      simp [unspaced, unspacedAll_append, unspacedAll]
    | some (.form f ps) =>
      by_cases isSegment : f = .segment
      · subst isSegment
        match ps with
        | [] | [_] | [_, _] | _ :: _ :: _ :: _ => simp [unspaced, unspacedAll_append, unspacedAll]
      · simp [unspaced, unspacedAll_append, unspacedAll, isSegment]
  | .leaf _ | .raw _ | .group _ _ | .attr _ | .item _ => rfl

/-- Parts that are put onto a path keep their spacing. -/
lemma withMore_unspaced (more : List Node) :
    ∀ n : Node, withMore (unspacedAll more) n.unspaced = (withMore more n).unspaced
  | .form f ps => congrArg (form f) (unspacedAll_append ps more).symm
  | .leaf _ | .raw _ | .group _ _ | .attr _ | .item _ => rfl

/-- Whether further segments may follow arguments does not depend on spacing. -/
lemma admitsMoreSegments_unspaced : ∀ n : Node, admitsMoreSegments n.unspaced = admitsMoreSegments n
  | .form f ps => by
    rw [unspaced]
    unfold admitsMoreSegments
    cases f with
    | parenArgs =>
      simp only [getLast?_unspacedAll]
      match ps.getLast? with
      | none => rfl
      | some (.leaf _) | some (.raw _) | some (.group _ _) | some (.attr _) | some (.item _) => rfl
      | some (.form f ps) =>
        by_cases isReturns : f = .returns
        · subst isReturns
          match ps with
          | [] | [_] => rfl
          | _ :: t :: _ :: _ => simp [unspaced, unspacedAll]
          | [_, t] =>
            cases t with
            | form f _ => cases f <;> rfl
            | _ => rfl
        · by_cases isAbsent : f = .absent <;> simp [unspaced, isReturns, isAbsent]
    | _ => rfl
  | .leaf _ | .raw _ | .group _ _ | .attr _ | .item _ => rfl

/-- A first bound that is taken out of its brackets keeps its spacing. -/
lemma bracketedBound_unspaced : ∀ n : Node, bracketedBound n.unspaced = (bracketedBound n).map unspaced
  | .form f ps => by
    by_cases isPath : f = .path
    · subst isPath
      rfl
    · by_cases isObject : f = .traitObject
      · subst isObject
        match ps with
        | [] => rfl
        | .leaf _ :: _ | .raw _ :: _ | .group _ _ :: _ | .attr _ :: _ | .item _ :: _ => rfl
        | [.form f as] => cases f <;> cases as <;> rfl
        | .form f _ :: _ :: _ :: _ => simp [bracketedBound, unspaced, unspacedAll]
        | [.form f (_ :: _), bs] => cases f <;> simp [bracketedBound, unspaced, unspacedAll]
        | [.form f [], bs] =>
          by_cases isAbsent : f = .absent
          · subst isAbsent
            match bs with
            | .leaf _ | .raw _ | .group _ _ | .attr _ | .item _ => rfl
            | .form f ps =>
              by_cases isBounds : f = .bounds
              · subst isBounds
                match ps with
                | [] => rfl
                | [.leaf _] | [.raw _] | [.group _ _] | [.attr _] | [.item _] => rfl
                | [.form f _] =>
                  by_cases isTrait : f = .traitBound <;>
                    simp [bracketedBound, unspaced, unspacedAll, isTrait, Node.op]
                | b :: _ :: _ => simp [bracketedBound, unspaced, unspacedAll]
              · simp [bracketedBound, unspaced, unspacedAll, isBounds]
          · simp [bracketedBound, unspaced, unspacedAll, isAbsent]
      · simp [bracketedBound, unspaced, isPath, isObject]
  | .leaf _ | .raw _ | .group _ _ | .attr _ | .item _ => rfl

/-- Where `self` stands in a receiver does not depend on spacing. -/
lemma selfIndex_unspaced (start : Nat) : ∀ n : Node, selfIndex start n.unspaced = selfIndex start n
  | .form f ps => by
    by_cases isReceiver : f = .receiver
    · subst isReceiver
      match ps with
      | [_, amp, life, mutability, _, _, _] =>
        simp only [unspaced, unspacedAll, selfIndex, List.filter, isAbsent_unspaced]
        cases amp.isAbsent <;> cases life.isAbsent <;> cases mutability.isAbsent <;> rfl
      | [] | [_] | [_, _] | [_, _, _] | [_, _, _, _] | [_, _, _, _, _] | [_, _, _, _, _, _]
      | _ :: _ :: _ :: _ :: _ :: _ :: _ :: _ :: _ => rfl
    · simp [selfIndex, unspaced, isReceiver]
  | .leaf _ | .raw _ | .group _ _ | .attr _ | .item _ => rfl

/-- Whether a type declaration has bounds does not depend on spacing. -/
lemma typeHasBounds_unspacedAll : ∀ ns : List Node, typeHasBounds (unspacedAll ns) = typeHasBounds ns
  | [_, _, _, bs, _, _, _, _] => congrArg not (isAbsent_unspaced bs)
  | [] | [_] | [_, _] | [_, _, _] | [_, _, _, _] | [_, _, _, _, _] | [_, _, _, _, _, _]
  | [_, _, _, _, _, _, _] | _ :: _ :: _ :: _ :: _ :: _ :: _ :: _ :: _ :: _ => rfl

/-- Whether a type declaration has a definition does not depend on spacing. -/
lemma typeHasDefinition_unspacedAll :
    ∀ ns : List Node, typeHasDefinition (unspacedAll ns) = typeHasDefinition ns
  | [_, _, _, _, _, d, _, _] => congrArg not (isAbsent_unspaced d)
  | [] | [_] | [_, _] | [_, _, _] | [_, _, _, _] | [_, _, _, _, _] | [_, _, _, _, _, _]
  | [_, _, _, _, _, _, _] | _ :: _ :: _ :: _ :: _ :: _ :: _ :: _ :: _ :: _ => rfl

/-- Attributes and an expression keep their spacing when they are put together. -/
lemma attributed_unspaced (attrs : List Attr) (e : Node) :
    attributed (attrs.map Attr.unspaced) e.unspaced = (attributed attrs e).unspaced := by
  cases attrs with
  | nil => rfl
  | cons a as =>
    cases e with
    | form f ps =>
      by_cases isKept : f = .kept <;> simp [attributed, unspaced, unspacedAll, unspacedAll_map_attr, isKept]
    | _ => simp [attributed, unspaced, unspacedAll, unspacedAll_map_attr]

/-- Attributes keep their spacing on the way to the leftmost operand. -/
lemma attachAttrs_unspaced (attrs : List Attr) (e : Node) :
    attachAttrs (attrs.map Attr.unspaced) e.unspaced = (attachAttrs attrs e).unspaced := by
  fun_induction attachAttrs attrs e with
  | case1 l ps ih => exact congrArg (fun n => form .assign (n :: unspacedAll ps)) ih
  | case2 l ps ih => exact congrArg (fun n => form .binary (n :: unspacedAll ps)) ih
  | case3 l ps ih => exact congrArg (fun n => form .cast (n :: unspacedAll ps)) ih
  | case4 as e => simp [attachAttrs, unspaced, unspacedAll, unspacedAll_append, unspacedAll_map_attr]
  | case5 e notAssign notBinary notCast notAttributed =>
    -- an operand that the attributes stop at is of the same kind without its spacing
    have stops := attributed_unspaced attrs e
    cases e with
    | form f ps =>
      cases f with
      | assign | binary | cast =>
        cases ps with
        | nil => exact stops
        | cons l ps => simp at notAssign notBinary notCast
      | attributed =>
        match ps with
        | [] => exact stops
        | .leaf _ :: _ | .raw _ :: _ | .group _ _ :: _ | .attr _ :: _ | .item _ :: _ => exact stops
        | [.form f _] | .form f _ :: _ :: _ :: _ => cases f <;> exact stops
        | [.form f _, e] =>
          by_cases isAttrs : f = .attrs
          · subst isAttrs
            exact (notAttributed _ e rfl).elim
          · simpa [attachAttrs, unspaced, unspacedAll, isAttrs] using stops
      | _ => exact stops
    | _ => exact stops

/-- Field accesses by indices keep the spacing of what they start from. -/
lemma indexedFields_unspaced (e dot : Node) (parts : List (List Char)) (first : Bool) :
    indexedFields e.unspaced dot.unspaced parts first = (indexedFields e dot parts first).map unspaced := by
  induction parts generalizing e first with
  | nil => rfl
  | cons p ps ih =>
    unfold indexedFields
    cases tupleIndex? (String.ofList p) with
    | none => rfl
    | some n =>
      cases p with
      | nil => rfl
      | cons c cs =>
        let name := Node.leaf (.literal (toString n))
        cases first with
        | true => exact ih (.form .field [e, dot, name]) false
        | false => exact ih (.form .field [e, .form .phantom [.op "."], .form .phantom [name]]) false

/-- Whether a statement needs a semicolon behind it does not depend on spacing. -/
lemma needsSeparator_unspaced : ∀ n : Node, needsSeparator n.unspaced = needsSeparator n
  | .form f ps => by
    cases f with
    | exprStmt =>
      rcases ps with _ | ⟨e, _ | ⟨semi, _ | _⟩⟩
      case cons.cons.nil => exact congrArg₂ and (isAbsent_unspaced semi) (needsSemicolon_unspaced e)
      all_goals rfl
    | macroStmt =>
      rcases ps with _ | ⟨_, _ | ⟨call, _ | ⟨semi, _ | _⟩⟩⟩
      case cons.cons.cons.nil => exact congrArg₂ (· && !·) (isAbsent_unspaced semi) (isBraceMacro_unspaced call)
      all_goals rfl
    | _ => rfl
  | .leaf _ | .raw _ | .group _ _ | .attr _ | .item _ => rfl

/-! ### Parts that are alike

The same questions, put to two parts that differ in spacing only, have one answer. -/

section Like

variable {n m n' m' : Node} {ns ms : List Node} {as bs : List Attr}

instance like_isRange [h : Like n m] : Like (isRange n) (isRange m) := .map isRange_unspaced h

instance like_isComparison [h : Like n m] : Like (isComparison n) (isComparison m) :=
  .map isComparison_unspaced h

instance like_isNamedField [h : Like n m] : Like (isNamedField n) (isNamedField m) :=
  .map isNamedField_unspaced h

instance like_isVariadic [h : Like n m] : Like (isVariadic n) (isVariadic m) := .map isVariadic_unspaced h

instance like_isQualified [h : Like n m] : Like (isQualified n) (isQualified m) := .map isQualified_unspaced h

instance like_isPathType [h : Like n m] : Like (isPathType n) (isPathType m) := .map isPathType_unspaced h

/-- Of bounds that are alike, both have one that names a trait, or neither has. -/
instance like_anyTraitBound [h : Like ns ms] : Like (ns.any isTraitBound) (ms.any isTraitBound) := by
  refine .map (f := fun ns : List Node => ns.any isTraitBound) (fun ns => ?_) h
  simp only [Spaced.unspaced, List.any_map, Function.comp_def, isTraitBound_unspaced, id]

instance like_isPlainSegment [h : Like n m] : Like (isPlainSegment n) (isPlainSegment m) :=
  .map isPlainSegment_unspaced h

/-- Single segments that are alike have parts that are. -/
instance like_segmentParts [h : Like n m] : Like (segmentParts n) (segmentParts m) :=
  .map (fun n => (segmentParts_unspaced n).trans (unspacedAll_eq_map _)) h

instance like_isNamesOnly [h : Like n m] : Like (isNamesOnly n) (isNamesOnly m) := .map isNamesOnly_unspaced h

instance like_endsPlain [h : Like n m] : Like (endsPlain n) (endsPlain m) := .map endsPlain_unspaced h

/-- Arguments that are alike are put onto paths that are. -/
instance like_withLastArgs [h : Like n m] [h' : Like n' m'] : Like (withLastArgs n n') (withLastArgs m m') where
  eq := by
    have first : n.unspaced = m.unspaced := h.eq
    have second : n'.unspaced = m'.unspaced := h'.eq
    simp only [Spaced.unspaced, ← withLastArgs_unspaced, first, second]

/-- Parts that are alike are put onto paths that are. -/
instance like_withMore [h : Like ns ms] [h' : Like n m] : Like (withMore ns n) (withMore ms m) where
  eq := by
    have second : n.unspaced = m.unspaced := h'.eq
    simp only [Spaced.unspaced, ← withMore_unspaced, unspacedAll_eq h, second]

instance like_admitsMoreSegments [h : Like n m] : Like (admitsMoreSegments n) (admitsMoreSegments m) :=
  .map admitsMoreSegments_unspaced h

/-- Bounds that are alike are taken out of brackets. -/
instance like_bracketedBound [h : Like n m] : Like (bracketedBound n) (bracketedBound m) :=
  .map bracketedBound_unspaced h

instance like_selfIndex {start : Nat} [h : Like n m] : Like (selfIndex start n) (selfIndex start m) :=
  .map (selfIndex_unspaced start) h

instance like_typeHasBounds [h : Like ns ms] : Like (typeHasBounds ns) (typeHasBounds ms) :=
  .map (fun ns => (congrArg typeHasBounds (unspacedAll_eq_map ns).symm).trans (typeHasBounds_unspacedAll ns)) h

instance like_typeHasDefinition [h : Like ns ms] : Like (typeHasDefinition ns) (typeHasDefinition ms) :=
  .map (fun ns => (congrArg typeHasDefinition (unspacedAll_eq_map ns).symm).trans
    (typeHasDefinition_unspacedAll ns)) h

/-- Attributes that are alike are put together with expressions that are. -/
instance like_attributed [h : Like as bs] [h' : Like n m] : Like (attributed as n) (attributed bs m) where
  eq := by
    have first : as.map Attr.unspaced = bs.map Attr.unspaced := h.eq
    have second : n.unspaced = m.unspaced := h'.eq
    simp only [Spaced.unspaced, ← attributed_unspaced, first, second]

/-- Attributes that are alike go to leftmost operands that are. -/
instance like_attachAttrs [h : Like as bs] [h' : Like n m] : Like (attachAttrs as n) (attachAttrs bs m) where
  eq := by
    have first : as.map Attr.unspaced = bs.map Attr.unspaced := h.eq
    have second : n.unspaced = m.unspaced := h'.eq
    simp only [Spaced.unspaced, ← attachAttrs_unspaced, first, second]

/-- Field accesses start from expressions that are alike. -/
instance like_indexedFields {parts : List (List Char)} {first : Bool} [h : Like n m] [h' : Like n' m'] :
    Like (indexedFields n n' parts first) (indexedFields m m' parts first) where
  eq := by
    have left : n.unspaced = m.unspaced := h.eq
    have right : n'.unspaced = m'.unspaced := h'.eq
    simp only [Spaced.unspaced, ← indexedFields_unspaced, left, right]

instance like_needsSeparator [h : Like n m] : Like (needsSeparator n) (needsSeparator m) :=
  .map needsSeparator_unspaced h

end Like

end SourceGen.Parser
