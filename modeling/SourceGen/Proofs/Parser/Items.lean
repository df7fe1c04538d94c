import SourceGen.Proofs.Parser.Exprs
import SourceGen.Syntax.Parser.File

/-!
# Items, statements and files

The parsers of items and statements take no notice of layout, and so neither does the whole grammar, up to
any nesting depth (`grammar_blind`). A text is parsed alike however it is laid out (`alike_file`).
-/

namespace SourceGen.Parser

-- the rules for a parser with many alternatives make a large instance
set_option synthInstance.maxSize 100000000

variable (g : Grammar) [blind : g.Blind]

/-! ### Signatures -/

/-- The scope of a visibility is read alike if it is a word. -/
instance alike_wordScope : Alike wordScope wordScope := by
  unfold wordScope
  infer_instance

/-- The scope of a visibility is read alike if it is a path. -/
instance alike_pathScope : Alike pathScope pathScope := by
  unfold pathScope
  infer_instance

/-- A visibility is read alike. -/
instance alike_visibility : Alike visibility visibility := by
  have inScope : Look.Blind fun ts => match ts with
      | .group _ inner :: _ => Look.word "in" inner
      | _ => false :=
    .ofHead fun t _ => by
      cases t with
      | group d inner => exact (Look.blind_word "in").eq inner
      | _ => rfl
  unfold visibility
  refine .andThenSame inferInstance fun isPub => .branch ?_ inferInstance
  refine .andThen inferInstance fun _ => .andThenSame inferInstance fun hasParens => .branch ?_ inferInstance
  refine @Alike.bind_option _ _ _ _ _ _ _ _ inferInstance inferInstance ?_
  exact .andThenSame (@alike_sees _ inScope) inferInstance

/-- A visibility that is a part of a declaration is read alike. -/
instance alike_visibilityPart : Alike visibilityPart visibilityPart := by
  unfold visibilityPart
  infer_instance

/-- A receiver is read alike after attributes that are. -/
instance alike_receiver {e e' : Node} [Like e e'] : Alike (receiver g e) (receiver g e') := by
  unfold receiver
  infer_instance

/-- A parameter is read alike after attributes that are. -/
instance alike_parameter {e e' : Node} [Like e e'] : Alike (parameter g e) (parameter g e') := by
  unfold parameter
  infer_instance

/-- The parameters of a function are read alike, one after the other. -/
instance alike_parametersFor (k : Nat) {m n : Nat} [h : Like m n] :
    Alike (parametersFor g k m) (parametersFor g k n) := by
  obtain rfl := h.same
  clear h
  induction m generalizing k with
  | zero =>
    unfold parametersFor
    infer_instance
  | succ n ih =>
    unfold parametersFor
    infer_instance

/-- A signature is read alike. -/
instance alike_signature (b : Bool) : Alike (signature g b) (signature g b) := by
  unfold signature
  infer_instance

/-- Whether a signature starts is found out alike. -/
instance alike_startsSignature (b : Bool) : Alike (startsSignature b) (startsSignature b) := by
  unfold startsSignature
  infer_instance

/-! ### Members -/

/-- Whether a macro path starts does not depend on layout. -/
instance blind_startsMacroPath : startsMacroPath.Blind := by
  unfold startsMacroPath
  infer_instance

/-- A macro call as a member is read alike after attributes that are. -/
instance alike_macroMember {e e' : Node} [Like e e'] : Alike (macroMember e) (macroMember e') := by
  unfold macroMember
  infer_instance

/-- The initial value of a local declaration is read alike. -/
instance alike_initialValue : Alike (initialValue g) (initialValue g) := by
  unfold initialValue
  infer_instance

/-- A name or `_` is read alike. -/
instance alike_nameOrWild : Alike nameOrWild nameOrWild := by
  unfold nameOrWild
  infer_instance

/-- A constant is read alike after its qualifiers. -/
instance alike_constRest : Alike (constRest g) (constRest g) := by
  unfold constRest
  infer_instance

/-- Whether the bounds of an associated type end does not depend on layout. -/
instance blind_endsTypeBounds : endsTypeBounds.Blind := by
  unfold endsTypeBounds
  infer_instance

/-- Bounds up to a test that takes no notice of layout are read alike, one after the other. -/
instance alike_strictBoundsFor {p q : Parser Node} [Alike p q] {l : Look} [l.Blind] {m n : Nat} [h : Like m n] :
    Alike (strictBoundsFor p l m) (strictBoundsFor q l n) := by
  obtain rfl := h.same
  clear h
  induction m with
  | zero =>
    unfold strictBoundsFor
    infer_instance
  | succ n ih =>
    unfold strictBoundsFor
    infer_instance

/-- A colon and bounds are read alike, or are missing in both. -/
instance alike_colonBounds {l : Look} [l.Blind] : Alike (colonBounds g l) (colonBounds g l) := by
  unfold colonBounds
  infer_instance

/-- The definition of a type is read alike. -/
instance alike_definition : Alike (definition g) (definition g) := by
  unfold definition
  infer_instance

/-- A type declaration is read alike after its qualifiers. -/
instance alike_typeRest (b c : Bool) : Alike (typeRest g b c) (typeRest g b c) := by
  unfold typeRest
  infer_instance

/-- A method with attributes is the same item for parts that are alike. -/
instance like_methodItem {as bs : List Attr} {v : Visibility} {name : String} {ns ms : List Node}
    [Like as bs] [Like ns ms] :
    Like (methodItem as v name ns) (methodItem bs v name ms) := by
  unfold methodItem
  infer_instance

/-- A method of a trait is read alike. -/
instance alike_traitMethod {as bs : List Attr} [Like as bs] : Alike (traitMethod g as) (traitMethod g bs) := by
  unfold traitMethod
  infer_instance

/-- A member of a trait is read alike. -/
instance alike_traitMember : Alike (traitMember g) (traitMember g) := by
  unfold traitMember
  infer_instance

/-- A member of an implementation is read alike. -/
instance alike_implMember : Alike (implMember g) (implMember g) := by
  unfold implMember
  infer_instance

/-- A member of a foreign block is read alike. -/
instance alike_foreignMember : Alike (foreignMember g) (foreignMember g) := by
  unfold foreignMember
  infer_instance

/-! ### Items -/

/-- The trees of an import list are read alike, one after the other. -/
instance alike_useTreesFor {p q : Parser (Option UseTree)} [Alike p q] {m n : Nat} [h : Like m n] :
    Alike (useTreesFor p m) (useTreesFor q n) := by
  obtain rfl := h.same
  clear h
  induction m with
  | zero =>
    unfold useTreesFor
    infer_instance
  | succ n ih =>
    unfold useTreesFor
    infer_instance

/-- The trees of a group are read alike. -/
instance alike_useTrees {p q : Parser (Option UseTree)} [Alike p q] : Alike (useTrees p) (useTrees q) where
  run := fun {s t} h => (alike_useTreesFor (m := s.rest.length + 1) (n := t.rest.length + 1)).run h

/-- A use tree is read alike, as deep as it may be. -/
instance alike_useTreeFor {b c : Bool} [like : Like b c] {m n : Nat} [h : Like m n] :
    Alike (useTreeFor b m) (useTreeFor c n) := by
  obtain rfl := h.same
  obtain rfl := like.same
  clear h like
  induction m generalizing b with
  | zero =>
    unfold useTreeFor
    infer_instance
  | succ n ih =>
    have ih {b c : Bool} [like : Like b c] : Alike (useTreeFor b n) (useTreeFor c n) := by
      rw [like.same]
      exact ih
    unfold useTreeFor
    refine .andThenSame inferInstance fun isName => .branch inferInstance ?_
    refine .andThenSame inferInstance fun isGlob => .branch inferInstance ?_
    refine .andThenSame inferInstance fun isGroup => .branch ?_ inferInstance
    exact .andThenSame inferInstance fun trees => inferInstance

/-- A use tree is read alike. -/
instance alike_useTree {b c : Bool} [Like b c] : Alike (useTree b) (useTree c) where
  run := fun {s t} h =>
    (alike_useTreeFor (m := TokenTree.sizeAll s.rest + 1) (n := TokenTree.sizeAll t.rest + 1)).run h

/-- An import is read alike, or not modelled in both readings. -/
instance alike_useDecl (b : Bool) : Alike (useDecl b) (useDecl b) := by
  unfold useDecl
  infer_instance

/-- The declaration of another crate is read alike. -/
instance alike_externCrate : Alike externCrate externCrate := by
  unfold externCrate
  infer_instance

/-- A foreign block is read alike. -/
instance alike_foreignBlock : Alike (foreignBlock g) (foreignBlock g) := by
  unfold foreignBlock
  infer_instance

/-- A module is read alike. -/
instance alike_moduleDecl : Alike (moduleDecl g) (moduleDecl g) := by
  unfold moduleDecl
  infer_instance

/-- A field with a name is read alike if the fields inside are. -/
instance alike_namedField {p q : Parser Node} [Alike p q] : Alike (namedField g p) (namedField g q) := by
  unfold namedField
  infer_instance

/-- Fields between braces are read alike, as deep as they may be. -/
instance alike_namedFieldsFor {m n : Nat} [h : Like m n] :
    Alike (namedFieldsFor g m) (namedFieldsFor g n) := by
  obtain rfl := h.same
  clear h
  induction m with
  | zero =>
    unfold namedFieldsFor
    infer_instance
  | succ n ih =>
    unfold namedFieldsFor
    infer_instance

/-- Fields between braces are read alike. -/
instance alike_namedFields : Alike (namedFields g) (namedFields g) where
  run := fun {s t} h =>
    (alike_namedFieldsFor g (m := TokenTree.sizeAll s.rest + 1) (n := TokenTree.sizeAll t.rest + 1)).run h

/-- Fields between round brackets are read alike. -/
instance alike_unnamedFields : Alike (unnamedFields g) (unnamedFields g) := by
  unfold unnamedFields
  infer_instance

/-- A `struct` is read alike. -/
instance alike_structDecl : Alike (structDecl g) (structDecl g) := by
  unfold structDecl
  infer_instance

/-- A variant is read alike. -/
instance alike_variant : Alike (variant g) (variant g) := by
  unfold variant
  infer_instance

/-- An `enum` is read alike. -/
instance alike_enumDecl : Alike (enumDecl g) (enumDecl g) := by
  unfold enumDecl
  infer_instance

/-- A `union` is read alike. -/
instance alike_unionDecl : Alike (unionDecl g) (unionDecl g) := by
  unfold unionDecl
  infer_instance

/-- Whether supertraits end does not depend on layout. -/
instance blind_endsSupertraits : endsSupertraits.Blind := by
  unfold endsSupertraits
  infer_instance

/-- A trait is read alike. -/
instance alike_traitDecl : Alike (traitDecl g) (traitDecl g) := by
  unfold traitDecl
  infer_instance

/-- A trait or an alias of one is read alike. -/
instance alike_traitOrAlias : Alike (traitOrAlias g) (traitOrAlias g) := by
  unfold traitOrAlias
  infer_instance

/-- The mark of a constant implementation is read alike. -/
instance alike_constMark : Alike constMark constMark := by
  unfold constMark
  infer_instance

/-- What an implementation is for is read alike. -/
instance alike_implTarget : Alike (implTarget g) (implTarget g) := by
  unfold implTarget
  infer_instance

/-- An implementation is read alike. -/
instance alike_implDecl : Alike (implDecl g) (implDecl g) := by
  unfold implDecl
  infer_instance

/-- A macro call as an item is read alike. -/
instance alike_macroDecl : Alike macroDecl macroDecl := by
  unfold macroDecl
  infer_instance

/-- A macro definition is read alike. -/
instance alike_macroDefinition : Alike macroDefinition macroDefinition := by
  unfold macroDefinition
  infer_instance

/-- The tokens since inputs that are alike are kept alike. -/
instance alike_keepFrom {s t : Input} [Like s t] : Alike (keepFrom s) (keepFrom t) := by
  unfold keepFrom
  infer_instance

/-- What follows a visibility is looked at alike. -/
instance alike_afterVisibility {l : Look} [l.Blind] : Alike (afterVisibility l) (afterVisibility l) := by
  unfold afterVisibility
  infer_instance

section Item

variable {s t : Input} {as bs : List Attr} [Like s t] [Like as bs]

/-- A declaration with its visibility is read alike if the declaration is. -/
instance alike_plainItem {p q : Parser Decl} [Alike p q] : Alike (plainItem as p) (plainItem bs q) := by
  unfold plainItem
  infer_instance

/-- A declaration with inner attributes is read alike if the declaration is. -/
instance alike_innerItem {p q : Parser (Decl × List Attr)} [Alike p q] : Alike (innerItem as p) (innerItem bs q) := by
  unfold innerItem
  infer_instance

/-- A function is read alike, or kept in both readings. -/
instance alike_fnItem : Alike (fnItem g s as) (fnItem g t bs) := by
  unfold fnItem
  infer_instance

/-- An item that begins with `extern` is read alike. -/
instance alike_externItem : Alike (externItem g as) (externItem g bs) := by
  unfold externItem
  infer_instance

/-- An import is read alike, or kept in both readings. -/
instance alike_importItem : Alike (importItem s as) (importItem t bs) := by
  unfold importItem
  infer_instance

/-- A static variable is read alike, or kept in both readings. -/
instance alike_staticItem : Alike (staticItem g s as) (staticItem g t bs) := by
  unfold staticItem
  infer_instance

/-- A constant is read alike, or kept in both readings. -/
instance alike_constItem : Alike (constItem g s as) (constItem g t bs) := by
  unfold constItem
  refine .andThenSame inferInstance fun vis => .andThen inferInstance fun r => ?_
  -- the name of a constant is taken from its second token before it is parsed
  have heads := r.heads
  generalize r.left.rest = ts, r.right.rest = us at heads
  cases heads with
  | nil => infer_instance
  | word _ rest | lifetime _ rest | literal _ rest | punct _ _ _ rest | group _ _ rest =>
    cases TokenTree.heads_of_relax_eq rest <;> infer_instance

/-- An implementation is read alike, or kept in both readings. -/
instance alike_implItem : Alike (implItem g s as) (implItem g t bs) := by
  unfold implItem
  infer_instance

/-- An item that begins with `unsafe` is read alike. -/
instance alike_unsafeItem : Alike (unsafeItem g s as) (unsafeItem g t bs) := by
  unfold unsafeItem
  infer_instance

/-- A type alias is read alike, or kept in both readings. -/
instance alike_typeItem : Alike (typeItem g s as) (typeItem g t bs) := by
  unfold typeItem
  infer_instance

/-- An item is read alike after its attributes. -/
instance alike_itemAfter : Alike (itemAfter g s as) (itemAfter g t bs) := by
  unfold itemAfter
  infer_instance

end Item

/-- An item is read alike. -/
instance alike_item : Alike (item g) (item g) := by
  unfold item
  infer_instance

/-! ### Statements -/

/-- A local declaration is read alike. -/
instance alike_letStmt {as bs : List Attr} [Like as bs] : Alike (letStmt g as) (letStmt g bs) := by
  unfold letStmt
  infer_instance

/-- Whether an item starts does not depend on layout. -/
instance blind_startsItem : startsItem.Blind := by
  unfold startsItem
  dsimp only
  infer_instance

/-- What a macro path leads to is found out alike. -/
instance alike_macroStart : Alike macroStart macroStart where
  run := fun {s t} h => by
    have path := alike_namePath.run h
    unfold macroStart
    generalize namePath s = x, namePath t = y at path
    cases path with
    | error _ => exact .ok (.refl MacroStart.none) h
    | ok _ rest =>
      dsimp only
      rw [Input.look_eq (Look.op "!") rest, Input.look_eq (Look.second Look.ident) rest,
        Input.look_eq (Look.second (Look.word "try")) rest, Input.look_eq (Look.second Look.braces) rest,
        Input.look_eq (Look.third (Look.op ".")) rest, Input.look_eq (Look.third (Look.op "..")) rest,
        Input.look_eq (Look.third (Look.op "?")) rest]
      split_ifs <;> exact .ok (.refl _) h

/-- An expression as a statement is read alike. -/
instance alike_exprStmt {as bs : List Attr} [Like as bs] : Alike (exprStmt g as) (exprStmt g bs) := by
  unfold exprStmt
  refine .andThen inferInstance fun e => ?_
  dsimp only
  refine .andThen inferInstance fun semi => ?_
  have stmt : Like (if as.isEmpty = true then e.left else attachAttrs as e.left)
    (if bs.isEmpty = true then e.right else attachAttrs bs e.right) := inferInstance
  generalize (if as.isEmpty = true then e.left else attachAttrs as e.left) = n at stmt
  generalize (if bs.isEmpty = true then e.right else attachAttrs bs e.right) = m at stmt
  have plain : Alike (pure (Node.form .exprStmt [n, semi.left]))
    (pure (Node.form .exprStmt [m, semi.right])) := inferInstance
  -- only the call of a macro, bare or under attributes, becomes another statement
  cases stmt.heads with
  | form f parts =>
    cases f with
    | macroCall => infer_instance
    | attributed =>
      cases parts.rows with
      | nil => exact plain
      | cons attrs rest =>
        cases rest.rows with
        | nil => exact plain
        | cons inner rest' =>
          cases rest'.rows with
          | cons _ _ => exact plain
          | nil =>
            cases inner.heads with
            | form f _ => cases f <;> first | exact plain | infer_instance
            | _ => exact plain
    | _ => exact plain
  | _ => exact plain

/-- A statement is read alike. -/
instance alike_statement : Alike (statement g) (statement g) := by
  unfold statement
  infer_instance

/-- Statements are read alike, one after the other. -/
instance alike_statementsFor {m n : Nat} [h : Like m n] :
    Alike (statementsFor g m) (statementsFor g n) := by
  obtain rfl := h.same
  clear h
  induction m with
  | zero =>
    unfold statementsFor
    infer_instance
  | succ n ih =>
    unfold statementsFor
    infer_instance

/-- The statements between braces are read alike. -/
instance alike_statements (b : Bool) : Alike (statements g b) (statements g b) := by
  unfold statements
  infer_instance

/-- Up to any nesting depth the grammar takes no notice of layout. -/
instance grammar_blind (depth : Nat) : (grammar depth).Blind := by
  induction depth with
  | zero =>
    unfold grammar Grammar.none
    constructor <;> intros <;> infer_instance
  | succ depth ih =>
    constructor <;> intros <;> unfold grammar <;> infer_instance

/-! ### Files -/

/-- A file is read alike. -/
instance alike_file : Alike (file g) (file g) := by
  unfold file
  infer_instance

end SourceGen.Parser
