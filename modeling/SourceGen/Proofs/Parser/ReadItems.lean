import SourceGen.Proofs.Parser.ReadExprs
import SourceGen.Syntax.Parser.Item

/-!
# Reading items

The parsers of items and of what they contain read their results, if the parsers that they are written over do. What
is kept as tokens ends in `;` or in braces.
-/

set_option synthInstance.maxHeartbeats 400000
set_option synthInstance.maxSize 10000000

namespace SourceGen

open LexemeKind

namespace Parser

attribute [local simp] Node.lexemes Node.lexemesAll Node.typeOps

variable (g : Grammar) [g.Reads]

/-! ### Signatures -/

instance reads_wordScope : Reads wordScope (fun v ks => [.word "pub"] ++ ks = v.lexemes) True := by
  unfold wordScope
  refine reads_of_step ?_
  simp +contextual [Visibility.lexemes, NamePath.lexemes, NamePath.nameLexemes]

instance reads_pathScope : Reads pathScope (fun v ks => [.word "pub"] ++ ks = v.lexemes) True := by
  unfold pathScope
  refine reads_of_step ?_
  simp +contextual [Visibility.lexemes]

instance reads_visibility : Reads visibility (fun v ks => ks = v.lexemes) True := by
  unfold visibility
  refine reads_of_step ?_
  simp +contextual [Visibility.lexemes]

@[simp] lemma lexemes_visibilityNode (v : Visibility) : (visibilityNode v).lexemes = v.lexemes := by
  cases v with
  | restricted within path => cases within <;> simp [visibilityNode, Visibility.lexemes]
  | _ => simp [visibilityNode, Visibility.lexemes]

@[simp] lemma isAbsent_visibilityNode {v : Visibility} : (visibilityNode v).isAbsent = true ↔ v = .inherited := by
  cases v <;> simp [visibilityNode]

instance reads_visibilityPart : Reads visibilityPart Spells True := by
  unfold visibilityPart
  refine reads_of_step ?_
  simp +contextual [Visibility.lexemes]

instance reads_receiver (attrs : Node) : Reads (receiver g attrs) (Extends attrs) True := by
  unfold receiver
  refine reads_of_step ?_
  simp +contextual

instance reads_parameter (attrs : Node) : Reads (parameter g attrs) (Extends attrs) True := by
  unfold parameter
  refine reads_of_step ?_
  simp +contextual [isFiller, show ofOp ":" = [.mark ':'] from rfl]

lemma reads_parametersFor (n : Nat) : ∀ k, Reads (parametersFor g k n) Spells True := by
  induction n with
  | zero =>
    intro k
    unfold parametersFor
    exact reads_of_step (by simp)
  | succ n ih =>
    intro k
    unfold parametersFor
    dsimp only
    refine reads_of_step ?_
    simp +contextual

/-- The spelling of a signature, if it is not marked safe. -/
@[simp] abbrev SpellsSignature (admitsSafe : Bool) (r : String × List Node × Bool) (ks : List LexemeKind) : Prop :=
  (r.2.2 = true → admitsSafe = true) ∧ (r.2.2 = false → SpellsParts r.2.1 ks)

instance reads_signature (b : Bool) : Reads (signature g b) (SpellsSignature b) True := by
  have := reads_parametersFor g
  unfold signature
  dsimp only
  refine reads_of_step ?_
  simp +contextual

instance reads_startsSignature (b : Bool) : Reads (startsSignature b) (fun _ ks => ks = []) True := by
  unfold startsSignature
  infer_instance

/-! ### Members -/

instance reads_macroMember (attrs : Node) : Reads (macroMember attrs) (Extends attrs) True := by
  unfold macroMember
  dsimp only
  refine reads_of_step ?_
  simp +contextual

instance reads_initialValue : Reads (initialValue g) Spells True := by
  unfold initialValue
  refine reads_of_step ?_
  simp +contextual

instance reads_nameOrWild : Reads nameOrWild (fun w ks => ks = [.word w]) True := by
  unfold nameOrWild
  refine reads_of_step ?_
  simp +contextual

/-- The spelling of parts that end in `;`. -/
@[simp] abbrev SpellsToSemi (ns : List Node) (ks : List LexemeKind) : Prop :=
  ks = Node.lexemesAll ns ∧ ns.getLast? = some (Node.op ";")

instance reads_constRest : Reads (constRest g)
    (fun r ks => EndsInSemi ks ∧ (r.2.1 = true → SpellsToSemi r.1 ks)) True := by
  unfold constRest
  refine reads_of_step ?_
  simp +contextual [EndsInSemi, List.getLast?_append, List.getLast?_cons, ofOp_semi]

lemma reads_strictBoundsFor {p : Parser Node} [Reads p SpellsType True] {l : Look} (n : Nat) :
    Reads (strictBoundsFor p l n) SpellsParts True := by
  induction n with
  | zero =>
    unfold strictBoundsFor
    exact reads_of_step (by simp)
  | succ n ih =>
    unfold strictBoundsFor
    refine reads_of_step ?_
    simp +contextual

instance reads_colonBounds (l : Look) : Reads (colonBounds g l) SpellsType True := by
  have (n : Nat) := @reads_strictBoundsFor g.bound _ l n
  unfold colonBounds
  refine reads_of_step ?_
  simp +contextual

instance reads_definition : Reads (definition g) Spells True := by
  unfold definition
  refine reads_of_step ?_
  simp +contextual

instance reads_typeRest (b c : Bool) : Reads (typeRest g b c)
    (fun r ks => EndsInSemi ks ∧ SpellsToSemi r.2 ks) True := by
  unfold typeRest
  refine reads_of_step ?_
  simp +contextual [EndsInSemi, List.getLast?_append, List.getLast?_cons, ofOp_semi]

lemma lexemes_flatMap_items (is : List Item) : is.flatMap Item.lexemes = Item.lexemesAll is := by
  induction is with
  | nil => rfl
  | cons i is ih => rw [List.flatMap_cons, ih, Item.lexemesAll]

lemma lexemes_methodItem {attrs : List Attr} {vis : Visibility} {name : String} {parts : List Node}
    (outer : ∀ a ∈ attrs, a.inner = false) (ends : Node.Ends parts) :
    (methodItem attrs vis name parts).lexemes = attrs.flatMap Attr.lexemes ++ vis.lexemes ++ Node.lexemesAll parts := by
  have row := Item.lexemes_outer (v := vis) (d := .plain .method (some name) parts) outer ends
  rwa [Decl.lexemes, show astray [] = [] from rfl, List.append_nil] at row

@[simp] lemma isAbsent_methodItem (attrs : List Attr) (vis : Visibility) (name : String) (parts : List Node) :
    (methodItem attrs vis name parts).isAbsent = false := rfl

instance reads_traitMethod (attrs : List Attr) : Reads (traitMethod g attrs)
    (fun n ks => n.lexemes = attrs.flatMap Attr.lexemes ++ ks ∧ n.isAbsent = false) (∀ a ∈ attrs, a.inner = false) := by
  unfold traitMethod
  refine reads_of_step ?_
  simp +contextual [lexemes_methodItem, Visibility.lexemes]

instance reads_traitMember : Reads (traitMember g) Spells True := by
  unfold traitMember
  dsimp only
  refine reads_of_step ?_
  simp +contextual [Visibility.lexemes]

instance reads_implMember : Reads (implMember g) Spells True := by
  unfold implMember
  dsimp only
  refine reads_of_step ?_
  simp +contextual [lexemes_methodItem, Visibility.lexemes]

instance reads_foreignMember : Reads (foreignMember g) Spells True := by
  unfold foreignMember
  dsimp only
  refine reads_of_step ?_
  simp +contextual [Visibility.lexemes]

/-! ### Imports -/

/-- The spelling of a use tree that is modelled. -/
@[simp] abbrev SpellsUse (t : Option UseTree) (ks : List LexemeKind) : Prop := ∀ u, t = some u → ks = u.lexemes

/-- The spelling of use trees and the commas after them, if all of them are modelled. -/
def SpellsUses (trees : List (Option UseTree × Bool)) (ks : List LexemeKind) : Prop :=
  ∀ ts, trees.mapM (fun t : Option UseTree × Bool => t.1.map (·, t.2)) = some ts →
    ks = UseTree.lexemesAll (ts.getLast?.any (·.2)) (ts.map (·.1))

lemma spellsUses_nil : SpellsUses [] [] := by
  intro ts h
  cases h
  rfl

lemma spellsUses_none {b : Bool} {trees : List (Option UseTree × Bool)} {ks : List LexemeKind} :
    SpellsUses ((none, b) :: trees) ks := by
  intro ts h
  cases h

lemma spellsUses_last {u : UseTree} : SpellsUses [(some u, false)] u.lexemes := by
  intro ts h
  cases h
  simp [UseTree.lexemesAll]

lemma spellsUses_cons {u : UseTree} {trees : List (Option UseTree × Bool)} {ks : List LexemeKind}
    (rest : SpellsUses trees ks) : SpellsUses ((some u, true) :: trees) (u.lexemes ++ (ofOp "," ++ ks)) := by
  intro ts h
  rw [List.mapM_cons, Option.map_some, Option.bind_eq_bind, Option.bind_some] at h
  obtain ⟨us, tail, h⟩ := Option.bind_eq_some_iff.mp h
  cases h
  rw [rest us tail]
  cases us with
  | nil => simp [UseTree.lexemesAll]
  | cons v vs => simp [UseTree.lexemesAll]

lemma reads_useTreesFor {p : Parser (Option UseTree)} [Reads p SpellsUse True] (n : Nat) :
    Reads (useTreesFor p n) SpellsUses True := by
  induction n with
  | zero =>
    unfold useTreesFor
    exact reads_of_step (by simp [spellsUses_nil])
  | succ n ih =>
    unfold useTreesFor
    refine reads_of_step ?_
    simp +contextual [spellsUses_nil, spellsUses_none, spellsUses_last, spellsUses_cons]

instance reads_useTrees {p : Parser (Option UseTree)} [Reads p SpellsUse True] :
    Reads (useTrees p) SpellsUses True where
  clean := fun {s _ _} ok => (reads_useTreesFor (s.rest.length + 1)).clean ok
  run := fun h {s _ _} ok => (reads_useTreesFor (s.rest.length + 1)).run h ok

lemma spellsUse_useGroup {trees : List (Option UseTree × Bool)} {ks : List LexemeKind} (h : SpellsUses trees ks) :
    SpellsUse (useGroup? trees) (.opening .brace :: (ks ++ [.closing .brace])) := by
  intro u eq
  obtain ⟨ts, modelled, rfl⟩ := Option.map_eq_some_iff.mp eq
  rw [h ts modelled, useGroup, UseTree.lexemes]
  rfl

lemma reads_useTreeFor (n : Nat) : ∀ b, Reads (useTreeFor b n) SpellsUse True := by
  induction n with
  | zero =>
    intro b
    unfold useTreeFor
    exact reads_of_step (by simp)
  | succ n ih =>
    intro b
    have (b : Bool) : Reads (do
        let rooted ← if b then op? "::" else pure .absent
        let tree ← useTreeFor (b && rooted.isAbsent) n
        return if rooted.isAbsent then tree else none) SpellsUse True := by
      refine reads_of_step ?_
      simp +contextual
    unfold useTreeFor
    dsimp only
    refine reads_of_step ?_
    simp +contextual [UseTree.lexemes]
    exact fun _ _ trees _ u => spellsUse_useGroup trees u

instance reads_useTree (b : Bool) : Reads (useTree b) SpellsUse True where
  clean := fun {s _ _} ok => (reads_useTreeFor (TokenTree.sizeAll s.rest + 1) b).clean ok
  run := fun h {s _ _} ok => (reads_useTreeFor (TokenTree.sizeAll s.rest + 1) b).run h ok

/-! ### Declarations -/

/-- The spelling of a declaration. -/
@[simp] abbrev SpellsDecl (d : Decl) (ks : List LexemeKind) : Prop := ks = d.lexemes [] ∧ d.Ends

/-- The spelling of a declaration with attributes in its body. -/
@[simp] abbrev SpellsBody (r : Decl × List Attr) (ks : List LexemeKind) : Prop :=
  ks = r.1.lexemes (r.2.flatMap Attr.lexemes) ∧ (∀ a ∈ r.2, a.inner = true) ∧ r.1.Ends

instance reads_useDecl (b : Bool) : Reads (useDecl b)
    (fun r ks => EndsInSemi ks ∧ ∀ d, r = some d → SpellsDecl d ks) True := by
  unfold useDecl
  refine reads_of_step ?_
  simp +contextual [Decl.lexemes, Decl.Ends, EndsInSemi, List.getLast?_append, List.getLast?_cons, ofOp_semi]

instance reads_externCrate : Reads externCrate SpellsDecl True := by
  unfold externCrate
  dsimp only
  refine reads_of_step ?_
  simp +contextual [Decl.lexemes, Decl.Ends]

instance reads_foreignBlock : Reads (foreignBlock g) SpellsDecl True := by
  unfold foreignBlock
  dsimp only
  refine reads_of_step ?_
  simp +contextual [Decl.lexemes, Decl.Ends, Node.ends_cons]

instance reads_moduleDecl : Reads (moduleDecl g) SpellsBody True := by
  unfold moduleDecl
  dsimp only
  refine reads_of_step ?_
  simp +contextual [Decl.lexemes, Decl.Ends, lexemes_flatMap_items]
  intro n absent _ present
  have : n.lexemes = if n.isAbsent = false then [.word "unsafe"] else [] := by split <;> simp_all
  simp [this]

instance reads_namedField (p : Parser Node) [Reads p SpellsBlock True] : Reads (namedField g p) Spells True := by
  unfold namedField
  dsimp only
  refine reads_of_step ?_
  simp +contextual

lemma reads_namedFieldsFor (n : Nat) : Reads (namedFieldsFor g n) SpellsBlock True := by
  induction n with
  | zero =>
    unfold namedFieldsFor
    exact reads_of_step (by simp)
  | succ n ih =>
    have : Reads (fun s => namedFieldsFor g n s) SpellsBlock True := ih
    unfold namedFieldsFor
    refine reads_of_step ?_
    simp +contextual

instance reads_namedFields : Reads (namedFields g) SpellsBlock True where
  clean := fun {s _ _} ok => (reads_namedFieldsFor g (TokenTree.sizeAll s.rest + 1)).clean ok
  run := fun h {s _ _} ok => (reads_namedFieldsFor g (TokenTree.sizeAll s.rest + 1)).run h ok

instance reads_unnamedField : Reads (do
    let attrs ← outerAttrs g
    let vis ← visibilityPart
    return Node.form .unnamedField [attrs, vis, ← g.type true]) Spells True :=
  reads_of_step (by simp +contextual)

instance reads_unnamedFields : Reads (unnamedFields g) Spells True := by
  unfold unnamedFields
  refine reads_of_step ?_
  simp +contextual

instance reads_structDecl : Reads (structDecl g) SpellsDecl True := by
  unfold structDecl
  refine reads_of_step ?_
  simp +contextual [Decl.lexemes, Decl.Ends, DataKind.keyword, Node.ends_cons, Node.ends_of_getLast]

instance reads_variant : Reads (variant g) Spells True := by
  unfold variant
  dsimp only
  refine reads_of_step ?_
  simp +contextual

instance reads_enumDecl : Reads (enumDecl g) SpellsDecl True := by
  unfold enumDecl
  refine reads_of_step ?_
  simp +contextual [Decl.lexemes, Decl.Ends, DataKind.keyword, Node.ends_cons]

instance reads_unionDecl : Reads (unionDecl g) SpellsDecl True := by
  unfold unionDecl
  refine reads_of_step ?_
  simp +contextual [Decl.lexemes, Decl.Ends, DataKind.keyword, Node.ends_cons]

instance reads_traitDecl : Reads (traitDecl g) SpellsBody True := by
  unfold traitDecl
  refine reads_of_step ?_
  simp +contextual [Decl.lexemes, Decl.Ends]

instance reads_traitOrAlias : Reads (traitOrAlias g) SpellsBody True := by
  have (l : Look) (n : Nat) := @reads_strictBoundsFor (objectBound g) _ l n
  unfold traitOrAlias
  dsimp only
  refine reads_of_step ?_
  simp +contextual [Decl.lexemes, Decl.Ends, Node.ends_of_getLast]

lemma endsInBraces_of_nested {head ks : List LexemeKind} (closed : Closed head) (nested : Input.Nested ks) :
    EndsInBraces (head ++ .opening .brace :: (ks ++ [.closing .brace])) := by
  obtain ⟨ts, rfl⟩ := nested
  exact ⟨head, ts, rfl, closed⟩

instance reads_constMark : Reads constMark (fun b ks => Closed ks ∧ (b = false → ks = [])) True := by
  unfold constMark
  refine reads_of_step ?_
  simp +contextual

instance reads_implTarget : Reads (implTarget g)
    (fun r ks => ks = Node.lexemesAll r.1 ++ r.2.1.lexemes ∧ Node.ClosesAll r.1 ∧ r.2.1.Closes) True := by
  unfold implTarget
  refine reads_of_step ?_
  simp +contextual

/-- The spelling of an implementation that is modelled; one that is not ends in braces. -/
@[simp] abbrev SpellsImpl (r : Option (Visibility × Decl)) (ks : List LexemeKind) : Prop :=
  (r = none → EndsInBraces ks) ∧ ∀ v d, r = some (v, d) → ks = v.lexemes ++ d.lexemes [] ∧ d.Ends

instance reads_implDecl : Reads (implDecl g) SpellsImpl True := by
  unfold implDecl
  dsimp only
  refine reads_of_step ?_
  simp only [forall_eq, true_and, forall_const, List.nil_append]
  rintro vis dflt _ ⟨rfl, ⟨-, closes₁⟩, -⟩ qualifier _ ⟨rfl, ⟨-, closes₂⟩, -⟩ kw _ ⟨rfl, rfl⟩
  refine ⟨by simp, ?_⟩
  rintro params _ ⟨rfl, -, closes₃⟩ isConst const ⟨closes₄, plain⟩ target selfType isModelled _ ⟨rfl, closes₅, closes₆⟩
  rintro preds _ ⟨rfl, -, closes₇⟩ attrs _ ⟨rfl, -⟩ members _ ⟨rfl, -⟩ nested
  constructor
  · intro _
    refine ⟨fun _ => ?_, nofun⟩
    have closed : Closed (vis.lexemes ++ dflt.lexemes ++ qualifier.lexemes ++ [LexemeKind.word "impl"] ++ params.lexemes ++
        const ++ (Node.lexemesAll target ++ selfType.lexemes) ++ preds.lexemes) :=
      vis.closed.append closes₁.closed |>.append closes₂.closed |>.append (by simp) |>.append closes₃.closed
        |>.append closes₄ |>.append (closes₅.closed.append closes₆.closed) |>.append closes₇.closed
    simpa using endsInBraces_of_nested closed nested
  · intro modelled
    obtain ⟨rfl, rfl, rfl⟩ : vis = .inherited ∧ isConst = false ∧ isModelled = true := by simpa [and_assoc] using modelled
    obtain rfl := plain rfl
    refine ⟨nofun, fun v d eq => ?_⟩
    cases eq
    simp [Decl.lexemes, Decl.Ends, Visibility.lexemes, closes₁, closes₂, closes₃, closes₅, closes₆, closes₇]

instance reads_macroDecl : Reads macroDecl SpellsDecl True := by
  unfold macroDecl
  dsimp only
  refine reads_of_step ?_
  simp +contextual [Decl.lexemes, Decl.Ends, Node.ends_of_getLast, Node.rawDelimiter?, Node.ends_macro]

instance reads_macroDefinition : Reads macroDefinition (fun _ ks => EndsInBraces ks) True := by
  unfold macroDefinition
  refine reads_of_step ?_
  simp +contextual [TokenTree.lexemesAll, TokenTree.lexemes]
  refine fun name => ⟨fun _ ts _ => ?_, fun _ _ _ d params _ _ ts _ => ?_⟩
  · exact ⟨[.word "macro", .word name], ts, rfl, by simp⟩
  · exact ⟨.word "macro" :: .word name :: .opening d :: (TokenTree.lexemesAll params ++ [.closing d]), ts, by simp,
      by simp⟩

/-! ### Items -/

lemma spells_verbatim {ts : List TokenTree}
    (ends : EndsInSemi (TokenTree.lexemesAll ts) ∨ EndsInBraces (TokenTree.lexemesAll ts)) :
    (Item.mk [] .inherited (.verbatim ts)).lexemes = TokenTree.lexemesAll ts := by
  have row := Item.lexemes_outer (v := .inherited) (d := .verbatim ts) (List.forall_mem_nil _) ends
  simpa [Visibility.lexemes, Decl.lexemes] using row

instance clean_keepFrom {start : Input} : Clean (keepFrom start) := by
  unfold keepFrom
  infer_instance

instance step_keepFrom {o start : Input} {ks : List LexemeKind} [Begun o [] start] :
    Step o ks SpellsItem (keepFrom start) (EndsInSemi ks ∨ EndsInBraces ks) := by
  unfold keepFrom
  refine .weaken inferInstance ?_
  simp +contextual [spells_verbatim, Item.Ends, Decl.Ends]

instance reads_afterVisibility {l : Look} : Reads (afterVisibility l) (fun _ ks => ks = []) True := by
  unfold afterVisibility
  infer_instance

lemma spells_mk {attrs : List Attr} {v : Visibility} {d : Decl} {ks : List LexemeKind}
    (outer : ∀ a ∈ attrs, a.inner = false) :
    attrs.flatMap Attr.lexemes ++ (v.lexemes ++ ks) = (Item.mk attrs v d).lexemes ∧ (Item.mk attrs v d).Ends ↔
      ks = d.lexemes [] ∧ d.Ends :=
  and_congr_left fun ends => by
    rw [Item.lexemes_outer outer ends, List.append_assoc, List.append_cancel_left_eq, List.append_cancel_left_eq]

lemma spells_mk_inherited {attrs : List Attr} {d : Decl} {ks : List LexemeKind}
    (outer : ∀ a ∈ attrs, a.inner = false) :
    attrs.flatMap Attr.lexemes ++ ks = (Item.mk attrs .inherited d).lexemes ∧ (Item.mk attrs .inherited d).Ends ↔
      ks = d.lexemes [] ∧ d.Ends := spells_mk (v := .inherited) outer

section Item

variable {o start : Input} {attrs : List Attr} {ks : List LexemeKind}

/-- What has been read before a declaration. -/
@[simp] abbrev Outer (attrs : List Attr) (ks : List LexemeKind) : Prop :=
  ks = attrs.flatMap Attr.lexemes ∧ ∀ a ∈ attrs, a.inner = false

attribute [local simp] spells_mk spells_mk_inherited Decl.Ends Decl.lexemes EndsInSemi List.getLast?_append
  List.getLast?_cons ofOp_semi
  Node.getLast?_lexemesAll EndsInBraces.append Attr.closed_lexemes Visibility.closed Node.ends_of_getLast

instance clean_plainItem {p : Parser Decl} [Clean p] : Clean (plainItem attrs p) := by
  unfold plainItem
  infer_instance

instance step_plainItem {p : Parser Decl} [Reads p SpellsDecl True] :
    Step o ks SpellsItem (plainItem attrs p) (Outer attrs ks) := by
  unfold plainItem
  refine .weaken inferInstance ?_
  simp +contextual [-Decl.Ends, -Decl.lexemes]

instance clean_innerItem {p : Parser (Decl × List Attr)} [Clean p] : Clean (innerItem attrs p) := by
  unfold innerItem
  infer_instance

instance step_innerItem {p : Parser (Decl × List Attr)} [Reads p SpellsBody True] :
    Step o ks SpellsItem (innerItem attrs p) (Outer attrs ks) := by
  unfold innerItem
  refine .weaken inferInstance ?_
  simp +contextual [Item.lexemes_eq, Item.Ends, -Decl.Ends, -Decl.lexemes]

instance clean_fnItem : Clean (fnItem g start attrs) := by
  unfold fnItem
  infer_instance

instance step_fnItem [Begun o [] start] : Step o ks SpellsItem (fnItem g start attrs) (Outer attrs ks) := by
  unfold fnItem
  refine .weaken inferInstance ?_
  simp +contextual

instance clean_externItem : Clean (externItem g attrs) := by
  unfold externItem
  infer_instance

instance step_externItem : Step o ks SpellsItem (externItem g attrs) (Outer attrs ks) := by
  unfold externItem
  refine .weaken inferInstance ?_
  simp +contextual [-Decl.Ends, -Decl.lexemes]

instance clean_importItem : Clean (importItem start attrs) := by
  have (o : Option Decl) (vis : Visibility) : Clean
      (match o with | some d => return .mk attrs vis d | none => keepFrom start : Parser Item) := by
    split <;> infer_instance
  unfold importItem
  infer_instance

instance step_importItem [Begun o [] start] : Step o ks SpellsItem (importItem start attrs) (Outer attrs ks) := by
  unfold importItem
  refine .weaken inferInstance ?_
  simp +contextual [-Decl.Ends, -Decl.lexemes]

instance clean_staticItem : Clean (staticItem g start attrs) := by
  unfold staticItem
  infer_instance

instance step_staticItem [Begun o [] start] : Step o ks SpellsItem (staticItem g start attrs) (Outer attrs ks) := by
  unfold staticItem
  refine .weaken inferInstance ?_
  simp +contextual

instance clean_constItem : Clean (constItem g start attrs) := by
  unfold constItem
  infer_instance

instance step_constItem [Begun o [] start] : Step o ks SpellsItem (constItem g start attrs) (Outer attrs ks) := by
  unfold constItem
  refine .weaken inferInstance ?_
  simp +contextual

instance clean_implItem : Clean (implItem g start attrs) := by
  have (o : Option (Visibility × Decl)) : Clean
      (match o with | some (vis, d) => return .mk attrs vis d | none => keepFrom start : Parser Item) := by
    split <;> infer_instance
  unfold implItem
  infer_instance

instance step_implItem [Begun o [] start] : Step o ks SpellsItem (implItem g start attrs) (Outer attrs ks) := by
  have (r : Option (Visibility × Decl)) (js : List LexemeKind) : Step o js SpellsItem
      (match r with | some (vis, d) => return .mk attrs vis d | none => keepFrom start : Parser Item)
      ((∀ vis d, r = some (vis, d) → SpellsItem (.mk attrs vis d) js) ∧
        (r = none → EndsInSemi js ∨ EndsInBraces js)) := by
    split <;> exact .weaken inferInstance (by simp +contextual)
  unfold implItem
  refine .weaken inferInstance ?_
  simp +contextual [-Decl.Ends, -Decl.lexemes]

instance clean_unsafeItem : Clean (unsafeItem g start attrs) := by
  unfold unsafeItem
  infer_instance

instance step_unsafeItem [Begun o [] start] : Step o ks SpellsItem (unsafeItem g start attrs) (Outer attrs ks) := by
  unfold unsafeItem
  refine .weaken inferInstance ?_
  simp +contextual [-Decl.Ends, -Decl.lexemes]

instance clean_typeItem : Clean (typeItem g start attrs) := by
  unfold typeItem
  infer_instance

instance step_typeItem [Begun o [] start] : Step o ks SpellsItem (typeItem g start attrs) (Outer attrs ks) := by
  unfold typeItem
  refine .weaken inferInstance ?_
  simp +contextual

instance clean_itemAfter : Clean (itemAfter g start attrs) := by
  unfold itemAfter
  infer_instance

instance step_itemAfter [Begun o [] start] : Step o ks SpellsItem (itemAfter g start attrs) (Outer attrs ks) := by
  unfold itemAfter
  refine .weaken inferInstance ?_
  simp +contextual [-Decl.Ends, -Decl.lexemes]

end Item

instance reads_item : Reads (item g) SpellsItem True := by
  unfold item
  refine reads_of_step ?_
  simp +contextual

end Parser

end SourceGen
