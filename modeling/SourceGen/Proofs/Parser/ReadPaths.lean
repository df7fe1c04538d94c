import SourceGen.Proofs.Parser.Reading
import SourceGen.Syntax.Parser.Statement

/-!
# Reading paths

The parsers of paths read their results, if the parsers that they are written over do. What they read does not end
in `=`.
-/

namespace SourceGen

/-- The parsers of a grammar read their results. -/
class Grammar.Reads (g : Grammar) : Prop where
  type : ∀ b, Parser.Reads (g.type b) Parser.SpellsType True
  bound : Parser.Reads g.bound Parser.SpellsType True
  pattern : Parser.Reads g.pattern Parser.Spells True
  expr : ∀ b, Parser.Reads (g.expr b) Parser.Spells True
  operand : ∀ b, Parser.Reads (g.operand b) Parser.Spells True
  earlyExpr : Parser.Reads g.earlyExpr Parser.Spells True
  operators : ∀ b p e, Parser.Reads (g.operators b p e)
    (fun n ks => n.lexemes = e.lexemes ++ ks ∧ (n.isAbsent = true → n.lexemes = []))
    (e.isAbsent = true → e.lexemes = [])
  statements : ∀ b, Parser.Reads (g.statements b) Parser.Spells True
  item : Parser.Reads g.item Parser.SpellsItem True

namespace Parser

attribute [local simp] Node.lexemes Node.lexemesAll Node.typeOps

attribute [instance] Grammar.Reads.type Grammar.Reads.bound Grammar.Reads.pattern Grammar.Reads.expr
  Grammar.Reads.operand Grammar.Reads.earlyExpr Grammar.Reads.operators Grammar.Reads.statements Grammar.Reads.item

variable (g : Grammar) [g.Reads]

/-! ### Paths -/

lemma reads_names (isName : Look) (n : Nat) :
    Reads (namePath.names isName n) (fun ns ks => ks = NamePath.nameLexemes ns ∧ ns ≠ []) True := by
  induction n with
  | zero =>
    unfold namePath.names
    exact reads_of_step (by simp)
  | succ n ih =>
    unfold namePath.names
    refine reads_of_step ?_
    simp +contextual [NamePath.nameLexemes]

instance reads_namePath : Reads namePath (fun p ks => ks = p.lexemes) True := by
  have := reads_names
  unfold namePath
  refine reads_of_step ?_
  simp +contextual [NamePath.lexemes]

lemma lexemesAll_nameNodes (ns : List String) : Node.lexemesAll (nameNodes ns) = NamePath.nameLexemes ns := by
  induction ns with
  | nil => rfl
  | cons n ns ih =>
    cases ns with
    | nil => rfl
    | cons m ms => simp [nameNodes, NamePath.nameLexemes, ← ih]

lemma closesAll_nameNodes (ns : List String) : Node.ClosesAll (nameNodes ns) := by
  induction ns with
  | nil => trivial
  | cons n ns ih =>
    cases ns with
    | nil => simp [nameNodes]
    | cons m ms => simp [nameNodes, ih]

@[simp] lemma lexemes_namePathNode (p : NamePath) : (namePathNode p).lexemes = p.lexemes := by
  cases h : p.rooted <;> simp [namePathNode, NamePath.lexemes, lexemesAll_nameNodes, h]

@[simp] lemma closes_namePathNode (p : NamePath) : (namePathNode p).Closes := by
  cases h : p.rooted <;> simp [namePathNode, closesAll_nameNodes, h]

@[simp] lemma isAbsent_namePathNode (p : NamePath) : (namePathNode p).isAbsent = false := rfl

instance reads_plainBlock : Reads (plainBlock g) Spells True := by
  unfold plainBlock
  refine reads_of_step ?_
  simp

instance reads_constArgument : Reads (constArgument g) Spells True := by
  unfold constArgument
  refine reads_of_step ?_
  simp +contextual

instance reads_returns (b : Bool) : Reads (returns g b) SpellsType True := by
  unfold returns
  refine reads_of_step ?_
  simp

instance reads_parenArgs :
    Reads (parenArgs g) (fun n ks => ks = n.lexemes ∧ n.IsType ∧ ∃ parts, n = .form .parenArgs parts) True := by
  unfold parenArgs
  refine reads_of_step ?_
  simp +contextual

instance reads_forLifetimes (p : Parser Node) [Reads p Spells True] : Reads (forLifetimes p) SpellsType True := by
  unfold forLifetimes
  refine reads_of_step ?_
  simp +contextual

instance reads_preciseCapture : Reads preciseCapture SpellsType True := by
  unfold preciseCapture
  refine reads_of_step ?_
  simp +contextual

lemma lexemesAll_segmentParts (n : Node) : Node.lexemesAll (segmentParts n) = n.lexemes := by
  unfold segmentParts
  split <;> simp

instance reads_genericArgument : Reads (genericArgument g) Spells True := by
  unfold genericArgument
  refine reads_of_step ?_
  simp +contextual [lexemesAll_segmentParts]

instance reads_angled : Reads (angled g) SpellsType True := by
  unfold angled
  refine reads_of_step ?_
  simp +contextual

instance reads_segment (b : Bool) : Reads (segment g b) SpellsType True := by
  unfold segment
  refine reads_of_step ?_
  simp +contextual

/-- Parts that follow each other in a type. -/
lemma closesAll_flatten {nss : List (List Node)} : Node.ClosesAll nss.flatten ↔ ∀ ns ∈ nss, Node.ClosesAll ns := by
  induction nss with
  | nil => simp
  | cons ns nss ih => simp [ih]

instance reads_colonsSegment (b : Bool) :
    Reads (do
      let colons ← op "::"
      let s ← segment g b
      return [colons, s]) (fun ns ks => ks = Node.lexemesAll ns ∧ Node.ClosesAll ns) True :=
  reads_of_step (by simp)

instance reads_moreSegments (b : Bool) :
    Reads (moreSegments g b) (fun ns ks => ks = Node.lexemesAll ns ∧ Node.ClosesAll ns) True := by
  unfold moreSegments
  refine reads_of_step ?_
  simp [closesAll_flatten]

instance reads_path (b : Bool) : Reads (path g b) SpellsType True := by
  unfold path
  refine reads_of_step ?_
  simp +contextual

instance reads_qualifiedRest (b : Bool) :
    Reads (qualifiedRest g b) (fun ns ks => ks = Node.lexemesAll ns ∧ Node.ClosesAll ns) True := by
  unfold qualifiedRest
  refine reads_of_step ?_
  simp +contextual [closesAll_flatten]

instance reads_anyPath (b : Bool) : Reads (anyPath g b) SpellsType True := by
  unfold anyPath
  refine reads_of_step ?_
  simp +contextual

instance reads_pathParenArgs : Reads (pathParenArgs g) SpellsType True := by
  unfold pathParenArgs
  refine .of_step (fun o => .seq inferInstance fun colons js => .seq inferInstance fun args js' =>
    (?_ : Step _ _ _ _ (colons.lexemes = js ∧ (colons = .absent ∨ colons = .op "::") ∧ args.lexemes = js' ∧ args.IsType ∧
      ∃ parts, args = .form .parenArgs parts))) ?_
  · split
    · refine .weaken inferInstance ?_
      rintro ⟨rfl, same | same, rfl, h, -⟩ <;> cases same
      have colons : (Node.leaf (.op "::")).Closes := Node.closes_op.mpr (by decide)
      simp_all
    · next other =>
      refine .weaken inferInstance ?_
      rintro ⟨rfl, rfl | rfl, rfl, h, parts, rfl⟩
      · simp_all
      · exact absurd rfl (other _ _ rfl)
  · simp +contextual

/-- A macro call is spelled by its path and what is read. -/
instance reads_macroCall (p : Node) : Reads (macroCall p)
    (fun n ks => p.lexemes ++ ks = n.lexemes ∧ n.isAbsent = false ∧ (p.Closes → n.Closes) ∧
      ∃ parts, n = .form .macroCall parts) True := by
  unfold macroCall
  refine reads_of_step ?_
  simp +contextual

/-- The two forms of paths. -/
def IsPath (n : Node) : Prop := ∃ parts, n = .form .path parts ∨ n = .form .qualifiedPath parts

lemma endsPlain_cases {p : Node} (h : endsPlain p = true) : ∃ f init last,
    (f = .path ∨ f = .qualifiedPath) ∧ p = .form f (init ++ [last]) := by
  have concat {f : Form} {parts : List Node} (form : f = .path ∨ f = .qualifiedPath) (ne : parts ≠ []) :
      ∃ f' init last, (f' = .path ∨ f' = .qualifiedPath) ∧ Node.form f parts = .form f' (init ++ [last]) :=
    ⟨f, parts.dropLast, parts.getLast ne, form, by rw [List.dropLast_append_getLast]⟩
  unfold endsPlain at h
  split at h
  case h_1 parts => exact concat (.inl rfl) (by rintro rfl; cases h)
  case h_2 parts _ => exact concat (.inr rfl) (by rintro rfl; cases h)
  case h_3 => cases h

/-- Arguments for the last segment of a path stand behind it. -/
lemma withLastArgs_eq (f : Form) (init : List Node) (last args : Node) :
    ∃ parts, withLastArgs args (.form f (init ++ [last])) = .form f (init ++ parts) ∧
      Node.lexemesAll parts = last.lexemes ++ args.lexemes ∧ (last.Closes → args.Closes → Node.ClosesAll parts) := by
  unfold withLastArgs
  simp only [List.getLast?_concat, List.dropLast_concat]
  split
  · next eq =>
    cases eq
    exact ⟨_, rfl, by simp, by simp +contextual⟩
  · next eq =>
    cases eq
    exact ⟨_, rfl, by simp, by simp +contextual⟩
  · next eq => cases eq

lemma withLastArgs_spells {p args : Node} (h : endsPlain p = true) :
    (withLastArgs args p).lexemes = p.lexemes ++ args.lexemes ∧ (p.Closes → args.Closes → (withLastArgs args p).Closes) ∧
      (withLastArgs args p).isAbsent = false ∧ IsPath (withLastArgs args p) := by
  obtain ⟨f, init, last, form, rfl⟩ := endsPlain_cases h
  obtain ⟨parts, eq, spells, closes⟩ := withLastArgs_eq f init last args
  rw [eq]
  rcases form with rfl | rfl
  · simp +contextual [spells, closes, IsPath]
  · simp +contextual [spells, closes, IsPath]

lemma withMore_spells {p : Node} (h : IsPath p) (more : List Node) :
    (withMore more p).lexemes = p.lexemes ++ Node.lexemesAll more ∧
      (p.Closes → Node.ClosesAll more → (withMore more p).Closes) ∧ (withMore more p).isAbsent = false ∧
      IsPath (withMore more p) := by
  obtain ⟨parts, rfl | rfl⟩ := h
  · simp +contextual [withMore, IsPath]
  · simp +contextual [withMore, IsPath]

end Parser

end SourceGen
