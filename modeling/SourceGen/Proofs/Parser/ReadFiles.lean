import SourceGen.Proofs.Parser.Parts
import SourceGen.Proofs.Parser.ReadItems
import SourceGen.Proofs.Token.Lexer
import SourceGen.Syntax.Parser.File

/-!
# Reading files

The parsers of statements and files read their results, and so does the whole grammar, up to any nesting depth. The
lexemes of a file that is parsed are those of its tokens, and those that its text is cut into
(`ParsedText.lexemes_of_parse`).
-/

set_option synthInstance.maxHeartbeats 400000
set_option synthInstance.maxSize 10000000

namespace SourceGen

open LexemeKind

namespace Parser

attribute [local simp] Node.lexemes Node.lexemesAll

variable (g : Grammar) [g.Reads]

/-! ### Statements -/

instance reads_letStmt (attrs : List Attr) : Reads (letStmt g attrs)
    (fun n ks => n.lexemes = attrs.flatMap Attr.lexemes ++ ks ∧ n.isAbsent = false) True := by
  unfold letStmt
  dsimp only
  refine reads_of_step ?_
  simp +contextual

lemma lexemes_attachAttrs (attrs : List Attr) (e : Node) :
    (attachAttrs attrs e).lexemes = attrs.flatMap Attr.lexemes ++ e.lexemes := by
  fun_induction attachAttrs attrs e with
  | case1 | case2 | case3 => simp_all
  | case4 => simp
  | case5 => simp

instance reads_exprStmt (attrs : List Attr) : Reads (exprStmt g attrs)
    (fun n ks => n.lexemes = attrs.flatMap Attr.lexemes ++ ks ∧ n.isAbsent = false) True := by
  have (o : Input) (e semi : Node) (js : List LexemeKind) : Step o js
      (fun n ks => n.lexemes = attrs.flatMap Attr.lexemes ++ ks ∧ n.isAbsent = false)
      (match e with
        | .form .macroCall _ =>
          if !semi.isAbsent || e.isBraceMacro then return .form .macroStmt [.form .attrs [], e, semi]
          else return .form .exprStmt [e, semi]
        | .form .attributed [as, m] =>
          match m with
          | .form .macroCall _ =>
            if !semi.isAbsent || m.isBraceMacro then return .form .macroStmt [as, m, semi]
            else return .form .exprStmt [e, semi]
          | _ => return .form .exprStmt [e, semi]
        | _ => return .form .exprStmt [e, semi] : Parser Node)
      (e.lexemes ++ semi.lexemes = attrs.flatMap Attr.lexemes ++ js) := by
    split
    · exact .weaken inferInstance (by simp +contextual)
    · split
      · exact .weaken inferInstance (by simp +contextual)
      · exact .weaken inferInstance (by simp +contextual)
    · exact .weaken inferInstance (by simp +contextual)
  have early (e : Node) : (if attrs.isEmpty then e else attachAttrs attrs e).lexemes =
      attrs.flatMap Attr.lexemes ++ e.lexemes := by
    split
    · simp_all
    · exact lexemes_attachAttrs attrs e
  unfold exprStmt
  dsimp only
  refine reads_of_step ?_
  simp +contextual [-List.isEmpty_iff, early]

instance reads_macroStart : Reads macroStart (fun _ ks => ks = []) True := reads_nothing fun {s _ _} ok => by
  unfold macroStart at ok
  split at ok
  · cases ok
    rfl
  · dsimp only at ok
    split_ifs at ok <;> cases ok <;> rfl

instance step_itemStatement {o start : Input} {attrs : List Attr} {ks : List LexemeKind} [Begun o [] start] :
    Step o ks Spells (do return .item (← itemAfter g start attrs) : Parser Node) (Outer attrs ks) :=
  have (i : Item) (js : List LexemeKind) : Step o js Spells (pure (.item i) : Parser Node) (SpellsItem i js) :=
    .weaken .pure (by simp +contextual)
  .andThen

instance clean_itemStatement {start : Input} {attrs : List Attr} :
    Clean (do return .item (← itemAfter g start attrs) : Parser Node) := .bind

instance reads_statement : Reads (statement g) Spells True := by
  unfold statement
  refine reads_of_step ?_
  simp +contextual

lemma reads_statementsFor (n : Nat) : Reads (statementsFor g n) Spells True := by
  induction n with
  | zero =>
    unfold statementsFor
    exact reads_of_step (by simp)
  | succ n ih =>
    unfold statementsFor
    refine reads_of_step ?_
    simp +contextual [TokenTree.lexemesAll]

instance reads_statements (b : Bool) : Reads (statements g b) Spells True := by
  have := reads_statementsFor g
  unfold statements
  refine reads_of_step ?_
  simp +contextual

lemma reads_failing {α : Type} {R : α → List LexemeKind → Prop} {P : Prop} : Reads (fail : Parser α) R P where
  clean := by
    intro _ _ _ ok
    cases ok
  run := by
    intro _ _ _ _ ok
    cases ok

instance reads_grammar (n : Nat) : (grammar n).Reads := by
  induction n with
  | zero =>
    constructor
    all_goals intros; exact reads_failing
  | succ n ih =>
    exact ⟨reads_type _, reads_bound _, reads_pattern _, reads_expr _, reads_operand _, reads_earlyExpr _,
      reads_operators _, reads_statements _, reads_item _⟩

/-- The spelling of a file. -/
@[simp] abbrev SpellsFile (f : SourceFile) (ks : List LexemeKind) : Prop := ks = f.lexemes ∧ ∀ i ∈ f.items, i.Ends

instance reads_file : Reads (file g) SpellsFile True := by
  unfold file
  refine reads_of_step ?_
  simp +contextual [SourceFile.lexemes, lexemes_flatMap_items]
  exact fun attrs inner items _ => (Attr.lexemesAll_eq inner).1.symm

/-- The lexemes of a file that is parsed are those of its tokens. -/
lemma spells_of_run {trees : List TokenTree} {f : SourceFile}
    (placed : LexemeKind.Placed (TokenTree.lexemesAll trees)) (ok : run file trees = .ok f) :
    SpellsFile f (TokenTree.lexemesAll trees) := by
  rw [run, runAll] at ok
  split at ok
  · next b t parsed =>
    split at ok
    · cases ok
    · next clean =>
      split at ok
      · next finished =>
        cases ok
        obtain ⟨ks, ⟨ts, rest, rfl⟩, result⟩ := (reads_file (grammar (depthFor trees))).run trivial parsed clean placed
        rw [List.isEmpty_iff.mp finished, List.append_nil] at rest
        rwa [← rest] at result
      · cases ok
  · cases ok

end Parser

/-- What is known of a text that is parsed: the lexemes of its file are those that the text is cut into, and every item
ends in `;` or in braces. -/
lemma ParsedText.lexemes_of_parse {text : String} {p : ParsedText} (h : parse text = .ok p) :
    p.body = bodyOf text.toList ∧ p.offsets = ((Lexeme.cut p.body).map (·.1)).toArray ∧
      p.file.lexemes = (Lexeme.cut p.body).flatMap (·.2.kinds) ∧ ∀ i ∈ p.file.items, i.Ends := by
  rw [parse] at h
  split at h
  · cases h
  · next stream lexed =>
    split at h
    · cases h
    · next file parsed =>
      cases h
      obtain ⟨offsets, lexemes⟩ := TokenStream.lexemesAll_of_ofChars lexed
      obtain ⟨spells, ends⟩ := Parser.spells_of_run (lexemes ▸ (Lexeme.allSound_cut _).placed) parsed
      exact ⟨rfl, offsets, spells ▸ lexemes, ends⟩

/-- The lexemes of a file that is parsed are printed as tokens. -/
lemma ParsedText.allSound_lexemes {text : String} {p : ParsedText} (h : parse text = .ok p) :
    AllSound p.file.lexemes := by
  rw [(lexemes_of_parse h).2.2.1]
  exact Lexeme.allSound_cut p.body

end SourceGen
