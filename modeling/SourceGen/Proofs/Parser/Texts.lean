import SourceGen.Proofs.Parser.Items
import SourceGen.Proofs.Syntax.Equality
import SourceGen.Proofs.Syntax.Kept

/-!
# Texts with the same tokens

Two texts have the same tokens if they differ in white space and comments between tokens only, as long as
no operator is torn apart or put together. Of such texts both can be parsed or neither, and their trees
differ in the spacing of kept tokens at most (`ParsedText.parse_of_sameTokens`). Inside a run of several
operators the grammar may see spacing: it does in `>>>` after a type, and it does not in `&&&x`. So there the
trees have to tell (`ParsedText.Reformatted`).
-/

namespace SourceGen

namespace Parser

variable {α : Type} [Spaced α]

/-- What parses of whole texts that are alike come to. -/
inductive Ends : Except Nat α → Except Nat α → Prop
  | ok {a b : α} (result : Like a b) : Ends (.ok a) (.ok b)
  | error (i : Nat) : Ends (.error i) (.error i)

/-- Parsers that are alike end alike on tokens that differ in layout only. -/
lemma ends_runAll {p q : Parser α} (alike : Alike p q) {ts us : List TokenTree}
    (same : TokenTree.relax ts = TokenTree.relax us) : Ends (runAll p ts) (runAll q us) := by
  have outcomes := alike.run (Input.like_of_eq (s := ⟨ts, 0, none⟩) (t := ⟨us, 0, none⟩) same rfl rfl)
  rw [runAll, runAll]
  generalize p ⟨ts, 0, none⟩ = x, q ⟨us, 0, none⟩ = y at outcomes
  cases outcomes with
  | error i => exact .error i
  | @ok a b s t result rest =>
    have empty : s.rest.isEmpty = t.rest.isEmpty := Input.look_eq (fun ts => ts.isEmpty) rest
    simp only [Input.leftover_eq rest, Input.index_eq rest, empty]
    cases t.leftover with
    | some i => exact .error i
    | none =>
      cases t.rest.isEmpty with
      | true => exact .ok result
      | false => exact .error t.index

/-- The grammar is as deep for tokens that differ in layout only. -/
lemma depthFor_relax (ts : List TokenTree) : depthFor (TokenTree.relax ts) = depthFor ts := by
  rw [depthFor, depthFor, TokenTree.sizeAll_relax]

/-- A parser that takes no notice of layout under any grammar that does not ends alike on such tokens. -/
lemma ends_run {p : Grammar → Parser α} (alike : ∀ (g : Grammar) [g.Blind], Alike (p g) (p g))
    {ts us : List TokenTree} (same : TokenTree.relax ts = TokenTree.relax us) : Ends (run p ts) (run p us) := by
  rw [run, run, ← depthFor_relax ts, ← depthFor_relax us, same]
  exact ends_runAll (alike _) same

end Parser

namespace ParsedText

/-- The tokens of a text up to layout, if it can be lexed. -/
def tokens? (text : String) : Option (List TokenTree) :=
  match TokenStream.ofChars (bodyOf text.toList) with
  | .ok stream => some (TokenTree.relax stream.trees)
  | .error _ => none

/-- Whether two texts can be lexed and have the same tokens. -/
def SameTokens (x y : String) : Prop := ∃ ts, tokens? x = some ts ∧ tokens? y = some ts

lemma sameTokens_iff {x y : String} : SameTokens x y ↔ (tokens? x).isSome = true ∧ (tokens? x == tokens? y) = true := by
  rw [Option.isSome_iff_exists, beq_iff_eq]
  exact ⟨fun ⟨ts, left, right⟩ => ⟨⟨ts, left⟩, left.trans right.symm⟩,
    fun ⟨⟨ts, left⟩, same⟩ => ⟨ts, left, same ▸ left⟩⟩

instance decidableSameTokens (x y : String) : Decidable (SameTokens x y) := decidable_of_iff _ sameTokens_iff.symm

/-- A text with the tokens of one that can be parsed can be parsed too, and only the spacing of kept tokens may
differ. -/
lemma parse_of_sameTokens {x y : String} (same : SameTokens x y) {p : ParsedText} (ok : parse x = .ok p) :
    ∃ q, parse y = .ok q ∧ p.file.unspaced = q.file.unspaced := by
  obtain ⟨ts, left, right⟩ := same
  rw [tokens?] at left right
  rw [parse] at ok ⊢
  cases lexed : TokenStream.ofChars (bodyOf x.toList) with
  | error offset =>
    rw [lexed] at left
    cases left
  | ok s =>
    cases lexed' : TokenStream.ofChars (bodyOf y.toList) with
    | error offset =>
      rw [lexed'] at right
      cases right
    | ok t =>
      rw [lexed] at left ok
      rw [lexed'] at right
      have relaxed : TokenTree.relax s.trees = TokenTree.relax t.trees :=
        Option.some.inj (left.trans right.symm)
      have ends := Parser.ends_run (p := Parser.file) (fun g _ => Parser.alike_file g) relaxed
      simp only at ok ⊢
      generalize Parser.run Parser.file s.trees = r, Parser.run Parser.file t.trees = r' at ends ok
      cases ends with
      | error i => cases ok
      | ok result =>
        cases ok
        exact ⟨_, rfl, result.eq⟩

/-- Whether two texts are parsed to trees that differ in the spacing of kept tokens at most. -/
def SameReading (x y : String) : Prop :=
  ∃ p q, parse x = .ok p ∧ parse y = .ok q ∧ p.file.unspaced = q.file.unspaced

instance decidableSameReading (x y : String) : Decidable (SameReading x y) :=
  match left : parse x, right : parse y with
  | .ok p, .ok q =>
    decidable_of_iff (p.file.unspaced = q.file.unspaced)
      ⟨fun like => ⟨p, q, left, right, like⟩, fun ⟨_, _, left', right', like⟩ => by
        rw [Except.ok.inj (left.symm.trans left'), Except.ok.inj (right.symm.trans right')]
        exact like⟩
  | .error _, _ => isFalse fun ⟨_, _, left', _, _⟩ => nomatch left.symm.trans left'
  | _, .error _ => isFalse fun ⟨_, _, _, right', _⟩ => nomatch right.symm.trans right'

/-- Whether two texts differ in layout only: they have the same tokens, or they are spaced otherwise inside runs
of operators as well, and read alike. -/
def Reformatted (x y : String) : Prop := SameTokens x y ∨ SameReading x y

instance decidableReformatted (x y : String) : Decidable (Reformatted x y) :=
  inferInstanceAs (Decidable (SameTokens x y ∨ SameReading x y))

/-- A text that was reformatted can be parsed if it could before, and only the spacing of kept tokens may differ. -/
lemma parse_of_reformatted {x y : String} (reformatted : Reformatted x y) {p : ParsedText} (ok : parse x = .ok p) :
    ∃ q, parse y = .ok q ∧ p.file.unspaced = q.file.unspaced := by
  rcases reformatted with same | ⟨p', q, ok', parsed, like⟩
  · exact parse_of_sameTokens same ok
  · obtain rfl : p' = p := Except.ok.inj (ok'.symm.trans ok)
    exact ⟨q, parsed, like⟩

/-- Reference operators may be put together or torn apart, but not the bracket of a type and a shift. -/
example :
    Reformatted "fn f() \x7b a&&&x; \x7d" "fn f() \x7b a && & x; \x7d" ∧
      ¬ Reformatted "fn f() \x7b a as V<u8>>>b; \x7d" "fn f() \x7b a as V<u8>> >b; \x7d" := by
  decide +kernel

end ParsedText

end SourceGen
