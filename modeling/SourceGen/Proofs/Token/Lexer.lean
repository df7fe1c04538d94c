import SourceGen.Proofs.Syntax.Lexemes
import SourceGen.Proofs.Token.Literal
import SourceGen.Token.Lexer

/-!
# What lexing keeps

Nesting keeps the lexemes and their order (`Lexeme.lexemesAll_of_nest`), so the lexemes below the trees of a text are
those that it is cut into (`TokenStream.lexemesAll_of_ofChars`). Each is read where its offset says
(`Lexeme.readAt_of_mem_cut`), and it is one lexeme of a tree, printed as a token.
-/

namespace SourceGen

open SourceGen.Text

/-- Whether a lexeme is printed as a token. -/
def LexemeKind.IsSound : LexemeKind → Prop
  | .word s | .lifetime s | .text s => IsWord s.toList
  | .mark c => isSmooth c = true
  | .number | .opening _ | .closing _ => True
  | .nowhere => False

namespace LexemeKind

/-- Whether all lexemes are printed as tokens. -/
def AllSound (ks : List LexemeKind) : Prop := ∀ k ∈ ks, k.IsSound

variable {ks js : List LexemeKind}

@[simp] lemma allSound_nil : AllSound [] := List.forall_mem_nil _

@[simp] lemma allSound_cons {k : LexemeKind} : AllSound (k :: ks) ↔ k.IsSound ∧ AllSound ks := List.forall_mem_cons

@[simp] lemma allSound_append : AllSound (ks ++ js) ↔ AllSound ks ∧ AllSound js := List.forall_mem_append

/-- What is printed has a place. -/
lemma AllSound.placed (h : AllSound ks) : Placed ks := fun astray => h _ astray

end LexemeKind

/-- The lexemes that a lexeme of a text is below a tree. -/
def Lexeme.kinds : Lexeme → List LexemeKind
  | .leaf t => t.lexemes
  | .opening d => [.opening d]
  | .closing d => [.closing d]

/-- Whether a token is one lexeme, and printed as one. -/
def TokenTree.IsRead (t : TokenTree) : Prop := ∃ k, t.lexemes = [k] ∧ k.IsSound

namespace Lexeme

variable {cs rest : List Char}

/-! ### Tokens -/

lemma isSound_ofChar {c : Char} (h : isPunctuation c = true) : (LexemeKind.ofChar c).IsSound := by
  unfold LexemeKind.ofChar
  split
  · exact (by decide : isSmooth '.' = true)
  · trivial
  · trivial
  · next other _ _ =>
    exact isSmooth_of (p := fun c => isPunctuation c && c != '=') (by decide)
      (Bool.and_eq_true_iff.mpr ⟨h, bne_iff_ne.mpr other⟩)

lemma of_punctuation? {c : Char} (h : punctuation? cs = some (c, rest)) : cs = c :: rest ∧ isPunctuation c = true := by
  rw [punctuation?.eq_def] at h
  split at h
  · cases h
  · cases h
  · split_ifs at h with mark
    cases h
    exact ⟨rfl, mark⟩
  · cases h

lemma of_identifier? {name : List Char} (h : identifier? cs = some (name, rest)) :
    cs = name ++ rest ∧ Smooth name ∧ name ≠ [] := by
  have plain {cs rest : List Char} (leaves : Literal.LeavesFewer cs rest) :
      cs = cs.take (cs.length - rest.length) ++ rest ∧ Smooth (cs.take (cs.length - rest.length)) ∧
        cs.take (cs.length - rest.length) ≠ [] := by
    obtain ⟨t, rfl, word⟩ := leaves.exists_word
    simpa using word
  rw [identifier?.eq_def] at h
  dsimp only at h
  split at h
  · split at h
    · next after =>
      split_ifs at h
      cases h
      obtain ⟨eq, smooth, -⟩ := plain (Literal.leaves_afterIdentifier after)
      exact ⟨congrArg (['r', '#'] ++ ·) eq, by simp [smooth]; decide, List.cons_ne_nil _ _⟩
    · cases h
  · obtain ⟨rest, after, ⟨⟩⟩ := Option.map_eq_some_iff.mp h
    exact plain (Literal.leaves_afterIdentifier after)

lemma isRead_literal {s : String} (word : IsWord s.toList) (unsigned : s.startsWith "-" = false) :
    (TokenTree.literal s).IsRead := by
  have there : s ≠ "" := fun none => word.ne_nil (by simp [none])
  rw [TokenTree.IsRead, TokenTree.lexemes, if_neg (by simp [there, unsigned])]
  rcases Leaf.lexemes_literal s with ⟨-, read⟩ | ⟨digits, signed, -⟩ | ⟨-, read⟩
  · exact ⟨_, read, word⟩
  · simp [signed] at unsigned
  · refine ⟨_, read, ?_⟩
    rw [LexemeKind.ofLiteral]
    split
    · trivial
    · exact word

/-- A literal at the start of characters has no sign. -/
lemma isRead_of_after (h : Literal.after cs = some rest) :
    (TokenTree.literal (String.ofList (cs.take (cs.length - rest.length)))).IsRead ∧ rest <:+ cs := by
  obtain ⟨t, rfl, word⟩ := Literal.isWord_of_after h
  refine ⟨isRead_literal (by simpa using word) ?_, List.suffix_append t rest⟩
  rw [Bool.eq_false_iff, ne_eq, String.startsWith_string_iff]
  rintro ⟨digits, signed⟩
  obtain rfl : '-' :: digits = t := by simpa using signed
  simp [Literal.after, Literal.afterText, Literal.afterCharacter, Literal.afterFloatDigits, Literal.afterWholeDigits,
    Literal.afterDigits] at h

lemma isRead_of_mark? {t : TokenTree} (h : mark? cs = some (t, rest)) : t.IsRead ∧ rest <:+ cs := by
  rw [mark?] at h
  split at h
  · next behind quote =>
    obtain ⟨rfl, mark⟩ := of_punctuation? quote
    split at h
    · next name after identifier =>
      obtain ⟨rfl, smooth, -⟩ := of_identifier? identifier
      dsimp only at h
      split_ifs at h <;> cases h
      · exact ⟨⟨_, rfl, isSound_ofChar mark⟩, List.suffix_cons _ _⟩
      · refine ⟨⟨_, rfl, ?_⟩, (List.suffix_append name _).trans (List.suffix_cons _ _)⟩
        have word : IsWord ('\'' :: name) := (Smooth.cons.mpr ⟨by decide, smooth⟩).isWord (List.cons_ne_nil _ _)
        simpa [LexemeKind.IsSound] using word
    · cases h
  · next c behind _ punctuation =>
    obtain ⟨rfl, mark⟩ := of_punctuation? punctuation
    cases h
    exact ⟨⟨_, rfl, isSound_ofChar mark⟩, List.suffix_cons _ _⟩
  · cases h

lemma isRead_of_leaf? {t : TokenTree} (h : leaf? cs = some (t, rest)) : t.IsRead ∧ rest <:+ cs := by
  rw [leaf?] at h
  split at h
  · next literal =>
    cases h
    exact isRead_of_after literal
  · split at h
    · next mark =>
      cases h
      exact isRead_of_mark? mark
    · split_ifs at h
      obtain ⟨⟨name, rest⟩, identifier, ⟨⟩⟩ := Option.map_eq_some_iff.mp h
      obtain ⟨rfl, smooth, ne_nil⟩ := of_identifier? identifier
      exact ⟨⟨_, rfl, by simpa [LexemeKind.IsSound] using smooth.isWord ne_nil⟩, List.suffix_append name rest⟩

/-! ### Blanks and comments -/

lemma suffix_of_blockComment {depth : Nat} {content : List Char}
    (h : Blank.blockComment depth cs = some (content, rest)) : rest <:+ cs := by
  fun_induction Blank.blockComment depth cs generalizing content with
  | case1 => cases h
  | case3 depth cs =>
    cases h
    exact (List.suffix_cons '/' _).trans (List.suffix_cons '*' _)
  | case2 depth cs ih | case4 depth cs _ ih =>
    obtain ⟨⟨content, rest⟩, inside, ⟨⟩⟩ := Option.map_eq_some_iff.mp h
    exact (ih inside).trans ((List.suffix_cons _ _).trans (List.suffix_cons _ _))
  | case5 depth c cs _ _ ih =>
    obtain ⟨⟨content, rest⟩, inside, ⟨⟩⟩ := Option.map_eq_some_iff.mp h
    exact (ih inside).trans (List.suffix_cons _ _)

lemma suffix_lineComment (cs : List Char) : (Blank.lineComment cs).2 <:+ cs := List.dropWhile_suffix _

lemma suffix_of_documentation? {content : List Char} {inner : Bool}
    (h : documentation? cs = some (content, inner, rest)) : rest <:+ cs := by
  have behind {c d e : Char} {r : List Char} (h : rest <:+ r) : rest <:+ c :: d :: e :: r :=
    h.trans (((List.suffix_cons e r).trans (List.suffix_cons d _)).trans (List.suffix_cons c _))
  rw [documentation?.eq_def] at h
  dsimp only at h
  split at h
  · cases h
    exact behind (suffix_lineComment _)
  · obtain ⟨⟨content, rest⟩, block, ⟨⟩⟩ := Option.map_eq_some_iff.mp h
    exact behind (suffix_of_blockComment block)
  · split_ifs at h
    cases h
    exact behind (suffix_lineComment _)
  · split_ifs at h
    obtain ⟨⟨content, rest⟩, block, ⟨⟩⟩ := Option.map_eq_some_iff.mp h
    exact behind (suffix_of_blockComment block)
  · cases h

lemma suffix_of_afterOne (h : Blank.afterOne cs = some rest) : rest <:+ cs := by
  have behind {c d : Char} {r : List Char} (h : rest <:+ r) : rest <:+ c :: d :: r :=
    h.trans ((List.suffix_cons d r).trans (List.suffix_cons c _))
  rw [Blank.afterOne.eq_def] at h
  split at h
  · split_ifs at h
    cases h
    exact behind (suffix_lineComment _)
  · cases h
    exact ((List.suffix_cons _ _).trans (List.suffix_cons _ _)).trans ((List.suffix_cons _ _).trans (List.suffix_cons _ _))
  · split_ifs at h
    obtain ⟨⟨content, rest⟩, block, ⟨⟩⟩ := Option.map_eq_some_iff.mp h
    exact behind (suffix_of_blockComment block)
  · split_ifs at h
    cases h
    exact List.suffix_cons _ _
  · cases h

lemma suffix_skip (cs : List Char) : Blank.skip cs <:+ cs := by
  fun_induction Blank.skip cs with
  | case1 cs rest one _ ih => exact ih.trans (suffix_of_afterOne one)
  | case2 | case3 => exact List.suffix_rfl

/-- What is left after all blanks does not start with a blank. -/
lemma isSpace_of_skip {c : Char} (h : Blank.skip cs = c :: rest) : Blank.isSpace c = false := by
  have one {c : Char} {rest : List Char} (space : Blank.isSpace c = true) : Blank.afterOne (c :: rest) = some rest := by
    have mark : c ≠ '/' := by
      rintro rfl
      cases space
    rw [Blank.afterOne.eq_def]
    split <;> simp_all
  fun_induction Blank.skip cs with
  | case1 cs r _ _ ih => exact ih h
  | case2 cs r some_there long =>
    subst h
    by_contra space
    rw [one (by simpa using space)] at some_there
    cases some_there
    exact long (Nat.lt_succ_self _)
  | case3 cs none_there =>
    subst h
    by_contra space
    rw [one (by simpa using space)] at none_there
    cases none_there

/-! ### Lexemes -/

/-- Whether a lexeme is one below a tree, and printed as a token. -/
def IsRead (l : Lexeme) : Prop := ∃ k, l.kinds = [k] ∧ k.IsSound

lemma isRead_ofDocumentation (content : List Char) (inner : Bool) : ∀ l ∈ ofDocumentation content inner, l.IsRead := by
  have literal : IsWord (stringLiteral content).toList := by
    have quoted : (stringLiteral content).toList = ('"' :: literalBody content) ++ '"' :: [] := by simp [stringLiteral]
    rw [quoted]
    exact isWord_of_quote (.inl rfl) .nil fun _ _ => ⟨[], _, rfl, guarded_literalBody content '"', by simp⟩
  have word : IsWord "doc".toList := Smooth.isWord (by decide) (by decide)
  have unsigned : (stringLiteral content).startsWith "-" = false := by
    rw [Bool.eq_false_iff, ne_eq, String.startsWith_string_iff]
    rintro ⟨digits, signed⟩
    simp [stringLiteral] at signed
  have mark {c : Char} (h : isPunctuation c = true) : (leaf (.punct c false)).IsRead := ⟨_, rfl, isSound_ofChar h⟩
  intro l hl
  simp only [ofDocumentation, List.mem_append, List.mem_cons, List.not_mem_nil, or_false] at hl
  rcases hl with (rfl | hl) | rfl | rfl | rfl | rfl | rfl
  · exact mark (by decide)
  · cases inner with
    | true =>
      obtain rfl := List.mem_singleton.mp hl
      exact mark (by decide)
    | false => cases hl
  · exact ⟨_, rfl, trivial⟩
  · exact ⟨_, rfl, word⟩
  · exact mark (by decide)
  · exact isRead_literal literal unsigned
  · exact ⟨_, rfl, trivial⟩

lemma isRead_of_bracket? {c : Char} {l : Lexeme} (h : bracket? c = some l) : l.IsRead := by
  rw [bracket?.eq_def] at h
  split at h <;> cases h <;> exact ⟨_, rfl, trivial⟩

lemma isRead_of_next? {ls : List Lexeme} (h : next? cs = some (ls, rest)) : (∀ l ∈ ls, l.IsRead) ∧ rest <:+ cs := by
  rw [next?.eq_def] at h
  dsimp only at h
  split at h
  · next content inner rest document =>
    cases h
    exact ⟨isRead_ofDocumentation content inner, suffix_of_documentation? (Option.filter_eq_some_iff.mp document).1⟩
  · split_ifs at h
    · cases h
      refine ⟨fun l hl => ?_, List.drop_suffix _ _⟩
      rw [List.mem_singleton.mp hl]
      refine isRead_literal ⟨?_, ?_, ?_⟩ ?_
      · exact IsToken.of_bracket (t := "(/*ERROR*/".toList) (by decide)
      · decide
      · decide
      · decide +kernel
    · split at h
      · cases h
      · next c r =>
        split at h
        · next l bracket =>
          cases h
          exact ⟨by simpa using isRead_of_bracket? bracket, List.suffix_cons _ _⟩
        · obtain ⟨⟨t, rest⟩, leaf, ⟨⟩⟩ := Option.map_eq_some_iff.mp h
          obtain ⟨read, suffix⟩ := isRead_of_leaf? leaf
          exact ⟨List.forall_mem_singleton.mpr read, suffix⟩

/-- What a lexeme is where its offset says. -/
structure ReadAt (text : List Char) (x : Nat × Lexeme) : Prop where
  isRead : x.2.IsRead
  visible : ∃ c cs, text.drop x.1 = c :: cs ∧ Blank.isSpace c = false
  next : ∃ ls rest, next? (text.drop x.1) = some (ls, rest) ∧ x.2 ∈ ls

lemma readAt_of_mem_scan {text : List Char} {offset : Nat} (here : text.drop offset = cs) :
    ∀ x ∈ (scan offset cs).1, ReadAt text x := by
  fun_induction scan offset cs with
  | case1 | case2 | case4 => exact List.forall_mem_nil _
  | case3 offset cs start offset' some_there ls rest read _ later fault rest_read ih =>
    obtain ⟨isRead, suffix⟩ := isRead_of_next? read
    have here : text.drop offset' = start := by
      rw [← List.drop_drop, here]
      exact (List.suffix_iff_eq_drop.mp (suffix_skip cs)).symm
    have behind : text.drop (offset' + (start.length - rest.length)) = rest := by
      rw [← List.drop_drop, here]
      exact (List.suffix_iff_eq_drop.mp suffix).symm
    intro x hx
    rcases List.mem_append.mp hx with hx | hx
    · obtain ⟨l, hl, rfl⟩ := List.mem_map.mp hx
      obtain ⟨c, r, first⟩ := List.exists_cons_of_ne_nil (mt List.isEmpty_iff.mpr some_there)
      exact ⟨isRead l hl, ⟨c, r, here.trans first, isSpace_of_skip first⟩, ls, rest, here ▸ read, hl⟩
    · exact ih behind x (rest_read ▸ hx)

/-- The lexemes that a text is cut into, each with its offset. A byte order mark is none, but one character. -/
def cut : List Char → List (Nat × Lexeme)
  | '\ufeff' :: cs => (scan 1 cs).1
  | cs => (scan 0 cs).1

lemma readAt_of_mem_cut (text : List Char) : ∀ x ∈ cut text, ReadAt text x := by
  unfold cut
  split
  · exact readAt_of_mem_scan rfl
  · exact readAt_of_mem_scan rfl

/-- The lexemes of a text are printed as tokens. -/
lemma allSound_cut (text : List Char) : LexemeKind.AllSound ((cut text).flatMap (·.2.kinds)) := by
  intro k hk
  obtain ⟨x, hx, here⟩ := List.mem_flatMap.mp hk
  obtain ⟨k', kinds, sound⟩ := (readAt_of_mem_cut text x hx).isRead
  rw [kinds, List.mem_singleton] at here
  exact here ▸ sound

/-- Each lexeme that is read is one, so they are counted alike below a tree. -/
lemma drop_kinds {xs : List (Nat × Lexeme)} (read : ∀ x ∈ xs, x.2.IsRead) (n : Nat) :
    (xs.flatMap (·.2.kinds)).drop n = (xs.drop n).flatMap (·.2.kinds) := by
  induction xs generalizing n with
  | nil => simp
  | cons x xs ih =>
    obtain ⟨⟨k, kinds, -⟩, read⟩ := List.forall_mem_cons.mp read
    cases n with
    | zero => rfl
    | succ n => rw [List.flatMap_cons, kinds, List.singleton_append, List.drop_succ_cons, List.drop_succ_cons, ih read]

/-! ### Nesting -/

/-- The lexemes before what is inside the innermost of the open brackets. -/
def lexemesBefore : List Pending → List LexemeKind
  | [] => []
  | p :: ps => lexemesBefore ps ++ TokenTree.lexemesAll p.before.reverse ++ [.opening p.delimiter]

/-- Nesting keeps the lexemes and their order. -/
lemma lexemesAll_of_nest {fault : Option Nat} {stack : List Pending} {done trees : List TokenTree}
    {ls : List (Nat × Lexeme)} (h : nest fault stack done ls = .ok trees) :
    TokenTree.lexemesAll trees = lexemesBefore stack ++ TokenTree.lexemesAll done.reverse ++ ls.flatMap (·.2.kinds) := by
  fun_induction nest fault stack done ls with
  | case1 | case3 | case6 | case8 => cases h
  | case2 done =>
    cases h
    simp [lexemesBefore]
  | case4 stack done _ t ls ih =>
    rw [ih h]
    simp [TokenTree.lexemesAll_append, TokenTree.lexemesAll, kinds]
  | case5 stack done _ d ls ih =>
    rw [ih h]
    simp [lexemesBefore, TokenTree.lexemesAll, kinds]
  | case7 p stack done _ ls ih =>
    rw [ih h]
    simp [lexemesBefore, TokenTree.lexemesAll_append, TokenTree.lexemesAll, TokenTree.lexemes, kinds]

end Lexeme

/-- The lexemes that a text is cut into are nested, up to the place where the lexemes end early. -/
lemma TokenStream.exists_nest (cs : List Char) :
    ∃ fault, ofChars cs =
      (Lexeme.nest fault [] [] (Lexeme.cut cs)).map (⟨·, ((Lexeme.cut cs).map (·.1)).toArray⟩) := by
  fun_cases Lexeme.cut cs
  · exact ⟨_, rfl⟩
  · next unmarked =>
    rw [ofChars.eq_def]
    dsimp only
    split
    · next cs => exact absurd rfl (unmarked cs)
    · exact ⟨_, rfl⟩

/-- Nested lexemes are those of their trees. -/
lemma TokenStream.lexemesAll_of_ofChars {cs : List Char} {stream : TokenStream} (h : ofChars cs = .ok stream) :
    stream.offsets = ((Lexeme.cut cs).map (·.1)).toArray ∧
      TokenTree.lexemesAll stream.trees = (Lexeme.cut cs).flatMap (·.2.kinds) := by
  obtain ⟨fault, nested⟩ := exists_nest cs
  rw [nested] at h
  cases found : Lexeme.nest fault [] [] (Lexeme.cut cs) with
  | error e =>
    rw [found] at h
    cases h
  | ok trees =>
    rw [found] at h
    cases h
    exact ⟨rfl, by simpa [Lexeme.lexemesBefore, TokenTree.lexemesAll] using Lexeme.lexemesAll_of_nest found⟩

end SourceGen
