import SourceGen.Proofs.Token.Lexer
import SourceGen.Syntax.Text

/-!
# Syntax as tokens

Syntax whose lexemes are those of a text is printed as tokens (`Node.allSound_pieces`), brackets that it needs where it
stands included.
-/

namespace SourceGen

open LexemeKind

namespace LexemeKind

variable {ks js : List LexemeKind}

lemma allSound_of_present (h : AllSound (present ks)) : AllSound ks := by
  unfold present at h
  split at h
  · exact absurd (h _ List.mem_cons_self) id
  · exact h

lemma plain_of_ofChar {c : Char} (h : (ofChar c).IsSound) : c ∉ [' ', '\\', '\x7b', '"'] := by
  intro rough
  have none : ∀ d ∈ [' ', '\\', '\x7b', '"'], ¬(ofChar d).IsSound := by
    simp [ofChar, IsSound, isSmooth]
  exact none c rough h

lemma isToken_of_ofOp {s : String} (h : AllSound (ofOp s)) : IsToken s.toList :=
  .of_plain fun _ hc => plain_of_ofChar (h _ (List.mem_map_of_mem hc))

lemma isWord_of_ofLiteral {s : String} (h : (ofLiteral s).IsSound) (ne_nil : s.toList ≠ []) : IsWord s.toList := by
  rw [ofLiteral] at h
  split at h
  · next number =>
    have smooth : Smooth s.toList := fun c hc =>
      isSmooth_of (p := fun c => c.isAlphanum || c = '_' || c = '.') (by decide) (List.all_eq_true.mp number c hc)
    exact smooth.isWord ne_nil
  · exact h

lemma isToken_of_ofLiteral {s : String} (h : (ofLiteral s).IsSound) : IsToken s.toList := by
  by_cases none : s.toList = []
  · simp [none]
  · exact (isWord_of_ofLiteral h none).toIsToken

lemma closed_of_ofLiteral {s : String} (h : (ofLiteral s).IsSound) : s.toList.getLast? ≠ some '=' := by
  by_cases none : s.toList = []
  · simp [none]
  · exact (isWord_of_ofLiteral h none).closed

end LexemeKind

/-! ### Printed tokens -/

namespace Form

variable {parts : List (Node × List Piece)} {x : Node × List Piece} {p : Piece}

/-- Elements are made of the printed parts. -/
lemma mem_elements (hx : x ∈ elements parts) (hp : p ∈ x.2) : ∃ y ∈ parts, p ∈ y.2 := by
  fun_induction elements parts with
  | case1 => cases hx
  | case2 e => exact ⟨x, hx, hp⟩
  | case3 e c rest _ ih =>
    rcases List.mem_cons.mp hx with rfl | hx
    · rcases List.mem_append.mp hp with hp | hp
      · exact ⟨e, by simp, hp⟩
      · exact ⟨c, by simp, hp⟩
    · obtain ⟨y, hy, hp⟩ := ih hx
      exact ⟨y, by simp [hy], hp⟩
  | case4 e c rest _ ih =>
    rcases List.mem_cons.mp hx with rfl | hx
    · exact ⟨x, by simp, hp⟩
    · obtain ⟨y, hy, hp⟩ := ih hx
      exact ⟨y, List.mem_cons_of_mem _ hy, hp⟩

lemma mem_lifetimesFirst (h : p ∈ lifetimesFirst parts) : p = .alone "," ∨ ∃ y ∈ parts, p ∈ y.2 := by
  have part {select : Node × List Piece → Bool} (h : p ∈ ((elements parts).filter select).flatMap (·.2)) :
      ∃ y ∈ parts, p ∈ y.2 := by
    obtain ⟨x, hx, hp⟩ := List.mem_flatMap.mp h
    exact mem_elements (List.mem_filter.mp hx).1 hp
  rw [lifetimesFirst] at h
  split at h
  · exact .inr ((List.mem_append.mp h).elim part part)
  · rcases List.mem_append.mp h with h | h
    · exact .inr (part h)
    · exact (List.mem_cons.mp h).imp_right part

/-- A form prints its parts, and perhaps a comma. -/
lemma mem_arrange {f : Form} (h : p ∈ f.arrange parts) : p = .alone "," ∨ ∃ y ∈ parts, p ∈ y.2 := by
  have plain (h : p ∈ parts.flatMap (·.2)) : p = .alone "," ∨ ∃ y ∈ parts, p ∈ y.2 := .inr (List.mem_flatMap.mp h)
  have angles (h : p ∈ (betweenAngles parts).1 ++ lifetimesFirst (betweenAngles parts).2.1 ++ (betweenAngles parts).2.2) :
      p = .alone "," ∨ ∃ y ∈ parts, p ∈ y.2 := by
    have behind {y : Node × List Piece} (h : y ∈ parts.dropWhile (!·.1.isOp "<")) : y ∈ parts :=
      (List.dropWhile_suffix _).subset h
    simp only [betweenAngles, List.mem_append] at h
    rcases h with (h | h) | h
    · obtain ⟨y, hy, hp⟩ := List.mem_flatMap.mp h
      rcases List.mem_append.mp hy with hy | hy
      · exact .inr ⟨y, (List.takeWhile_prefix _).subset hy, hp⟩
      · exact .inr ⟨y, behind (List.mem_of_mem_take hy), hp⟩
    · refine (mem_lifetimesFirst h).imp_right ?_
      rintro ⟨y, hy, hp⟩
      exact ⟨y, behind (List.mem_of_mem_tail ((List.dropLast_sublist _).subset hy)), hp⟩
    · obtain ⟨y, hy, hp⟩ := List.mem_flatMap.mp h
      exact .inr ⟨y, behind (List.mem_of_mem_tail (List.mem_of_mem_drop hy)), hp⟩
  cases f with
  | silent => cases h
  | generics =>
    change p ∈ if (betweenAngles parts).2.1.isEmpty then []
      else (betweenAngles parts).1 ++ lifetimesFirst (betweenAngles parts).2.1 ++ (betweenAngles parts).2.2 at h
    split at h
    · cases h
    · exact angles h
  | angled => exact angles h
  | whereClause | bounded =>
    rw [arrange] at h
    split at h
    · cases h
    · exact plain h
  | _ => exact plain h

end Form

/-- A literal is printed as two tokens if it has a sign. -/
lemma Leaf.pieces_of_signed {s : String} {digits : List Char} (signed : s.toList = '-' :: digits) :
    (Leaf.literal s).pieces = [.alone "-", .alone (String.ofList digits)] := by
  simp only [pieces, signed]

lemma Leaf.pieces_of_unsigned {s : String} (unsigned : s.startsWith "-" = false) :
    (Leaf.literal s).pieces = [.alone s] := by
  rw [pieces]
  split
  · next signed => simp [signed] at unsigned
  · rfl

/-- What is printed of a literal. -/
lemma Leaf.pieces_literal (s : String) :
    (Leaf.literal s).pieces = [.alone s] ∧
      ((s = "true" ∨ s = "false") ∨ (Leaf.literal s).lexemes = [ofLiteral s]) ∨
    ∃ digits, (Leaf.literal s).pieces = [.alone "-", .alone (String.ofList digits)] ∧
      (Leaf.literal s).lexemes = [ofChar '-', ofLiteral (String.ofList digits)] := by
  rcases lexemes_literal s with ⟨truth, -⟩ | ⟨digits, signed, read⟩ | ⟨unsigned, read⟩
  · refine .inl ⟨pieces_of_unsigned ?_, .inl truth⟩
    rcases truth with rfl | rfl <;> simp [Bool.eq_false_iff, String.startsWith_string_iff]
  · exact .inr ⟨digits, pieces_of_signed signed, read⟩
  · exact .inl ⟨pieces_of_unsigned unsigned, .inr read⟩

lemma Leaf.allSound_pieces {l : Leaf} (sound : AllSound l.lexemes) : Piece.AllSound l.pieces := by
  cases l with
  | word s => simpa [pieces] using (sound (.word s) (by simp [lexemes])).toIsToken
  | lifetime s => simpa [pieces] using (sound (.lifetime s) (by simp [lexemes])).toIsToken
  | literal s =>
    rcases pieces_literal s with ⟨printed, truth | read⟩ | ⟨digits, printed, read⟩ <;> rw [printed]
    · rcases truth with rfl | rfl <;> simp
    · rw [read, allSound_cons] at sound
      simpa using isToken_of_ofLiteral sound.1
    · rw [read, allSound_cons, allSound_cons] at sound
      simpa using isToken_of_ofLiteral sound.2.1
  | op s => simpa [pieces] using isToken_of_ofOp sound

namespace TokenTree

/-- A literal that is kept as written is a word. -/
lemma isWord_literal {s : String} (sound : AllSound (TokenTree.literal s).lexemes) : IsWord s.toList := by
  rcases lexemes_literal s with read | ⟨there, read | read⟩ <;> rw [read, allSound_cons] at sound
  · exact absurd sound.1 id
  · exact sound.1
  · exact isWord_of_ofLiteral sound.1 (by simpa using there)

lemma isSound_piece {t : TokenTree} (sound : AllSound t.lexemes) : t.piece.IsSound := by
  cases t with
  | word s => exact Piece.isSound_alone.mpr (sound (.word s) (by simp [lexemes])).toIsToken
  | lifetime s => exact Piece.isSound_alone.mpr (sound (.lifetime s) (by simp [lexemes])).toIsToken
  | literal s => exact Piece.isSound_alone.mpr (isWord_literal sound).toIsToken
  | punct c joint =>
    refine ⟨.of_plain fun d hd => ?_, fun _ => by simp [piece]⟩
    obtain rfl : d = c := by simpa [piece] using hd
    exact plain_of_ofChar (sound _ List.mem_cons_self)
  | group d inner => exact Piece.isSound_enclose d _

lemma allSound_pieces {ts : List TokenTree} (sound : AllSound (lexemesAll ts)) : Piece.AllSound (pieces ts) := by
  induction ts with
  | nil => exact Piece.allSound_nil
  | cons t ts ih =>
    rw [lexemesAll, allSound_append] at sound
    exact Piece.allSound_cons.mpr ⟨isSound_piece sound.1, ih sound.2⟩

end TokenTree

@[simp] lemma Visibility.allSound_pieces (v : Visibility) : Piece.AllSound v.pieces := by
  cases v <;> simp (disch := decide) [pieces]

@[simp] lemma Attr.allSound_pieces (a : Attr) : Piece.AllSound a.pieces := by
  obtain ⟨inner, path, args⟩ := a
  cases inner <;> simp (disch := decide) [pieces]

@[simp] lemma Attr.allSound_piecesAll (inner : Bool) (attrs : List Attr) :
    Piece.AllSound (Attr.piecesAll inner attrs) := by
  induction attrs with
  | nil => exact Piece.allSound_nil
  | cons a as ih =>
    rw [piecesAll, Piece.allSound_append]
    refine ⟨?_, ih⟩
    split <;> simp

lemma UseTree.allSound_pieces : ∀ {t : UseTree}, AllSound t.lexemes → Piece.AllSound t.pieces
  | .step name rest, sound => by
    simp only [lexemes, List.cons_append, allSound_cons, allSound_append] at sound
    simpa (disch := decide) [pieces, UseTree.allSound_pieces sound.2.2] using sound.1.toIsToken
  | .leaf name, sound => by simpa [pieces] using (sound (.word name) (by simp [lexemes])).toIsToken
  | .rename name other, sound => by
    simp only [lexemes, allSound_cons] at sound
    simpa (disch := decide) [pieces] using ⟨sound.1.toIsToken, sound.2.2.1.toIsToken⟩
  | .glob, _ => by simp (disch := decide) [pieces]
  | .group _ _, _ => by simp [pieces]

/-- What is printed without having been read is printed as tokens. -/
lemma Node.allSound_of_phantom {parts : List Node} (sound : AllSound (Node.form .phantom parts).lexemes) :
    AllSound (Node.lexemesAll parts) := by
  rw [lexemes] at sound
  split at sound
  · next fillers =>
    intro k hk
    have filler := List.all_eq_true.mp fillers k hk
    cases k with
    | number => trivial
    | word s =>
      obtain rfl : s = "_" := by simpa [isFiller] using filler
      exact Smooth.isWord (by decide) (by decide)
    | mark c =>
      rcases (by simpa [isFiller] using filler : c = ':' ∨ c = '.') with rfl | rfl <;> rfl
    | _ => cases filler
  · exact absurd (sound _ List.mem_cons_self) id

@[simp] lemma Node.allSound_inParens (e : Node) : Piece.AllSound (Node.inParens e).pieces :=
  List.forall_mem_singleton.mpr (Piece.isSound_enclose _ _)

lemma Form.allSound_arrange {f : Form} {parts : List (Node × List Piece)} (sound : ∀ x ∈ parts, Piece.AllSound x.2) :
    Piece.AllSound (f.arrange parts) := by
  intro p hp
  rcases mem_arrange hp with rfl | ⟨x, hx, hp⟩
  · exact Piece.isSound_alone.mpr (.of_all (by decide))
  · exact sound x hx p hp

-- what a trait has before its keyword is printed as it is, and everything else with its brackets
mutual

/-- Syntax whose lexemes are those of a text is printed as tokens, with the brackets that it needs or without. -/
lemma Node.allSound_pieces : ∀ n : Node, AllSound n.lexemes →
    Piece.AllSound n.pieces ∧ ∀ firm c, Piece.AllSound (n.groupedIn firm c).pieces
  | .leaf _, sound => ⟨Leaf.allSound_pieces sound, fun _ _ => Leaf.allSound_pieces sound⟩
  | .raw _, sound => ⟨TokenTree.allSound_pieces sound, fun _ _ => TokenTree.allSound_pieces sound⟩
  | .group _ _, _ => by simp [Node.pieces, Node.groupedIn]
  | .form f parts, sound => by
    have inside : AllSound (Node.lexemesAll parts) := by
      cases f with
      | phantom => exact Node.allSound_of_phantom sound
      | _ => exact sound
    obtain ⟨plain, grouped⟩ := Node.allSound_piecesEach parts inside
    refine ⟨Form.allSound_arrange plain, fun firm c => ?_⟩
    rw [Node.groupedIn]
    split
    · exact Node.allSound_inParens _
    · exact Form.allSound_arrange (grouped firm _)
  | .attr a, _ => ⟨a.allSound_pieces, fun firm _ => (a.grouped firm).allSound_pieces⟩
  | .item i, sound => (Item.allSound_pieces i sound).imp_right fun grouped firm _ => grouped firm

lemma Node.allSound_piecesEach : ∀ ns : List Node, AllSound (Node.lexemesAll ns) →
    (∀ x ∈ Node.piecesEach ns, Piece.AllSound x.2) ∧
      ∀ firm os, ∀ x ∈ Node.piecesEach (Node.groupedEach firm os ns), Piece.AllSound x.2
  | [], _ => ⟨List.forall_mem_nil _, fun _ os => by cases os <;> exact List.forall_mem_nil _⟩
  | n :: ns, sound => by
    rw [Node.lexemesAll, allSound_append] at sound
    obtain ⟨first, firsts⟩ := Node.allSound_pieces n sound.1
    obtain ⟨rest, rests⟩ := Node.allSound_piecesEach ns sound.2
    refine ⟨List.forall_mem_cons.mpr ⟨first, rest⟩, fun firm os => ?_⟩
    cases os with
    | nil => exact List.forall_mem_cons.mpr ⟨firsts firm _, rests firm []⟩
    | cons o os =>
      refine List.forall_mem_cons.mpr ⟨?_, rests firm os⟩
      split
      · exact Node.allSound_inParens _
      · exact firsts firm _

lemma Item.allSound_pieces : ∀ i : Item, AllSound i.lexemes →
    Piece.AllSound i.pieces ∧ ∀ firm, Piece.AllSound (i.grouped firm).pieces
  | .mk attrs vis decl, sound => by
    have inside := allSound_of_present sound
    rw [allSound_append] at inside
    obtain ⟨plain, grouped⟩ := Decl.allSound_pieces decl _ inside.2
    simp [Item.grouped, Item.pieces, plain, grouped]

lemma Decl.allSound_pieces : ∀ (d : Decl) (inner : List LexemeKind), AllSound (d.lexemes inner) →
    (∀ within, Piece.AllSound (d.pieces within)) ∧ ∀ firm within, Piece.AllSound ((d.grouped firm).pieces within)
  | .useDecl rooted tree, _, sound => by
    simp only [Decl.lexemes, allSound_append] at sound
    cases rooted <;> simp [Decl.grouped, Decl.pieces, UseTree.allSound_pieces sound.1.1.2]
  | .externCrate name rename, _, sound => by
    cases rename <;> simp only [Decl.lexemes, allSound_append, allSound_cons] at sound
    · simp [Decl.grouped, Decl.pieces, sound.1.1.1.2.2.1.toIsToken]
    · simp [Decl.grouped, Decl.pieces, sound.1.1.1.2.2.1.toIsToken, sound.1.1.2.2.1.toIsToken]
  | .module isUnsafe name none, _, sound => by
    simp only [Decl.lexemes, allSound_append, allSound_cons] at sound
    cases isUnsafe <;> simp [Decl.grouped, Decl.pieces, sound.1.2.2.1.toIsToken]
  | .module isUnsafe name (some items), _, sound => by
    simp only [Decl.lexemes, allSound_append, allSound_cons] at sound
    cases isUnsafe <;> simp [Decl.grouped, Decl.pieces, sound.1.2.2.1.toIsToken]
  | .data kind name generics body, _, sound => by
    simp only [Decl.lexemes, allSound_append, allSound_cons] at sound
    obtain ⟨⟨⟨⟨-, named, -⟩, parameters⟩, fields⟩, -⟩ := sound
    have keyword : IsToken kind.keyword.toList := by cases kind <;> simp [DataKind.keyword]
    obtain ⟨plain, grouped⟩ := Node.allSound_pieces generics parameters
    obtain ⟨plainBody, groupedBody⟩ := Node.allSound_piecesEach body fields
    simp [Decl.grouped, Decl.pieces, keyword, named.toIsToken, plain, grouped, Piece.allSound_flatMap plainBody,
      Piece.allSound_flatMap (groupedBody _ _)]
  | .trait qualifiers name generics supertraits whereClause members, _, sound => by
    simp only [Decl.lexemes, allSound_append, allSound_cons] at sound
    obtain ⟨⟨⟨⟨⟨⟨⟨⟨before, -, named, -⟩, parameters⟩, bounds⟩, conditions⟩, -⟩, -⟩, -⟩, -⟩ := sound
    have before := Piece.allSound_flatMap (Node.allSound_piecesEach qualifiers before).1
    obtain ⟨plain₁, grouped₁⟩ := Node.allSound_pieces generics parameters
    obtain ⟨plain₂, grouped₂⟩ := Node.allSound_pieces supertraits bounds
    obtain ⟨plain₃, grouped₃⟩ := Node.allSound_pieces whereClause conditions
    simp [Decl.grouped, Decl.pieces, before, named.toIsToken, plain₁, grouped₁, plain₂, grouped₂, plain₃, grouped₃]
  | .impl header selfType whereClause members, _, sound => by
    simp only [Decl.lexemes, allSound_append, allSound_cons] at sound
    obtain ⟨⟨⟨⟨⟨⟨before, implementor⟩, conditions⟩, -⟩, -⟩, -⟩, -⟩ := sound
    obtain ⟨plain₁, grouped₁⟩ := Node.allSound_piecesEach header before
    obtain ⟨plain₂, grouped₂⟩ := Node.allSound_pieces selfType implementor
    obtain ⟨plain₃, grouped₃⟩ := Node.allSound_pieces whereClause conditions
    simp [Decl.grouped, Decl.pieces, Piece.allSound_flatMap plain₁, Piece.allSound_flatMap (grouped₁ _ _), plain₂,
      grouped₂, plain₃, grouped₃]
  | .plain kind name parts, _, sound => by
    simp only [Decl.lexemes, allSound_append] at sound
    obtain ⟨plain, grouped⟩ := Node.allSound_piecesEach parts sound.1
    exact ⟨fun _ => Piece.allSound_flatMap plain, fun firm _ => Piece.allSound_flatMap (grouped firm [])⟩
  | .verbatim tokens, _, sound => by
    simp only [Decl.lexemes, allSound_append] at sound
    exact ⟨fun _ => TokenTree.allSound_pieces sound.1, fun _ _ => TokenTree.allSound_pieces sound.1⟩

end

end SourceGen
