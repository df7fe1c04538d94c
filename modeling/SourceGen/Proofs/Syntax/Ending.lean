import SourceGen.Proofs.Syntax.Closing
import SourceGen.Proofs.Syntax.Text

/-!
# What the text of a file ends in

Syntax that does not end in the lexeme `=` is not printed with one at its end, either (`Node.Closes.closed_pieces`). So
the text of a file ends in `;`, in a square bracket or in braces behind what does not end in `=`
(`SourceFile.finished`).
-/

namespace SourceGen

open LexemeKind

/-! ### Ends of types -/

namespace TokenTree

lemma pieces_append (ts us : List TokenTree) : pieces (ts ++ us) = pieces ts ++ pieces us := by
  induction ts with
  | nil => rfl
  | cons t ts ih => rw [List.cons_append, pieces, pieces, ih, List.cons_append]

/-- A token that is not `=` does not end in it. -/
lemma exists_last {t : TokenTree} (closed : LexemeKind.Closed t.lexemes) (sound : AllSound t.lexemes) :
    ∃ c, t.piece.text.toList.getLast? = some c ∧ c ≠ '=' := by
  have word {s : String} (h : IsWord s.toList) : ∃ c, s.toList.getLast? = some c ∧ c ≠ '=' :=
    ⟨_, List.getLast?_eq_some_getLast h.ne_nil, fun eq => h.closed (eq ▸ List.getLast?_eq_some_getLast h.ne_nil)⟩
  cases t with
  | word s => exact word (sound (.word s) (by simp [lexemes]))
  | lifetime s => exact word (sound (.lifetime s) (by simp [lexemes]))
  | literal s => exact word (isWord_literal sound)
  | punct c joint =>
    refine ⟨c, by simp [piece], ?_⟩
    rintro rfl
    exact absurd rfl closed
  | group d inner =>
    rw [piece, Piece.getLast?_enclose]
    cases d
    · exact ⟨')', rfl, by decide⟩
    · exact ⟨']', rfl, by decide⟩
    · exact ⟨'\x7d', rfl, by decide⟩

/-- Kept tokens that do not end in `=` are printed so. -/
lemma closed_pieces {ts : List TokenTree} (closed : LexemeKind.Closed (lexemesAll ts)) (sound : AllSound (lexemesAll ts)) :
    Piece.Closed (pieces ts) := by
  rcases ts.eq_nil_or_concat with rfl | ⟨us, t, rfl⟩
  · exact Piece.closed_nil
  · rw [List.concat_eq_append] at closed sound ⊢
    rw [lexemesAll_append, lexemesAll, lexemesAll, List.append_nil] at closed sound
    have last : LexemeKind.Closed t.lexemes := by
      intro marked
      exact closed (by rw [List.getLast?_append, marked, Option.some_or])
    obtain ⟨c, ends, other⟩ := exists_last last (allSound_append.mp sound).2
    rw [pieces_append]
    exact Piece.closed_concat _ ends other

end TokenTree

namespace Node

lemma groupedEach_append (firm : Bool) (ns ms : List Node) :
    groupedEach firm [] (ns ++ ms) = groupedEach firm [] ns ++ groupedEach firm [] ms := by
  induction ns with
  | nil => rw [List.nil_append, groupedEach, List.nil_append]
  | cons n ns ih => rw [List.cons_append, groupedEach, groupedEach, ih, List.cons_append]

lemma piecesEach_append (ns ms : List Node) : piecesEach (ns ++ ms) = piecesEach ns ++ piecesEach ms := by
  induction ns with
  | nil => rfl
  | cons n ns ih => rw [List.cons_append, piecesEach, piecesEach, ih, List.cons_append]

/-- The printed form of parts that stand alone. -/
def written (firm : Bool) (ns : List Node) : List Piece := (piecesEach (groupedEach firm [] ns)).flatMap (·.2)

@[simp] lemma written_append (firm : Bool) (ns ms : List Node) :
    written firm (ns ++ ms) = written firm ns ++ written firm ms := by
  rw [written, groupedEach_append, piecesEach_append, List.flatMap_append, written, written]

lemma written_singleton (firm : Bool) (n : Node) : written firm [n] = (n.groupedIn firm {}).pieces := by
  simp [written, groupedEach, piecesEach]

@[simp] lemma isOp_groupedIn (firm : Bool) (c : Surroundings) (n : Node) (s : String) :
    (n.groupedIn firm c).isOp s = n.isOp s := by
  cases n with
  | form f parts =>
    rw [groupedIn]
    split <;> rfl
  | _ => rfl

/-- What is in angle brackets is printed in them, or not at all. -/
lemma closed_angles {firm : Bool} {f : Form} {parts : List Node} (angled : f.isAngled = true) (h : InAngles parts) :
    Piece.Closed (f.arrange (piecesEach (groupedEach firm [] parts))) := by
  obtain ⟨lead, params, rfl, other⟩ := h
  have before : ∀ x ∈ piecesEach (groupedEach firm [] lead), (!x.1.isOp "<") = true := by
    induction lead with
    | nil => exact List.forall_mem_nil _
    | cons n ns ih =>
      obtain ⟨first, rest⟩ := List.forall_mem_cons.mp other
      exact List.forall_mem_cons.mpr ⟨by simp [first], ih rest⟩
  have ends (ps : List Piece) : Piece.Closed (ps ++ [.alone ">"]) := Piece.closed_concat ps (c := '>') rfl (by decide)
  have plain : Piece.Closed (written firm (lead ++ op "<" :: params ++ [op ">"])) := by
    rw [written_append, written_singleton]
    exact ends _
  have shape : piecesEach (groupedEach firm [] (lead ++ op "<" :: params ++ [op ">"])) =
      piecesEach (groupedEach firm [] lead) ++ (op "<", [.alone "<"]) ::
        (piecesEach (groupedEach firm [] params) ++ [(op ">", [.alone ">"])]) := by
    simp [groupedEach_append, piecesEach_append, groupedEach, piecesEach, groupedIn, pieces, Leaf.pieces, op]
  have closing : (Form.betweenAngles (piecesEach (groupedEach firm [] (lead ++ op "<" :: params ++ [op ">"])))).2.2 =
      [.alone ">"] := by
    rw [shape, Form.betweenAngles, List.dropWhile_append_of_pos before]
    simp [op, isOp]
  cases f with
  | generics =>
    change Piece.Closed (if (Form.betweenAngles (piecesEach _)).2.1.isEmpty then [] else _ ++ (Form.betweenAngles _).2.2)
    split
    · exact Piece.closed_nil
    · rw [closing]
      exact ends _
  | angled =>
    change Piece.Closed (_ ++ (Form.betweenAngles (piecesEach _)).2.2)
    rw [closing]
    exact ends _
  | forLifetimes | preciseCapture => exact plain
  | _ => cases angled

lemma closed_arrange {f : Form} {parts : List (Node × List Piece)} (part : f.isTypePart = true)
    (closed : Piece.Closed (parts.flatMap (·.2))) : Piece.Closed (f.arrange parts) := by
  cases f with
  | silent => exact Piece.closed_nil
  | whereClause | bounded =>
    rw [Form.arrange]
    split
    · exact Piece.closed_nil
    · exact closed
  | _ => first | exact closed | cases part

mutual

/-- A type is not printed with `=` at its end. -/
lemma Closes.closed_pieces (firm : Bool) : ∀ (c : Surroundings) {n : Node}, n.Closes → AllSound n.lexemes →
    Piece.Closed (n.groupedIn firm c).pieces
  | _, .leaf (.op s), closes, _ => by
    have all : ∀ s ∈ typeOps, s.toList.getLast? ≠ some '=' := by decide
    exact Piece.closed_singleton (all s closes)
  | _, .leaf (.word s), _, sound => Piece.closed_singleton (sound (.word s) (by simp [lexemes, Leaf.lexemes])).closed
  | _, .leaf (.lifetime s), _, sound =>
    Piece.closed_singleton (sound (.lifetime s) (by simp [lexemes, Leaf.lexemes])).closed
  | _, .leaf (.literal s), _, sound => by
    change AllSound (Leaf.literal s).lexemes at sound
    change Piece.Closed (Leaf.literal s).pieces
    rcases Leaf.pieces_literal s with ⟨printed, truth | read⟩ | ⟨digits, printed, read⟩ <;> rw [printed]
    · rcases truth with rfl | rfl <;> exact Piece.closed_singleton (by decide)
    · rw [read, allSound_cons] at sound
      exact Piece.closed_singleton (closed_of_ofLiteral sound.1)
    · rw [read, allSound_cons, allSound_cons] at sound
      exact .cons (by decide) (Piece.closed_singleton (closed_of_ofLiteral sound.2.1))
  | _, .raw _, closes, sound => TokenTree.closed_pieces closes sound
  | _, .group d _, _, _ => Piece.closed_enclose d _
  | c, .form f parts, closes, sound => by
    rw [groupedIn]
    split
    · exact Piece.closed_enclose _ _
    · by_cases angled : f.isAngled = true
      · have alone : Operand.ofParts firm c f parts = [] := by cases f <;> first | rfl | cases angled
        rw [alone]
        exact closed_angles angled ((closes_angled angled).mp closes)
      · rw [Closes, if_neg angled] at closes
        have inside : AllSound (lexemesAll parts) := by
          rwa [lexemes_form (by rintro rfl; cases closes.1)] at sound
        have plain := ClosesAll.closed_pieces firm (Operand.ofParts firm c f parts) closes.2 inside
        exact closed_arrange closes.1 plain

lemma ClosesAll.closed_pieces (firm : Bool) : ∀ (os : List Operand) {ns : List Node}, ClosesAll ns →
    AllSound (lexemesAll ns) → Piece.Closed ((piecesEach (groupedEach firm os ns)).flatMap (·.2))
  | os, [], _, _ => by
    cases os <;> exact Piece.closed_nil
  | os, n :: ns, ⟨first, rest⟩, sound => by
    rw [lexemesAll, allSound_append] at sound
    cases os with
    | nil => exact (Closes.closed_pieces firm _ first sound.1).append (ClosesAll.closed_pieces firm [] rest sound.2)
    | cons o os =>
      refine Piece.Closed.append ?_ (ClosesAll.closed_pieces firm os rest sound.2)
      split
      · exact Piece.closed_enclose _ _
      · exact Closes.closed_pieces firm _ first sound.1

end

end Node

/-! ### Ends of declarations -/

namespace TokenTree

/-- Lexemes with as many closing as opening braces, and at no end of them fewer. -/
structure Balanced (ks : List LexemeKind) : Prop where
  count : ks.count (.opening .brace) = ks.count (.closing .brace)
  ends : ∀ is js, ks = is ++ js → js.count (.opening .brace) ≤ js.count (.closing .brace)

lemma Balanced.append {ks js : List LexemeKind} (left : Balanced ks) (right : Balanced js) : Balanced (ks ++ js) where
  count := by rw [List.count_append, List.count_append, left.count, right.count]
  ends is hs eq := by
    rcases List.append_eq_append_iff.mp eq with ⟨x, -, inside⟩ | ⟨x, inside, rfl⟩
    · exact right.ends x hs inside
    · rw [List.count_append, List.count_append, right.count]
      exact Nat.add_le_add_right (left.ends is x inside) _

lemma balanced_of_free {ks : List LexemeKind} (free : ∀ k ∈ ks, k ≠ .opening .brace)
    (free' : ∀ k ∈ ks, k ≠ .closing .brace) :
    Balanced ks := by
  have none (js : List LexemeKind) (inside : js ⊆ ks) :
      js.count (.opening .brace) = 0 ∧ js.count (.closing .brace) = 0 :=
    ⟨List.count_eq_zero.mpr fun h => free _ (inside h) rfl, List.count_eq_zero.mpr fun h => free' _ (inside h) rfl⟩
  refine ⟨?_, fun is js eq => ?_⟩
  · rw [(none ks (List.Subset.refl ks)).1, (none ks (List.Subset.refl ks)).2]
  · rw [(none js (eq ▸ List.subset_append_right is js)).1]
    exact Nat.zero_le _

lemma balanced_literal (s : String) : Balanced (TokenTree.literal s).lexemes := by
  have literal (t : String) : ofLiteral t ≠ .opening .brace ∧ ofLiteral t ≠ .closing .brace := by
    rw [ofLiteral]
    split <;> simp
  rcases lexemes_literal s with read | ⟨-, read | read⟩ <;> rw [read]
  · exact balanced_of_free (by simp) (by simp)
  · exact balanced_of_free (by simp) (by simp)
  · exact balanced_of_free (by simp [literal]) (by simp [literal])

lemma balanced_punct (c : Char) (joint : Bool) : Balanced (TokenTree.punct c joint).lexemes := by
  have mark : ofChar c ≠ .opening .brace ∧ ofChar c ≠ .closing .brace := by
    unfold ofChar
    split <;> exact ⟨nofun, nofun⟩
  exact balanced_of_free (by simp [lexemes, mark]) (by simp [lexemes, mark])

mutual

lemma balanced_lexemes : ∀ t : TokenTree, Balanced t.lexemes
  | .word _ => balanced_of_free (by simp [lexemes]) (by simp [lexemes])
  | .lifetime _ => balanced_of_free (by simp [lexemes]) (by simp [lexemes])
  | .literal s => balanced_literal s
  | .punct c joint => balanced_punct c joint
  | .group d inner => by
    obtain ⟨count, ends⟩ := balanced_lexemesAll inner
    have whole : (TokenTree.group d inner).lexemes.count (.opening .brace) =
        (TokenTree.group d inner).lexemes.count (.closing .brace) := by
      cases d <;> simp [lexemes, count]
    have last : [LexemeKind.closing d].count (.opening .brace) ≤ [LexemeKind.closing d].count (.closing .brace) := by
      simp
    refine ⟨whole, fun is js eq => ?_⟩
    cases is with
    | nil =>
      rw [List.nil_append] at eq
      exact eq ▸ whole.le
    | cons k is =>
      obtain ⟨-, eq⟩ := List.cons.inj eq
      rcases List.append_eq_append_iff.mp eq with ⟨x, -, inside⟩ | ⟨x, inside, rfl⟩
      · cases x with
        | nil =>
          obtain rfl : [LexemeKind.closing d] = js := inside
          exact last
        | cons k x =>
          obtain ⟨-, rfl⟩ := List.append_eq_nil_iff.mp (List.cons.inj inside).2.symm
          exact Nat.le_refl _
      · rw [List.count_append, List.count_append]
        exact Nat.add_le_add (ends is x inside) last

lemma balanced_lexemesAll : ∀ ts : List TokenTree, Balanced (lexemesAll ts)
  | [] => balanced_of_free (List.forall_mem_nil _) (List.forall_mem_nil _)
  | t :: ts => (balanced_lexemes t).append (balanced_lexemesAll ts)

end

/-- What ends in braces ends in one pair of braces. -/
lemma eq_of_braces {us inner ts : List TokenTree} {head : List LexemeKind}
    (h : lexemesAll us ++ .opening .brace :: lexemesAll inner = head ++ .opening .brace :: lexemesAll ts) :
    lexemesAll us = head := by
  have inside {x : List LexemeKind} {ts us : List TokenTree}
      (h : LexemeKind.opening .brace :: lexemesAll ts = x ++ .opening .brace :: lexemesAll us) : x = [] := by
    cases x with
    | nil => rfl
    | cons k x =>
      have more := (balanced_lexemesAll ts).ends x _ (List.cons.inj h).2
      have count := (balanced_lexemesAll us).count
      simp only [List.count_cons, beq_self_eq_true, if_true] at more
      simp at more
      omega
  rcases List.append_eq_append_iff.mp h with ⟨x, eq', eq⟩ | ⟨x, eq', eq⟩
  · rw [eq', inside eq, List.append_nil]
  · rw [eq', inside eq, List.append_nil]

lemma exists_concat {ts : List TokenTree} {k : LexemeKind} (h : (lexemesAll ts).getLast? = some k) :
    ∃ us t, ts = us ++ [t] ∧ t.lexemes.getLast? = some k := by
  rcases ts.eq_nil_or_concat with rfl | ⟨us, t, rfl⟩
  · cases h
  · rw [List.concat_eq_append, lexemesAll_append, lexemesAll, lexemesAll, List.append_nil, List.getLast?_append,
      List.getLast?_eq_some_getLast t.lexemes_ne_nil, Option.some_or] at h
    exact ⟨us, t, List.concat_eq_append, (List.getLast?_eq_some_getLast t.lexemes_ne_nil).trans h⟩

/-- Only marks and brackets end in marks and brackets. -/
lemma literal_last (s : String) :
    ∀ k ∈ (TokenTree.literal s).lexemes.getLast?, (∀ c, k ≠ .mark c) ∧ ∀ d, k ≠ .closing d := by
  have literal (t : String) : (∀ c, ofLiteral t ≠ .mark c) ∧ ∀ d, ofLiteral t ≠ .closing d := by
    rw [ofLiteral]
    split <;> simp
  intro k last
  rcases lexemes_literal s with read | ⟨-, read | read⟩ <;> rw [read] at last <;> cases last
  · simp
  · simp
  · exact literal s

/-- Kept tokens that end in `;` are printed so. -/
lemma finished_of_semi {ts : List TokenTree} (h : EndsInSemi (lexemesAll ts)) : Piece.Finished (pieces ts) := by
  obtain ⟨us, t, rfl, last⟩ := exists_concat h
  rw [pieces_append]
  refine ⟨_, t.piece, rfl, .inl ?_⟩
  cases t with
  | word | lifetime => cases last
  | literal s => exact absurd rfl ((literal_last s _ last).1 ';')
  | punct c joint =>
    have mark : ofChar c = .mark ';' := Option.some.inj last
    unfold ofChar at mark
    split at mark <;> cases mark
    simp [piece]
  | group d inner =>
    rw [lexemes, List.getLast?_concat] at last
    cases last

/-- Kept tokens that end in braces are printed so. -/
lemma finished_of_braces {ts : List TokenTree} (h : EndsInBraces (lexemesAll ts)) (sound : AllSound (lexemesAll ts)) :
    Piece.Finished (pieces ts) := by
  obtain ⟨head, content, eq, closed⟩ := h
  have ends : (lexemesAll ts).getLast? = some (.closing .brace) := by
    rw [eq, ← List.cons_append, ← List.append_assoc, List.getLast?_concat]
  obtain ⟨us, t, rfl, last⟩ := exists_concat ends
  rw [lexemesAll_append, lexemesAll, lexemesAll, List.append_nil] at eq sound
  cases t with
  | word | lifetime => cases last
  | literal s => exact absurd rfl ((literal_last s _ last).2 .brace)
  | punct c joint =>
    have mark : ofChar c = .closing .brace := Option.some.inj last
    unfold ofChar at mark
    split at mark <;> cases mark
  | group d inner =>
    rw [lexemes, List.getLast?_concat] at last
    cases last
    have before : lexemesAll us = head := by
      rw [lexemes, ← List.append_assoc, ← List.cons_append, ← List.append_assoc] at eq
      exact eq_of_braces (List.append_cancel_right eq)
    obtain ⟨front, within⟩ := allSound_append.mp sound
    rw [lexemes, allSound_append, allSound_cons] at within
    rw [pieces_append]
    exact ⟨_, _, rfl, .inr (.inr ⟨_, rfl, closed_pieces (before ▸ closed) front, allSound_pieces within.1.2⟩)⟩

end TokenTree

namespace Node

/-- Parts that end in `;` or in braces are printed so. -/
lemma Ends.finished (firm : Bool) {parts : List Node} (ends : Ends parts) (sound : AllSound (lexemesAll parts)) :
    Piece.Finished (written firm parts) := by
  induction ends with
  | semi init =>
    rw [written_append, written_singleton]
    exact ⟨_, _, rfl, .inl rfl⟩
  | braces init content closes =>
    rw [lexemesAll_append, allSound_append] at sound
    rw [written_append, written_singleton]
    refine ⟨_, _, rfl, .inr (.inr ⟨_, rfl, ClosesAll.closed_pieces firm [] closes sound.1, ?_⟩)⟩
    have inside : AllSound (lexemesAll content) := by
      have := sound.2
      simp_all [lexemesAll, lexemes]
    exact Piece.allSound_flatMap ((allSound_piecesEach content inside).2 firm [])
  | rawBraces init content closes =>
    rw [lexemesAll_append, allSound_append] at sound
    rw [written_append, written_singleton]
    refine ⟨_, _, rfl, .inr (.inr ⟨_, rfl, ClosesAll.closed_pieces firm [] closes sound.1, ?_⟩)⟩
    have inside : AllSound (TokenTree.lexemesAll content) := by
      have := sound.2
      simp_all [lexemesAll, lexemes, TokenTree.lexemesAll, TokenTree.lexemes]
    exact TokenTree.allSound_pieces inside
  | absent parts _ ih =>
    rw [lexemesAll_append, allSound_append] at sound
    have nothing : written firm [.absent] = [] := by
      rw [written_singleton]
      rfl
    rw [written_append, nothing, List.append_nil]
    exact ih sound.1

end Node

/-- Attributes are printed with a bracket at their end. -/
lemma Attr.finished_pieces (a : Attr) : Piece.Finished a.pieces := by
  obtain ⟨inner, path, args⟩ := a
  exact ⟨_, _, rfl, .inr (.inl (Piece.getLast?_enclose .bracket _))⟩

lemma Attr.finished_piecesAll (inner : Bool) (attrs : List Attr) :
    Attr.piecesAll inner attrs = [] ∨ Piece.Finished (Attr.piecesAll inner attrs) := by
  induction attrs with
  | nil => exact .inl rfl
  | cons a as ih =>
    rw [piecesAll]
    split
    · refine .inr ?_
      rcases ih with none | finished
      · rw [none, List.append_nil]
        exact a.finished_pieces
      · exact finished.append a.finished_pieces.closed
    · rwa [List.nil_append]

lemma Visibility.closed_pieces (v : Visibility) : Piece.Closed v.pieces := by
  cases v with
  | inherited => exact Piece.closed_nil
  | pub => exact Piece.closed_singleton (by decide)
  | restricted within path => exact .cons (by decide) (Piece.closed_enclose _ _)

lemma Item.allSound_piecesAll (firm : Bool) {items : List Item} (sound : AllSound (Item.lexemesAll items)) :
    Piece.AllSound (Item.piecesAll (Item.groupedEach firm items)) := by
  induction items with
  | nil => exact Piece.allSound_nil
  | cons i is ih =>
    rw [lexemesAll, allSound_append] at sound
    exact Piece.allSound_append.mpr ⟨(Item.allSound_pieces i sound.1).2 firm, ih sound.2⟩

/-- Declarations are printed as they end. -/
lemma Decl.Ends.finished (firm : Bool) {d : Decl} (ends : d.Ends) {inner : List LexemeKind} {within : List Piece}
    (sound : AllSound (d.lexemes inner)) (soundWithin : Piece.AllSound within) :
    Piece.Finished ((d.grouped firm).pieces within) := by
  have name {s : String} (sound : (LexemeKind.word s).IsSound) (ps : List Piece) : Piece.Closed (ps ++ [.alone s]) :=
    Piece.closed_concat ps (List.getLast?_eq_some_getLast sound.ne_nil) fun eq =>
      sound.closed (eq ▸ List.getLast?_eq_some_getLast sound.ne_nil)
  match d with
  | .useDecl _ _ | .externCrate _ _ | .module _ _ none => exact ⟨_, _, rfl, .inl rfl⟩
  | .module isUnsafe n (some items) =>
    simp only [lexemes, allSound_append, allSound_cons] at sound
    refine ⟨_, _, rfl, .inr (.inr ⟨_, rfl, ?_, ?_⟩)⟩
    · exact (List.append_assoc _ [_] [_]) ▸ name sound.1.2.2.1 _
    · exact Piece.allSound_append.mpr ⟨soundWithin, Item.allSound_piecesAll firm sound.2.1.2⟩
  | .data kind n generics body =>
    simp only [lexemes, allSound_append, allSound_cons] at sound
    obtain ⟨⟨⟨⟨-, named, -⟩, parameters⟩, fields⟩, -⟩ := sound
    have front : Piece.Closed ([.alone kind.keyword, .alone n] ++ (generics.groupedIn firm {}).pieces) :=
      .append (name named [_]) (Node.Closes.closed_pieces firm {} ends.1 parameters)
    exact (Node.Ends.finished firm ends.2 fields).append front
  | .trait qualifiers n generics supertraits whereClause members =>
    simp only [lexemes, allSound_append, allSound_cons] at sound
    obtain ⟨⟨⟨⟨⟨⟨⟨⟨-, -, named, -⟩, parameters⟩, bounds⟩, conditions⟩, -⟩, -⟩, inside⟩, -⟩ := sound
    obtain ⟨closes₁, closes₂, closes₃, -⟩ := ends
    refine ⟨_, _, rfl, .inr (.inr ⟨_, rfl, ?_, ?_⟩)⟩
    · have front : Piece.Closed ((Node.piecesEach qualifiers).flatMap (·.2) ++ [.alone "trait", .alone n]) :=
        (List.append_assoc _ [_] [_]) ▸ name named _
      exact ((front.append (Node.Closes.closed_pieces firm {} closes₁ parameters)).append
        (Node.Closes.closed_pieces firm {} closes₂ bounds)).append
        (Node.Closes.closed_pieces firm {} closes₃ conditions)
    · have soundMembers := Piece.allSound_flatMap ((Node.allSound_piecesEach members inside).2 firm [])
      exact Piece.allSound_append.mpr ⟨soundWithin, soundMembers⟩
  | .impl header selfType whereClause members =>
    simp only [lexemes, allSound_append, allSound_cons] at sound
    obtain ⟨⟨⟨⟨⟨⟨before, implementor⟩, conditions⟩, -⟩, -⟩, inside⟩, -⟩ := sound
    obtain ⟨closes₁, closes₂, closes₃, -⟩ := Node.closesAll_append.mp ends
    refine ⟨_, _, rfl, .inr (.inr ⟨_, rfl, ?_, ?_⟩)⟩
    · exact ((Node.ClosesAll.closed_pieces firm [] closes₁ before).append
        (Node.Closes.closed_pieces firm {} closes₂ implementor)).append
        (Node.Closes.closed_pieces firm {} closes₃ conditions)
    · exact Piece.allSound_flatMap ((Node.allSound_piecesEach members inside).2 firm [])
  | .plain _ _ parts => exact Node.Ends.finished firm ends (allSound_append.mp sound).1
  | .verbatim tokens =>
    obtain ⟨sound, -⟩ := allSound_append.mp sound
    rcases ends with semi | braces
    · exact TokenTree.finished_of_semi semi
    · exact TokenTree.finished_of_braces braces sound

lemma Item.Ends.finished (firm : Bool) {i : Item} (ends : i.Ends) (sound : AllSound i.lexemes) :
    Piece.Finished (i.grouped firm).pieces := by
  obtain ⟨attrs, vis, decl⟩ := i
  have inside := allSound_of_present sound
  rw [allSound_append] at inside
  have before : Piece.Closed (Attr.piecesAll false (Attr.groupedEach firm attrs) ++ vis.pieces) := by
    refine .append ?_ vis.closed_pieces
    rcases Attr.finished_piecesAll false (Attr.groupedEach firm attrs) with none | finished
    · exact none ▸ Piece.closed_nil
    · exact finished.closed
  exact (Decl.Ends.finished firm ends inside.2 (Attr.allSound_piecesAll _ _)).append before

lemma Item.finished_piecesAll (firm : Bool) {items : List Item} (ends : ∀ i ∈ items, i.Ends)
    (sound : AllSound (Item.lexemesAll items)) :
    Item.piecesAll (Item.groupedEach firm items) = [] ∨ Piece.Finished (Item.piecesAll (Item.groupedEach firm items)) := by
  induction items with
  | nil => exact .inl rfl
  | cons i is ih =>
    obtain ⟨first, rest⟩ := List.forall_mem_cons.mp ends
    rw [lexemesAll, allSound_append] at sound
    have one := Item.Ends.finished firm first sound.1
    refine .inr ?_
    rw [groupedEach, piecesAll]
    rcases ih rest sound.2 with none | finished
    · rw [none, List.append_nil]
      exact one
    · exact finished.append one.closed

/-- The text of a file ends in `;`, in a square bracket, or in braces behind what does not end in `=`. -/
lemma SourceFile.finished {f : SourceFile} (ends : ∀ i ∈ f.items, i.Ends) (sound : AllSound f.lexemes) :
    f.text = "" ∨ ∃ ps, f.text = Piece.join ps ∧ Piece.Finished ps ∧ Piece.AllSound ps := by
  rw [lexemes, allSound_append] at sound
  have all : Piece.AllSound (Attr.piecesAll true (Attr.groupedEach false f.attrs) ++
      Item.piecesAll (Item.groupedEach false f.items)) :=
    Piece.allSound_append.mpr ⟨Attr.allSound_piecesAll _ _, Item.allSound_piecesAll false sound.2⟩
  have text : f.text = Piece.join (Attr.piecesAll true (Attr.groupedEach false f.attrs) ++
    Item.piecesAll (Item.groupedEach false f.items)) := rfl
  rcases Attr.finished_piecesAll true (Attr.groupedEach false f.attrs) with none | attrs <;>
    rcases Item.finished_piecesAll false ends sound.2 with none' | items
  · rw [none, none'] at text
    exact .inl text
  · rw [none, List.nil_append] at text all
    exact .inr ⟨_, text, items, all⟩
  · rw [none', List.append_nil] at text all
    exact .inr ⟨_, text, attrs, all⟩
  · exact .inr ⟨_, text, items.append attrs.closed, all⟩

end SourceGen
