import Mathlib.Tactic.Lemma
import SourceGen.Syntax.Lexemes
import SourceGen.View.Walk

/-!
# Places are counted right

A walk computes the place of an item from the sizes of what stands before it. In a tree whose lexemes all have a
place, sizes count lexemes (`Node.length_lexemes`), and the item that a walk meets after `k` lexemes has its own
lexemes behind the first `k` of the tree (`SourceFile.isIn_sightings`).
-/

namespace SourceGen

open LexemeKind

/-! ### Lexemes with a place -/

namespace LexemeKind

/-- Every lexeme has a place. -/
def Placed (ks : List LexemeKind) : Prop := nowhere ∉ ks

variable {ks js : List LexemeKind}

@[simp] lemma placed_append : Placed (ks ++ js) ↔ Placed ks ∧ Placed js := by simp [Placed]

@[simp] lemma placed_cons {k : LexemeKind} : Placed (k :: ks) ↔ k ≠ nowhere ∧ Placed ks := by
  simp [Placed, eq_comm]

lemma present_of_placed (h : Placed (present ks)) : present ks = ks := by
  unfold present at h ⊢
  split at h
  · simp [Placed] at h
  · rw [if_neg ‹_›]

lemma present_ne_nil : present ks ≠ [] := by
  cases ks <;> simp [present]

@[simp] lemma length_astray : (astray ks).length = ks.length := List.length_map _

@[simp] lemma astray_nil : astray [] = [] := rfl

lemma eq_nil_of_placed (h : Placed (astray ks)) : ks = [] := by
  cases ks with
  | nil => rfl
  | cons k ks => simp [Placed, astray] at h

@[simp] lemma length_ofOp (s : String) : (ofOp s).length = s.length := by
  rw [ofOp, List.length_map, String.length_toList]

end LexemeKind

/-! ### Rows of syntax -/

namespace Node

@[simp] lemma lexemes_word (s : String) : (word s).lexemes = [.word s] := rfl

@[simp] lemma lexemes_op (s : String) : (op s).lexemes = ofOp s := rfl

@[simp] lemma lexemes_absent : absent.lexemes = [] := rfl

@[simp] lemma isAbsent_word (s : String) : (word s).isAbsent = false := rfl

@[simp] lemma isAbsent_op (s : String) : (op s).isAbsent = false := rfl

@[simp] lemma isAbsent_form (f : Form) (ns : List Node) : (form f ns).isAbsent = decide (f = .absent) := by
  cases f <;> rfl

@[simp] lemma isAbsent_leaf (l : Leaf) : (leaf l).isAbsent = false := rfl

@[simp] lemma isAbsent_raw (ts : List TokenTree) : (raw ts).isAbsent = false := rfl

@[simp] lemma isAbsent_group (d : Delimiter) (ns : List Node) : (group d ns).isAbsent = false := rfl

@[simp] lemma isAbsent_attr (a : Attr) : (attr a).isAbsent = false := rfl

@[simp] lemma isAbsent_item (i : Item) : (item i).isAbsent = false := rfl

@[simp] lemma isAbsent_absent : absent.isAbsent = true := rfl

lemma lexemes_phantom {parts : List Node} (h : Placed (form .phantom parts).lexemes) :
    (form .phantom parts).lexemes = [] := by
  rw [lexemes] at h ⊢
  split at h
  · rw [if_pos ‹_›]
  · simp [Placed] at h

@[simp] lemma flatMap_lexemes (ns : List Node) : ns.flatMap lexemes = lexemesAll ns := by
  induction ns with
  | nil => rfl
  | cons n ns ih => rw [List.flatMap_cons, lexemesAll, ih]

@[simp] lemma lexemesAll_append (ns ms : List Node) : lexemesAll (ns ++ ms) = lexemesAll ns ++ lexemesAll ms := by
  simp only [← flatMap_lexemes, List.flatMap_append]

@[simp] lemma flatMap_lexemesAll (nss : List (List Node)) : nss.flatMap lexemesAll = lexemesAll nss.flatten := by
  induction nss with
  | nil => rfl
  | cons ns nss ih => rw [List.flatMap_cons, List.flatten_cons, lexemesAll_append, ih]

@[simp] lemma lexemesAll_attrs (as : List Attr) : lexemesAll (as.map .attr) = as.flatMap Attr.lexemes := by
  rw [← flatMap_lexemes, List.flatMap_map]
  rfl

end Node

/-! ### Literals -/

/-- A literal was read as a word, from a sign and a literal, or as it is. -/
lemma Leaf.lexemes_literal (s : String) :
    (s = "true" ∨ s = "false") ∧ (Leaf.literal s).lexemes = [.word s] ∨
    (∃ digits, s.toList = '-' :: digits ∧
      (Leaf.literal s).lexemes = [ofChar '-', ofLiteral (String.ofList digits)]) ∨
    s.startsWith "-" = false ∧ (Leaf.literal s).lexemes = [ofLiteral s] := by
  by_cases truth : s = "true" ∨ s = "false"
  · exact .inl ⟨truth, by rw [lexemes, if_pos truth]⟩
  by_cases signed : ∃ digits, s.toList = '-' :: digits
  · obtain ⟨digits, signed⟩ := signed
    exact .inr (.inl ⟨digits, signed, by simp only [lexemes, if_neg truth, signed]⟩)
  have unsigned : s.startsWith "-" = false := by
    rw [Bool.eq_false_iff, ne_eq, String.startsWith_string_iff]
    rintro ⟨digits, eq⟩
    exact signed ⟨digits, eq.symm⟩
  refine .inr (.inr ⟨unsigned, ?_⟩)
  rw [lexemes, if_neg truth]
  split
  · next eq => exact absurd ⟨_, eq⟩ signed
  · rfl

/-- A token that is a literal has a place if it is not empty and has no sign. -/
lemma TokenTree.lexemes_literal (s : String) :
    (TokenTree.literal s).lexemes = [.nowhere] ∨
      s ≠ "" ∧ ((TokenTree.literal s).lexemes = [.word s] ∨ (TokenTree.literal s).lexemes = [ofLiteral s]) := by
  rw [lexemes]
  split
  · exact .inl rfl
  · next plain =>
    obtain ⟨there, unsigned⟩ := not_or.mp plain
    refine .inr ⟨there, ?_⟩
    rcases Leaf.lexemes_literal s with ⟨-, read⟩ | ⟨digits, signed, -⟩ | ⟨-, read⟩
    · exact .inl read
    · simp [String.startsWith_string_iff, signed] at unsigned
    · exact .inr read

/-! ### Sizes -/

@[simp] lemma Leaf.length_lexemes (l : Leaf) : l.lexemes.length = l.size := by
  cases l with
  | literal s =>
    rw [size]
    rcases lexemes_literal s with ⟨truth, read⟩ | ⟨digits, signed, read⟩ | ⟨unsigned, read⟩ <;> rw [read]
    · rw [if_neg]
      · rfl
      · rcases truth with rfl | rfl <;> simp [String.startsWith_string_iff]
    · rw [if_pos]
      · rfl
      · simp [String.startsWith_string_iff, signed]
    · rw [if_neg (by simp [unsigned]), List.length_singleton]
  | op s => exact length_ofOp s
  | word s => rfl
  | lifetime s => rfl

namespace TokenTree

lemma lexemesAll_append (ts us : List TokenTree) : lexemesAll (ts ++ us) = lexemesAll ts ++ lexemesAll us := by
  induction ts with
  | nil => rfl
  | cons t ts ih => rw [List.cons_append, lexemesAll, lexemesAll, ih, List.append_assoc]

mutual

@[simp] lemma length_lexemes : ∀ t : TokenTree, t.lexemes.length = t.size
  | .word _ | .lifetime _ | .punct _ _ => rfl
  | .literal s => by
    rw [lexemes, size]
    split
    · rfl
    · rw [Leaf.length_lexemes, Leaf.size, if_neg (not_or.mp ‹_›).2]
  | .group d inner => by
    rw [lexemes, size, List.length_append, List.length_cons, length_lexemesAll inner, List.length_singleton]
    omega

@[simp] lemma length_lexemesAll : ∀ ts : List TokenTree, (lexemesAll ts).length = sizeAll ts
  | [] => rfl
  | t :: ts => by rw [lexemesAll, sizeAll, List.length_append, length_lexemes t, length_lexemesAll ts]

end

end TokenTree

lemma TokenTree.lexemes_ne_nil (t : TokenTree) : t.lexemes ≠ [] := by
  have pos : 0 < t.size := by
    cases t with
    | group d inner =>
      rw [size]
      omega
    | _ => exact Nat.one_pos
  exact List.ne_nil_of_length_pos (by rwa [length_lexemes])

@[simp] lemma NamePath.length_lexemes (p : NamePath) : p.lexemes.length = p.size := by
  have names : ∀ ns, (nameLexemes ns).length = ns.length + 2 * (ns.length - 1) := by
    intro ns
    induction ns with
    | nil => rfl
    | cons n ns ih =>
      cases ns with
      | nil => rfl
      | cons m ms =>
        rw [nameLexemes, List.length_append, ih]
        · simp only [List.length_cons, length_ofOp, show "::".length = 2 from rfl]
          omega
        · exact List.cons_ne_nil _ _
  rw [lexemes, size, List.length_append, names]
  cases p.rooted with
  | false => simp
  | true =>
    simp [show "::".length = 2 from rfl]
    omega

@[simp] lemma Visibility.length_lexemes (v : Visibility) : v.lexemes.length = v.size := by
  cases v with
  | restricted within path => cases within <;> simp [lexemes, size] <;> omega
  | _ => rfl

namespace UseTree

mutual

@[simp] lemma length_lexemes : ∀ t : UseTree, t.lexemes.length = t.size
  | .step name rest => by
    simp only [lexemes, size, List.length_append, List.length_cons, length_ofOp, length_lexemes rest,
      show "::".length = 2 from rfl]
  | .leaf _ | .rename _ _ | .glob => rfl
  | .group trees trailing => by
    simp only [lexemes, size, List.length_append, List.length_cons, List.length_nil,
      length_lexemesAll trailing trees]
    omega

@[simp] lemma length_lexemesAll (trailing : Bool) :
    ∀ ts : List UseTree, (lexemesAll trailing ts).length = sizeAll trailing ts
  | [] => rfl
  | [t] => by cases trailing <;> simp [lexemesAll, sizeAll, length_lexemes t, show ",".length = 1 from rfl]
  | t :: u :: ts => by
    simp only [lexemesAll, sizeAll, List.length_append, length_ofOp, length_lexemes t,
      length_lexemesAll trailing (u :: ts), show ",".length = 1 from rfl]

end

end UseTree

lemma Decl.placed_inner {d : Decl} {inner : List LexemeKind} (h : Placed (d.lexemes inner)) : Placed inner := by
  have placed_of_astray (h : Placed (astray inner)) : Placed inner := by
    rw [eq_nil_of_placed h]
    exact List.not_mem_nil
  match d with
  | .module _ _ (some _) | .trait _ _ _ _ _ _ | .impl _ _ _ _ => simp_all [Decl.lexemes]
  | .module _ _ none | .useDecl _ _ | .externCrate _ _ | .data _ _ _ _ | .plain _ _ _ | .verbatim _ =>
    apply placed_of_astray
    simp_all [Decl.lexemes]

mutual

lemma Node.length_lexemes : ∀ n : Node, Placed n.lexemes → n.lexemes.length = n.size
  | .leaf l, _ => l.length_lexemes
  | .raw ts, _ => TokenTree.length_lexemesAll ts
  | .group d parts, h => by
    rw [Node.lexemes, placed_append, placed_cons] at h
    rw [Node.lexemes, Node.size, List.length_append, List.length_cons, List.length_singleton,
      Node.length_lexemesAll parts h.1.2]
    omega
  | .form f parts, h => by
    cases f with
    | phantom => rw [Node.lexemes_phantom h, Node.size, List.length_nil]
    | _ => exact Node.length_lexemesAll parts h
  | .attr a, h => Attr.length_lexemes a h
  | .item i, h => Item.length_lexemes i h

lemma Node.length_lexemesAll :
    ∀ ns : List Node, Placed (Node.lexemesAll ns) → (Node.lexemesAll ns).length = Node.sizeAll ns
  | [], _ => rfl
  | n :: ns, h => by
    rw [Node.lexemesAll, placed_append] at h
    rw [Node.lexemesAll, Node.sizeAll, List.length_append, Node.length_lexemes n h.1,
      Node.length_lexemesAll ns h.2]

lemma Attr.length_lexemes : ∀ a : Attr, Placed a.lexemes → a.lexemes.length = a.size
  | .mk inner path args, h => by
    simp only [Attr.lexemes, placed_append] at h
    have sizes := Node.length_lexemesAll args h.1.2
    cases inner <;>
      simp [Attr.lexemes, Attr.size, sizes, show "#".length = 1 from rfl, show "!".length = 1 from rfl] <;> omega

lemma Attr.length_lexemesAll (inner : Bool) : ∀ as : List Attr, Placed (Attr.lexemesAll inner as) →
    (Attr.lexemesAll inner as).length = Attr.sizeAll inner as
  | [], _ => rfl
  | a :: as, h => by
    rw [Attr.lexemesAll, placed_append] at h
    rw [Attr.lexemesAll, Attr.sizeAll, List.length_append, Attr.length_lexemesAll inner as h.2]
    split
    · next same => rw [Attr.length_lexemes a (by simpa only [if_pos same] using h.1)]
    · rfl

lemma Item.length_lexemes : ∀ i : Item, Placed i.lexemes → i.lexemes.length = i.size
  | .mk attrs vis decl, h => by
    have row := present_of_placed h
    rw [Item.lexemes, row, placed_append, placed_append] at h
    rw [Item.lexemes, row, Item.size, List.length_append, List.length_append, vis.length_lexemes,
      Attr.length_lexemesAll false attrs h.1.1, Decl.length_lexemes decl _ h.2,
      Attr.length_lexemesAll true attrs (Decl.placed_inner h.2), Nat.add_assoc _ decl.size]

lemma Item.length_lexemesAll :
    ∀ is : List Item, Placed (Item.lexemesAll is) → (Item.lexemesAll is).length = Item.sizeAll is
  | [], _ => rfl
  | i :: is, h => by
    rw [Item.lexemesAll, placed_append] at h
    rw [Item.lexemesAll, Item.sizeAll, List.length_append, Item.length_lexemes i h.1,
      Item.length_lexemesAll is h.2]

lemma Decl.length_lexemes : ∀ (d : Decl) (inner : List LexemeKind), Placed (d.lexemes inner) →
    (d.lexemes inner).length = d.size + inner.length
  | .useDecl rooted tree, inner, _ => by
    cases rooted <;>
      simp [Decl.lexemes, Decl.size, show "::".length = 2 from rfl, show ";".length = 1 from rfl] <;> omega
  | .externCrate name rename, inner, _ => by
    cases rename <;> simp [Decl.lexemes, Decl.size, show ";".length = 1 from rfl] <;> omega
  | .module isUnsafe name none, inner, _ => by
    cases isUnsafe <;> simp [Decl.lexemes, Decl.size, show ";".length = 1 from rfl] <;> omega
  | .module isUnsafe name (some items), inner, h => by
    simp only [Decl.lexemes, placed_append] at h
    have sizes := Item.length_lexemesAll items h.2.1.2
    cases isUnsafe <;> simp [Decl.lexemes, Decl.size, sizes] <;> omega
  | .data kind name generics body, inner, h => by
    simp only [Decl.lexemes, placed_append] at h
    simp only [Decl.lexemes, Decl.size, List.length_append, length_astray, Node.length_lexemes generics h.1.1.2,
      Node.length_lexemesAll body h.1.2, List.length_cons, List.length_nil]
  | .trait qualifiers name generics supertraits whereClause members, inner, h => by
    simp only [Decl.lexemes, placed_append] at h
    obtain ⟨⟨⟨⟨⟨⟨⟨⟨hq, -⟩, hg⟩, hs⟩, hw⟩, -⟩, -⟩, hm⟩, -⟩ := h
    simp only [Decl.lexemes, Decl.size, List.length_append, Node.length_lexemesAll qualifiers hq,
      Node.length_lexemes generics hg, Node.length_lexemes supertraits hs, Node.length_lexemes whereClause hw,
      Node.length_lexemesAll members hm, List.length_cons, List.length_nil]
    omega
  | .impl header selfType whereClause members, inner, h => by
    simp only [Decl.lexemes, placed_append] at h
    obtain ⟨⟨⟨⟨⟨⟨hh, hs⟩, hw⟩, -⟩, -⟩, hm⟩, -⟩ := h
    simp only [Decl.lexemes, Decl.size, List.length_append, Node.length_lexemesAll header hh,
      Node.length_lexemes selfType hs, Node.length_lexemes whereClause hw, Node.length_lexemesAll members hm,
      List.length_cons, List.length_nil]
    omega
  | .plain _ _ parts, inner, h => by
    rw [Decl.lexemes, placed_append] at h
    rw [Decl.lexemes, Decl.size, List.length_append, length_astray, Node.length_lexemesAll parts h.1]
  | .verbatim tokens, inner, h => by
    rw [Decl.lexemes, Decl.size, List.length_append, length_astray, TokenTree.length_lexemesAll]

end

/-! ### Items in their place -/

/-- The lexemes of a met item stand in a row of lexemes, as far from its start as the walk says. -/
def Sighting.IsIn (x : Sighting) (row : List LexemeKind) (start : Nat) : Prop :=
  ∃ before after, row = before ++ x.item.lexemes ++ after ∧ x.start = start + before.length

namespace Sighting

variable {x : Sighting} {row part : List LexemeKind} {start place : Nat}

lemma IsIn.of_part (h : x.IsIn part place) (before after : List LexemeKind) (row_eq : row = before ++ part ++ after)
    (place_eq : place = start + before.length) : x.IsIn row start := by
  obtain ⟨before', after', rfl, start_eq⟩ := h
  refine ⟨before ++ before', after' ++ after, ?_, ?_⟩
  · simp only [row_eq, List.append_assoc]
  · rw [start_eq, place_eq, List.length_append, Nat.add_assoc]

lemma IsIn.append_right (h : x.IsIn part start) (after : List LexemeKind) : x.IsIn (part ++ after) start :=
  h.of_part [] after rfl rfl

lemma IsIn.append_left (before : List LexemeKind) (h : x.IsIn part (start + before.length)) :
    x.IsIn (before ++ part) start :=
  h.of_part before [] (List.append_nil _).symm rfl

end Sighting

lemma Item.lexemes_ne_nil (i : Item) : i.lexemes ≠ [] := by
  cases i
  exact present_ne_nil

lemma Sighting.IsIn.ne_nil {x : Sighting} {row : List LexemeKind} {start : Nat} (h : x.IsIn row start) :
    row ≠ [] := by
  obtain ⟨before, after, rfl, -⟩ := h
  simp [x.item.lexemes_ne_nil]

lemma Turn.mem_of_mem_arrange {α : Type} {met : List (Turn × List α)} {a : α} (h : a ∈ arrange met) :
    ∃ e ∈ met, a ∈ e.2 := by
  obtain ⟨t, -, h⟩ := List.mem_flatMap.mp h
  obtain ⟨e, he, h⟩ := List.mem_flatMap.mp h
  exact ⟨e, (List.mem_filter.mp he).1, h⟩

/-- The inner attributes of a declaration stand behind its head. -/
lemma Decl.exists_inner {d : Decl} {inner : List LexemeKind} (h : Placed (d.lexemes inner)) :
    ∃ head tail, d.lexemes inner = head ++ inner ++ tail ∧ (inner ≠ [] → head.length = d.headSize) := by
  have astray_eq (row : List LexemeKind) (eq : d.lexemes inner = row ++ astray inner) :
      ∃ head tail, d.lexemes inner = head ++ inner ++ tail ∧ (inner ≠ [] → head.length = d.headSize) := by
    rw [eq, placed_append] at h
    have := eq_nil_of_placed h.2
    subst this
    exact ⟨row, [], by rw [eq]; simp [astray], fun ne => absurd rfl ne⟩
  match d with
  | .module isUnsafe name (some items) =>
    refine ⟨(if isUnsafe then [.word "unsafe"] else []) ++ [.word "mod", .word name, .opening .brace],
      Item.lexemesAll items ++ [.closing .brace], by simp [Decl.lexemes], fun _ => ?_⟩
    cases isUnsafe <;> rfl
  | .trait qualifiers name generics supertraits whereClause members =>
    refine ⟨Node.lexemesAll qualifiers ++ [.word "trait", .word name] ++ generics.lexemes ++ supertraits.lexemes ++
      whereClause.lexemes ++ [.opening .brace], Node.lexemesAll members ++ [.closing .brace],
      by simp [Decl.lexemes], fun _ => ?_⟩
    simp only [Decl.lexemes, placed_append] at h
    obtain ⟨⟨⟨⟨⟨⟨⟨⟨hq, -⟩, hg⟩, hs⟩, hw⟩, -⟩, -⟩, -⟩, -⟩ := h
    simp [Decl.headSize, Node.length_lexemesAll qualifiers hq, Node.length_lexemes generics hg,
      Node.length_lexemes supertraits hs, Node.length_lexemes whereClause hw]
    omega
  | .impl header selfType whereClause members =>
    refine ⟨Node.lexemesAll header ++ selfType.lexemes ++ whereClause.lexemes ++ [.opening .brace],
      Node.lexemesAll members ++ [.closing .brace], by simp [Decl.lexemes], fun _ => ?_⟩
    simp only [Decl.lexemes, placed_append] at h
    obtain ⟨⟨⟨⟨⟨⟨hh, hs⟩, hw⟩, -⟩, -⟩, -⟩, -⟩ := h
    simp [Decl.headSize, Node.length_lexemesAll header hh, Node.length_lexemes selfType hs,
      Node.length_lexemes whereClause hw]
    omega
  | .module isUnsafe name none => exact astray_eq _ (List.append_assoc _ _ _).symm
  | .useDecl _ _ | .externCrate _ _ | .data _ _ _ _ | .plain _ _ _ | .verbatim _ => exact astray_eq _ rfl

mutual

lemma Node.isIn_sightings : ∀ (n : Node), Placed n.lexemes → ∀ (s : Scope) (start : Nat),
    ∀ x ∈ n.sightings s start, x.IsIn n.lexemes start
  | .leaf _, _, s, start, x, met => absurd met List.not_mem_nil
  | .raw _, _, s, start, x, met => absurd met List.not_mem_nil
  | .group d parts, h, s, start, x, met => by
    rw [Node.lexemes, placed_append, placed_cons] at h
    obtain ⟨e, he, hx⟩ := Turn.mem_of_mem_arrange met
    have inside := Node.isIn_sightingsEach parts h.1.2 s (start + 1) e he x hx
    exact inside.of_part [.opening d] [.closing d] rfl rfl
  | .form f parts, h, s, start, x, met => by
    have inside (placed : Placed (Node.lexemesAll parts))
        (met : x ∈ Turn.arrange (Node.sightingsEach s start parts)) : x.IsIn (Node.lexemesAll parts) start := by
      obtain ⟨e, he, hx⟩ := Turn.mem_of_mem_arrange met
      exact Node.isIn_sightingsEach parts placed s start e he x hx
    cases f with
    | phantom => exact absurd met List.not_mem_nil
    | silent => exact absurd met List.not_mem_nil
    | _ => exact inside h met
  | .attr a, h, s, start, x, met => Attr.isIn_sightings a h s start x met
  | .item i, h, s, start, x, met => Item.isIn_sightings i h s start x met

lemma Node.isIn_sightingsEach : ∀ (ns : List Node), Placed (Node.lexemesAll ns) → ∀ (s : Scope) (start : Nat),
    ∀ e ∈ Node.sightingsEach s start ns, ∀ x ∈ e.2, x.IsIn (Node.lexemesAll ns) start
  | [], _, _, _, e, he, _, _ => absurd he List.not_mem_nil
  | n :: ns, h, s, start, e, he, x, hx => by
    rw [Node.lexemesAll, placed_append] at h
    have later (he : e ∈ Node.sightingsEach s (start + n.size) ns) : x.IsIn (Node.lexemesAll (n :: ns)) start := by
      rw [← Node.length_lexemes n h.1] at he
      exact (Node.isIn_sightingsEach ns h.2 s _ e he x hx).append_left
    have first (hx : x ∈ n.sightings s start) : x.IsIn (Node.lexemesAll (n :: ns)) start :=
      (Node.isIn_sightings n h.1 s start x hx).append_right _
    cases n with
    | group d parts =>
      -- what is met in a group takes two turns
      have inside (p : Turn × List Sighting → Bool)
          (hx : x ∈ Turn.arrange ((Node.sightingsEach s (start + 1) parts).filter p)) :
          x.IsIn (Node.lexemesAll (.group d parts :: ns)) start := by
        obtain ⟨e, he, hx⟩ := Turn.mem_of_mem_arrange hx
        rw [Node.lexemes, placed_append, placed_cons] at h
        have part := Node.isIn_sightingsEach parts h.1.1.2 s (start + 1) e (List.mem_filter.mp he).1 x hx
        exact part.of_part [.opening d] ([.closing d] ++ Node.lexemesAll ns)
          (by simp [Node.lexemesAll, Node.lexemes]) rfl
      rw [Node.sightingsEach, List.mem_cons, List.mem_cons] at he
      rcases he with rfl | rfl | he
      · exact inside _ hx
      · exact inside _ hx
      · exact later he
    | _ =>
      simp only [Node.sightingsEach, List.mem_cons] at he
      rcases he with rfl | he
      · exact first hx
      · exact later he

lemma Attr.isIn_sightings : ∀ (a : Attr), Placed a.lexemes → ∀ (s : Scope) (start : Nat),
    ∀ x ∈ a.sightings s start, x.IsIn a.lexemes start
  | .mk inner path args, h, s, start, x, met => by
    simp only [Attr.lexemes, placed_append] at h
    obtain ⟨e, he, hx⟩ := Turn.mem_of_mem_arrange met
    have part := Node.isIn_sightingsEach args h.1.2 s _ e he x hx
    refine part.of_part (ofOp "#" ++ (if inner then ofOp "!" else []) ++ [.opening .bracket] ++ path.lexemes)
      [.closing .bracket] rfl ?_
    cases inner <;> simp [show "#".length = 1 from rfl, show "!".length = 1 from rfl] <;> omega

lemma Attr.isIn_sightingsAll (inner : Bool) : ∀ (as : List Attr), Placed (Attr.lexemesAll inner as) →
    ∀ (s : Scope) (start : Nat), ∀ x ∈ Attr.sightingsAll s inner start as, x.IsIn (Attr.lexemesAll inner as) start
  | [], _, _, _, _, met => absurd met List.not_mem_nil
  | a :: as, h, s, start, x, met => by
    rw [Attr.lexemesAll, placed_append] at h
    rw [Attr.sightingsAll] at met
    rw [Attr.lexemesAll]
    split at met
    · next same =>
      rw [if_pos same] at h ⊢
      rw [List.mem_append, ← Attr.length_lexemes a h.1] at met
      rcases met with met | met
      · exact (Attr.isIn_sightings a h.1 s start x met).append_right _
      · exact (Attr.isIn_sightingsAll inner as h.2 s _ x met).append_left
    · next other =>
      rw [if_neg other]
      exact Attr.isIn_sightingsAll inner as h.2 s start x met

lemma Item.isIn_sightings : ∀ (i : Item), Placed i.lexemes → ∀ (s : Scope) (start : Nat),
    ∀ x ∈ i.sightings s start, x.IsIn i.lexemes start
  | .mk attrs vis decl, h, s, start, x, met => by
    have row : (Item.mk attrs vis decl).lexemes =
        Attr.lexemesAll false attrs ++ vis.lexemes ++ decl.lexemes (Attr.lexemesAll true attrs) :=
      present_of_placed h
    rw [row, placed_append, placed_append] at h
    obtain ⟨⟨outer, -⟩, body⟩ := h
    have inner := Decl.placed_inner body
    unfold Item.sightings at met
    rw [← Attr.length_lexemesAll false attrs outer, ← vis.length_lexemes,
      ← Attr.length_lexemesAll true attrs inner] at met
    rw [List.mem_append, List.mem_append, List.mem_cons] at met
    rcases met with ((rfl | met) | met) | met
    · exact ⟨[], [], (List.append_nil _).symm, rfl⟩
    · rw [row, List.append_assoc]
      exact (Attr.isIn_sightingsAll false attrs outer _ start x met).append_right _
    · obtain ⟨head, tail, parts, place⟩ := Decl.exists_inner body
      have part := Attr.isIn_sightingsAll true attrs inner _ _ x met
      refine part.of_part (Attr.lexemesAll false attrs ++ vis.lexemes ++ head) tail ?_ ?_
      · simp only [row, parts, List.append_assoc]
      · simp only [List.length_append, place part.ne_nil]
        omega
    · rw [row]
      apply Sighting.IsIn.append_left
      rw [List.length_append, ← Nat.add_assoc]
      exact Decl.isIn_sightings decl _ body _ _ x met

lemma Item.isIn_sightingsAll : ∀ (is : List Item), Placed (Item.lexemesAll is) → ∀ (s : Scope) (start : Nat),
    ∀ x ∈ Item.sightingsAll s start is, x.IsIn (Item.lexemesAll is) start
  | [], _, _, _, _, met => absurd met List.not_mem_nil
  | i :: is, h, s, start, x, met => by
    rw [Item.lexemesAll, placed_append] at h
    rw [Item.sightingsAll, List.mem_append, ← Item.length_lexemes i h.1] at met
    rcases met with met | met
    · exact (Item.isIn_sightings i h.1 s start x met).append_right _
    · exact (Item.isIn_sightingsAll is h.2 s _ x met).append_left

lemma Decl.isIn_sightings : ∀ (d : Decl) (inner : List LexemeKind), Placed (d.lexemes inner) →
    ∀ (s : Scope) (start : Nat), ∀ x ∈ d.sightings s start (start + d.headSize + inner.length),
      x.IsIn (d.lexemes inner) start
  | .useDecl _ _, _, _, _, _, x, met | .externCrate _ _, _, _, _, _, x, met
  | .module _ _ none, _, _, _, _, x, met | .verbatim _, _, _, _, _, x, met => absurd met List.not_mem_nil
  | .module isUnsafe name (some items), inner, h, s, start, x, met => by
    simp only [Decl.lexemes, placed_append] at h
    have part := Item.isIn_sightingsAll items h.2.1.2 s _ x met
    refine part.of_part ((if isUnsafe then [.word "unsafe"] else []) ++ [.word "mod", .word name] ++
      ([.opening .brace] ++ inner)) [.closing .brace] (by simp [Decl.lexemes]) ?_
    cases isUnsafe <;> simp [Decl.headSize] <;> omega
  | .data kind name generics body, inner, h, s, start, x, met => by
    simp only [Decl.lexemes, placed_append] at h
    obtain ⟨e, he, hx⟩ := Turn.mem_of_mem_arrange met
    rw [List.mem_cons, ← Node.length_lexemes generics h.1.1.2] at he
    rcases he with rfl | he
    · have part := Node.isIn_sightings generics h.1.1.2 s _ x hx
      exact part.of_part [.word kind.keyword, .word name] (Node.lexemesAll body ++ astray inner)
        (by simp [Decl.lexemes]) rfl
    · have part := Node.isIn_sightingsEach body h.1.2 s _ e he x hx
      exact part.of_part ([.word kind.keyword, .word name] ++ generics.lexemes) (astray inner)
        (by simp [Decl.lexemes]) (by simp; omega)
  | .trait qualifiers name generics supertraits whereClause members, inner, h, s, start, x, met => by
    simp only [Decl.lexemes, placed_append] at h
    obtain ⟨⟨⟨⟨⟨⟨⟨⟨hq, -⟩, hg⟩, hs⟩, hw⟩, -⟩, -⟩, hm⟩, -⟩ := h
    let before := Node.lexemesAll qualifiers ++ [.word "trait", .word name]
    let body := [.opening .brace] ++ inner ++ Node.lexemesAll members ++ [.closing .brace]
    simp only [Decl.sightings, Decl.headSize, ← Node.length_lexemesAll qualifiers hq, ← Node.length_lexemes generics hg,
      ← Node.length_lexemes supertraits hs, ← Node.length_lexemes whereClause hw, List.mem_append] at met
    rcases met with ((met | met) | met) | met
    · have part := Node.isIn_sightings generics hg s _ x met
      exact part.of_part before (supertraits.lexemes ++ whereClause.lexemes ++ body)
        (by simp [Decl.lexemes, before, body]) (by simp [before]; omega)
    · have part := Node.isIn_sightings whereClause hw s _ x met
      exact part.of_part (before ++ generics.lexemes ++ supertraits.lexemes) body
        (by simp [Decl.lexemes, before, body]) (by simp [before]; omega)
    · have part := Node.isIn_sightings supertraits hs s _ x met
      exact part.of_part (before ++ generics.lexemes) (whereClause.lexemes ++ body)
        (by simp [Decl.lexemes, before, body]) (by simp [before]; omega)
    · obtain ⟨e, he, hx⟩ := Turn.mem_of_mem_arrange met
      have part := Node.isIn_sightingsEach members hm s _ e he x hx
      exact part.of_part (before ++ generics.lexemes ++ supertraits.lexemes ++ whereClause.lexemes ++
        ([.opening .brace] ++ inner)) [.closing .brace] (by simp [Decl.lexemes, before]) (by simp [before]; omega)
  | .impl header selfType whereClause members, inner, h, s, start, x, met => by
    simp only [Decl.lexemes, placed_append] at h
    obtain ⟨⟨⟨⟨⟨⟨hh, hs⟩, hw⟩, -⟩, -⟩, hm⟩, -⟩ := h
    let body := [.opening .brace] ++ inner ++ Node.lexemesAll members ++ [.closing .brace]
    simp only [Decl.sightings, Decl.headSize, ← Node.length_lexemesAll header hh, ← Node.length_lexemes selfType hs,
      ← Node.length_lexemes whereClause hw] at met
    obtain ⟨e, he, hx⟩ := Turn.mem_of_mem_arrange met
    simp only [List.mem_append, List.mem_cons, List.not_mem_nil, or_false] at he
    rcases he with (he | rfl | rfl) | he
    · have part := Node.isIn_sightingsEach header hh s start e he x hx
      exact part.of_part [] (selfType.lexemes ++ whereClause.lexemes ++ body) (by simp [Decl.lexemes, body]) rfl
    · have part := Node.isIn_sightings selfType hs s _ x hx
      exact part.of_part (Node.lexemesAll header) (whereClause.lexemes ++ body) (by simp [Decl.lexemes, body]) rfl
    · have part := Node.isIn_sightings whereClause hw s _ x hx
      exact part.of_part (Node.lexemesAll header ++ selfType.lexemes) body (by simp [Decl.lexemes, body])
        (by simp; omega)
    · have part := Node.isIn_sightingsEach members hm s _ e he x hx
      exact part.of_part (Node.lexemesAll header ++ selfType.lexemes ++ whereClause.lexemes ++
        ([.opening .brace] ++ inner)) [.closing .brace] (by simp [Decl.lexemes]) (by simp; omega)
  | .plain _ _ parts, inner, h, s, start, x, met => by
    rw [Decl.lexemes, placed_append] at h
    obtain ⟨e, he, hx⟩ := Turn.mem_of_mem_arrange met
    exact (Node.isIn_sightingsEach parts h.1 s start e he x hx).append_right _

end

/-- In a file whose lexemes all have a place, a met item stands where the walk says. -/
theorem SourceFile.isIn_sightings (f : SourceFile) (h : Placed f.lexemes) (s : Scope) :
    ∀ x ∈ f.sightings s, x.IsIn f.lexemes 0 := by
  intro x met
  rw [lexemes, placed_append] at h
  rw [sightings, List.mem_append, ← Attr.length_lexemesAll true f.attrs h.1] at met
  rcases met with met | met
  · exact (Attr.isIn_sightingsAll true f.attrs h.1 s 0 x met).append_right _
  · apply Sighting.IsIn.append_left
    rw [Nat.zero_add]
    exact Item.isIn_sightingsAll f.items h.2 s _ x met

end SourceGen
