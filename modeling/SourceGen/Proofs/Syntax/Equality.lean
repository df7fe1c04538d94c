import Mathlib.Tactic.Lemma
import SourceGen.Syntax.Equality

/-!
# Equality of syntax decides

The comparisons of token trees, use trees, nodes, attributes and items answer yes exactly for equal trees.
Each proof follows the constructors of the left tree, with one clause for trees and one for rows of trees.
-/

namespace SourceGen

mutual

/-- Token trees are the same exactly if they are equal. -/
lemma TokenTree.beq_iff : ∀ x y : TokenTree, x.beq y = true ↔ x = y
  | .word a, y => by cases y <;> simp [TokenTree.beq]
  | .lifetime a, y => by cases y <;> simp [TokenTree.beq]
  | .literal a, y => by cases y <;> simp [TokenTree.beq]
  | .punct a j, y => by cases y <;> simp [TokenTree.beq]
  | .group d xs, y => by
    cases y with
    | group e ys => simp [TokenTree.beq, TokenTree.beqAll_iff xs ys]
    | _ => simp [TokenTree.beq]

lemma TokenTree.beqAll_iff : ∀ xs ys : List TokenTree, TokenTree.beqAll xs ys = true ↔ xs = ys
  | [], ys => by cases ys <;> simp [TokenTree.beqAll]
  | x :: xs, ys => by
    cases ys with
    | nil => simp [TokenTree.beqAll]
    | cons y ys => simp [TokenTree.beqAll, TokenTree.beq_iff x y, TokenTree.beqAll_iff xs ys]

end

instance : LawfulBEq TokenTree where
  eq_of_beq h := (TokenTree.beq_iff _ _).mp h
  rfl := (TokenTree.beq_iff _ _).mpr rfl

mutual

lemma UseTree.beq_iff : ∀ x y : UseTree, x.beq y = true ↔ x = y
  | .step a x, y => by
    cases y with
    | step b y => simp [UseTree.beq, UseTree.beq_iff x y]
    | _ => simp [UseTree.beq]
  | .leaf a, y => by cases y <;> simp [UseTree.beq]
  | .rename a x, y => by cases y <;> simp [UseTree.beq]
  | .glob, y => by cases y <;> simp [UseTree.beq]
  | .group xs s, y => by
    cases y with
    | group ys t => simp [UseTree.beq, UseTree.beqAll_iff xs ys]
    | _ => simp [UseTree.beq]

lemma UseTree.beqAll_iff : ∀ xs ys : List UseTree, UseTree.beqAll xs ys = true ↔ xs = ys
  | [], ys => by cases ys <;> simp [UseTree.beqAll]
  | x :: xs, ys => by
    cases ys with
    | nil => simp [UseTree.beqAll]
    | cons y ys => simp [UseTree.beqAll, UseTree.beq_iff x y, UseTree.beqAll_iff xs ys]

end

instance : LawfulBEq UseTree where
  eq_of_beq h := (UseTree.beq_iff _ _).mp h
  rfl := (UseTree.beq_iff _ _).mpr rfl

mutual

/-- Pieces of syntax are the same exactly if they are equal. -/
lemma Node.beq_iff : ∀ x y : Node, x.beq y = true ↔ x = y
  | .leaf a, y => by cases y <;> simp [Node.beq]
  | .raw a, y => by cases y <;> simp [Node.beq]
  | .group d xs, y => by
    cases y with
    | group e ys => simp [Node.beq, Node.beqAll_iff xs ys]
    | _ => simp [Node.beq]
  | .form f xs, y => by
    cases y with
    | form g ys => simp [Node.beq, Node.beqAll_iff xs ys]
    | _ => simp [Node.beq]
  | .attr a, y => by
    cases y with
    | attr b => simp [Node.beq, Attr.beq_iff a b]
    | _ => simp [Node.beq]
  | .item a, y => by
    cases y with
    | item b => simp [Node.beq, Item.beq_iff a b]
    | _ => simp [Node.beq]

lemma Node.beqAll_iff : ∀ xs ys : List Node, Node.beqAll xs ys = true ↔ xs = ys
  | [], ys => by cases ys <;> simp [Node.beqAll]
  | x :: xs, ys => by
    cases ys with
    | nil => simp [Node.beqAll]
    | cons y ys => simp [Node.beqAll, Node.beq_iff x y, Node.beqAll_iff xs ys]

lemma Attr.beq_iff : ∀ x y : Attr, x.beq y = true ↔ x = y
  | .mk i p xs, .mk j q ys => by simp [Attr.beq, Node.beqAll_iff xs ys, and_assoc]

lemma Attr.beqAll_iff : ∀ xs ys : List Attr, Attr.beqAll xs ys = true ↔ xs = ys
  | [], ys => by cases ys <;> simp [Attr.beqAll]
  | x :: xs, ys => by
    cases ys with
    | nil => simp [Attr.beqAll]
    | cons y ys => simp [Attr.beqAll, Attr.beq_iff x y, Attr.beqAll_iff xs ys]

/-- Items are the same exactly if they are equal. -/
lemma Item.beq_iff : ∀ x y : Item, x.beq y = true ↔ x = y
  | .mk as v d, .mk bs w e => by simp [Item.beq, Attr.beqAll_iff as bs, Decl.beq_iff d e, and_assoc]

lemma Item.beqAll_iff : ∀ xs ys : List Item, Item.beqAll xs ys = true ↔ xs = ys
  | [], ys => by cases ys <;> simp [Item.beqAll]
  | x :: xs, ys => by
    cases ys with
    | nil => simp [Item.beqAll]
    | cons y ys => simp [Item.beqAll, Item.beq_iff x y, Item.beqAll_iff xs ys]

lemma Decl.beq_iff : ∀ x y : Decl, x.beq y = true ↔ x = y
  | .useDecl r t, y => by cases y <;> simp [Decl.beq]
  | .externCrate n r, y => by cases y <;> simp [Decl.beq]
  | .module u n none, y => by
    cases y with
    | module v m js => cases js <;> simp [Decl.beq]
    | _ => simp [Decl.beq]
  | .module u n (some is), y => by
    cases y with
    | module v m js =>
      cases js with
      | none => simp [Decl.beq]
      | some js => simp [Decl.beq, Item.beqAll_iff is js, and_assoc]
    | _ => simp [Decl.beq]
  | .data k n g b, y => by
    cases y with
    | data l m h c => simp [Decl.beq, Node.beq_iff g h, Node.beqAll_iff b c, and_assoc]
    | _ => simp [Decl.beq]
  | .trait q n g s w ms, y => by
    cases y with
    | trait r m h t x ns =>
      simp [Decl.beq, Node.beqAll_iff q r, Node.beq_iff g h, Node.beq_iff s t, Node.beq_iff w x,
        Node.beqAll_iff ms ns, and_assoc]
    | _ => simp [Decl.beq]
  | .impl h t w ms, y => by
    cases y with
    | impl i u x ns =>
      simp [Decl.beq, Node.beqAll_iff h i, Node.beq_iff t u, Node.beq_iff w x, Node.beqAll_iff ms ns,
        and_assoc]
    | _ => simp [Decl.beq]
  | .plain k n ps, y => by
    cases y with
    | plain l m qs => simp [Decl.beq, Node.beqAll_iff ps qs, and_assoc]
    | _ => simp [Decl.beq]
  | .verbatim ts, y => by cases y <;> simp [Decl.beq]

end

instance : LawfulBEq Node where
  eq_of_beq h := (Node.beq_iff _ _).mp h
  rfl := (Node.beq_iff _ _).mpr rfl

instance : LawfulBEq Attr where
  eq_of_beq h := (Attr.beq_iff _ _).mp h
  rfl := (Attr.beq_iff _ _).mpr rfl

instance : LawfulBEq Item where
  eq_of_beq h := (Item.beq_iff _ _).mp h
  rfl := (Item.beq_iff _ _).mpr rfl

/-- Files are equal if their attributes and their items are the same. -/
lemma SourceFile.eq_of_beq {f g : SourceFile} (attrs : (f.attrs == g.attrs) = true)
    (items : (f.items == g.items) = true) : f = g := by
  obtain ⟨_, _⟩ := f
  obtain ⟨_, _⟩ := g
  rw [SourceFile.mk.injEq]
  exact ⟨LawfulBEq.eq_of_beq attrs, LawfulBEq.eq_of_beq items⟩

instance SourceFile.decidableEq (f g : SourceFile) : Decidable (f = g) :=
  decidable_of_iff ((f.attrs == g.attrs) = true ∧ (f.items == g.items) = true)
    ⟨fun ⟨attrs, items⟩ => eq_of_beq attrs items, fun same => same ▸ ⟨beq_self_eq_true _, beq_self_eq_true _⟩⟩

end SourceGen
