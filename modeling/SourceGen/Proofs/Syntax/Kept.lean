import SourceGen.Proofs.Syntax.Spacing

/-!
# Spacing and kept tokens

Syntax has no spacing but that of the tokens it keeps, so two pieces of syntax that differ in spacing only are
equal if they keep equal tokens (`SourceFile.eq_of_kept`). Kept tokens stand in a row; how many belong to the
first of two parts does not depend on spacing, which is what takes the row apart again.
-/

namespace SourceGen

/-- A row of kept tokens is taken apart where the tokens of its first part end. -/
lemma TokenTree.eq_of_append {ts us rest rest' : List TokenTree} (like : unspacedAll ts = unspacedAll us)
    (kept : ts ++ rest = us ++ rest') : ts = us ∧ rest = rest' := by
  have lengths : ts.length = us.length := by
    simpa [unspacedAll_eq_map] using congrArg List.length like
  exact List.append_inj kept lengths

mutual

lemma Node.eq_of_kept : ∀ (n m : Node) {rest rest' : List TokenTree}, n.unspaced = m.unspaced →
    n.kept ++ rest = m.kept ++ rest' → n = m ∧ rest = rest'
  | .leaf l, m, _, _, like, kept => by
    cases m <;> cases like
    exact ⟨rfl, kept⟩
  | .raw ts, m, _, _, like, kept => by
    cases m with
    | raw us =>
      obtain ⟨rfl, rest⟩ := TokenTree.eq_of_append (Node.raw.inj like) kept
      exact ⟨rfl, rest⟩
    | _ => cases like
  | .group d ns, m, _, _, like, kept => by
    cases m with
    | group e ms =>
      obtain ⟨rfl, parts⟩ := Node.group.inj like
      obtain ⟨rfl, rest⟩ := Node.eqAll_of_kept ns ms parts kept
      exact ⟨rfl, rest⟩
    | _ => cases like
  | .form f ns, m, _, _, like, kept => by
    cases m with
    | form g ms =>
      obtain ⟨rfl, parts⟩ := Node.form.inj like
      obtain ⟨rfl, rest⟩ := Node.eqAll_of_kept ns ms parts kept
      exact ⟨rfl, rest⟩
    | _ => cases like
  | .attr a, m, _, _, like, kept => by
    cases m with
    | attr b =>
      obtain ⟨rfl, rest⟩ := Attr.eq_of_kept a b (Node.attr.inj like) kept
      exact ⟨rfl, rest⟩
    | _ => cases like
  | .item i, m, _, _, like, kept => by
    cases m with
    | item j =>
      obtain ⟨rfl, rest⟩ := Item.eq_of_kept i j (Node.item.inj like) kept
      exact ⟨rfl, rest⟩
    | _ => cases like

lemma Node.eqAll_of_kept : ∀ (ns ms : List Node) {rest rest' : List TokenTree},
    Node.unspacedAll ns = Node.unspacedAll ms → Node.keptAll ns ++ rest = Node.keptAll ms ++ rest' →
      ns = ms ∧ rest = rest'
  | [], ms, _, _, like, kept => by
    cases ms with
    | nil => exact ⟨rfl, kept⟩
    | cons m ms => cases like
  | n :: ns, ms, _, _, like, kept => by
    cases ms with
    | nil => cases like
    | cons m ms =>
      obtain ⟨first, others⟩ := List.cons.inj like
      rw [Node.keptAll, Node.keptAll, List.append_assoc, List.append_assoc] at kept
      obtain ⟨rfl, rest₁⟩ := Node.eq_of_kept n m first kept
      obtain ⟨rfl, rest⟩ := Node.eqAll_of_kept ns ms others rest₁
      exact ⟨rfl, rest⟩

lemma Attr.eq_of_kept : ∀ (a b : Attr) {rest rest' : List TokenTree}, a.unspaced = b.unspaced →
    a.kept ++ rest = b.kept ++ rest' → a = b ∧ rest = rest'
  | .mk _ _ ns, .mk _ _ ms, _, _, like, kept => by
    obtain ⟨rfl, rfl, args⟩ := Attr.mk.inj like
    obtain ⟨rfl, rest⟩ := Node.eqAll_of_kept ns ms args kept
    exact ⟨rfl, rest⟩

lemma Attr.eqAll_of_kept : ∀ (as bs : List Attr) {rest rest' : List TokenTree},
    Attr.unspacedAll as = Attr.unspacedAll bs → Attr.keptAll as ++ rest = Attr.keptAll bs ++ rest' →
      as = bs ∧ rest = rest'
  | [], bs, _, _, like, kept => by
    cases bs with
    | nil => exact ⟨rfl, kept⟩
    | cons b bs => cases like
  | a :: as, bs, _, _, like, kept => by
    cases bs with
    | nil => cases like
    | cons b bs =>
      obtain ⟨first, others⟩ := List.cons.inj like
      rw [Attr.keptAll, Attr.keptAll, List.append_assoc, List.append_assoc] at kept
      obtain ⟨rfl, rest₁⟩ := Attr.eq_of_kept a b first kept
      obtain ⟨rfl, rest⟩ := Attr.eqAll_of_kept as bs others rest₁
      exact ⟨rfl, rest⟩

lemma Item.eq_of_kept : ∀ (i j : Item) {rest rest' : List TokenTree}, i.unspaced = j.unspaced →
    i.kept ++ rest = j.kept ++ rest' → i = j ∧ rest = rest'
  | .mk as _ d, .mk bs _ e, _, _, like, kept => by
    obtain ⟨attrs, rfl, decl⟩ := Item.mk.inj like
    rw [Item.kept, Item.kept, List.append_assoc, List.append_assoc] at kept
    obtain ⟨rfl, rest₁⟩ := Attr.eqAll_of_kept as bs attrs kept
    obtain ⟨rfl, rest⟩ := Decl.eq_of_kept d e decl rest₁
    exact ⟨rfl, rest⟩

lemma Item.eqAll_of_kept : ∀ (is js : List Item) {rest rest' : List TokenTree},
    Item.unspacedAll is = Item.unspacedAll js → Item.keptAll is ++ rest = Item.keptAll js ++ rest' →
      is = js ∧ rest = rest'
  | [], js, _, _, like, kept => by
    cases js with
    | nil => exact ⟨rfl, kept⟩
    | cons j js => cases like
  | i :: is, js, _, _, like, kept => by
    cases js with
    | nil => cases like
    | cons j js =>
      obtain ⟨first, others⟩ := List.cons.inj like
      rw [Item.keptAll, Item.keptAll, List.append_assoc, List.append_assoc] at kept
      obtain ⟨rfl, rest₁⟩ := Item.eq_of_kept i j first kept
      obtain ⟨rfl, rest⟩ := Item.eqAll_of_kept is js others rest₁
      exact ⟨rfl, rest⟩

lemma Decl.eq_of_kept : ∀ (d e : Decl) {rest rest' : List TokenTree}, d.unspaced = e.unspaced →
    d.kept ++ rest = e.kept ++ rest' → d = e ∧ rest = rest'
  | .useDecl _ _, e, _, _, like, kept => by
    cases e with
    | module _ _ items => cases items <;> cases like
    | _ => cases like <;> exact ⟨rfl, kept⟩
  | .externCrate _ _, e, _, _, like, kept => by
    cases e with
    | module _ _ items => cases items <;> cases like
    | _ => cases like <;> exact ⟨rfl, kept⟩
  | .module _ _ none, e, _, _, like, kept => by
    cases e with
    | module _ _ items =>
      cases items with
      | none =>
        cases like
        exact ⟨rfl, kept⟩
      | some _ => cases like
    | _ => cases like
  | .module _ _ (some is), e, _, _, like, kept => by
    cases e with
    | module _ _ items =>
      cases items with
      | none => cases like
      | some js =>
        obtain ⟨rfl, rfl, items⟩ := Decl.module.inj like
        obtain ⟨rfl, rest⟩ := Item.eqAll_of_kept is js (Option.some.inj items) kept
        exact ⟨rfl, rest⟩
    | _ => cases like
  | .data _ _ g ns, e, _, _, like, kept => by
    cases e with
    | module _ _ items => cases items <;> cases like
    | data _ _ h ms =>
      obtain ⟨rfl, rfl, generics, body⟩ := Decl.data.inj like
      rw [Decl.kept, Decl.kept, List.append_assoc, List.append_assoc] at kept
      obtain ⟨rfl, rest₁⟩ := Node.eq_of_kept g h generics kept
      obtain ⟨rfl, rest⟩ := Node.eqAll_of_kept ns ms body rest₁
      exact ⟨rfl, rest⟩
    | _ => cases like
  | .trait qs _ g s w ns, e, _, _, like, kept => by
    cases e with
    | module _ _ items => cases items <;> cases like
    | trait rs _ h t x ms =>
      obtain ⟨qualifiers, rfl, generics, supertraits, wheres, members⟩ := Decl.trait.inj like
      simp only [Decl.kept, List.append_assoc] at kept
      obtain ⟨rfl, rest₁⟩ := Node.eqAll_of_kept qs rs qualifiers kept
      obtain ⟨rfl, rest₂⟩ := Node.eq_of_kept g h generics rest₁
      obtain ⟨rfl, rest₃⟩ := Node.eq_of_kept s t supertraits rest₂
      obtain ⟨rfl, rest₄⟩ := Node.eq_of_kept w x wheres rest₃
      obtain ⟨rfl, rest⟩ := Node.eqAll_of_kept ns ms members rest₄
      exact ⟨rfl, rest⟩
    | _ => cases like
  | .impl hs s w ns, e, _, _, like, kept => by
    cases e with
    | module _ _ items => cases items <;> cases like
    | impl gs t x ms =>
      obtain ⟨header, selfType, wheres, members⟩ := Decl.impl.inj like
      simp only [Decl.kept, List.append_assoc] at kept
      obtain ⟨rfl, rest₁⟩ := Node.eqAll_of_kept hs gs header kept
      obtain ⟨rfl, rest₂⟩ := Node.eq_of_kept s t selfType rest₁
      obtain ⟨rfl, rest₃⟩ := Node.eq_of_kept w x wheres rest₂
      obtain ⟨rfl, rest⟩ := Node.eqAll_of_kept ns ms members rest₃
      exact ⟨rfl, rest⟩
    | _ => cases like
  | .plain _ _ ns, e, _, _, like, kept => by
    cases e with
    | module _ _ items => cases items <;> cases like
    | plain _ _ ms =>
      obtain ⟨rfl, rfl, parts⟩ := Decl.plain.inj like
      obtain ⟨rfl, rest⟩ := Node.eqAll_of_kept ns ms parts kept
      exact ⟨rfl, rest⟩
    | _ => cases like
  | .verbatim ts, e, _, _, like, kept => by
    cases e with
    | module _ _ items => cases items <;> cases like
    | verbatim us =>
      obtain ⟨rfl, rest⟩ := TokenTree.eq_of_append (Decl.verbatim.inj like) kept
      exact ⟨rfl, rest⟩
    | _ => cases like

end

/-- Files that differ in spacing only are equal exactly if they keep equal tokens. -/
lemma SourceFile.eq_iff_kept {f g : SourceFile} (like : f.unspaced = g.unspaced) : f = g ↔ f.kept = g.kept := by
  refine ⟨congrArg SourceFile.kept, fun kept => ?_⟩
  obtain ⟨as, is⟩ := f
  obtain ⟨bs, js⟩ := g
  obtain ⟨attrs, items⟩ := SourceFile.mk.inj like
  obtain ⟨rfl, rest⟩ := Attr.eqAll_of_kept as bs attrs kept
  obtain ⟨rfl, -⟩ := Item.eqAll_of_kept is js items (congrArg (· ++ []) rest)
  rfl

end SourceGen
