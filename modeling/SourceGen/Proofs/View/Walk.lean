import Mathlib.Tactic.Lemma
import SourceGen.View.Walk

/-!
# The items that a walk meets

A walk knows the scope around an item and the place of it, but neither has a say in what is met. So the items met in
a row of items are those met in each of them, one after the other (`Item.map_item_sightingsAll`).
-/

namespace SourceGen

/-- The items of what was met, turn by turn. -/
def Turn.items (met : List (Turn × List Sighting)) : List (Turn × List Item) :=
  met.map fun e => (e.1, e.2.map (·.item))

namespace Turn

variable {met met' : List (Turn × List Sighting)}

lemma items_append : items (met ++ met') = items met ++ items met' := List.map_append

lemma items_filter (p : Turn → Bool) : items (met.filter fun e => p e.1) = (items met).filter fun e => p e.1 := by
  rw [items, items, List.filter_map]
  rfl

/-- What is arranged of the items of all turns are the items of what is arranged. -/
lemma map_item_arrange (met : List (Turn × List Sighting)) : (arrange met).map (·.item) = arrange (items met) := by
  rw [arrange, arrange, List.map_flatMap]
  congr 1
  funext t
  rw [List.map_flatMap, ← items_filter fun t' => t' = t, items, List.flatMap_map]

lemma map_item_arrange_congr (same : items met = items met') :
    (arrange met).map (·.item) = (arrange met').map (·.item) := by
  rw [map_item_arrange, map_item_arrange, same]

lemma items_cons_congr {t : Turn} {ss ss' : List Sighting} (first : ss.map (·.item) = ss'.map (·.item))
    (rest : items met = items met') : items ((t, ss) :: met) = items ((t, ss') :: met') := by
  rw [items, items, List.map_cons, List.map_cons, first]
  exact congrArg _ rest

lemma map_item_arrange_filter_congr (same : items met = items met') (p : Turn → Bool) :
    (arrange (met.filter fun e => p e.1)).map (·.item) = (arrange (met'.filter fun e => p e.1)).map (·.item) := by
  apply map_item_arrange_congr
  rw [items_filter, items_filter, same]

end Turn

mutual

/-- Neither the scope nor the place has a say in what is met in a piece of syntax. -/
lemma Node.map_item_sightings : ∀ (n : Node) (s s' : Scope) (start start' : Nat),
    (n.sightings s start).map (·.item) = (n.sightings s' start').map (·.item)
  | .leaf _, _, _, _, _ => rfl
  | .raw _, _, _, _, _ => rfl
  | .group d parts, s, s', start, start' => by
    rw [Node.sightings, Node.sightings]
    exact Turn.map_item_arrange_congr (Node.items_sightingsEach parts _ _ _ _)
  | .form f parts, s, s', start, start' => by
    have met := Turn.map_item_arrange_congr (Node.items_sightingsEach parts s s' start start')
    cases f with
    | phantom => rfl
    | silent => rfl
    | _ => exact met
  | .attr a, s, s', start, start' => Attr.map_item_sightings a s s' start start'
  | .item i, s, s', start, start' => Item.map_item_sightings i s s' start start'

lemma Node.items_sightingsEach : ∀ (ns : List Node) (s s' : Scope) (start start' : Nat),
    Turn.items (Node.sightingsEach s start ns) = Turn.items (Node.sightingsEach s' start' ns)
  | [], _, _, _, _ => rfl
  | .group d parts :: ns, s, s', start, start' => by
    -- a group among the parts gives its attributes a turn of their own
    have body := Node.items_sightingsEach parts s s' (start + 1) (start' + 1)
    have rest := Node.items_sightingsEach ns s s' (start + (Node.group d parts).size)
      (start' + (Node.group d parts).size)
    have first := Turn.map_item_arrange_filter_congr body (· = Turn.attributes)
    have others := Turn.map_item_arrange_filter_congr body (· ≠ Turn.attributes)
    exact Turn.items_cons_congr first (Turn.items_cons_congr others rest)
  | .leaf l :: ns, s, s', start, start' =>
    Turn.items_cons_congr (Node.map_item_sightings (.leaf l) s s' start start')
      (Node.items_sightingsEach ns s s' _ _)
  | .raw ts :: ns, s, s', start, start' =>
    Turn.items_cons_congr (Node.map_item_sightings (.raw ts) s s' start start')
      (Node.items_sightingsEach ns s s' _ _)
  | .form f parts :: ns, s, s', start, start' =>
    Turn.items_cons_congr (Node.map_item_sightings (.form f parts) s s' start start')
      (Node.items_sightingsEach ns s s' _ _)
  | .attr a :: ns, s, s', start, start' =>
    Turn.items_cons_congr (Node.map_item_sightings (.attr a) s s' start start')
      (Node.items_sightingsEach ns s s' _ _)
  | .item i :: ns, s, s', start, start' =>
    Turn.items_cons_congr (Node.map_item_sightings (.item i) s s' start start')
      (Node.items_sightingsEach ns s s' _ _)

lemma Attr.map_item_sightings : ∀ (a : Attr) (s s' : Scope) (start start' : Nat),
    (a.sightings s start).map (·.item) = (a.sightings s' start').map (·.item)
  | .mk inner path args, s, s', start, start' => by
    rw [Attr.sightings, Attr.sightings]
    exact Turn.map_item_arrange_congr (Node.items_sightingsEach args s s' _ _)

lemma Attr.map_item_sightingsAll : ∀ (as : List Attr) (inner : Bool) (s s' : Scope) (start start' : Nat),
    (Attr.sightingsAll s inner start as).map (·.item) = (Attr.sightingsAll s' inner start' as).map (·.item)
  | [], _, _, _, _, _ => rfl
  | a :: as, inner, s, s', start, start' => by
    rw [Attr.sightingsAll, Attr.sightingsAll]
    split
    · rw [List.map_append, List.map_append, Attr.map_item_sightings a s s' start start',
        Attr.map_item_sightingsAll as inner s s' _ _]
    · exact Attr.map_item_sightingsAll as inner s s' _ _

lemma Item.map_item_sightings : ∀ (i : Item) (s s' : Scope) (start start' : Nat),
    (i.sightings s start).map (·.item) = (i.sightings s' start').map (·.item)
  | .mk attrs vis decl, s, s', start, start' => by
    unfold Item.sightings
    simp only [List.map_cons, List.map_append, List.cons_append]
    congr 1
    congr 1
    · congr 1
      · exact Attr.map_item_sightingsAll attrs false _ _ _ _
      · exact Attr.map_item_sightingsAll attrs true _ _ _ _
    · exact Decl.map_item_sightings decl _ _ _ _ _ _

lemma Item.map_item_sightingsAll_congr : ∀ (is : List Item) (s s' : Scope) (start start' : Nat),
    (Item.sightingsAll s start is).map (·.item) = (Item.sightingsAll s' start' is).map (·.item)
  | [], _, _, _, _ => rfl
  | i :: is, s, s', start, start' => by
    rw [Item.sightingsAll, Item.sightingsAll, List.map_append, List.map_append,
      Item.map_item_sightings i s s' start start', Item.map_item_sightingsAll_congr is s s' _ _]

lemma Decl.map_item_sightings : ∀ (d : Decl) (s s' : Scope) (start start' inside inside' : Nat),
    (d.sightings s start inside).map (·.item) = (d.sightings s' start' inside').map (·.item)
  | .useDecl _ _, _, _, _, _, _, _ => rfl
  | .externCrate _ _, _, _, _, _, _, _ => rfl
  | .module _ _ none, _, _, _, _, _, _ => rfl
  | .module _ _ (some items), s, s', _, _, inside, inside' => by
    rw [Decl.sightings, Decl.sightings]
    exact Item.map_item_sightingsAll_congr items s s' inside inside'
  | .data _ _ generics body, s, s', start, start', _, _ => by
    rw [Decl.sightings, Decl.sightings]
    apply Turn.map_item_arrange_congr
    exact Turn.items_cons_congr (Node.map_item_sightings generics s s' _ _)
      (Node.items_sightingsEach body s s' _ _)
  | .trait qualifiers _ generics supertraits whereClause members, s, s', start, start', inside, inside' => by
    rw [Decl.sightings, Decl.sightings]
    simp only [List.map_append]
    congr 1
    · congr 1
      · congr 1
        · exact Node.map_item_sightings generics s s' _ _
        · exact Node.map_item_sightings whereClause s s' _ _
      · exact Node.map_item_sightings supertraits s s' _ _
    · exact Turn.map_item_arrange_congr (Node.items_sightingsEach members s s' inside inside')
  | .impl header selfType whereClause members, s, s', start, start', inside, inside' => by
    rw [Decl.sightings, Decl.sightings]
    apply Turn.map_item_arrange_congr
    simp only [Turn.items_append]
    congr 1
    · congr 1
      · exact Node.items_sightingsEach header s s' start start'
      · exact Turn.items_cons_congr (Node.map_item_sightings selfType s s' _ _)
          (Turn.items_cons_congr (Node.map_item_sightings whereClause s s' _ _) rfl)
    · exact Node.items_sightingsEach members s s' inside inside'
  | .plain _ _ parts, s, s', start, start', _, _ => by
    rw [Decl.sightings, Decl.sightings]
    exact Turn.map_item_arrange_congr (Node.items_sightingsEach parts s s' start start')
  | .verbatim _, _, _, _, _, _, _ => rfl

end

namespace Item

/-- The items that a walk meets at an item: the item itself, and those inside it at any depth. -/
def met (i : Item) : List Item := (i.sightings ⟨[], [], [], []⟩ 0).map (·.item)

/-- Whether an item is a `use` declaration. -/
def isUse (i : Item) : Bool :=
  match i.decl with
  | .useDecl _ _ => true
  | _ => false

/-- The `use` declarations that a walk meets at an item. -/
def uses (i : Item) : List Item := i.met.filter isUse

/-- The items met in a row of items are those met in each of them. -/
lemma map_item_sightingsAll (is : List Item) (s : Scope) (start : Nat) :
    (sightingsAll s start is).map (·.item) = is.flatMap met := by
  induction is generalizing start with
  | nil => rfl
  | cons i is ih =>
    rw [sightingsAll, List.map_append, List.flatMap_cons, ih, met]
    rw [map_item_sightings i s ⟨[], [], [], []⟩ start 0]

/-- What a module with given attributes has of `use` declarations, besides those of its items. -/
lemma exists_uses_module (attrs : List Attr) (vis : Visibility) (isUnsafe : Bool) (name : String) :
    ∃ ahead, ∀ items, (Item.mk attrs vis (.module isUnsafe name (some items))).uses = ahead ++ items.flatMap uses := by
  let s : Scope := ⟨[], [], [], []⟩
  let ahead := (Attr.sightingsAll s false 0 attrs).map (·.item) ++ (Attr.sightingsAll s true 0 attrs).map (·.item)
  refine ⟨ahead.filter isUse, fun items => ?_⟩
  have met : (Item.mk attrs vis (.module isUnsafe name (some items))).met =
      .mk attrs vis (.module isUnsafe name (some items)) :: (ahead ++ items.flatMap Item.met) := by
    rw [Item.met, sightings, Decl.sightings, List.cons_append, List.cons_append, List.map_cons, List.map_append,
      List.map_append, map_item_sightingsAll, Attr.map_item_sightingsAll attrs false _ s _ 0,
      Attr.map_item_sightingsAll attrs true _ s _ 0]
  rw [uses, met, List.filter_cons_of_neg Bool.false_ne_true, List.filter_append, List.filter_flatMap]
  rfl

end Item

end SourceGen
