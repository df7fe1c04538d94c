import Mathlib.Data.List.Nodup
import Mathlib.Data.List.Perm.Basic
import SourceGen.Proofs.GlobalImports.Clashes
import SourceGen.Proofs.Program.Edits

/-!
# The set of global imports as a canonical form

Imports are sorted by their tokens, and one that equals its neighbour is left out. Sorting keeps the order of imports
with the same tokens, so for each token text the set has those of that text without neighbours that are equal, and this
is all there is to know about the set (`GlobalImports.withText_ofItems`, `GlobalImports.ext_withText`). So neither the
order of the imports nor how often they are given matters exactly if different ones have different tokens
(`GlobalImports.canonical_iff`). Otherwise one may stay on both sides of another one with its tokens
(`GlobalImports.not_canonical_emptyWhere`).
-/

namespace SourceGen

open SourceGen.Text

/-! ### Imports at another place -/

/-- Whether an item was put into a row of items, or into a module in the row that is reached through modules only. -/
inductive Item.PutIn (i : Item) : List Item → List Item → Prop
  | here (before after : List Item) : PutIn i (before ++ after) (before ++ i :: after)
  | inside (before after : List Item) {attrs : List Attr} {vis : Visibility} {isUnsafe : Bool} {name : String}
      {inner inner' : List Item} (put : PutIn i inner inner') :
      PutIn i (before ++ .mk attrs vis (.module isUnsafe name (some inner)) :: after)
        (before ++ .mk attrs vis (.module isUnsafe name (some inner')) :: after)

/-- Whether an item was put into a file of a program. -/
def Program.PutIn (i : Item) (p q : Program) : Prop :=
  ∃ before u v after, p.units = before ++ u :: after ∧ q.units = before ++ v :: after ∧
    u.parsed.file.attrs = v.parsed.file.attrs ∧ i.PutIn u.parsed.file.items v.parsed.file.items

/-- Whether programs differ in the place of one item only. -/
def Program.Moved (i : Item) (p q : Program) : Prop := ∃ r : Program, r.PutIn i p ∧ r.PutIn i q

lemma Item.PutIn.uses {i : Item} {is js : List Item} (put : i.PutIn is js) :
    (js.flatMap Item.uses).Perm (i.uses ++ is.flatMap Item.uses) := by
  induction put with
  | here before after =>
    rw [List.flatMap_append, List.flatMap_append, List.flatMap_cons]
    exact List.perm_append_comm_assoc _ _ _
  | @inside before after attrs vis isUnsafe name inner inner' _ ih =>
    obtain ⟨ahead, uses⟩ := Item.exists_uses_module attrs vis isUnsafe name
    rw [List.flatMap_append, List.flatMap_append, List.flatMap_cons, List.flatMap_cons, uses, uses]
    have module := ((ih.append_left ahead).trans (List.perm_append_comm_assoc ahead i.uses _)).append_right
      (after.flatMap Item.uses)
    rw [List.append_assoc i.uses] at module
    exact (module.append_left (before.flatMap Item.uses)).trans (List.perm_append_comm_assoc _ _ _)

lemma Program.PutIn.uses {i : Item} {p q : Program} (put : p.PutIn i q) :
    (q.units.flatMap SourceUnit.uses).Perm (i.uses ++ p.units.flatMap SourceUnit.uses) := by
  obtain ⟨before, u, v, after, first, second, attrs, items⟩ := put
  have unit : v.uses.Perm (i.uses ++ u.uses) := by
    rw [v.uses_eq (Scope.ofUnit u), u.uses_eq (Scope.ofUnit u), ← attrs]
    exact (items.uses.append_left _).trans (List.perm_append_comm_assoc _ _ _)
  rw [first, second, List.flatMap_append, List.flatMap_append, List.flatMap_cons, List.flatMap_cons]
  have units := unit.append_right (after.flatMap SourceUnit.uses)
  rw [List.append_assoc i.uses] at units
  exact (units.append_left (before.flatMap SourceUnit.uses)).trans (List.perm_append_comm_assoc _ _ _)

lemma Program.Moved.uses {i : Item} {p q : Program} (moved : p.Moved i q) :
    (p.units.flatMap SourceUnit.uses).Perm (q.units.flatMap SourceUnit.uses) := by
  obtain ⟨r, there, here⟩ := moved
  exact there.uses.trans here.uses.symm

namespace GlobalImports

/-! ### Imports of one text -/

/-- Whether different items have different tokens. -/
def TokensTell (is : List Item) : Prop := ∀ i ∈ is, ∀ j ∈ is, i.text = j.text → i = j

instance (is : List Item) : Decidable (TokensTell is) :=
  decidable_of_iff (∀ i ∈ is, ∀ j ∈ is, i.text = j.text → (i == j) = true) (by simp only [beq_iff_eq, TokensTell])

/-- Sorted items are known by those of each text. -/
lemma ext_withText {is js : List Item} (sorted : is.Pairwise fun i j => i.text ≤ j.text)
    (sorted' : js.Pairwise fun i j => i.text ≤ j.text) (same : ∀ t, withText t is = withText t js) : is = js := by
  induction is generalizing js with
  | nil =>
    cases js with
    | nil => rfl
    | cons j js =>
      have here := same j.text
      rw [withText_cons_of_eq rfl] at here
      cases here
  | cons i is ih =>
    cases js with
    | nil =>
      have here := same i.text
      rw [withText_cons_of_eq rfl] at here
      cases here
    | cons j js =>
      have mem (k : Item) : k ∈ i :: is ↔ k ∈ j :: js := by
        have here := same k.text
        constructor
        · intro hk
          exact (mem_withText.mp (here ▸ mem_withText.mpr ⟨hk, rfl⟩)).1
        · intro hk
          exact (mem_withText.mp (here ▸ mem_withText.mpr ⟨hk, rfl⟩)).1
      -- the two first items have the least text there is
      have least {k : Item} {ks : List Item} (first : (k :: ks).Pairwise fun i j => i.text ≤ j.text) {l : Item}
          (hl : l ∈ k :: ks) : k.text ≤ l.text := by
        obtain rfl | hl := List.mem_cons.mp hl
        · exact le_refl _
        · exact (List.pairwise_cons.mp first).1 l hl
      have text : i.text = j.text :=
        (least sorted ((mem j).mpr List.mem_cons_self)).antisymm (least sorted' ((mem i).mp List.mem_cons_self))
      have first := same j.text
      rw [withText_cons_of_eq text, withText_cons_of_eq rfl] at first
      obtain rfl : i = j := (List.cons.inj first).1
      refine congrArg (i :: ·) (ih (List.pairwise_cons.mp sorted).2 (List.pairwise_cons.mp sorted').2 fun t => ?_)
      have rest := same t
      by_cases here : i.text = t
      · rw [withText_cons_of_eq here, withText_cons_of_eq here] at rest
        exact (List.cons.inj rest).2
      · rwa [withText_cons_of_ne here, withText_cons_of_ne here] at rest

/-! ### Leaving out repetitions -/

lemma head?_dedup (is : List Item) : (dedup is).head? = is.head? := by
  cases is with
  | nil => rfl
  | cons i is =>
    rw [dedup]
    split
    case h_1 => rfl
    case h_2 =>
      split
      case isTrue => rfl
      case isFalse => rfl

lemma dedup_cons_of_head? {i : Item} {is : List Item} (again : is.head? = some i) : dedup (i :: is) = dedup is := by
  rw [← head?_dedup] at again
  rw [dedup]
  cases rest : dedup is with
  | nil =>
    rw [rest] at again
    cases again
  | cons j js =>
    rw [rest] at again
    obtain rfl : j = i := Option.some.inj again
    exact if_pos (beq_self_eq_true j)

lemma dedup_cons_of_ne {i : Item} {is : List Item} (other : is.head? ≠ some i) : dedup (i :: is) = i :: dedup is := by
  rw [← head?_dedup] at other
  rw [dedup]
  cases rest : dedup is with
  | nil => rfl
  | cons j js =>
    rw [rest] at other
    exact if_neg fun same => other (congrArg some (eq_of_beq same).symm)

lemma dedup_of_isChain {is : List Item} (chain : is.IsChain (· ≠ ·)) : dedup is = is := by
  induction is with
  | nil => rfl
  | cons i is ih =>
    have other : is.head? ≠ some i := by
      cases is with
      | nil => nofun
      | cons j js => exact fun eq => (List.isChain_cons_cons.mp chain).1 (Option.some.inj eq).symm
    rw [dedup_cons_of_ne other, ih chain.of_cons]

lemma dedup_of_forall_eq {is : List Item} {i : Item} (some : is ≠ []) (all : ∀ j ∈ is, j = i) : dedup is = [i] := by
  induction is with
  | nil => exact absurd rfl some
  | cons j js ih =>
    obtain rfl : j = i := all j List.mem_cons_self
    cases js with
    | nil => rfl
    | cons k ks =>
      obtain rfl : k = j := all k (List.mem_cons_of_mem _ List.mem_cons_self)
      rw [dedup_cons_of_head? List.head?_cons]
      exact ih (List.cons_ne_nil k ks) fun l hl => all l (List.mem_cons_of_mem _ hl)

/-- In sorted items, those of the least text come first. -/
lemma head?_withText {is : List Item} (sorted : is.Pairwise fun i j => i.text ≤ j.text) {i : Item}
    (least : ∀ j ∈ is, i.text ≤ j.text) : (withText i.text is).head? = some i ↔ is.head? = some i := by
  cases is with
  | nil => rfl
  | cons j js =>
    by_cases same : j.text = i.text
    · rw [withText_cons_of_eq same, List.head?_cons, List.head?_cons]
    · have later : i.text < j.text := lt_of_le_of_ne (least j List.mem_cons_self) (Ne.symm same)
      constructor
      · intro first
        obtain ⟨hi, -⟩ := mem_withText.mp (List.mem_of_head? first)
        obtain rfl | hi := List.mem_cons.mp hi
        · exact absurd rfl same
        · exact absurd ((List.pairwise_cons.mp sorted).1 i hi) (not_le_of_gt later)
      · intro first
        exact absurd (congrArg Item.text (Option.some.inj first)) same

/-- In sorted items, neighbours of one text stay neighbours without those of other texts. -/
lemma withText_dedup {is : List Item} (sorted : is.Pairwise fun i j => i.text ≤ j.text) (t : String) :
    withText t (dedup is) = dedup (withText t is) := by
  induction is with
  | nil => rfl
  | cons i is ih =>
    obtain ⟨least, sorted⟩ := List.pairwise_cons.mp sorted
    have ih := ih sorted
    by_cases here : i.text = t
    · subst here
      have first := head?_withText sorted least
      rw [withText_cons_of_eq rfl]
      by_cases again : is.head? = some i
      · rw [dedup_cons_of_head? again, dedup_cons_of_head? (first.mpr again), ih]
      · rw [dedup_cons_of_ne again, dedup_cons_of_ne fun there => again (first.mp there), withText_cons_of_eq rfl, ih]
    · rw [withText_cons_of_ne here, ← ih]
      by_cases again : is.head? = some i
      · rw [dedup_cons_of_head? again]
      · rw [dedup_cons_of_ne again, withText_cons_of_ne here]

/-! ### The set -/

lemma withText_ofItems (t : String) (is : List Item) : withText t (ofItems is).imports = dedup (withText t is) := by
  rw [ofItems_eq, withText_dedup (pairwise_mergeSort_textLe is), withText_mergeSort]

lemma ofItems_eq_iff {is js : List Item} :
    ofItems is = ofItems js ↔ ∀ t, dedup (withText t is) = dedup (withText t js) := by
  constructor
  · intro eq t
    rw [← withText_ofItems, ← withText_ofItems, eq]
  · intro same
    have imports : (ofItems is).imports = (ofItems js).imports := by
      refine ext_withText (pairwise_ofItems is) (pairwise_ofItems js) fun t => ?_
      rw [withText_ofItems, withText_ofItems, same]
    exact congrArg GlobalImports.mk imports

/-- A set that is given again stays as it is. -/
lemma ofItems_imports (is : List Item) : ofItems (ofItems is).imports = ofItems is := by
  have sorted := (pairwise_ofItems is).imp (textLe_iff.mpr ·)
  have chain : (ofItems is).imports.IsChain (· ≠ ·) := isChain_dedup _
  rw [ofItems_eq (ofItems is).imports, List.mergeSort_of_pairwise sorted, dedup_of_isChain chain]

lemma nodup_ofItems_iff {is : List Item} :
    (ofItems is).imports.Nodup ↔ ∀ t, (dedup (withText t is)).Nodup := by
  constructor
  · intro nodup t
    rw [← withText_ofItems]
    exact nodup.filter _
  · intro nodup
    refine List.nodup_iff_count_le_one.mpr fun i => ?_
    have once := List.nodup_iff_count_le_one.mp (nodup i.text) i
    have counted : (withText i.text (ofItems is).imports).count i = (ofItems is).imports.count i :=
      List.count_filter (beq_self_eq_true i.text)
    rwa [← withText_ofItems, counted] at once

namespace TokensTell

variable {is js : List Item}

/-- Of each text there is one import at most. -/
lemma dedup_withText (tell : TokensTell is) {i : Item} (hi : i ∈ is) : dedup (withText i.text is) = [i] := by
  refine dedup_of_forall_eq (List.ne_nil_of_mem (mem_withText.mpr ⟨hi, rfl⟩)) fun j hj => ?_
  obtain ⟨hj, same⟩ := mem_withText.mp hj
  exact tell j hj i hi same

lemma of_subset (tell : TokensTell is) (sub : ∀ i ∈ js, i ∈ is) : TokensTell js :=
  fun i hi j hj => tell i (sub i hi) j (sub j hj)

lemma nodup (tell : TokensTell is) : (ofItems is).imports.Nodup := by
  refine nodup_ofItems_iff.mpr fun t => ?_
  cases fibre : withText t is with
  | nil => exact List.nodup_nil
  | cons i rest =>
    obtain ⟨hi, rfl⟩ := mem_withText.mp (fibre ▸ List.mem_cons_self : i ∈ withText t is)
    rw [← fibre, tell.dedup_withText hi]
    exact List.nodup_singleton i

lemma ofItems_eq (tell : TokensTell is) (same : ∀ i, i ∈ js ↔ i ∈ is) : ofItems js = ofItems is := by
  refine ofItems_eq_iff.mpr fun t => ?_
  cases fibre : withText t is with
  | nil =>
    have none : withText t js = [] := by
      refine List.eq_nil_iff_forall_not_mem.mpr fun i hi => ?_
      obtain ⟨hi, text⟩ := mem_withText.mp hi
      exact List.not_mem_nil (fibre ▸ mem_withText.mpr ⟨(same i).mp hi, text⟩ : i ∈ [])
    rw [none]
  | cons i rest =>
    obtain ⟨hi, rfl⟩ := mem_withText.mp (fibre ▸ List.mem_cons_self : i ∈ withText t is)
    rw [← fibre, tell.dedup_withText hi]
    exact (tell.of_subset fun j hj => (same j).mp hj).dedup_withText ((same i).mpr hi)

end TokensTell

/-- Two imports with the same tokens stand in the order in which they are given. -/
lemma tokensTell_of_ofItems {is : List Item} (canonical : ∀ js, (∀ i, i ∈ js ↔ i ∈ is) → ofItems js = ofItems is) :
    TokensTell is := by
  intro i hi j hj same
  have more {k : Item} (hk : k ∈ is) (l : Item) : l ∈ k :: is ↔ l ∈ is := by
    rw [List.mem_cons, or_iff_right_of_imp]
    rintro rfl
    exact hk
  have eq := (canonical _ (more hi)).trans (canonical _ (more hj)).symm
  have first := congrArg List.head? (ofItems_eq_iff.mp eq i.text)
  rw [head?_dedup, head?_dedup, withText_cons_of_eq rfl, withText_cons_of_eq same.symm] at first
  exact Option.some.inj first

/-- An import stays on both sides of another one with its tokens. -/
lemma tokensTell_of_nodup {is : List Item}
    (nodup : ∀ js, (∀ i, i ∈ js ↔ i ∈ is) → (ofItems js).imports.Nodup) : TokensTell is := by
  intro i hi j hj same
  by_contra other
  -- the two in turn, and all the others behind
  have elements (l : Item) : l ∈ i :: j :: i :: is ↔ l ∈ is := by
    simp only [List.mem_cons]
    constructor
    · rintro (rfl | rfl | rfl | hl)
      exacts [hi, hj, hi, hl]
    · intro hl
      exact .inr (.inr (.inr hl))
  have once := nodup_ofItems_iff.mp (nodup _ elements) i.text
  rw [withText_cons_of_eq rfl, withText_cons_of_eq same.symm, withText_cons_of_eq rfl] at once
  have ne (ks : List Item) : (j :: ks).head? ≠ some i := fun eq => other (Option.some.inj eq).symm
  have ne' (ks : List Item) : (i :: ks).head? ≠ some j := fun eq => other (Option.some.inj eq)
  rw [dedup_cons_of_ne (ne _), dedup_cons_of_ne (ne' _)] at once
  have again : i ∈ dedup (i :: withText i.text is) := mem_dedup.mpr List.mem_cons_self
  exact (List.nodup_cons.mp once).1 (List.mem_cons_of_mem j again)

/-! ### Programs -/

lemma unsorted_eq (p : Program) :
    unsorted p = ((p.units.flatMap SourceUnit.uses).filter Item.isGlobalImport).map Item.printed :=
  filter_isGlobalImport_eq p

lemma mem_unsorted_congr {p q : Program}
    (uses : (p.units.flatMap SourceUnit.uses).Perm (q.units.flatMap SourceUnit.uses)) (i : Item) : i ∈ unsorted q ↔ i ∈ unsorted p := by
  rw [unsorted_eq, unsorted_eq]
  exact ((uses.filter _).map _).mem_iff.symm

/-- The set has the given imports and nothing else, sorted by their tokens, and given again it stays as it is. All that
is left of how they are given is, for each text, those of that text without neighbours that are equal. So it does not
matter in which order and how often they are given exactly if different ones have different tokens, and this is also
when none of them can stay twice. Then neither the order of units nor the place of an import matters. -/
theorem canonical_iff (is : List Item) :
    let Alike (js : List Item) : Prop := ∀ i, i ∈ js ↔ i ∈ is
    (∀ i, i ∈ (ofItems is).imports ↔ i ∈ is) ∧
      (ofItems is).imports.Pairwise (fun i j => i.text ≤ j.text) ∧
      ofItems (ofItems is).imports = ofItems is ∧
      (∀ js, ofItems js = ofItems is ↔ ∀ t, dedup (withText t js) = dedup (withText t is)) ∧
      ((∀ js, Alike js → ofItems js = ofItems is) ↔ TokensTell is) ∧
      ((∀ js, Alike js → (ofItems js).imports.Nodup) ↔ TokensTell is) ∧
      (TokensTell is → ∀ js, Alike js → ∀ (δ : Type) [Digest δ],
        (ofItems js).fingerprint (δ := δ) = (ofItems is).fingerprint) ∧
      ∀ p, unsorted p = is → TokensTell is → ∀ q, (p.units.Perm q.units ∨ ∃ i, p.Moved i q) →
        ofProgram q = ofProgram p := by
  intro Alike
  refine ⟨fun i => mem_ofItems, pairwise_ofItems is, ofItems_imports is, fun js => ofItems_eq_iff,
    ⟨tokensTell_of_ofItems, fun tell js alike => tell.ofItems_eq alike⟩,
    ⟨tokensTell_of_nodup, fun tell js alike => (tell.of_subset fun i hi => (alike i).mp hi).nodup⟩,
    fun tell js alike δ _ => congrArg fingerprint (tell.ofItems_eq alike), ?_⟩
  rintro p rfl tell q elsewhere
  refine tell.ofItems_eq (mem_unsorted_congr ?_)
  obtain reordered | ⟨i, moved⟩ := elsewhere
  · exact reordered.flatMap_right _
  · exact moved.uses

/-- A program of one unit of which the items and the global imports are known. -/
lemma exists_of_items (text : String) (items globals : List Item)
    (built : let build := ((ProgramBuilder.new "host" "/sdk").unit "src/lib.rs" text).build
      build.isOk = true ∧ ∀ p ∈ build.toOption, (unsorted p == globals) = true ∧ p.units.length = 1 ∧
        ∀ u ∈ p.units, (u.parsed.file.attrs == []) = true ∧ (u.parsed.file.items == items) = true) :
    ∃ p u, ((ProgramBuilder.new "host" "/sdk").unit "src/lib.rs" text).build = .ok p ∧ unsorted p = globals ∧
      p.units = [u] ∧ u.parsed.file.attrs = [] ∧ u.parsed.file.items = items := by
  obtain ⟨p, built, imports, one, file⟩ := exists_ok_of_computed built.1 built.2
  obtain ⟨u, hu⟩ := List.length_eq_one_iff.mp one
  obtain ⟨attrs, items⟩ := file u (hu ▸ List.mem_singleton_self u)
  exact ⟨p, u, built, eq_of_beq imports, hu, eq_of_beq attrs, eq_of_beq items⟩

/-- An import is moved into a module that has another one twice: the set stays the same. -/
theorem canonical_iff_movedIntoModule :
    let program (text : String) := ((ProgramBuilder.new "host" "/sdk").unit "src/lib.rs" text).build
    let serde : Item := .mk [] .pub (.useDecl false (.step "serde" (.leaf "Serialize")))
    let fmt : Item := .mk [] .pub (.useDecl false (.step "std" (.leaf "fmt")))
    ∃ p q, program "pub use serde::Serialize;\nmod a \x7b\npub use std::fmt;\n\x7d\npub use std::fmt;\n" = .ok p ∧
      program "mod a \x7b\npub use std::fmt;\npub use serde::Serialize;\n\x7d\npub use std::fmt;\n" = .ok q ∧
      TokensTell (unsorted p) ∧ p.Moved serde q ∧ ofProgram q = ofProgram p ∧
      (ofProgram p).imports = [serde, fmt] := by
  intro program serde fmt
  let inner (items : List Item) : Item := .mk [] .inherited (.module false "a" (some items))
  obtain ⟨p, u, hp, found, units, attrs, items⟩ := exists_of_items
    "pub use serde::Serialize;\nmod a \x7b\npub use std::fmt;\n\x7d\npub use std::fmt;\n"
    [serde, inner [fmt], fmt] [serde, fmt, fmt] (by decide +kernel)
  obtain ⟨q, v, hq, -, units', attrs', items'⟩ := exists_of_items
    "mod a \x7b\npub use std::fmt;\npub use serde::Serialize;\n\x7d\npub use std::fmt;\n"
    [inner [fmt, serde], fmt] [fmt, serde, fmt] (by decide +kernel)
  obtain ⟨r, w, -, -, units'', attrs'', items''⟩ := exists_of_items
    "mod a \x7b\npub use std::fmt;\n\x7d\npub use std::fmt;\n" [inner [fmt], fmt] [fmt, fmt] (by decide +kernel)
  have tell : TokensTell (unsorted p) := found ▸ (by decide +kernel)
  have moved : p.Moved serde q := by
    refine ⟨r, ⟨[], w, u, [], units'', units, attrs''.trans attrs.symm, ?_⟩,
      ⟨[], w, v, [], units'', units', attrs''.trans attrs'.symm, ?_⟩⟩
    · rw [items'', items]
      exact .here [] _
    · rw [items'', items']
      exact .inside [] _ (.here [fmt] [])
  obtain ⟨-, -, -, -, ⟨-, same⟩, -, -, elsewhere⟩ := canonical_iff (unsorted p)
  have once : ofItems [serde, fmt] = ofProgram p := same tell [serde, fmt] fun i => by rw [found]; simp
  refine ⟨p, q, hp, hq, tell, moved, elsewhere p rfl tell q (.inr ⟨serde, moved⟩), ?_⟩
  rw [← once, ofItems_eq, List.mergeSort_of_pairwise (by decide +kernel)]
  exact eq_of_beq (by decide +kernel)

/-- An empty `where` clause has no tokens. So the imports of two units have the same tokens, and in the second unit
there is the import of the first one again: both are kept, one of them on both sides of the other. With the units in
the other order there is another set. -/
theorem not_canonical_emptyWhere :
    let marked (implementation : String) := "#[m = \x7b" ++ implementation ++ "\x7d]\npub use std::fmt;\n"
    ∃ p, (((ProgramBuilder.new "host" "/sdk").unit "src/a.rs" (marked "impl G where \x7b\x7d")).unit "src/b.rs"
        (marked "impl G \x7b\x7d" ++ marked "impl G where \x7b\x7d")).build = .ok p ∧
      (∃ i j, (ofProgram p).imports = [i, j, i] ∧ i ≠ j ∧ i.text = j.text) ∧
      ofProgram ⟨p.crateName, p.units.reverse, p.references⟩ ≠ ofProgram p := by
  intro marked
  let reversed (p : Program) : Program := ⟨p.crateName, p.units.reverse, p.references⟩
  let build := (((ProgramBuilder.new "host" "/sdk").unit "src/a.rs" (marked "impl G where \x7b\x7d")).unit "src/b.rs"
    (marked "impl G \x7b\x7d" ++ marked "impl G where \x7b\x7d")).build
  let alone (text : String) : List Item :=
    (((ProgramBuilder.new "host" "/sdk").unit "src/lib.rs" text).build.toOption.map unsorted).getD []
  let is := alone (marked "impl G where \x7b\x7d")
  let js := alone (marked "impl G \x7b\x7d")
  have known : build.isOk = true ∧ is.length = 1 ∧ js.length = 1 ∧ (is == js) = false ∧
      is.map Item.text = js.map Item.text ∧ ∀ p ∈ build.toOption,
        (unsorted p == is ++ js ++ is) = true ∧ (unsorted (reversed p) == js ++ is ++ is) = true := by
    decide +kernel
  obtain ⟨isOk, one, one', other, text, known⟩ := known
  generalize is = is at *
  generalize js = js at *
  obtain ⟨i, rfl⟩ := List.length_eq_one_iff.mp one
  obtain ⟨j, rfl⟩ := List.length_eq_one_iff.mp one'
  have other : i ≠ j := fun eq => beq_eq_false_iff_ne.mp other (congrArg (fun k => [k]) eq)
  have text : i.text = j.text := (List.cons.inj text).1
  obtain ⟨p, built, met, met'⟩ := exists_ok_of_computed isOk known
  have met : unsorted p = [i, j, i] := eq_of_beq met
  have met' : unsorted (reversed p) = [j, i, i] := eq_of_beq met'
  have sorted {is : List Item} (all : ∀ k ∈ is, k.text = i.text) : is.Pairwise fun k l => textLe k l = true :=
    List.pairwise_of_forall_mem_list fun k hk l hl => textLe_iff.mpr ((all k hk).trans (all l hl).symm).le
  have ne (is : List Item) : (j :: is).head? ≠ some i := fun eq => other (Option.some.inj eq).symm
  have ne' (is : List Item) : (i :: is).head? ≠ some j := fun eq => other (Option.some.inj eq)
  have imports : (ofProgram p).imports = [i, j, i] := by
    rw [imports_of_sorted (met ▸ sorted (by simp [text])), met, dedup_cons_of_ne (ne _), dedup_cons_of_ne (ne' _)]
    rfl
  have imports' : (ofProgram (reversed p)).imports = [j, i] := by
    rw [imports_of_sorted (met' ▸ sorted (by simp [text])), met', dedup_cons_of_ne (ne' _),
      dedup_cons_of_head? List.head?_cons]
    rfl
  refine ⟨p, built, ⟨i, j, imports, other, text⟩, fun eq => ?_⟩
  have lengths := congrArg (·.imports.length) eq
  rw [imports, imports'] at lengths
  cases lengths

end GlobalImports

end SourceGen
