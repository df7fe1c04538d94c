import Mathlib.Data.List.Perm.Basic
import Mathlib.Tactic.Lemma

/-!
# Steps that may fail

Steps in a row succeed exactly if each of them does (`ok_of_bind`, `mapM_eq_ok_iff`), so those of a walk over a list can
be taken in any order (`mapM_perm`).
-/

namespace SourceGen

variable {ε α β : Type}

lemma ok_of_bind {x : Except ε α} {f : α → Except ε β} {b : β} (h : x >>= f = .ok b) :
    ∃ a, x = .ok a ∧ f a = .ok b := by
  cases x with
  | error e => cases h
  | ok a => exact ⟨a, rfl, h⟩

lemma ok_of_mapError {ε' : Type} {x : Except ε α} {f : ε → ε'} {a : α} (h : x.mapError f = .ok a) : x = .ok a := by
  cases x with
  | error e => cases h
  | ok b =>
    cases h
    rfl

lemma ok_of_toOption {x : Except ε α} {a : α} (h : x.toOption = some a) : x = .ok a := by
  cases x with
  | error e => cases h
  | ok b =>
    cases h
    rfl

/-- A walk over a list succeeds exactly if each of its steps does. -/
lemma mapM_eq_ok_iff {f : α → Except ε β} {xs : List α} {ys : List β} :
    xs.mapM f = .ok ys ↔ List.Forall₂ (fun x y => f x = .ok y) xs ys := by
  induction xs generalizing ys with
  | nil =>
    rw [List.mapM_nil, List.forall₂_nil_left_iff]
    exact ⟨fun eq => (Except.ok.inj eq).symm, fun eq => congrArg Except.ok eq.symm⟩
  | cons x xs ih =>
    rw [List.mapM_cons, List.forall₂_cons_left_iff]
    constructor
    · intro h
      obtain ⟨y, first, h⟩ := ok_of_bind h
      obtain ⟨zs, rest, h⟩ := ok_of_bind h
      cases h
      exact ⟨y, zs, first, ih.mp rest, rfl⟩
    · rintro ⟨y, zs, first, rest, rfl⟩
      rw [first, ih.mpr rest]
      rfl

/-- What each step of a walk leads on to, the walk leads on to. -/
lemma forall₂_trans {γ : Type} {R : α → β → Prop} {S : α → γ → Prop} {T : β → γ → Prop}
    (step : ∀ x y, R x y → ∃ z, S x z ∧ T y z) {xs : List α} {ys : List β} (rows : List.Forall₂ R xs ys) :
    ∃ zs, List.Forall₂ S xs zs ∧ List.Forall₂ T ys zs := by
  induction rows with
  | nil => exact ⟨[], .nil, .nil⟩
  | cons first _ ih =>
    obtain ⟨z, first', same⟩ := step _ _ first
    obtain ⟨zs, rest, others⟩ := ih
    exact ⟨z :: zs, .cons first' rest, .cons same others⟩

/-- A walk over a list in another order, whose steps find the same in another order, finds the same in another order. -/
lemma mapM_perm {f g : α → Except ε (List β)} {xs xs' : List α} (perm : xs.Perm xs')
    (steps : ∀ x ys, f x = .ok ys → ∃ ys', g x = .ok ys' ∧ ys.Perm ys') {found : List (List β)}
    (walk : xs.mapM f = .ok found) : ∃ found', xs'.mapM g = .ok found' ∧ found.flatten.Perm found'.flatten := by
  obtain ⟨reordered, rows, perm⟩ := List.perm_comp_forall₂ perm.symm (mapM_eq_ok_iff.mp walk)
  obtain ⟨found', rows', same⟩ := forall₂_trans steps rows
  exact ⟨found', mapM_eq_ok_iff.mpr rows', perm.symm.flatten.trans (.flatten_congr same)⟩

end SourceGen
