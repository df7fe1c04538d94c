import Mathlib.Order.Lattice
import Mathlib.Tactic.Lemma

/-!
# Sorting by keys

Elements whose keys are in a linear order are sorted by comparing keys (`pairwise_mergeSort`).
-/

namespace SourceGen

variable {α β : Type} [LinearOrder β] [DecidableLT β] (key : α → β)

/-- Whether an element may come before another one in the order of keys. -/
def keyLe (a b : α) : Bool := !decide (key b < key a)

lemma keyLe_iff {a b : α} : keyLe key a b = true ↔ key a ≤ key b := by
  rw [keyLe, Bool.not_eq_true', decide_eq_false_iff_not, not_lt]

lemma keyLe_trans (a b c : α) (ab : keyLe key a b = true) (bc : keyLe key b c = true) : keyLe key a c = true :=
  (keyLe_iff key).mpr (le_trans ((keyLe_iff key).mp ab) ((keyLe_iff key).mp bc))

lemma keyLe_total (a b : α) : (keyLe key a b || keyLe key b a) = true := by
  rw [Bool.or_eq_true, keyLe_iff, keyLe_iff]
  exact le_total (key a) (key b)

/-- What is sorted by keys has its keys in order. -/
lemma pairwise_mergeSort (xs : List α) : (xs.mergeSort (keyLe key)).Pairwise fun a b => key a ≤ key b :=
  (List.pairwise_mergeSort (keyLe_trans key) (keyLe_total key) xs).imp (keyLe_iff key).mp

end SourceGen
