import Mathlib.Tactic.Lemma
import SourceGen.Memo

/-!
# What memo cells remember

A cell holds a property if what it remembers has it. An answer for an input has every property that the
cell holds and that a new computation has, and so has the cell after the answer, whether the answer came
from memory or not.
-/

namespace SourceGen

namespace Memo

variable {ι ο : Type} [BEq ι]

/-- Whether what a cell remembers has a property. -/
def Holds (P : ι → ο → Prop) (m : Memo ι ο) : Prop := ∀ i o, m.entry = some (i, o) → P i o

/-- An answer from memory belongs to an input that compares as equal. -/
lemma entry_of_held? {m : Memo ι ο} {input : ι} {output : ο} (h : m.held? input = some output) :
    ∃ cached, m.entry = some (cached, output) ∧ (cached == input) = true := by
  unfold held? at h
  split at h
  case h_1 cached output entry =>
    split at h
    case isTrue same =>
      cases h
      exact ⟨cached, entry, same⟩
    case isFalse => cases h
  case h_2 => cases h

lemma held?_of_entry {m : Memo ι ο} {cached input : ι} {output : ο} (entry : m.entry = some (cached, output))
    (same : (cached == input) = true) : m.held? input = some output := by
  unfold held?
  rw [entry]
  exact if_pos same

lemma getOrCompute_eq (m : Memo ι ο) (input : ι) (compute : ι → ο) :
    m.getOrCompute input compute =
      match m.held? input with
      | some output => (output, m.hit)
      | none => (compute input, m.miss.fill input (compute input)) := by
  rw [getOrCompute, getOrComputeM]
  cases m.held? input <;> rfl

/-- An answer has what the cell holds and a new computation has, and the cell goes on holding it. -/
lemma getOrCompute_holds [LawfulBEq ι] {P : ι → ο → Prop} {m : Memo ι ο} (h : m.Holds P) {input : ι}
    (compute : ι → ο) (new : P input (compute input)) :
    P input (m.getOrCompute input compute).1 ∧ (m.getOrCompute input compute).2.Holds P := by
  rw [getOrCompute_eq]
  split
  case h_1 output held =>
    obtain ⟨cached, entry, same⟩ := entry_of_held? held
    obtain rfl := eq_of_beq same
    exact ⟨h cached output entry, h⟩
  case h_2 =>
    refine ⟨new, fun i o entry => ?_⟩
    cases entry
    exact new

lemma held?_getOrCompute_self [ReflBEq ι] (m : Memo ι ο) (input : ι) (compute : ι → ο) :
    (m.getOrCompute input compute).2.held? input = some (m.getOrCompute input compute).1 := by
  rw [getOrCompute_eq]
  cases held : m.held? input with
  | some output => exact held
  | none => simp [held?, fill]

lemma getOrCompute_of_held? {m : Memo ι ο} {input : ι} {output : ο} (held : m.held? input = some output)
    (compute : ι → ο) : (m.getOrCompute input compute).1 = output := by
  rw [getOrCompute_eq, held]

end Memo

namespace KeyedMemo

variable {κ ι ο : Type} [BEq κ] {P : κ → ι → ο → Prop} {m : KeyedMemo κ ι ο}

/-- What is remembered under a key: the input and the output. -/
def lookup? (m : KeyedMemo κ ι ο) (key : κ) : Option (ι × ο) := (m.entries.find? (·.1 == key)).map (·.2)

lemma held?_eq [BEq ι] (m : KeyedMemo κ ι ο) (key : κ) (input : ι) :
    m.held? key input = (m.lookup? key).bind fun entry => if entry.1 == input then some entry.2 else none := by
  unfold held? lookup?
  cases m.entries.find? (·.1 == key) <;> rfl

lemma lookup?_fill_self [LawfulBEq κ] (m : KeyedMemo κ ι ο) (key : κ) (input : ι) (output : ο) :
    (m.fill key input output).lookup? key = some (input, output) := by
  simp [lookup?, fill]

lemma lookup?_fill_of_ne [LawfulBEq κ] (m : KeyedMemo κ ι ο) {key other : κ} (ne : other ≠ key) (input : ι)
    (output : ο) : (m.fill key input output).lookup? other = m.lookup? other := by
  have skipped : ((m.entries.filter fun e => !(e.1 == key)).find? (·.1 == other)) =
      m.entries.find? (·.1 == other) := by
    rw [List.find?_filter]
    congr 1
    funext e
    by_cases same : e.1 = other
    · simp [same, ne]
    · simp [same]
  simp [lookup?, fill, Ne.symm ne, skipped]

lemma lookup?_retain [LawfulBEq κ] (m : KeyedMemo κ ι ο) (live : List κ) (key : κ) :
    (m.retain live).lookup? key = if live.contains key then m.lookup? key else none := by
  have found : (m.entries.filter fun e => live.contains e.1).find? (·.1 == key) =
      if live.contains key then m.entries.find? (·.1 == key) else none := by
    rw [List.find?_filter]
    split
    case isTrue kept =>
      congr 1
      funext e
      by_cases same : e.1 = key
      · simp [same, List.contains_iff_mem.mp kept]
      · simp [same]
    case isFalse gone =>
      refine List.find?_eq_none.mpr fun e _ => ?_
      by_cases same : e.1 = key
      · simpa [same] using gone
      · simp [same]
  rw [lookup?, retain, found]
  split <;> rfl

/-- Whether what a cell remembers has a property, whatever the key. -/
def Holds (P : κ → ι → ο → Prop) (m : KeyedMemo κ ι ο) : Prop :=
  ∀ key input output, (key, input, output) ∈ m.entries → P key input output

lemma Holds.of_held? [LawfulBEq κ] [BEq ι] [LawfulBEq ι] (h : m.Holds P) {key : κ} {input : ι} {output : ο}
    (held : m.held? key input = some output) : P key input output := by
  unfold held? at held
  split at held
  case h_1 key' cached output' found =>
    split at held
    case isTrue same =>
      cases held
      have key_eq := List.find?_some found
      obtain rfl : key' = key := eq_of_beq key_eq
      obtain rfl := eq_of_beq same
      exact h _ _ _ (List.mem_of_find?_eq_some found)
    case isFalse => cases held
  case h_2 => cases held

lemma getOrCompute_eq [BEq ι] (m : KeyedMemo κ ι ο) (key : κ) (input : ι) (compute : ι → ο) :
    m.getOrCompute key input compute =
      match m.held? key input with
      | some output => (output, { m with stats := m.stats.hit })
      | none => (compute input, { m with stats := m.stats.miss }.fill key input (compute input)) := by
  rw [getOrCompute, getOrComputeM]
  cases m.held? key input <;> rfl

/-- An answer has what the cell holds and a new computation has, and the cell goes on holding it. -/
lemma getOrCompute_holds [LawfulBEq κ] [BEq ι] [LawfulBEq ι] (h : m.Holds P) {key : κ} {input : ι}
    (compute : ι → ο) (new : P key input (compute input)) :
    P key input (m.getOrCompute key input compute).1 ∧ (m.getOrCompute key input compute).2.Holds P := by
  rw [getOrCompute_eq]
  split
  case h_1 output held => exact ⟨h.of_held? held, h⟩
  case h_2 =>
    refine ⟨new, fun key' input' output' there => ?_⟩
    cases List.mem_cons.mp there with
    | inl eq =>
      cases eq
      exact new
    | inr there => exact h _ _ _ (List.mem_filter.mp there).1

/-- An answer is what is remembered, or else what is computed. -/
lemma getOrCompute_fst [BEq ι] (m : KeyedMemo κ ι ο) (key : κ) (input : ι) (compute : ι → ο) :
    (m.getOrCompute key input compute).1 = (m.held? key input).getD (compute input) := by
  rw [getOrCompute_eq]
  cases m.held? key input with
  | none => rfl
  | some output => rfl

lemma held?_getOrCompute_self [LawfulBEq κ] [BEq ι] [LawfulBEq ι] (m : KeyedMemo κ ι ο) (key : κ) (input : ι)
    (compute : ι → ο) :
    (m.getOrCompute key input compute).2.held? key input = some (m.getOrCompute key input compute).1 := by
  rw [getOrCompute_eq]
  cases held : m.held? key input with
  | some output => exact held
  | none => simp [held?, fill]

/-- What is remembered under a key is no matter of an answer under another one. -/
lemma held?_getOrCompute_of_ne [LawfulBEq κ] [BEq ι] (m : KeyedMemo κ ι ο) {key other : κ} (ne : other ≠ key)
    (input input' : ι) (compute : ι → ο) :
    (m.getOrCompute key input compute).2.held? other input' = m.held? other input' := by
  rw [getOrCompute_eq]
  cases m.held? key input with
  | some output => rfl
  | none =>
    rw [held?_eq, lookup?_fill_of_ne _ ne, held?_eq]
    rfl

/-- A cell that forgets keys remembers as before under those that it keeps. -/
lemma held?_retain [LawfulBEq κ] [BEq ι] (m : KeyedMemo κ ι ο) {live : List κ} {key : κ} (kept : key ∈ live)
    (input : ι) : (m.retain live).held? key input = m.held? key input := by
  rw [held?_eq, lookup?_retain, if_pos (List.contains_iff_mem.mpr kept), held?_eq]

lemma retain_holds (h : m.Holds P) (live : List κ) : (m.retain live).Holds P :=
  fun key input output there => h key input output (List.mem_filter.mp there).1

end KeyedMemo

end SourceGen
