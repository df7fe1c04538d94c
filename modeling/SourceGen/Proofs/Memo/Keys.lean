import Mathlib.Algebra.Ring.Nat
import Mathlib.Data.List.Induction
import Mathlib.Data.List.Nodup
import SourceGen.Proofs.Memo

/-!
# One cell for each key

A keyed cell is as good as one cell for each key. Of all that is done to it, a key is concerned by the questions under the
key and by the retentions that leave it out, which are to it as if its cell forgot (`KeyedMemo.Step.at?`). The answers
under a key are those of its own cell after its own steps, and the counters are the sums of those of all keys. Where all
is computed by one function, every answer is that of the function (`KeyedMemo.run_eq_ownRun`).
-/

namespace SourceGen

variable {κ ι ο : Type}

/-! ### Steps and answers -/

/-- What a cell answers: the output, and the inputs that its computation was run for. -/
structure Memo.Answer (ι ο : Type) where
  output : ο
  computed : List ι
deriving DecidableEq

/-- What is done to a cell. -/
inductive Memo.Step (ι ο : Type)
  | get (input : ι) (compute : ι → ο)
  | invalidate

/-- What is done to a keyed cell. -/
inductive KeyedMemo.Step (κ ι ο : Type)
  | get (key : κ) (input : ι) (compute : ι → ο)
  | retain (live : List κ)

/-- A computation that puts the inputs that it is run for on record. -/
def recorded (compute : ι → ο) (input : ι) : StateM (List ι) ο := do
  modify (· ++ [input])
  return compute input

namespace Memo

variable [BEq ι]

/-- A step on a cell, with what it answers. -/
def step (m : Memo ι ο) : Step ι ο → Option (Answer ι ο) × Memo ι ο
  | .get input compute =>
    let (output, next) := m.getOrCompute input compute
    let (_, computed) := (m.getOrComputeM input (recorded compute)).run []
    (some ⟨output, computed⟩, next)
  | .invalidate => (none, m.invalidate)

lemma step_get_of_held {m : Memo ι ο} {input : ι} {output : ο} (held : m.held? input = some output) (compute : ι → ο) :
    m.step (.get input compute) = (some ⟨output, []⟩, m.hit) := by
  simp only [step, getOrCompute, getOrComputeM, held]
  rfl

lemma step_get_of_none {m : Memo ι ο} {input : ι} (new : m.held? input = none) (compute : ι → ο) :
    m.step (.get input compute) = (some ⟨compute input, [input]⟩, m.miss.fill input (compute input)) := by
  simp only [step, getOrCompute, getOrComputeM, new]
  rfl

/-- Steps in a row, with their answers. -/
def run (m : Memo ι ο) : List (Step ι ο) → List (Answer ι ο) × Memo ι ο
  | [] => ([], m)
  | s :: ss =>
    let (answer, next) := m.step s
    let (answers, last) := next.run ss
    (answer.toList ++ answers, last)

end Memo

namespace KeyedMemo

variable [BEq κ] [BEq ι]

/-- A step on a keyed cell, with the key that was asked for and what it answers. -/
def step (m : KeyedMemo κ ι ο) : Step κ ι ο → Option (κ × Memo.Answer ι ο) × KeyedMemo κ ι ο
  | .get key input compute =>
    let (output, next) := m.getOrCompute key input compute
    let (_, computed) := (m.getOrComputeM key input (recorded compute)).run []
    (some (key, ⟨output, computed⟩), next)
  | .retain live => (none, m.retain live)

lemma step_get_of_held {m : KeyedMemo κ ι ο} {key : κ} {input : ι} {output : ο} (held : m.held? key input = some output)
    (compute : ι → ο) :
    m.step (.get key input compute) = (some (key, ⟨output, []⟩), { m with stats := m.stats.hit }) := by
  simp only [step, getOrCompute, getOrComputeM, held]
  rfl

lemma step_get_of_none {m : KeyedMemo κ ι ο} {key : κ} {input : ι} (new : m.held? key input = none)
    (compute : ι → ο) :
    m.step (.get key input compute) = (some (key, ⟨compute input, [input]⟩),
      { m with stats := m.stats.miss }.fill key input (compute input)) := by
  simp only [step, getOrCompute, getOrComputeM, new]
  rfl

/-- Steps in a row, with their answers. -/
def run (m : KeyedMemo κ ι ο) : List (Step κ ι ο) → List (κ × Memo.Answer ι ο) × KeyedMemo κ ι ο
  | [] => ([], m)
  | s :: ss =>
    let (answer, next) := m.step s
    let (answers, last) := next.run ss
    (answer.toList ++ answers, last)

/-- What a step on a keyed cell is to the cell of a key. -/
def Step.at? (key : κ) : Step κ ι ο → Option (Memo.Step ι ο)
  | .get asked input compute => if asked == key then some (.get input compute) else none
  | .retain live => if live.contains key then none else some .invalidate

/-- The answers under a key. -/
def answersAt (key : κ) (answers : List (κ × Memo.Answer ι ο)) : List (Memo.Answer ι ο) :=
  (answers.filter (·.1 == key)).map (·.2)

/-- What steps on a keyed cell are to the cell of a key. -/
def stepsAt (key : κ) (steps : List (Step κ ι ο)) : List (Memo.Step ι ο) := steps.filterMap (Step.at? key)

/-- The cell of a key after all that was done to it, with its answers. -/
def ownRun (key : κ) (steps : List (Step κ ι ο)) : List (Memo.Answer ι ο) × Memo ι ο :=
  Memo.empty.run (stepsAt key steps)

/-! ### The cell of a key -/

variable {m : KeyedMemo κ ι ο} {c : Memo ι ο} {key : κ}

lemma held?_eq_held? (same : m.lookup? key = c.entry) (input : ι) : m.held? key input = c.held? input := by
  rw [held?_eq, same, Memo.held?]
  cases c.entry <;> rfl

variable [LawfulBEq κ]

/-- A step under another key, or one that keeps the key, is none to the cell of the key. -/
lemma step_of_none {s : Step κ ι ο} (other : s.at? key = none) :
    answersAt key (m.step s).1.toList = [] ∧ (m.step s).2.lookup? key = m.lookup? key := by
  cases s with
  | get asked input compute =>
    have ne : asked ≠ key := by simpa [Step.at?] using other
    cases held : m.held? asked input with
    | some output =>
      rw [step_get_of_held held]
      exact ⟨by simp [answersAt, ne], rfl⟩
    | none =>
      rw [step_get_of_none held]
      exact ⟨by simp [answersAt, ne], lookup?_fill_of_ne _ ne.symm input (compute input)⟩
  | retain live =>
    have kept : live.contains key = true := by simpa [Step.at?] using other
    refine ⟨rfl, ?_⟩
    change (m.retain live).lookup? key = _
    rw [lookup?_retain, if_pos kept]

/-- A step that concerns a key is a step of its cell. -/
lemma step_of_some (same : m.lookup? key = c.entry) {s : Step κ ι ο} {s' : Memo.Step ι ο} (own : s.at? key = some s') :
    answersAt key (m.step s).1.toList = (c.step s').1.toList ∧ (m.step s).2.lookup? key = (c.step s').2.entry := by
  cases s with
  | get asked input compute =>
    obtain ⟨rfl, rfl⟩ : asked = key ∧ .get input compute = s' := by simpa [Step.at?] using own
    cases held : c.held? input with
    | some output =>
      rw [Memo.step_get_of_held held, step_get_of_held ((held?_eq_held? same input).trans held)]
      exact ⟨by simp [answersAt], same⟩
    | none =>
      rw [Memo.step_get_of_none held, step_get_of_none ((held?_eq_held? same input).trans held)]
      exact ⟨by simp [answersAt], lookup?_fill_self _ asked input (compute input)⟩
  | retain live =>
    obtain ⟨gone, rfl⟩ : key ∉ live ∧ .invalidate = s' := by simpa [Step.at?] using own
    refine ⟨rfl, ?_⟩
    change (m.retain live).lookup? key = none
    rw [lookup?_retain, if_neg (mt List.contains_iff_mem.mp gone)]

/-- The answers under a key and what is remembered under it are those of its cell. -/
lemma run_at (same : m.lookup? key = c.entry) (steps : List (Step κ ι ο)) :
    answersAt key (m.run steps).1 = (c.run (stepsAt key steps)).1 ∧
      (m.run steps).2.lookup? key = (c.run (stepsAt key steps)).2.entry := by
  induction steps generalizing m c with
  | nil => exact ⟨rfl, same⟩
  | cons s steps ih =>
    have split : answersAt key (m.run (s :: steps)).1 =
        answersAt key (m.step s).1.toList ++ answersAt key ((m.step s).2.run steps).1 := by
      simp [run, answersAt]
    rw [split]
    cases own : s.at? key with
    | none =>
      obtain ⟨answers, entry⟩ := step_of_none (m := m) own
      rw [stepsAt, List.filterMap_cons_none own, answers, List.nil_append]
      exact ih (entry.trans same)
    | some s' =>
      obtain ⟨answers, entry⟩ := step_of_some same own
      obtain ⟨more, last⟩ := ih entry
      rw [stepsAt, List.filterMap_cons_some own, answers, more]
      exact ⟨rfl, last⟩

lemma run_empty_at (key : κ) (steps : List (Step κ ι ο)) :
    answersAt key (empty.run steps).1 = (ownRun key steps).1 ∧
      (empty.run steps).2.lookup? key = (ownRun key steps).2.entry :=
  run_at (c := .empty) rfl steps

end KeyedMemo

/-! ### Counters -/

/-- How many answers were remembered, and how many had to be computed. -/
def Memo.tally (answers : List (Memo.Answer ι ο)) : StageStats :=
  ⟨answers.countP (·.computed.isEmpty), answers.countP fun answer => !answer.computed.isEmpty⟩

lemma Memo.stats_run [BEq ι] (m : Memo ι ο) (steps : List (Memo.Step ι ο)) :
    (m.run steps).2.stats.hits = m.stats.hits + (tally (m.run steps).1).hits ∧
      (m.run steps).2.stats.misses = m.stats.misses + (tally (m.run steps).1).misses := by
  induction steps generalizing m with
  | nil => exact ⟨rfl, rfl⟩
  | cons s steps ih =>
    obtain ⟨hits, misses⟩ := ih (m.step s).2
    simp only [run, tally, List.countP_append] at hits misses ⊢
    rw [hits, misses]
    cases s with
    | invalidate => simp [step, invalidate]
    | get input compute =>
      cases held : m.held? input with
      | some output =>
        rw [step_get_of_held held]
        simp [hit, StageStats.hit]
        omega
      | none =>
        rw [step_get_of_none held]
        simp [miss, fill, StageStats.miss]
        omega

namespace KeyedMemo

variable [BEq κ]

/-- Answers are counted key by key. -/
lemma countP_answers [LawfulBEq κ] {keys : List κ} (once : keys.Nodup) {answers : List (κ × Memo.Answer ι ο)}
    (covered : ∀ answer ∈ answers, answer.1 ∈ keys) (p : Memo.Answer ι ο → Bool) :
    (answers.map (·.2)).countP p = (keys.map fun key => (answersAt key answers).countP p).sum := by
  induction keys generalizing answers with
  | nil =>
    obtain rfl : answers = [] := List.eq_nil_iff_forall_not_mem.mpr fun a ha => List.not_mem_nil (covered a ha)
    rfl
  | cons key keys ih =>
    obtain ⟨new, once⟩ := List.nodup_cons.mp once
    let others := answers.filter fun answer => !(answer.1 == key)
    have covered' : ∀ answer ∈ others, answer.1 ∈ keys := by
      intro answer there
      obtain ⟨there, other⟩ := List.mem_filter.mp there
      obtain here | later := List.mem_cons.mp (covered answer there)
      · simp [here] at other
      · exact later
    have rest : ∀ key' ∈ keys, answersAt key' others = answersAt key' answers := by
      intro key' there
      have ne : key' ≠ key := fun eq => new (eq ▸ there)
      rw [answersAt, answersAt, List.filter_filter]
      congr 2
      funext answer
      by_cases same : answer.1 = key'
      · simp [same, ne]
      · simp [same]
    calc (answers.map (·.2)).countP p
        = (answersAt key answers).countP p + (others.map (·.2)).countP p := by
          rw [answersAt, List.countP_map, List.countP_map, List.countP_map]
          exact List.countP_eq_countP_filter_add answers _ fun answer => answer.1 == key
      _ = (answersAt key answers).countP p + (keys.map fun key' => (answersAt key' others).countP p).sum := by
          rw [ih once covered']
      _ = _ := by
          rw [List.map_cons, List.sum_cons, List.map_congr_left fun key' there => by rw [rest key' there]]

variable [BEq ι]

lemma stats_run (m : KeyedMemo κ ι ο) (steps : List (Step κ ι ο)) :
    (m.run steps).2.stats.hits = m.stats.hits + (Memo.tally ((m.run steps).1.map (·.2))).hits ∧
      (m.run steps).2.stats.misses = m.stats.misses + (Memo.tally ((m.run steps).1.map (·.2))).misses := by
  induction steps generalizing m with
  | nil => exact ⟨rfl, rfl⟩
  | cons s steps ih =>
    obtain ⟨hits, misses⟩ := ih (m.step s).2
    simp only [run, Memo.tally, List.map_append, List.countP_append] at hits misses ⊢
    rw [hits, misses]
    cases s with
    | retain live => simp [step, retain]
    | get asked input compute =>
      cases held : m.held? asked input with
      | some output =>
        rw [step_get_of_held held]
        simp [StageStats.hit]
        omega
      | none =>
        rw [step_get_of_none held]
        simp [fill, StageStats.miss]
        omega

/-- Answers are given under keys that were asked for. -/
lemma exists_get_of_mem_run {m : KeyedMemo κ ι ο} {steps : List (Step κ ι ο)} {answer : κ × Memo.Answer ι ο}
    (there : answer ∈ (m.run steps).1) : ∃ input compute, .get answer.1 input compute ∈ steps := by
  induction steps generalizing m with
  | nil => exact absurd there List.not_mem_nil
  | cons s steps ih =>
    obtain here | later := List.mem_append.mp there
    · cases s with
      | retain live => exact absurd here List.not_mem_nil
      | get asked input compute =>
        obtain rfl : answer = _ := List.mem_singleton.mp here
        exact ⟨input, compute, List.mem_cons_self⟩
    · obtain ⟨input, compute, there⟩ := ih later
      exact ⟨input, compute, List.mem_cons_of_mem s there⟩

end KeyedMemo

/-! ### Pure computations -/

/-- The input of the last step on a cell, unless the cell forgot it. -/
def Memo.lastInput? (steps : List (Memo.Step ι ο)) : Option ι :=
  match steps.getLast? with
  | some (.get input _) => some input
  | _ => none

/-- Whether all that is computed is computed by one function. -/
def KeyedMemo.ComputedBy (f : ι → ο) (steps : List (KeyedMemo.Step κ ι ο)) : Prop :=
  ∀ key input compute, .get key input compute ∈ steps → compute = f

namespace Memo

variable [BEq ι] {f : ι → ο} {m : Memo ι ο}

/-- Whether a cell remembers an input, or one that compares as equal, with what a function makes of it. -/
def Remembers (f : ι → ο) (m : Memo ι ο) : Option ι → Prop
  | none => m.entry = none
  | some input => ∃ cached, m.entry = some (cached, f cached) ∧ (cached = input ∨ (cached == input) = true)

lemma run_append (m : Memo ι ο) (steps more : List (Step ι ο)) :
    m.run (steps ++ more) =
      ((m.run steps).1 ++ ((m.run steps).2.run more).1, ((m.run steps).2.run more).2) := by
  induction steps generalizing m with
  | nil => rfl
  | cons s steps ih => simp [run, ih]

lemma held?_eq (m : Memo ι ο) (input : ι) :
    m.held? input = m.entry.bind fun entry => if entry.1 == input then some entry.2 else none := by
  unfold held?
  cases m.entry <;> rfl

/-- A step by the function leaves its own input as the last one, and a cell that forgets has none. -/
lemma Remembers.step {last : Option ι} (known : Remembers f m last) {s : Step ι ο}
    (pure : ∀ input compute, s = .get input compute → compute = f) : Remembers f (m.step s).2 (lastInput? [s]) := by
  cases s with
  | invalidate => rfl
  | get input compute =>
    obtain rfl := pure input compute rfl
    cases held : m.held? input with
    | none =>
      rw [step_get_of_none held]
      exact ⟨input, rfl, .inl rfl⟩
    | some output =>
      obtain ⟨cached, entry, same⟩ := entry_of_held? held
      rw [step_get_of_held held]
      refine ⟨cached, ?_, .inr same⟩
      cases last with
      | none => exact absurd (entry.symm.trans known) (Option.some_ne_none _)
      | some last =>
        obtain ⟨cached', entry', -⟩ := known
        obtain ⟨rfl, rfl⟩ := Prod.mk.inj (Option.some.inj (entry.symm.trans entry'))
        exact entry

/-- A cell whose computations are all by one function remembers its last input with what the function makes of it. -/
lemma remembers_run {steps : List (Step ι ο)} (pure : ∀ input compute, .get input compute ∈ steps → compute = f) :
    Remembers f (empty.run steps).2 (lastInput? steps) := by
  induction steps using List.reverseRecOn with
  | nil => rfl
  | append_singleton steps s ih =>
    have before : Remembers f (empty.run steps).2 (lastInput? steps) :=
      ih fun input compute there => pure input compute (List.mem_append_left _ there)
    have last : lastInput? (steps ++ [s]) = lastInput? [s] := by
      rw [lastInput?, List.getLast?_concat]
      rfl
    rw [run_append, last]
    exact before.step fun input compute eq => pure input compute (eq ▸ List.mem_append_right _ List.mem_cons_self)

/-- What is remembered for an input if it compares as equal to the last one. -/
lemma Remembers.held? [PartialEquivBEq ι] {last : Option ι} (known : Remembers f m last)
    (respects : ∀ i j, (i == j) = true → f i = f j) (input : ι) :
    m.held? input = if last.any (· == input) then some (f input) else none := by
  rw [held?_eq]
  cases last with
  | none =>
    rw [show m.entry = none from known]
    rfl
  | some last =>
    obtain ⟨cached, entry, same⟩ := known
    have alike : (cached == input) = (last == input) := by
      obtain rfl | same := same
      · rfl
      · exact BEq.congr_left same
    rw [entry, Option.bind_some, Option.any_some, ← alike]
    split
    case isTrue here => rw [respects cached input here]
    case isFalse => rfl

end Memo

namespace KeyedMemo

variable [BEq κ] [BEq ι]

lemma run_append (m : KeyedMemo κ ι ο) (steps more : List (Step κ ι ο)) :
    m.run (steps ++ more) =
      ((m.run steps).1 ++ ((m.run steps).2.run more).1, ((m.run steps).2.run more).2) := by
  induction steps generalizing m with
  | nil => rfl
  | cons s steps ih => simp [run, ih]

variable [LawfulBEq κ]

/-- A question is answered by the function; it is computed if the key has no last input or another one. -/
lemma step_get_of_computedBy [PartialEquivBEq ι] {f : ι → ο} (respects : ∀ i j, (i == j) = true → f i = f j)
    {steps : List (Step κ ι ο)} (pure : ComputedBy f steps) (key : κ) (input : ι) :
    ((empty.run steps).2.step (.get key input f)).1 = some (key, ⟨f input,
      if (Memo.lastInput? (stepsAt key steps)).any (· == input) then [] else [input]⟩) := by
  have own : ∀ input compute, .get input compute ∈ stepsAt key steps → compute = f := by
    intro input compute there
    obtain ⟨s, mem, eq⟩ := List.mem_filterMap.mp there
    cases s with
    | retain live => simp [Step.at?] at eq
    | get asked input' compute' =>
      obtain ⟨-, rfl, rfl⟩ : asked = key ∧ input' = input ∧ compute' = compute := by simpa [Step.at?] using eq
      exact pure asked input' compute' mem
  have held : (empty.run steps).2.held? key input =
      if (Memo.lastInput? (stepsAt key steps)).any (· == input) then some (f input) else none := by
    rw [held?_eq_held? (run_empty_at key steps).2]
    exact (Memo.remembers_run own).held? respects input
  split at held
  case isTrue same => rw [step_get_of_held held, if_pos same]
  case isFalse other => rw [step_get_of_none held, if_neg other]

/-- A keyed cell is one cell for each key. Whatever is done to it, the answers under a key and what is remembered under
it are those of a cell that knows of the questions under the key alone, and forgets where the key is not retained; the
counters are the sums of those of the keys that were asked for. If all is computed by one function that does not tell
equal inputs apart, every answer is what the function makes of the input, and it is computed exactly if the key has no
last input or another one. -/
theorem run_eq_ownRun (steps : List (Step κ ι ο)) :
    (∀ key, answersAt key (empty.run steps).1 = (ownRun key steps).1 ∧
      (empty.run steps).2.lookup? key = (ownRun key steps).2.entry) ∧
    (∀ keys : List κ, keys.Nodup → (∀ key input compute, .get key input compute ∈ steps → key ∈ keys) →
      (empty.run steps).2.stats = ⟨(keys.map fun key => (ownRun key steps).2.stats.hits).sum,
        (keys.map fun key => (ownRun key steps).2.stats.misses).sum⟩) ∧
    (PartialEquivBEq ι → ∀ f : ι → ο, (∀ i j, (i == j) = true → f i = f j) → ComputedBy f steps →
      ∀ before key input after, steps = before ++ .get key input f :: after →
        ∃ later, (empty.run steps).1 = (empty.run before).1 ++ (key, ⟨f input,
          if (Memo.lastInput? (stepsAt key before)).any (· == input) then [] else [input]⟩) :: later) := by
  refine ⟨fun key => run_empty_at key steps, fun keys once covered => ?_, ?_⟩
  · have asked : ∀ answer ∈ (empty.run steps).1, answer.1 ∈ keys := by
      intro answer there
      obtain ⟨input, compute, there⟩ := exists_get_of_mem_run there
      exact covered answer.1 input compute there
    have own (key : κ) : (ownRun key steps).2.stats = Memo.tally (answersAt key (empty.run steps).1) := by
      obtain ⟨hits, misses⟩ := Memo.stats_run .empty (stepsAt key steps)
      rw [(run_empty_at key steps).1, StageStats.mk.injEq]
      exact ⟨hits.trans (Nat.zero_add _), misses.trans (Nat.zero_add _)⟩
    obtain ⟨hits, misses⟩ := stats_run .empty steps
    simp only [own, Memo.tally]
    rw [StageStats.mk.injEq, ← countP_answers once asked, ← countP_answers once asked]
    exact ⟨hits.trans (Nat.zero_add _), misses.trans (Nat.zero_add _)⟩
  · rintro equiv f respects pure before key input after rfl
    refine ⟨(((empty.run before).2.step (.get key input f)).2.run after).1, ?_⟩
    have before_pure : ComputedBy f before := fun key input compute there =>
      pure key input compute (List.mem_append_left _ there)
    have answer := step_get_of_computedBy respects before_pure key input
    have answers : (empty.run (before ++ .get key input f :: after)).1 = (empty.run before).1 ++
        (((empty.run before).2.step (.get key input f)).1.toList ++
          (((empty.run before).2.step (.get key input f)).2.run after).1) := by
      rw [run_append]
      rfl
    rw [answers, answer]
    rfl

/-- A key that is not retained is computed again, and the other one is not concerned. -/
theorem run_eq_ownRun_forgottenKey :
    let f : Nat → Nat := fun i => 10 * i
    let before : List (Step String Nat Nat) := [.get "a" 1 f, .get "b" 1 f, .get "a" 1 f, .retain ["b"]]
    let steps := before ++ [.get "a" 1 f]
    (∀ i j, (i == j) = true → f i = f j) ∧ ComputedBy f steps ∧ ["a", "b"].Nodup ∧
      (∀ key input compute, .get key input compute ∈ steps → key ∈ ["a", "b"]) ∧
      (empty.run steps).2.stats = ⟨1, 3⟩ ∧
      ∃ later, (empty.run steps).1 = (empty.run before).1 ++ ("a", ⟨10, [1]⟩) :: later := by
  intro f before steps
  have respects : ∀ i j, (i == j) = true → f i = f j := fun i j same => congrArg f (eq_of_beq same)
  have gets : ∀ key input compute, .get key input compute ∈ steps → key ∈ ["a", "b"] ∧ compute = f := by
    intro key input compute there
    simp only [steps, before, List.cons_append, List.nil_append, List.mem_cons, List.not_mem_nil, or_false] at there
    obtain h | h | h | h | h := there <;> cases h <;> exact ⟨by decide, rfl⟩
  have pure : ComputedBy f steps := fun key input compute there => (gets key input compute there).2
  have covered : ∀ key input compute, .get key input compute ∈ steps → key ∈ ["a", "b"] :=
    fun key input compute there => (gets key input compute there).1
  have once : ["a", "b"].Nodup := by decide
  obtain ⟨-, counted, answered⟩ := run_eq_ownRun steps
  exact ⟨respects, pure, once, covered, (counted _ once covered).trans (by decide),
    answered inferInstance f respects pure before "a" 1 [] rfl⟩

end KeyedMemo

end SourceGen
