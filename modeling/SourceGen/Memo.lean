/-!
# Memo cells

A memo cell remembers the last input it saw and what was computed for it, and answers an equal input without
computing. A keyed cell remembers one input for every key. Both count hits and misses.
-/

namespace SourceGen

/-- How often a cell answered from memory, and how often it had to compute. -/
structure StageStats where
  hits : Nat
  misses : Nat
deriving DecidableEq, Repr

namespace StageStats

/-- Nothing was asked. -/
def zero : StageStats := ⟨0, 0⟩

/-- Counts an answer from memory. -/
def hit (s : StageStats) : StageStats := { s with hits := s.hits + 1 }

/-- Counts a computation. -/
def miss (s : StageStats) : StageStats := { s with misses := s.misses + 1 }

end StageStats

/-- A cell that remembers one input. -/
structure Memo (ι ο : Type) where
  entry : Option (ι × ο)
  stats : StageStats

namespace Memo

variable {ι ο : Type} [BEq ι]

/-- A cell that remembers nothing. -/
def empty : Memo ι ο := ⟨none, .zero⟩

/-- What is remembered for an input. -/
def held? (m : Memo ι ο) (input : ι) : Option ο :=
  match m.entry with
  | some (cached, output) => if cached == input then some output else none
  | none => none

/-- The cell after an answer from memory. -/
def hit (m : Memo ι ο) : Memo ι ο := { m with stats := m.stats.hit }

/-- The cell while a computation is under way. -/
def miss (m : Memo ι ο) : Memo ι ο := { m with stats := m.stats.miss }

/-- Remembers an input and its output, and forgets the one before. -/
def fill (m : Memo ι ο) (input : ι) (output : ο) : Memo ι ο := { m with entry := some (input, output) }

/-- The output for an input: remembered, or else computed. A computation may have effects. -/
def getOrComputeM {μ : Type → Type} [Monad μ] (m : Memo ι ο) (input : ι) (compute : ι → μ ο) :
    μ (ο × Memo ι ο) :=
  match m.held? input with
  | some output => return (output, m.hit)
  | none => do
    let output ← compute input
    return (output, m.miss.fill input output)

/-- The output for an input, where a computation has no effects. -/
def getOrCompute (m : Memo ι ο) (input : ι) (compute : ι → ο) : ο × Memo ι ο :=
  Id.run (m.getOrComputeM input fun i => pure (compute i))

/-- The remembered output. -/
def peek (m : Memo ι ο) : Option ο := m.entry.map (·.2)

/-- Forgets. -/
def invalidate (m : Memo ι ο) : Memo ι ο := { m with entry := none }

end Memo

/-- A cell that remembers one input for every key. -/
structure KeyedMemo (κ ι ο : Type) where
  entries : List (κ × ι × ο)
  stats : StageStats

namespace KeyedMemo

variable {κ ι ο : Type} [BEq κ] [BEq ι]

/-- A cell that remembers nothing. -/
def empty : KeyedMemo κ ι ο := ⟨[], .zero⟩

/-- What is remembered for an input under a key. -/
def held? (m : KeyedMemo κ ι ο) (key : κ) (input : ι) : Option ο :=
  match m.entries.find? (·.1 == key) with
  | some (_, cached, output) => if cached == input then some output else none
  | none => none

/-- Remembers an input and its output under a key. -/
def fill (m : KeyedMemo κ ι ο) (key : κ) (input : ι) (output : ο) : KeyedMemo κ ι ο :=
  { m with entries := (key, input, output) :: m.entries.filter fun e => !(e.1 == key) }

/-- The output for an input under a key: remembered, or else computed. A computation may have effects. -/
def getOrComputeM {μ : Type → Type} [Monad μ] (m : KeyedMemo κ ι ο) (key : κ) (input : ι) (compute : ι → μ ο) :
    μ (ο × KeyedMemo κ ι ο) :=
  match m.held? key input with
  | some output => return (output, { m with stats := m.stats.hit })
  | none => do
    let output ← compute input
    return (output, { m with stats := m.stats.miss }.fill key input output)

/-- The output for an input under a key, where a computation has no effects. -/
def getOrCompute (m : KeyedMemo κ ι ο) (key : κ) (input : ι) (compute : ι → ο) : ο × KeyedMemo κ ι ο :=
  Id.run (m.getOrComputeM key input fun i => pure (compute i))

/-- Forgets all keys but the given ones. -/
def retain (m : KeyedMemo κ ι ο) (live : List κ) : KeyedMemo κ ι ο :=
  { m with entries := m.entries.filter fun e => live.contains e.1 }

/-- The number of keys. -/
def size (m : KeyedMemo κ ι ο) : Nat := m.entries.length

end KeyedMemo

end SourceGen
