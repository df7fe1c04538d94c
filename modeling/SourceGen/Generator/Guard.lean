import SourceGen.Fault

/-!
# The guard around generator code

Every call of a generator runs under a guard, which turns returned errors and panics into faults. A panic
that starts inside a guard is recorded first, so that the fault can say where it came from. There is one
record, shared by all guards; a guard empties it when a panic reaches it. A panic that is raised again after
it was caught is not recorded anew.
-/

namespace SourceGen

/-- What a panic carries. -/
inductive PanicPayload
  | text (message : String)
  | /-- Something that is no text. -/
    other
deriving DecidableEq, Repr

namespace PanicPayload

/-- What a panic says. -/
def message : PanicPayload → String
  | .text s => s
  | .other => "<non-string panic payload>"

end PanicPayload

/-- A panic: what it carries, and what is recorded of its origin when it starts. A panic that is raised again
starts nowhere. -/
structure Panic where
  payload : PanicPayload
  origin : Option String
deriving DecidableEq, Repr

/-- Code of a generator, as far as its failures go. Code may guard other code, or catch panics by itself, and
go on from what came out. -/
inductive Code (α : Type)
  | value (a : α)
  | fail (e : GeneratorError)
  | panic (p : Panic)
  | /-- Runs code under a guard of its own. -/
    guarded (inner : Code α) (next : Except Fault α → Code α)
  | /-- Runs code and swallows a panic of it, which leaves `none`. -/
    caught (inner : Code α) (next : Option (Except GeneratorError α) → Code α)

/-- How code ends. -/
inductive Exit (α : Type)
  | returned (result : Except GeneratorError α)
  | panicked (payload : PanicPayload)

/-- What guards keep between them: how many are open, and the record of the last panic. -/
structure PanicLog where
  depth : Nat
  record : Option String
deriving DecidableEq, Repr

namespace PanicLog

/-- No guard is open and nothing is recorded. -/
def idle : PanicLog := ⟨0, none⟩

/-- Records the origin of a panic, if a guard is open and the panic starts somewhere. -/
def note (l : PanicLog) (p : Panic) : PanicLog :=
  match p.origin with
  | some origin => if l.depth = 0 then l else { l with record := some origin }
  | none => l

/-- Opens a guard. -/
def enter (l : PanicLog) : PanicLog := { l with depth := l.depth + 1 }

/-- Closes a guard. -/
def leave (l : PanicLog) : PanicLog := { l with depth := l.depth - 1 }

end PanicLog

namespace Fault

/-- The fault of a panic, given the record of its origin. -/
def ofPanic (payload : PanicPayload) (record : Option String) : Fault :=
  ⟨"panic", record.getD "<no trace captured>", payload.message⟩

end Fault

/-- What a guard makes of the way code ended; a panic takes the record with it. -/
def settle {α : Type} (exit : Exit α) (l : PanicLog) : Except Fault α × PanicLog :=
  match exit with
  | .returned (.ok a) => (.ok a, l)
  | .returned (.error e) => (.error (.ofError e), l)
  | .panicked payload => (.error (.ofPanic payload l.record), { l with record := none })

namespace Code

/-- Runs code. -/
def run {α : Type} : Code α → PanicLog → Exit α × PanicLog
  | .value a, l => (.returned (.ok a), l)
  | .fail e, l => (.returned (.error e), l)
  | .panic p, l => (.panicked p.payload, l.note p)
  | .guarded inner next, l =>
    let (exit, l) := inner.run l.enter
    let (result, l) := settle exit l.leave
    (next result).run l
  | .caught inner next, l =>
    match inner.run l with
    | (.returned result, l) => (next (some result)).run l
    | (.panicked _, l) => (next none).run l

/-- Runs code under a guard. -/
def guard {α : Type} (c : Code α) (l : PanicLog) : Except Fault α × PanicLog :=
  let (exit, l) := c.run l.enter
  settle exit l.leave

/-- What a guard makes of code when no other guard is open. -/
def result {α : Type} (c : Code α) : Except Fault α := (c.guard .idle).1

end Code

end SourceGen
