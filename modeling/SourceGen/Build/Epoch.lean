/-!
# Epochs

Every build of a module gets an epoch of its own, larger than all before it. What comes from a module carries
its epoch, so that nothing of an older build is taken for current.
-/

namespace SourceGen

/-- The number of a build; zero stands for the time before the first. -/
structure Epoch where
  number : Nat
deriving DecidableEq, Repr

namespace Epoch

/-- The epoch before the first build. -/
def start : Epoch := ⟨0⟩

/-- The epoch of the next build. -/
def next (e : Epoch) : Epoch := ⟨e.number + 1⟩

/-- The text of an epoch. -/
def text (e : Epoch) : String := "epoch " ++ toString e.number

/-- The name of the crate that is built in an epoch. -/
def crateName (e : Epoch) : String := "microgen_module_" ++ toString e.number

end Epoch

end SourceGen
