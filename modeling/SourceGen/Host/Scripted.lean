import SourceGen.Pipeline.Pass

/-!
# Scripted hosts

A host that compiles nothing: what its compiler answers is written down beforehand, call by call, and its
loader serves generators of its own. It remembers what it was asked.
-/

namespace SourceGen

/-- What the compiler does at one call. -/
structure CompilerScript where
  hasImage : Bool
  messages : List CompilerMessage
  /-- Claims success without a library. -/
  missesArtifact : Bool
  /-- Gives up the pass meanwhile. -/
  cancels : Bool

namespace CompilerScript

/-- A compilation without messages. -/
def plain : CompilerScript := ⟨true, [], false, false⟩

/-- The image of every compiled crate. -/
def image : List UInt8 := "image".toUTF8.toList

/-- What the call leaves. -/
def result (s : CompilerScript) (crateName : String) : Except BuildError CompileOutput :=
  if s.missesArtifact then .error (.missingArtifact crateName)
  else .ok ⟨if s.hasImage then some image else none, s.messages⟩

end CompilerScript

/-- A scripted host. -/
structure ScriptedHost (γ : Type) where
  /-- What the compiler does, call by call; the last entry stays. -/
  answers : List CompilerScript
  table : List (Candidate γ)
  /-- The epoch at which loading gives up the pass. -/
  cancelOnLoad : Option Epoch
  cancelled : Bool
  /-- What the compiler was asked, in order. -/
  requests : List CompileRequest
  /-- How often something was loaded. -/
  loads : Nat

namespace ScriptedHost

variable {γ : Type}

/-- What the compiler does at its next call. -/
def nextAnswer (h : ScriptedHost γ) : CompilerScript :=
  (h.answers[h.requests.length]?.or h.answers.getLast?).getD .plain

/-- The host at work. -/
def asHost : Host (ScriptedHost γ) γ where
  poll h := (h.cancelled, h)
  compile r h :=
    (.finished (h.nextAnswer.result r.crateName),
      { h with requests := h.requests ++ [r], cancelled := h.cancelled || h.nextAnswer.cancels })
  load m h :=
    (Loading.serve h.table m,
      { h with loads := h.loads + 1, cancelled := h.cancelled || h.cancelOnLoad = some m.epoch })

end ScriptedHost

end SourceGen
