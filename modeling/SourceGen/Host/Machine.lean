import SourceGen.Build.Cargo
import SourceGen.Pipeline.Pass

/-!
# Hosts with a build program

A host that builds modules with cargo on a machine of its own and loads them with a linker. The machine has
one program that can be run, whose output is known.
-/

namespace SourceGen

/-- A host that builds with cargo. -/
structure MachineHost (γ : Type) where
  config : Config
  /-- The directory for projects. -/
  scratch : String
  disk : Disk
  /-- The path of the build program. -/
  program : String
  /-- What the build program leaves. -/
  output : ProcessOutput
  link : Linker γ
  cancelled : Bool

namespace MachineHost

variable {γ : Type}

/-- Whether a call holds a null character, which no program can be given. -/
def holdsNul (c : CargoCall) : Bool :=
  (c.program :: c.arguments).any fun s => s.toList.contains '\x00'

/-- Why a file of the disk cannot be run: whatever it is, it is no program. -/
def refusal (disk : Disk) (program : String) : SystemError :=
  if !program.toList.contains '/' then .notFound
  else
    match disk.find program with
    | .ok _ => .permissionDenied
    | .error e => e

/-- The machine of the host. -/
def machine (h : MachineHost γ) : BuildMachine where
  run c :=
    if holdsNul c then .error .nulInArgument
    else if c.program = h.program then .ok h.output
    else .error (refusal h.disk c.program)
  read := h.disk.read

/-- The host at work. -/
def asHost : Host (MachineHost γ) γ where
  poll h := (h.cancelled, h)
  compile r h := (.finished (Cargo.compile h.machine h.config h.scratch r), h)
  load m h := (Loading.loadImage h.link m, h)

end MachineHost

end SourceGen
