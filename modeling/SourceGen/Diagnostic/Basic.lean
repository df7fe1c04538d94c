import SourceGen.Build.Message
import SourceGen.Fault
import SourceGen.Text.Template

/-!
# Diagnostics

Faults of generators, messages of the compiler and failures to build or load a module never stop a pass.
They are reported as diagnostics. A diagnostic of the pass itself has a descriptor in the catalogue: its
message names the subject, the kind of the fault, its trace and its message.
-/

namespace SourceGen

open SourceGen.Text

/-- How serious a diagnostic is. -/
inductive Severity
  | error
  | warning
  | info
deriving DecidableEq, Repr

namespace Severity

/-- The word for a severity. -/
def word : Severity → String
  | .error => "error"
  | .warning => "warning"
  | .info => "info"

/-- The severity of a message of the compiler. -/
def ofLevel : MessageLevel → Severity
  | .error => .error
  | .warning => .warning
  | .note => .info

end Severity

/-- What diagnostics of one kind have in common. -/
structure Descriptor where
  id : String
  title : String
  /-- The message; its holes are filled with the arguments of the diagnostic. -/
  template : String
  category : String
  severity : Severity
deriving DecidableEq, Repr

namespace Descriptor

/-- The descriptor of an error of the pass: what failed stands between the subject and the fault. -/
def failure (id title subject failed : String) : Descriptor where
  id := id
  title := title
  template := subject ++ " '\x7b0\x7d' " ++ failed ++
    " and \x7b1\x7d was raised. Trace: \x7b2\x7d. Message: \x7b3\x7d."
  category := "MicroSourceGenerator"
  severity := .error

/-- A generator failed while it produced sources. -/
def sourceProduction : Descriptor :=
  failure "MSG001" "Source Production Failure" "Generator" "failed to produce source"

/-- A generator failed while it looked at a node. -/
def syntaxFiltering : Descriptor :=
  failure "MSG002" "Syntax Filtering Failure" "Generator" "failed to filter syntax"

/-- A generator failed before its first node. -/
def initialization : Descriptor :=
  failure "MSG003" "Generator Initialization Failure" "Generator" "failed to initialize"

/-- A generator could not be made. -/
def construction : Descriptor :=
  failure "MSG004" "Generator Construction Failure" "Generator" "could not be constructed"

/-- A compiled module could not be loaded. -/
def moduleLoad : Descriptor :=
  failure "MSG005" "Generator Module Load Failure" "Generator module" "failed to load"

/-- A module could not be compiled. -/
def moduleBuild : Descriptor :=
  failure "MSG006" "Generator Module Build Failure" "Generator module" "could not be built"

/-- All descriptors, by their identifiers. -/
def catalogue : List Descriptor :=
  [sourceProduction, syntaxFiltering, initialization, construction, moduleLoad, moduleBuild]

end Descriptor

/-- A reported problem. -/
structure Diagnostic where
  id : String
  title : String
  severity : Severity
  message : String
  location : Option Location
  /-- The message as its reporter would show it. -/
  rendered : Option String
deriving DecidableEq, Repr

namespace Diagnostic

/-- A diagnostic of a kind in the catalogue. -/
def new (d : Descriptor) (args : List String) (location : Option Location) : Diagnostic :=
  ⟨d.id, d.title, d.severity, fillTemplate args d.template, location, none⟩

/-- The report of a fault. -/
def ofFault (d : Descriptor) (subject : String) (f : Fault) (location : Option Location) : Diagnostic :=
  new d [subject, f.category, f.trace, f.message] location

/-- The report of a fault while sources were produced. -/
def productionFailure (generator : String) (f : Fault) (l : Location) : Diagnostic :=
  ofFault .sourceProduction generator f (some l)

/-- The report of a fault while a node was looked at. -/
def filterFailure (generator : String) (f : Fault) (l : Location) : Diagnostic :=
  ofFault .syntaxFiltering generator f (some l)

/-- The report of a fault before the first node. -/
def initializationFailure (generator : String) (f : Fault) : Diagnostic :=
  ofFault .initialization generator f none

/-- The report of a generator that could not be made. -/
def constructionFailure (generator : String) (f : Fault) : Diagnostic :=
  ofFault .construction generator f none

/-- The report of a module that could not be loaded. -/
def moduleLoadFailure (module : String) (e : ErrorChain) : Diagnostic :=
  ofFault .moduleLoad module (e.fault "LoadError") none

/-- The report of a module that could not be compiled. -/
def moduleBuildFailure (module : String) (e : ErrorChain) : Diagnostic :=
  ofFault .moduleBuild module (e.fault "BuildError") none

/-- The report of a message of the compiler. -/
def ofCompiler (m : CompilerMessage) : Diagnostic where
  id := m.code.getD "rustc"
  title := "Generator module " ++ (Severity.ofLevel m.level).word
  severity := .ofLevel m.level
  message := m.message
  location := m.location
  rendered := m.rendered

/-- Whether the diagnostic is an error. -/
def isError (d : Diagnostic) : Bool := d.severity = .error

end Diagnostic

end SourceGen
