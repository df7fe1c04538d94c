import SourceGen.Build.Message
import SourceGen.Json.Reader
import SourceGen.Program.Path
import SourceGen.Text.Lines

/-!
# The message stream of a build

The build program writes one JSON text on each line that starts with a brace. What concerns the generated
crate is kept: messages of the compiler with their first primary place, the library that was made, and
whether the build succeeded. Everything else is noise.
-/

namespace SourceGen

open SourceGen.Text

/-- What a message is about. -/
structure CargoTarget where
  name : String
  kind : List String
deriving DecidableEq, Repr

/-- A place that a message of the compiler points at. -/
structure CargoSpan where
  fileName : String
  line : Nat
  column : Nat
  isPrimary : Bool
deriving DecidableEq, Repr

/-- A message of the compiler as it stands in the stream. -/
structure RawMessage where
  message : String
  code : Option String
  level : String
  spans : List CargoSpan
  rendered : Option String
deriving DecidableEq, Repr

/-- A line of the stream. -/
inductive CargoMessage
  | compilerMessage (target : CargoTarget) (message : RawMessage)
  | compilerArtifact (target : CargoTarget) (fileNames : List String)
  | buildFinished (success : Bool)
  | other
deriving DecidableEq, Repr

/-- The fields of a record. Written as an array, a record has its fields in order; the last ones may be left
out. -/
structure JsonRecord where
  isArray : Bool
  fields : List (String × JsonValue)

namespace JsonRecord

/-- Whether a name occurs once at most. -/
def unrepeated (fields : List (String × JsonValue)) (name : String) : Bool :=
  (fields.filter (·.1 = name)).length ≤ 1

/-- A record with the given fields. Fields of other names are noise, but a known one is not repeated. -/
def ofValue? (names : List String) : JsonValue → Option JsonRecord
  | .object pairs => if names.all (unrepeated pairs) then some ⟨false, pairs⟩ else none
  | .array values => if values.length ≤ names.length then some ⟨true, names.zip values⟩ else none
  | _ => none

/-- The value of a field. -/
def find? (r : JsonRecord) (name : String) : Option JsonValue :=
  (r.fields.find? (·.1 = name)).map (·.2)

/-- A field that has to be there. -/
def required? {α : Type} (r : JsonRecord) (name : String) (read : JsonValue → Option α) : Option α :=
  (r.find? name).bind read

/-- A field that stands for `fallback` if it is left out. -/
def defaulted? {α : Type} (r : JsonRecord) (name : String) (fallback : α) (read : JsonValue → Option α) :
    Option α :=
  match r.find? name with
  | some v => read v
  | none => some fallback

/-- A field that may be null, or left out of an object. -/
def optional? {α : Type} (r : JsonRecord) (name : String) (read : JsonValue → Option α) :
    Option (Option α) :=
  match r.find? name with
  | some v => v.nullable? read
  | none => if r.isArray then none else some none

end JsonRecord

namespace CargoTarget

/-- Reads a target. -/
def ofValue? (v : JsonValue) : Option CargoTarget := do
  let r ← JsonRecord.ofValue? ["name", "kind"] v
  let name ← r.required? "name" JsonValue.text?
  let kind ← r.defaulted? "kind" [] (JsonValue.list? JsonValue.text?)
  return ⟨name, kind⟩

end CargoTarget

namespace CargoSpan

/-- Reads a place. -/
def ofValue? (v : JsonValue) : Option CargoSpan := do
  let r ← JsonRecord.ofValue? ["file_name", "line_start", "column_start", "is_primary"] v
  let fileName ← r.required? "file_name" JsonValue.text?
  let line ← r.required? "line_start" JsonValue.natural?
  let column ← r.required? "column_start" JsonValue.natural?
  let isPrimary ← r.required? "is_primary" JsonValue.bool?
  return ⟨fileName, line, column, isPrimary⟩

end CargoSpan

namespace RawMessage

/-- Reads the code of a message. -/
def readCode? (v : JsonValue) : Option String := do
  let r ← JsonRecord.ofValue? ["code"] v
  r.required? "code" JsonValue.text?

/-- Reads a message. -/
def ofValue? (v : JsonValue) : Option RawMessage := do
  let r ← JsonRecord.ofValue? ["message", "code", "level", "spans", "rendered"] v
  let message ← r.required? "message" JsonValue.text?
  let code ← r.optional? "code" readCode?
  let level ← r.required? "level" JsonValue.text?
  let spans ← r.defaulted? "spans" [] (JsonValue.list? CargoSpan.ofValue?)
  let rendered ← r.optional? "rendered" JsonValue.text?
  return ⟨message, code, level, spans, rendered⟩

/-- How grave a message is; none for those that are of no interest. -/
def level? (m : RawMessage) : Option MessageLevel :=
  if m.level = "error" || m.level = "error: internal compiler error" then some .error
  else if m.level = "warning" then some .warning
  else none

/-- The first primary place, in a file below the crate. -/
def location? (crateName : String) (m : RawMessage) : Option Location :=
  (m.spans.find? (·.isPrimary)).map fun s => ⟨crateName ++ "/" ++ s.fileName, s.line, s.column⟩

/-- The message as it is reported, if it is of interest. -/
def toMessage? (crateName : String) (m : RawMessage) : Option CompilerMessage :=
  m.level?.map fun level => ⟨m.code, level, m.message, m.rendered, m.location? crateName⟩

end RawMessage

namespace CargoMessage

/-- Reads a message of a given reason. -/
def ofReason? (reason : String) (v : JsonValue) : Option CargoMessage :=
  match reason with
  | "compiler-message" => do
    let r ← JsonRecord.ofValue? ["target", "message"] v
    let target ← r.required? "target" CargoTarget.ofValue?
    let message ← r.required? "message" RawMessage.ofValue?
    return .compilerMessage target message
  | "compiler-artifact" => do
    let r ← JsonRecord.ofValue? ["target", "filenames"] v
    let target ← r.required? "target" CargoTarget.ofValue?
    let fileNames ← r.required? "filenames" (JsonValue.list? JsonValue.text?)
    return .compilerArtifact target fileNames
  | "build-finished" => do
    let r ← JsonRecord.ofValue? ["success"] v
    let success ← r.required? "success" JsonValue.bool?
    return .buildFinished success
  | _ => some .other

/-- Reads a message, whose reason says what it is. -/
def ofValue? : JsonValue → Option CargoMessage
  | .object pairs => do
    let r ← JsonRecord.ofValue? ["reason"] (.object pairs)
    let reason ← r.required? "reason" JsonValue.text?
    ofReason? reason (.object (pairs.filter (·.1 ≠ "reason")))
  | _ => none

/-- Reads a line of the stream. -/
def ofLine? (line : List Char) : Option CargoMessage :=
  if line.head? = some '{' then (Json.read? line).bind ofValue? else none

/-- The messages of a stream; lines that are none are passed over. -/
def ofStream (stream : String) : List CargoMessage :=
  (lines stream.toList).filterMap ofLine?

end CargoMessage

/-- What a stream says about a crate. -/
structure ParsedBuild where
  messages : List CompilerMessage
  /-- The library, if the last artifact of the crate has one. -/
  artifact : Option String
  /-- Whether the build succeeded, if it says so. -/
  success : Option Bool
deriving DecidableEq, Repr

namespace ParsedBuild

/-- Nothing was said. -/
def empty : ParsedBuild := ⟨[], none, none⟩

/-- The ending of the names of libraries. -/
def libraryExtension : String := "so"

/-- The first library among files. -/
def library? (fileNames : List String) : Option String :=
  fileNames.find? fun f => SourcePath.extension? f = some libraryExtension

/-- Takes note of a message. -/
def note (crateName : String) (p : ParsedBuild) : CargoMessage → ParsedBuild
  | .compilerMessage target m =>
    if target.name = crateName then { p with messages := p.messages ++ (m.toMessage? crateName).toList }
    else p
  | .compilerArtifact target fileNames =>
    if target.name = crateName && target.kind.contains "cdylib" then
      { p with artifact := library? fileNames }
    else p
  | .buildFinished success => { p with success := some success }
  | .other => p

/-- What a stream says about a crate. -/
def ofStream (stream crateName : String) : ParsedBuild :=
  (CargoMessage.ofStream stream).foldl (note crateName) empty

end ParsedBuild

end SourceGen
