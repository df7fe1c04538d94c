/-!
# JSON values

A value keeps the pairs of an object in the order in which they were written, with repetitions. Of numbers
only the natural ones that fit into 64 bits keep their value, since no other number means anything here.
-/

namespace SourceGen

/-- A JSON value. -/
inductive JsonValue
  | null
  | bool (b : Bool)
  | natural (n : Nat)
  | otherNumber
  | text (s : String)
  | array (values : List JsonValue)
  | object (pairs : List (String × JsonValue))

namespace JsonValue

/-- The text of a value that is one. -/
def text? : JsonValue → Option String
  | .text s => some s
  | _ => none

/-- The truth value of a value that is one. -/
def bool? : JsonValue → Option Bool
  | .bool b => some b
  | _ => none

/-- The number of a value that is a natural one. -/
def natural? : JsonValue → Option Nat
  | .natural n => some n
  | _ => none

/-- The values of an array, each read by `read`. -/
def list? {α : Type} (read : JsonValue → Option α) : JsonValue → Option (List α)
  | .array values => values.mapM read
  | _ => none

/-- A value that may be null, else read by `read`. -/
def nullable? {α : Type} (read : JsonValue → Option α) : JsonValue → Option (Option α)
  | .null => some none
  | v => (read v).map some

end JsonValue

end SourceGen
