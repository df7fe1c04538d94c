/-!
# Blanks and comments

What may stand between two tokens without being one: white space and comments. Documentation comments are
not blanks, since they stand for an attribute.
-/

namespace SourceGen.Blank

/-- Whether `c` separates tokens. -/
def isSpace (c : Char) : Bool :=
  let n := c.toNat
  n = 32 || (9 ≤ n && n ≤ 13) || n = 0x85 || n = 0xa0 || n = 0x1680 || (0x2000 ≤ n && n ≤ 0x200a) ||
    n = 0x200e || n = 0x200f || n = 0x2028 || n = 0x2029 || n = 0x202f || n = 0x205f || n = 0x3000

/-- Content and rest of a block comment, up to the end mark that closes the `depth`-th level. -/
def blockComment (depth : Nat) : List Char → Option (List Char × List Char)
  | [] => none
  | '/' :: '*' :: cs => (blockComment (depth + 1) cs).map fun r => ('/' :: '*' :: r.1, r.2)
  | '*' :: '/' :: cs =>
    if depth ≤ 1 then some ([], cs)
    else (blockComment (depth - 1) cs).map fun r => ('*' :: '/' :: r.1, r.2)
  | c :: cs => (blockComment depth cs).map fun r => (c :: r.1, r.2)

/-- Content and rest of a line comment; a carriage return belongs to the line end. -/
def lineComment (cs : List Char) : List Char × List Char :=
  let content := cs.takeWhile (· != '\n')
  let rest := cs.dropWhile (· != '\n')
  (if !rest.isEmpty && content.getLast? = some '\r' then content.dropLast else content, rest)

/-- Whether a line comment documents what follows or what encloses it. -/
def isDocumentationLine : List Char → Bool
  | '/' :: '/' :: '/' :: '/' :: _ => false
  | '/' :: '/' :: '/' :: _ => true
  | '/' :: '/' :: '!' :: _ => true
  | _ => false

/-- Whether a block comment documents what follows or what encloses it. -/
def isDocumentationBlock : List Char → Bool
  | '/' :: '*' :: '*' :: '*' :: _ => false
  | '/' :: '*' :: '*' :: _ => true
  | '/' :: '*' :: '!' :: _ => true
  | _ => false

/-- What follows one blank, if there is one. -/
def afterOne (cs : List Char) : Option (List Char) :=
  match cs with
  | '/' :: '/' :: r => if isDocumentationLine cs then none else some (lineComment r).2
  | '/' :: '*' :: '*' :: '/' :: r => some r
  | '/' :: '*' :: r =>
    if isDocumentationBlock cs then none else (blockComment 1 r).map (·.2)
  | c :: r => if isSpace c then some r else none
  | [] => none

/-- What follows all blanks. -/
def skip (cs : List Char) : List Char :=
  match afterOne cs with
  | some r => if r.length < cs.length then skip r else cs
  | none => cs
termination_by cs.length

end SourceGen.Blank
