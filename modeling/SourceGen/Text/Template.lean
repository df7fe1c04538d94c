/-!
# Templates

A template is a text with holes. A hole is what stands between an opening brace and the next closing one,
and a number in it names an argument. A hole that names none stays as written, and so does an opening brace
that is never closed. What is filled in is not looked at again.
-/

namespace SourceGen.Text

/-- The characters before the first `c`, and those after it. -/
def cutAt? (c : Char) : List Char → Option (List Char × List Char)
  | [] => none
  | x :: xs => if x = c then some ([], xs) else (cutAt? c xs).map fun (before, after) => (x :: before, after)

/-- A cut leaves out the character it is made at, and nothing else. -/
theorem cutAt?_eq_some {c : Char} {s before after : List Char} (h : cutAt? c s = some (before, after)) :
    s = before ++ c :: after := by
  induction s generalizing before with
  | nil => simp [cutAt?] at h
  | cons x xs ih =>
    rw [cutAt?] at h
    split at h
    · simp_all
    · obtain ⟨⟨b, a⟩, hb, he⟩ := Option.map_eq_some_iff.1 h
      obtain ⟨rfl, rfl⟩ := Prod.mk.inj he
      simp [← ih hb]

/-- The value of a digit. -/
def digitValue (c : Char) : Nat := c.toNat - 48

/-- The number that a row of digits stands for; a plus sign may stand before it. -/
def ordinal? (s : List Char) : Option Nat :=
  let digits := match s with
    | '+' :: rest => rest
    | _ => s
  if digits.isEmpty || !digits.all Char.isDigit then none
  else some (digits.foldl (fun n c => 10 * n + digitValue c) 0)

/-- What a hole is filled with. -/
def holeText (args : List String) (hole : List Char) : List Char :=
  match (ordinal? hole).bind (args[·]?) with
  | some arg => arg.toList
  | none => '{' :: hole ++ ['}']

/-- A template with its holes filled, as characters. -/
def fillHoles (args : List String) (s : List Char) : List Char :=
  match _opened : cutAt? '{' s with
  | none => s
  | some (before, after) =>
    match _closed : cutAt? '}' after with
    | none => s
    | some (hole, rest) => before ++ holeText args hole ++ fillHoles args rest
termination_by s.length
decreasing_by
  have h₁ := congrArg List.length (cutAt?_eq_some _opened)
  have h₂ := congrArg List.length (cutAt?_eq_some _closed)
  simp at h₁ h₂
  omega

/-- A template with its holes filled. -/
def fillTemplate (args : List String) (template : String) : String :=
  String.ofList (fillHoles args template.toList)

end SourceGen.Text
