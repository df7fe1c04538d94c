import SourceGen.Layout.Mark

/-!
# Writing layouts

A layout is written mark by mark. Some rules look back at the last mark: a place can get another offset,
and a group that holds nothing but one place vanishes. A layout may not exist, because syntax that was kept
as tokens has none.
-/

namespace SourceGen

/-- A writer of marks; its state holds the marks written so far, last one first. -/
abbrev LayoutWriter := StateT (List LayoutMark) Option

/-- A piece of a layout. -/
abbrev Layout := LayoutWriter Unit

namespace Layout

/-- The indentation of a nested block. -/
def indentation : Int := 4

/-- A mark. -/
def mark (m : LayoutMark) : Layout := fun ms => some ((), m :: ms)

/-- A word. -/
def text (s : String) : Layout := mark (.text s)

/-- No layout at all. -/
def impossible : Layout := fun _ => none

/-- A place where a line may end. -/
def place (p : LineBreak) : Layout := mark (.line p)

/-- A place without a blank. -/
def softLine : Layout := place {}

/-- A place with a blank. -/
def space : Layout := place { blanks := 1 }

/-- A blank that is no place. -/
def blank : Layout := text " "

/-- A place where the line always ends. -/
def hardLine : Layout := place { blanks := unboundedWidth }

/-- A place with a blank that vanishes at the end of a group. -/
def spaceIfNonempty : Layout := place { blanks := 1, ifNonempty := true }

/-- A place where the line always ends, and that vanishes at the end of a group. -/
def hardLineIfNonempty : Layout := place { blanks := unboundedWidth, ifNonempty := true }

/-- A place where the line goes on. -/
def neverLine : Layout := place { never := true }

/-- What follows an element of a list: a comma, which after the last one stands only at the end of a
line. -/
def trailingComma (last : Bool) : Layout := do
  if last then place { before := "," } else text ","; space

/-- What follows an element of a list between braces, where a blank stands after the last element. -/
def trailingCommaOrSpace (last : Bool) : Layout := do
  if last then place { blanks := 1, before := "," } else text ","; space

/-- Opens a group in which all places end lines or none. -/
def openAll (offset : Int) : Layout := mark (.enter offset .consistent)

/-- Opens a group in which places end lines where needed. -/
def openSome (offset : Int) : Layout := mark (.enter offset .inconsistent)

/-- Whether the word written last ends with a dot. -/
def endsWithDot : LayoutWriter Bool := fun ms =>
  let last := ms.findSome? fun
    | .text s => some (s.endsWith ".")
    | .overflow => some false
    | _ => none
  some (last.getD false, ms)

/-- Adds to the offset of the place written last. -/
def shift (offset : Int) : Layout := fun ms =>
  match ms with
  | .line p :: ms => some ((), .line { p with offset := p.offset + offset } :: ms)
  | ms => some ((), ms)

/-- The last place moved out by one level. -/
def outdent : Layout := shift (-indentation)

/-- Closes a group. A group with nothing but a place vanishes, and so does a last place that asks for
it. -/
def close : Layout := fun ms =>
  match ms with
  | .line _ :: .enter _ _ :: ms => some ((), ms)
  | .line p :: ms => some ((), .leave :: if p.ifNonempty then ms else .line p :: ms)
  | ms => some ((), .leave :: ms)

/-- The width of what was written since the group that is open; nothing if no group is. -/
def openWidth? (depth : Nat) : List LayoutMark → Option Nat
  | [] => none
  | .enter _ _ :: ms => if depth = 0 then some 0 else openWidth? (depth - 1) ms
  | .leave :: ms => openWidth? (depth + 1) ms
  | m :: ms => (openWidth? depth ms).map (· + m.width)

/-- Closes a group that breaks if it is wider than `width`. A last place that asks to vanish does so only
if the group has no room for its words. -/
def closeWithin (width : Nat) : Layout := fun ms =>
  match openWidth? 0 ms with
  | some w =>
    if width < w then
      match ms with
      | .line p :: ms => close (.overflow :: .line { p with ifRoom := p.ifNonempty } :: ms)
      | ms => close (.overflow :: ms)
    else close ms
  | none => close ms

/-- Elements in order, each with the knowledge whether it is the first and the last one. -/
def each {α : Type} (f : Bool → Bool → α → Layout) : List α → Layout
  | [] => return ()
  | a :: as => go true (a :: as)
where
  /-- Elements in order; the flag belongs to the first of them. -/
  go (first : Bool) : List α → Layout
    | [] => return ()
    | [a] => f first true a
    | a :: as => do
      f first false a
      go false as

/-- The marks of a layout. -/
def marks? (l : Layout) : Option (List LayoutMark) :=
  (l []).map fun r => r.2.reverse

end Layout

end SourceGen
