import SourceGen.Layout.Mark

/-!
# Choosing lines

Turns layout marks into lines. A group fits if everything up to the next place after it, outside of nested
groups, has room on the line.
-/

namespace SourceGen

namespace Layout

/-- The width of a line. -/
def lineWidth : Int := 89

/-- The room that every line has, however far it is indented. -/
def minimalRoom : Int := 60

/-- Whether the marks up to the next place at the given nesting have room. -/
def fits (room : Int) (depth : Nat) : List LayoutMark → Bool
  | [] => 0 ≤ room
  | m :: ms =>
    if room < 0 then false
    else
      match m with
      | .enter _ _ => fits room (depth + 1) ms
      | .leave => fits room (depth - 1) ms
      | .line place =>
        if depth = 0 then true else fits (room - place.blanks) depth ms
      | m => fits (room - m.width) depth ms

/-- Whether the words of a group are wider than the room. -/
def overruns (room : Int) (depth : Nat) : List LayoutMark → Bool
  | [] => false
  | m :: ms =>
    match m with
    | .enter _ _ => overruns room (depth + 1) ms
    | .leave => if depth ≤ 1 then false else overruns room (depth - 1) ms
    | .overflow => overruns room depth ms
    | .line place => overruns (room - place.blanks) depth ms
    | .text s => if room < s.utf8ByteSize then true else overruns (room - s.utf8ByteSize) depth ms

/-- An open group. -/
inductive Frame
  | fitting
  | /-- A broken group, with the indentation around it; `full` if its words alone have no room. -/
    broken (indent : Nat) (style : BreakStyle) (full : Bool)
deriving DecidableEq, Repr

/-- What has been laid out so far. -/
structure State where
  /-- The finished text, last piece first. -/
  pieces : List String
  /-- The room left on the line. -/
  room : Int
  indent : Nat
  /-- Blanks that stand before the next word. -/
  pending : Nat
  frames : List Frame

namespace State

/-- Before the first mark. -/
def start : State := ⟨[], lineWidth, 0, 0, []⟩

/-- Blanks in a row. -/
def blanks (n : Nat) : String := String.ofList (List.replicate n ' ')

/-- Puts a word at the end, after pending blanks. -/
def put (s : State) (text : String) : State :=
  { s with pieces := text :: blanks s.pending :: s.pieces, pending := 0 }

/-- Whether the line goes on at a place. -/
def goesOn (s : State) (place : LineBreak) (rest : List LayoutMark) : Bool :=
  place.never ||
    match s.frames with
    | .fitting :: _ => true
    | .broken _ .consistent _ :: _ => false
    | _ => fits (s.room - place.blanks) 0 rest

/-- Whether a place vanishes. -/
def drops (s : State) (place : LineBreak) : Bool :=
  place.ifRoom &&
    match s.frames with
    | .broken _ _ full :: _ => full
    | _ => false

/-- Goes on with the line at a place. -/
def stay (s : State) (place : LineBreak) : State :=
  { s with
    pieces := place.within :: s.pieces
    pending := s.pending + place.blanks
    room := s.room - place.blanks - place.within.utf8ByteSize }

/-- Ends the line at a place. -/
def endLine (s : State) (place : LineBreak) : State :=
  let s := if place.before = "" then s else s.put place.before
  let indent := s.indent + place.offset
  let s := { s with
    pieces := "\n" :: s.pieces
    pending := indent.toNat
    room := max (lineWidth - indent) minimalRoom }
  if place.after = "" then s
  else
    let s := s.put place.after
    { s with room := s.room - place.after.utf8ByteSize }

/-- Opens a group whose content comes next. -/
def openGroup (s : State) (offset : Int) (style : BreakStyle) (rest : List LayoutMark) : State :=
  if fits s.room 1 rest then { s with frames := .fitting :: s.frames }
  else
    { s with
      frames := .broken s.indent style (overruns s.room 1 rest) :: s.frames
      indent := (s.indent + offset).toNat }

/-- Closes the innermost group. -/
def closeGroup (s : State) : State :=
  match s.frames with
  | [] => s
  | .fitting :: frames => { s with frames := frames }
  | .broken indent _ _ :: frames => { s with frames := frames, indent := indent }

/-- Lays out one mark; `rest` follows it. -/
def step (s : State) (m : LayoutMark) (rest : List LayoutMark) : State :=
  match m with
  | .text t =>
    let s := s.put t
    { s with room := s.room - t.utf8ByteSize }
  | .overflow => s.put ""
  | .line place =>
    if s.drops place then s else if s.goesOn place rest then s.stay place else s.endLine place
  | .enter offset style => s.openGroup offset style rest
  | .leave => s.closeGroup

/-- Lays out marks in order. -/
def run (s : State) : List LayoutMark → State
  | [] => s
  | m :: ms => (s.step m ms).run ms

end State

/-- The text of a layout. -/
def render (marks : List LayoutMark) : String :=
  String.join (State.start.run marks).pieces.reverse

end Layout

end SourceGen
