import Mathlib.Tactic.Lemma
import SourceGen.Layout.File

/-!
# Words of a layout

A word that was written stands in the formatted text. Few writers take marks back, and none of them takes
words (`Layout.Keeps`); so a layout that writes a word somewhere shows it at its end (`Layout.Shows`), and
the renderer puts every word out (`Layout.mem_pieces`).
-/

namespace SourceGen

namespace Layout

variable {α β : Type} {s : String}

/-- Whether a word is among the marks once the writer is done, if it comes to an end at all. -/
def Shows (s : String) (l : LayoutWriter α) : Prop :=
  ∀ ms a ms', l ms = some (a, ms') → .text s ∈ ms'

/-- Whether a writer leaves the words that are there. -/
def Keeps (l : LayoutWriter α) : Prop :=
  ∀ s ms a ms', l ms = some (a, ms') → .text s ∈ ms → .text s ∈ ms'

lemma bind_eq_some {l : LayoutWriter α} {f : α → LayoutWriter β} {ms ms'' : List LayoutMark} {b : β}
    (h : (l >>= f) ms = some (b, ms'')) : ∃ a ms', l ms = some (a, ms') ∧ f a ms' = some (b, ms'') := by
  obtain ⟨⟨a, ms'⟩, first, second⟩ := Option.bind_eq_some_iff.mp h
  exact ⟨a, ms', first, second⟩

lemma shows_text (s : String) : Shows s (text s) := by
  intro ms a ms' h
  cases h
  exact List.mem_cons_self

/-- What the second of two writers shows is shown. -/
lemma Shows.behind {l : LayoutWriter α} {f : α → LayoutWriter β} (h : ∀ a, Shows s (f a)) :
    Shows s (l >>= f) := by
  intro ms b ms'' run
  obtain ⟨a, ms', -, second⟩ := bind_eq_some run
  exact h a ms' b ms'' second

/-- What the first of two writers shows is shown, if the second one keeps words. -/
lemma Shows.before {l : LayoutWriter α} {f : α → LayoutWriter β} (h : Shows s l)
    (keeps : ∀ a, Keeps (f a)) : Shows s (l >>= f) := by
  intro ms b ms'' run
  obtain ⟨a, ms', first, second⟩ := bind_eq_some run
  exact keeps a s ms' b ms'' second (h ms a ms' first)

/-- Writers in a row show what the last one shows. -/
lemma Shows.last {f : α → Layout} {a : α} (h : Shows s (f a)) (as : List α) :
    Shows s ((as ++ [a]).forM f) := by
  induction as with
  | nil =>
    refine h.before fun _ => ?_
    intro s ms _ ms' run there
    cases run
    exact there
  | cons _ _ ih => exact .behind fun _ => ih

/-- A mark that is added takes no word away. -/
lemma keeps_mark (m : LayoutMark) : Keeps (mark m) := by
  intro s ms a ms' h there
  cases h
  exact List.mem_cons_of_mem m there

lemma keeps_close : Keeps close := by
  intro s ms a ms' h there
  unfold close at h
  split at h
  case h_1 =>
    cases h
    simpa using there
  case h_2 p rest _ =>
    cases h
    have kept : .text s ∈ rest := by simpa using there
    refine List.mem_cons_of_mem _ ?_
    split
    · exact kept
    · exact List.mem_cons_of_mem _ kept
  case h_3 =>
    cases h
    exact List.mem_cons_of_mem _ there

/-! ### Declarations that end with a brace -/

/-- A body in braces shows its last brace. -/
lemma shows_bodyLines (t : Typesetter) (parts : List Node) : Shows "\x7d" (bodyLines t parts) :=
  .behind fun _ => .behind fun _ => .behind fun _ => .behind fun _ => .behind fun _ => .behind fun _ =>
    shows_text _

/-- A function with a body in braces shows a brace. -/
lemma shows_function (t : Typesetter) (vis : Visibility) (attrs : List Attr) (name : Option String)
    (a b c d e f g h i j k : Node) (delimiter : Delimiter) (parts : List Node) :
    Shows "\x7d"
      (item t (.mk attrs vis (.plain .fn name [a, b, c, d, e, f, g, h, i, j, k, .group delimiter parts]))) := by
  refine .behind fun _ => .before ?_ fun _ => keeps_mark _
  refine .behind fun _ => .behind fun _ => .behind fun _ => .behind fun _ => shows_bodyLines t parts

/-! ### Rendering -/

namespace State

lemma mem_pieces_put {st : State} {p : String} (h : p ∈ st.pieces) (w : String) : p ∈ (st.put w).pieces :=
  List.mem_cons_of_mem _ (List.mem_cons_of_mem _ h)

lemma mem_pieces_endLine {st : State} {p : String} (h : p ∈ st.pieces) (place : LineBreak) :
    p ∈ (st.endLine place).pieces := by
  have ended : p ∈ (if place.before = "" then st else st.put place.before).pieces := by
    split
    · exact h
    · exact mem_pieces_put h place.before
  simp only [endLine]
  split
  · exact List.mem_cons_of_mem _ ended
  · exact mem_pieces_put (List.mem_cons_of_mem _ ended) place.after

lemma mem_pieces_step {st : State} {p : String} (h : p ∈ st.pieces) (m : LayoutMark)
    (rest : List LayoutMark) : p ∈ (st.step m rest).pieces := by
  cases m with
  | text w => exact mem_pieces_put h w
  | overflow => exact mem_pieces_put h ""
  | line place =>
    simp only [step]
    split
    · exact h
    · split
      · exact List.mem_cons_of_mem _ h
      · exact mem_pieces_endLine h place
  | enter offset style =>
    simp only [step, openGroup]
    split <;> exact h
  | leave =>
    simp only [step, closeGroup]
    split <;> exact h

/-- Laying out marks takes no piece back. -/
lemma mem_pieces_run {st : State} {p : String} (h : p ∈ st.pieces) (ms : List LayoutMark) :
    p ∈ (st.run ms).pieces := by
  induction ms generalizing st with
  | nil => exact h
  | cons m ms ih => exact ih (mem_pieces_step h m ms)

/-- Every word among the marks is put out. -/
lemma mem_pieces_of_text {st : State} {w : String} {ms : List LayoutMark} (h : .text w ∈ ms) :
    w ∈ (st.run ms).pieces := by
  induction ms generalizing st with
  | nil => cases h
  | cons m ms ih =>
    cases List.mem_cons.mp h with
    | inl eq =>
      subst eq
      exact mem_pieces_run List.mem_cons_self ms
    | inr h => exact ih h

end State

/-- A text that is joined from pieces is as empty as its pieces. -/
lemma join_ne_empty {pieces : List String} {w : String} (h : w ∈ pieces) (ne : w ≠ "") :
    String.join pieces ≠ "" := by
  have grows : ∀ (ps : List String) (acc : String), acc ≠ "" → ps.foldl (· ++ ·) acc ≠ "" := by
    intro ps
    induction ps with
    | nil => exact fun acc ne => ne
    | cons p ps ih => exact fun acc ne => ih (acc ++ p) (by simp [ne])
  have found : ∀ (ps : List String) (acc : String), w ∈ ps → ps.foldl (· ++ ·) acc ≠ "" := by
    intro ps
    induction ps with
    | nil => exact fun acc h => absurd h List.not_mem_nil
    | cons p ps ih =>
      intro acc h
      cases List.mem_cons.mp h with
      | inl eq => exact grows ps (acc ++ p) (by simp [← eq, ne])
      | inr h => exact ih (acc ++ p) h
  exact found pieces "" h

/-- A text that is laid out with a word in it is not empty. -/
lemma render_ne_empty {ms : List LayoutMark} {w : String} (h : .text w ∈ ms) (ne : w ≠ "") :
    render ms ≠ "" :=
  join_ne_empty (List.mem_reverse.mpr (State.mem_pieces_of_text h)) ne

end Layout

namespace Item

lemma groupedEach_append (firm : Bool) (is js : List Item) :
    Item.groupedEach firm (is ++ js) = Item.groupedEach firm is ++ Item.groupedEach firm js := by
  induction is with
  | nil => rfl
  | cons i is ih => exact congrArg (i.grouped firm :: ·) ih

end Item

namespace SourceFile

/-- The layout of a file that ends with a function shows a brace. -/
lemma shows_layout {f : SourceFile} {items : List Item} {attrs : List Attr} {vis : Visibility}
    {name : Option String} {a b c d e g h i j k l : Node} {delimiter : Delimiter} {parts : List Node}
    (last : f.items = items ++
      [.mk attrs vis (.plain .fn name [a, b, c, d, e, g, h, i, j, k, l, .group delimiter parts])]) :
    Layout.Shows "\x7d" f.layout := by
  refine .behind fun _ => .behind fun _ => .before ?_ fun _ => Layout.keeps_close
  rw [last]
  exact (Layout.shows_function _ vis attrs name a b c d e g h i j k l delimiter parts).last items

/-- A file that ends with a function has a text. -/
lemma formatted_ne_empty {f : SourceFile} {items : List Item} {attrs : List Attr} {vis : Visibility}
    {name : Option String} {a b c d e g h i j k l : Node} {delimiter : Delimiter} {parts : List Node}
    {text : String} (formatted : f.formatted? = some text)
    (last : f.items = items ++
      [.mk attrs vis (.plain .fn name [a, b, c, d, e, g, h, i, j, k, l, .group delimiter parts])]) :
    text ≠ "" := by
  obtain ⟨marks, written, rfl⟩ := Option.map_eq_some_iff.mp formatted
  obtain ⟨⟨_, reversed⟩, run, rfl⟩ := Option.map_eq_some_iff.mp written
  have grouped := congrArg (Item.groupedEach true) last
  rw [Item.groupedEach_append] at grouped
  have there : .text "\x7d" ∈ reversed := shows_layout grouped [] () reversed run
  exact Layout.render_ne_empty (List.mem_reverse.mpr there) (by decide)

end SourceFile

end SourceGen
