import Mathlib.Data.List.DropRight
import SourceGen.Proofs.Text.Split
import SourceGen.Text.Position

/-!
# Places and lines

A place is the number of line feeds before it, and the length of the line that is open there (`foldl_advance`). The
lines of a text are counted alike: at a character that belongs to no line end, the line of that number is the one that
is open there, and goes on with the character (`exists_line`). So a place finds its line, whatever ends the lines.
-/

namespace SourceGen.Text

/-- The line that is open at the end of a text. -/
def openLine (text : List Char) : List Char := text.rtakeWhile (· != '\n')

lemma openLine_concat (text : List Char) (c : Char) :
    openLine (text ++ [c]) = if c = '\n' then [] else openLine text ++ [c] := by
  rw [openLine, List.rtakeWhile_concat]
  by_cases ended : c = '\n'
  · simp [ended]
  · simp [ended, openLine]

lemma not_mem_openLine (text : List Char) : '\n' ∉ openLine text := by
  intro there
  simpa using List.mem_rtakeWhile_imp there

lemma openLine_of_not_mem {text : List Char} (one : '\n' ∉ text) : openLine text = text :=
  List.rtakeWhile_eq_self_iff.mpr fun c hc => by
    simpa using ne_of_mem_of_not_mem hc one

/-- The line that is open behind two texts starts in the first one, unless the second one ends it. -/
lemma openLine_append (text more : List Char) :
    openLine (text ++ more) = if '\n' ∈ more then openLine more else openLine text ++ more := by
  induction more using List.reverseRecOn with
  | nil => simp
  | append_singleton more c ih =>
    rw [← List.append_assoc, openLine_concat, openLine_concat, ih]
    by_cases ended : c = '\n'
    · simp [ended]
    · by_cases inside : '\n' ∈ more <;> simp [ended, inside, Ne.symm ended]

/-- The place behind a text. -/
lemma foldl_advance (text : List Char) :
    text.foldl Position.advance .first = ⟨1 + text.count '\n', 1 + (openLine text).length⟩ := by
  induction text using List.reverseRecOn with
  | nil => rfl
  | append_singleton text c ih =>
    rw [List.foldl_append, ih, List.foldl_cons, List.foldl_nil, Position.advance, openLine_concat, List.count_append,
      List.count_singleton]
    by_cases ended : c = '\n'
    · simp [ended, Nat.add_assoc]
    · simp [ended, Nat.add_assoc]

/-! ### The line of a place -/

lemma length_split (separator : Char) (text : List Char) :
    (split separator text).length = text.count separator + 1 := by
  fun_induction split separator text with
  | case1 => rfl
  | case2 cs ih => simp [ih]
  | case3 c cs other s ss segments ih =>
    rw [segments] at ih
    simpa [other] using ih
  | case4 c cs other none => exact absurd none (split_ne_nil separator cs)

/-- A text whose lines have ended has one line for each line feed. -/
lemma length_lines {text : List Char} (ended : IsEnded text) : (lines text).length = text.count '\n' := by
  rcases ended with rfl | last
  · rfl
  · obtain ⟨front, rfl⟩ := List.getLast?_eq_some_iff.mp last
    rw [lines_append_cons, lines_nil, List.append_nil, List.length_map, length_split]
    simp

lemma lines_of_not_mem {line : List Char} (one : '\n' ∉ line) (some_there : line ≠ []) : lines line = [line] := by
  rw [lines, split_eq_splitOn, List.splitOn_eq_singleton one, linesOfSegments]
  simp [some_there]

/-- A line goes on with what is no end of it. -/
lemma head?_lines {line : List Char} (one : '\n' ∉ line) {c : Char} (feed : c ≠ '\n') (carriage : c ≠ '\r')
    (after : List Char) :
    ∃ rest, rest <+: after ∧ '\n' ∉ rest ∧ (lines (line ++ c :: after)).head? = some (line ++ c :: rest) := by
  let rest := after.takeWhile (· != '\n')
  have inside : '\n' ∉ rest := fun there => by simpa using List.mem_takeWhile_imp there
  have start : rest <+: after := List.takeWhile_prefix _
  have one : '\n' ∉ line ++ c :: rest := by simp [one, feed.symm, inside]
  have split : after = rest ++ after.dropWhile (· != '\n') := List.takeWhile_append_dropWhile.symm
  cases behind : after.dropWhile (· != '\n') with
  | nil =>
    rw [behind, List.append_nil] at split
    exact ⟨rest, start, inside, by rw [split, lines_of_not_mem one (by simp), List.head?_cons]⟩
  | cons d later =>
    obtain rfl : d = '\n' := by simpa [behind] using List.head?_dropWhile_not (· != '\n') after
    have row : line ++ c :: after = (line ++ c :: rest) ++ '\n' :: later := by
      rw [split, behind]
      simp
    rw [row, lines_cons_of_not_mem one, List.head?_cons, withoutReturn]
    split
    · next last =>
      -- the carriage return is behind `c`
      obtain none | ⟨init, d, concat⟩ := List.eq_nil_or_concat rest
      · simp [none, carriage] at last
      · rw [List.concat_eq_append] at concat
        rw [concat] at start inside ⊢
        refine ⟨init, (List.prefix_append init [d]).trans start, fun there => inside (List.mem_append_left _ there), ?_⟩
        rw [← List.cons_append, ← List.append_assoc, List.dropLast_concat]
    · exact ⟨rest, start, inside, rfl⟩

/-- The line of a place in a text. -/
lemma exists_line {c : Char} (feed : c ≠ '\n') (carriage : c ≠ '\r') (before after : List Char) :
    ∃ rest, rest <+: after ∧ '\n' ∉ rest ∧
      (lines (before ++ c :: after))[before.count '\n']? = some (openLine before ++ c :: rest) := by
  obtain ⟨ended, parts⟩ : IsEnded (before.rdropWhile (· != '\n')) ∧
      before.rdropWhile (· != '\n') ++ openLine before = before := by
    refine ⟨or_iff_not_imp_left.mpr fun some_there => ?_, List.rdropWhile_append_rtakeWhile ..⟩
    rw [List.getLast?_eq_some_getLast some_there]
    exact congrArg some (by simpa using List.rdropWhile_last_not _ before some_there)
  have count : (lines (before.rdropWhile (· != '\n'))).length = before.count '\n' := by
    conv_rhs => rw [← parts, List.count_append, List.count_eq_zero.mpr (not_mem_openLine before), Nat.add_zero]
    exact length_lines ended
  obtain ⟨rest, start, one, line⟩ := head?_lines (not_mem_openLine before) feed carriage after
  refine ⟨rest, start, one, ?_⟩
  conv_lhs => rw [← parts, List.append_assoc]
  rw [lines_append ended, parts, ← count, List.getElem?_append_right le_rfl, Nat.sub_self, ← List.head?_eq_getElem?, line]

end SourceGen.Text
