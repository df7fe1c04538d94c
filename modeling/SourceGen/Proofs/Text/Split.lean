import Mathlib.Tactic.Lemma
import SourceGen.Text.Lines

/-!
# Segments and lines

Segments that do not hold the separator are read back from what they are joined to (`splitText_intercalate`). Behind the
end of a line the lines of a text start anew (`lines_append`), so a line can be put in there and stands between the
others (`lines_insert`).
-/

namespace SourceGen.Text

lemma split_eq_splitOn (separator : Char) (cs : List Char) : split separator cs = cs.splitOn separator := by
  induction cs with
  | nil => rfl
  | cons c cs ih =>
    rw [split, ih, List.splitOn_cons_eq_if_modifyHead]
    by_cases here : c = separator
    · simp [here]
    · obtain ⟨s, ss, segments⟩ := List.exists_cons_of_ne_nil (List.splitOn_ne_nil separator cs)
      simp [here, segments]

lemma split_ne_nil (separator : Char) (cs : List Char) : split separator cs ≠ [] := by
  rw [split_eq_splitOn]
  exact List.splitOn_ne_nil separator cs

/-- A character that is no separator is in a segment. -/
lemma mem_split {separator c : Char} {cs : List Char} (there : c ∈ cs) (other : c ≠ separator) :
    ∃ s ∈ split separator cs, c ∈ s := by
  induction cs with
  | nil => cases there
  | cons d ds ih =>
    rw [split]
    split
    · next same =>
      have there : c ∈ ds := (List.mem_cons.mp there).resolve_left fun eq => other (eq.trans same)
      obtain ⟨s, hs, hc⟩ := ih there
      exact ⟨s, List.mem_cons_of_mem _ hs, hc⟩
    · split
      · next s ss segments =>
        rw [segments] at ih
        rcases List.mem_cons.mp there with rfl | there
        · exact ⟨c :: s, List.mem_cons_self, List.mem_cons_self⟩
        · obtain ⟨s', hs', hc⟩ := ih there
          rcases List.mem_cons.mp hs' with rfl | hs'
          · exact ⟨d :: s', List.mem_cons_self, List.mem_cons_of_mem d hc⟩
          · exact ⟨s', List.mem_cons_of_mem _ hs', hc⟩
      · next none => exact absurd none (split_ne_nil separator ds)

/-- Segments are read back from their join. -/
lemma splitText_intercalate {separator : Char} {names : List String} (some_there : names ≠ [])
    (free : ∀ s ∈ names, separator ∉ s.toList) :
    splitText separator ((String.singleton separator).intercalate names) = names := by
  have segments : names.map String.toList ≠ [] := mt List.map_eq_nil_iff.mp some_there
  have free : ∀ cs ∈ names.map String.toList, separator ∉ cs := List.forall_mem_map.mpr free
  rw [splitText, String.toList_intercalate, String.toList_singleton, split_eq_splitOn,
    List.splitOn_intercalate _ free segments, List.map_map]
  exact (List.map_congr_left fun s _ => String.ofList_toList).trans (List.map_id names)

lemma withoutEnd_append (s ending : String) : withoutEnd ending (s ++ ending) = s := by
  simp [withoutEnd, String.toList_append]

/-! ### Lines -/

lemma lines_nil : lines [] = [] := rfl

/-- Segments before others are lines that have ended. -/
lemma linesOfSegments_append (before : List (List Char)) {after : List (List Char)} (more : after ≠ []) :
    linesOfSegments (before ++ after) = before.map withoutReturn ++ linesOfSegments after := by
  induction before with
  | nil => rfl
  | cons segment before ih =>
    have rest : before ++ after ≠ [] := List.append_ne_nil_of_right_ne_nil before more
    rw [List.cons_append, linesOfSegments.eq_3 _ _ rest, ih, List.map_cons, List.cons_append]

lemma lines_append_cons (before after : List Char) :
    lines (before ++ '\n' :: after) = (split '\n' before).map withoutReturn ++ lines after := by
  rw [lines, lines, split_eq_splitOn, split_eq_splitOn, split_eq_splitOn, List.splitOn_append_cons_self,
    linesOfSegments_append _ (List.splitOn_ne_nil _ _)]

/-- Whether no line of a text is open at its end. -/
def IsEnded (text : List Char) : Prop := text = [] ∨ text.getLast? = some '\n'

/-- Behind the end of a line the lines of a text start anew. -/
lemma lines_append {before : List Char} (ended : IsEnded before) (after : List Char) :
    lines (before ++ after) = lines before ++ lines after := by
  cases ended with
  | inl empty => rw [empty, lines_nil, List.nil_append, List.nil_append]
  | inr last =>
    obtain ⟨front, rfl⟩ := List.getLast?_eq_some_iff.mp last
    rw [List.append_assoc, List.singleton_append, lines_append_cons, lines_append_cons, lines_nil, List.append_nil]

lemma lines_cons_of_not_mem {line : List Char} (one : '\n' ∉ line) (after : List Char) :
    lines (line ++ '\n' :: after) = withoutReturn line :: lines after := by
  rw [lines_append_cons, split_eq_splitOn, List.splitOn_eq_singleton one, List.map_singleton, List.singleton_append]

/-- A line that is put in behind the end of another one stands between the lines of the text. -/
lemma lines_insert {before line : List Char} (ended : IsEnded before) (one : '\n' ∉ line) (after : List Char) :
    lines (before ++ line ++ '\n' :: after) = lines before ++ withoutReturn line :: lines after := by
  rw [List.append_assoc, lines_append ended, lines_cons_of_not_mem one]

end SourceGen.Text
