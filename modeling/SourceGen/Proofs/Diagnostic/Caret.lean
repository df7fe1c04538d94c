import SourceGen.Diagnostic.Render
import SourceGen.Proofs.Parser.ReadFiles
import SourceGen.Proofs.Program.Modules
import SourceGen.Proofs.Text.Position
import SourceGen.View.Index

/-!
# Where the caret stands

The place of a node is found in the characters that were lexed, and a report looks it up in the whole text. What is not
lexed is on the first line and ends no line, so the report of a node quotes the line on which its first token starts,
and the caret is under that token, unless a byte order mark is before it on its line: then the caret is one column to
the left (`NodeIndex.quotes_iff`).
-/

namespace SourceGen

open SourceGen.Text

/-! ### What is lexed of a text -/

/-- Whether a text is one line that starts with a byte order mark. -/
def Text.IsMarked (text : List Char) : Prop := text.head? = some '\ufeff' ∧ '\n' ∉ text

instance (text : List Char) : Decidable (IsMarked text) := inferInstanceAs (Decidable (_ ∧ _))

namespace ParsedText

/-- What is lexed of a text is what follows a byte order mark, or what is left of it behind its first line. -/
lemma exists_row (text : List Char) :
    ∃ row, text = (if text.head? = some '\ufeff' then ['\ufeff'] else []) ++ row ∧
      (bodyOf text = row ∨ bodyOf text = row.dropWhile (· != '\n')) := by
  fun_cases bodyOf text with
  | case1 row | case2 row | case3 row =>
    refine ⟨row, ?_, by tauto⟩
    dsimp only [row]
    by_cases marked : text.head? = some '\ufeff'
    · obtain ⟨r, rfl⟩ := List.head?_eq_some_iff.mp marked
      rfl
    · rw [if_neg marked, List.nil_append]
      split
      · exact absurd rfl marked
      · rfl

/-- What is not lexed of a text ends no line. It is a byte order mark, or what is lexed starts with the end of its
line. -/
lemma exists_skipped (text : List Char) :
    ∃ skipped, text = skipped ++ bodyOf text ∧ '\n' ∉ skipped ∧
      (skipped = (if text.head? = some '\ufeff' then ['\ufeff'] else []) ∨ ∀ c ∈ (bodyOf text).head?, c = '\n') := by
  obtain ⟨row, parts, body⟩ := exists_row text
  have mark : '\n' ∉ (if text.head? = some '\ufeff' then ['\ufeff'] else []) := by split_ifs <;> decide
  have one : '\n' ∉ row.takeWhile (· != '\n') := fun there => by simpa using List.mem_takeWhile_imp there
  rcases body with body | body
  · exact ⟨_, by rwa [body], mark, .inl rfl⟩
  · refine ⟨(if text.head? = some '\ufeff' then ['\ufeff'] else []) ++ row.takeWhile (· != '\n'), ?_,
      List.not_mem_append mark one, .inr fun c hc => ?_⟩
    · rwa [body, List.append_assoc, List.takeWhile_append_dropWhile]
    · have ended := List.head?_dropWhile_not (· != '\n') row
      rw [← body, Option.mem_def.mp hc] at ended
      simpa using ended

/-- A place among the characters that are lexed has the same line in the whole text, and the same column, unless a byte
order mark is before it on its line. -/
lemma exists_before {text after : List Char} {offset : Nat} {c : Char} (read : (bodyOf text).drop offset = c :: after)
    (feed : c ≠ '\n') :
    ∃ before, text = before ++ c :: after ∧ (positionAt (bodyOf text) offset).line = 1 + before.count '\n' ∧
      (positionAt (bodyOf text) offset).column + (if IsMarked before then 1 else 0) = 1 + (openLine before).length := by
  obtain ⟨skipped, parts, one, skips⟩ := exists_skipped text
  let lexed := (bodyOf text).take offset
  have rest : bodyOf text = lexed ++ c :: after := by rw [← read, List.take_append_drop]
  refine ⟨skipped ++ lexed, by rw [List.append_assoc, ← rest, ← parts], ?_, ?_⟩
  · rw [positionAt, foldl_advance, List.count_append, List.count_eq_zero.mpr one, Nat.zero_add]
  rw [positionAt, foldl_advance, openLine_append]
  change 1 + (openLine lexed).length + _ = 1 + (if '\n' ∈ lexed then openLine lexed else openLine skipped ++ lexed).length
  by_cases ended : '\n' ∈ lexed
  · -- the line has ended among the characters that are lexed
    have unmarked : ¬IsMarked (skipped ++ lexed) := fun marked => marked.2 (List.mem_append_right _ ended)
    rw [if_neg unmarked, if_pos ended, Nat.add_zero]
  rw [if_neg ended, openLine_of_not_mem ended, openLine_of_not_mem one]
  rcases skips with mark | feeds
  · split_ifs at mark with marked
    · have marked : IsMarked (skipped ++ lexed) := by simp [IsMarked, mark, ended]
      rw [if_pos marked, mark]
      simp [Nat.add_comm]
    · have unmarked : ¬IsMarked (skipped ++ lexed) := by
        rintro ⟨first, -⟩
        rw [mark, List.nil_append] at first
        apply marked
        rw [parts, rest, mark, List.nil_append, List.head?_append, first, Option.some_or]
      rw [if_neg unmarked, mark]
      rfl
  · -- what is lexed starts with a line feed, so it is before `c`
    rw [rest] at feeds
    cases eq : lexed with
    | nil => exact absurd (feeds c (by simp [eq])) feed
    | cons d ds =>
      obtain rfl := feeds d (by simp [eq])
      exact absurd (eq ▸ List.mem_cons_self) ended

end ParsedText

/-! ### Reports -/

namespace Diagnostic

/-- Whether the report of a diagnostic quotes the line of a text that is open behind `before`, and has the caret below
it, `gap` columns to the left of the character that follows `before`. -/
def Quotes (d : Diagnostic) (text : String) (before : List Char) (gap : Nat) : Prop :=
  ∃ c after rest under, text.toList = before ++ c :: after ∧
    (lines text.toList)[before.count '\n']? = some (openLine before ++ c :: rest) ∧
    let number := toString (1 + before.count '\n')
    let front := "  " ++ number ++ " | " ++ String.ofList (openLine before)
    d.report (some text) = d.report none ++ "  " ++ blanks number.length ++ " |\n" ++
      front ++ String.ofList (c :: rest) ++ "\n" ++ under ++ "^\n" ∧
    '^' ∉ under.toList ∧ under.length + gap = front.length

variable {d : Diagnostic} {text : String} {before : List Char}

/-- A caret stands at one place. -/
lemma Quotes.unique {gap gap' : Nat} (h : d.Quotes text before gap) (h' : d.Quotes text before gap') : gap = gap' := by
  obtain ⟨c, after, rest, under, -, line, report, -, column⟩ := h
  obtain ⟨c', after', rest', under', -, line', report', -, column'⟩ := h'
  rw [line, Option.some.injEq, List.append_cancel_left_eq] at line'
  rw [report, line', String.append_left_inj, String.append_right_inj] at report'
  rw [report', ← column'] at column
  exact Nat.add_left_cancel column

/-- The report of a place has the caret in its column. -/
lemma quotes_of_place {l : Location} (located : d.location = some l) {c : Char} {after : List Char}
    (parts : text.toList = before ++ c :: after) (feed : c ≠ '\n') (carriage : c ≠ '\r')
    (line : l.line = 1 + before.count '\n') (some_there : 0 < l.column) {gap : Nat}
    (column : l.column + gap = 1 + (openLine before).length) : d.Quotes text before gap := by
  obtain ⟨rest, -, -, quoted⟩ := exists_line feed carriage before after
  rw [← parts] at quoted
  let margin := "  " ++ blanks (toString (1 + before.count '\n')).length ++ " |"
  refine ⟨c, after, rest, margin ++ " " ++ blanks (l.column - 1), parts, quoted, ?_, ?_, ?_⟩
  · have found : lineAt? text l = some (String.ofList (openLine before ++ c :: rest)) := by
      rw [lineAt?, line, Nat.add_sub_cancel_left, quoted, Option.map_some]
    simp only [report, located, Option.bind_some, Option.bind_none, found, excerpt, line, margin]
    exact String.toList_inj.mp (by simp)
  · simp [margin, blanks]
  · have widths : " |".length + " ".length = " | ".length := rfl
    simp only [margin, blanks, String.length_append, String.length_ofList, List.length_replicate]
    omega

end Diagnostic

/-! ### Nodes -/

/-- Whether the first token of an item is the one that is read in a text behind `before`: the lexemes from this one on
start with those of the item. -/
def Sighting.StandsBehind (x : Sighting) (text before : List Char) : Prop :=
  ∃ offset l ls rest, (Lexeme.cut (ParsedText.bodyOf text))[x.start]? = some (offset, l) ∧
    x.item.lexemes <+: ((Lexeme.cut (ParsedText.bodyOf text)).drop x.start).flatMap (·.2.kinds) ∧
    text = before ++ (ParsedText.bodyOf text).drop offset ∧
    Lexeme.next? ((ParsedText.bodyOf text).drop offset) = some (ls, rest) ∧ l ∈ ls

lemma Sighting.StandsBehind.unique {x : Sighting} {text before before' : List Char} (h : x.StandsBehind text before)
    (h' : x.StandsBehind text before') : before = before' := by
  obtain ⟨offset, l, ls, rest, there, -, parts, -⟩ := h
  obtain ⟨offset', l', ls', rest', there', -, parts', -⟩ := h'
  rw [there] at there'
  cases there'
  exact List.append_cancel_right (parts.symm.trans parts')

/-- An item that was met in a unit starts with a lexeme of the text, and has its place. -/
lemma SourceUnit.exists_cut {u : SourceUnit} (parsed : ParsedText.parse u.text = .ok u.parsed) {x : Sighting}
    (met : x ∈ u.sightings) :
    ∃ offset l, (Lexeme.cut u.parsed.body)[x.start]? = some (offset, l) ∧
      x.item.lexemes <+: ((Lexeme.cut u.parsed.body).drop x.start).flatMap (·.2.kinds) ∧
      u.parsed.placeOf x.start = positionAt u.parsed.body offset := by
  obtain ⟨-, offsets, lexemes, -⟩ := ParsedText.lexemes_of_parse parsed
  have placed : LexemeKind.Placed u.parsed.file.lexemes := (ParsedText.allSound_lexemes parsed).placed
  obtain ⟨front, back, row, start⟩ := u.parsed.file.isIn_sightings placed _ x met
  have own : ((Lexeme.cut u.parsed.body).drop x.start).flatMap (·.2.kinds) = x.item.lexemes ++ back := by
    rw [← Lexeme.drop_kinds fun y hy => (Lexeme.readAt_of_mem_cut _ y hy).isRead, ← lexemes, row, start, Nat.zero_add,
      List.append_assoc, List.drop_left]
  cases there : (Lexeme.cut u.parsed.body)[x.start]? with
  | none =>
    rw [List.drop_eq_nil_of_le (List.getElem?_eq_none_iff.mp there)] at own
    exact absurd (List.append_eq_nil_iff.mp own.symm).1 x.item.lexemes_ne_nil
  | some y =>
    refine ⟨y.1, y.2, rfl, ⟨back, own.symm⟩, ?_⟩
    rw [ParsedText.placeOf, ParsedText.place, offsets, List.getElem?_toArray, List.getElem?_map, there, Option.map_some]

/-- The report of an item that was met in a unit. -/
lemma SourceUnit.exists_standsBehind {u : SourceUnit} (parsed : ParsedText.parse u.text = .ok u.parsed) {x : Sighting}
    (met : x ∈ u.sightings) :
    ∃ before, x.StandsBehind u.text.toList before ∧ ∀ (m : Model) (id : Nat) (d : Diagnostic),
      d.location = some (NodeIndex.nodeOf m u id x).location →
        d.Quotes u.text before (if IsMarked before then 1 else 0) := by
  obtain ⟨offset, l, there, own, place⟩ := u.exists_cut parsed met
  obtain ⟨-, ⟨c, after, first, visible⟩, ls, rest, next, among⟩ :=
    Lexeme.readAt_of_mem_cut _ _ (List.mem_of_getElem? there)
  rw [(ParsedText.lexemes_of_parse parsed).1] at there own place first next
  have feed : c ≠ '\n' := by
    rintro rfl
    cases visible
  have carriage : c ≠ '\r' := by
    rintro rfl
    cases visible
  obtain ⟨before, parts, line, column⟩ := ParsedText.exists_before first feed
  refine ⟨before, ⟨offset, l, ls, rest, there, own, first ▸ parts, next, among⟩, fun m id d located => ?_⟩
  rw [← place] at line column
  refine Diagnostic.quotes_of_place located parts feed carriage line ?_ column
  change 0 < (u.parsed.placeOf x.start).column
  rw [place, positionAt, foldl_advance]
  exact Nat.add_pos_left Nat.one_pos _

/-- The report of a node quotes the line on which its first token starts, and the caret is under the first character of
this token, unless a byte order mark is before it on its line. -/
theorem NodeIndex.quotes_iff {b : ProgramBuilder} {m : Model} (built : b.build = .ok m.program) :
    ∀ n ∈ (ofModel m).nodes, ∃ u ∈ m.program.units, ∃ x ∈ u.sightings, n = nodeOf m u n.id x ∧
      ∃ before, x.StandsBehind u.text.toList before ∧ ∀ d : Diagnostic, d.location = some n.location →
        d.Quotes u.text before (if IsMarked before then 1 else 0) ∧ (d.Quotes u.text before 0 ↔ ¬IsMarked before) := by
  intro n hn
  obtain ⟨⟨⟨u, x⟩, id⟩, here, rfl⟩ := List.mem_map.mp hn
  obtain ⟨v, hv, there⟩ := List.mem_flatMap.mp (List.fst_mem_of_mem_zipIdx here)
  obtain ⟨y, met, ⟨⟩⟩ := List.mem_map.mp there
  obtain ⟨before, stands, quotes⟩ := u.exists_standsBehind ((Program.eq_of_build built).2.2 u hv).1 met
  refine ⟨u, hv, x, met, rfl, before, stands, fun d located => ?_⟩
  refine ⟨quotes m id d located, fun under marked => ?_, fun unmarked => ?_⟩
  · exact absurd (under.unique (quotes m id d located)) (by simp [marked])
  · simpa [unmarked] using quotes m id d located

/-- The caret is right below a first line that names an interpreter, behind a comment and before a carriage return. -/
theorem NodeIndex.quotes_iff_interpreter :
    ∃ m u, Model.ofText? "#!/usr/bin/env run\r\n/* ü */ pub struct S;\r\n" = some m ∧ m.program.units = [u] ∧
      (ofModel m).nodes.map (·.location) = [⟨"src/lib.rs", 2, 9⟩] ∧ ∀ n ∈ (ofModel m).nodes, ∃ x ∈ u.sightings,
        ∃ before, x.StandsBehind u.text.toList before ∧ ∀ d : Diagnostic, d.location = some n.location →
          d.Quotes u.text before 0 := by
  obtain ⟨m, u, found, units, computed⟩ :
      ∃ m u, Model.ofText? "#!/usr/bin/env run\r\n/* ü */ pub struct S;\r\n" = some m ∧ m.program.units = [u] ∧
        ((ofModel m).nodes.map (·.location) = [⟨"src/lib.rs", 2, 9⟩] && u.text.toList.head? ≠ some '\ufeff') = true :=
    Model.exists_of_ofText? (by decide +kernel)
  rw [Bool.and_eq_true, decide_eq_true_eq, decide_eq_true_eq] at computed
  obtain ⟨places, unmarked⟩ := computed
  refine ⟨m, u, found, units, places, fun n hn => ?_⟩
  obtain ⟨v, hv, x, met, -, before, stands, quotes⟩ := quotes_iff (Model.build_of_ofText? found) n hn
  obtain rfl : v = u := by simpa [units] using hv
  refine ⟨x, met, before, stands, fun d located => (quotes d located).2.mpr fun marked => unmarked ?_⟩
  obtain ⟨offset, l, ls, rest, -, -, parts, -⟩ := stands
  rw [parts, List.head?_append, marked.1, Option.some_or]

/-- A byte order mark before a declaration on the first line is not counted where the declaration is placed, but it is
a character of the line that is quoted. -/
theorem NodeIndex.not_quotes_marked :
    ¬∀ (b : ProgramBuilder) (m : Model), b.build = .ok m.program → Model.ofProgram m.program = .ok m →
      ∀ n ∈ (ofModel m).nodes, ∃ u ∈ m.program.units, ∃ x ∈ u.sightings, n = nodeOf m u n.id x ∧
        ∃ before, x.StandsBehind u.text.toList before ∧ ∀ d : Diagnostic, d.location = some n.location →
          d.Quotes u.text before 0 := by
  intro all
  obtain ⟨m, u, found, units, computed⟩ :
      ∃ m u, Model.ofText? "\ufeffpub struct S;\n" = some m ∧ m.program.units = [u] ∧
        ((ofModel m).nodes ≠ [] && u.text = "\ufeffpub struct S;\n" && u.sightings.map (·.start) = [0]) = true :=
    Model.exists_of_ofText? (by decide +kernel)
  simp only [Bool.and_eq_true, decide_eq_true_eq] at computed
  obtain ⟨⟨some_there, text⟩, first⟩ := computed
  have built := Model.build_of_ofText? found
  obtain ⟨n, hn⟩ := List.exists_mem_of_ne_nil _ some_there
  obtain ⟨v, hv, x, met, node, before, stands, under⟩ := all _ m built (Model.ofProgram_of_ofText? found) n hn
  obtain rfl : v = u := by simpa [units] using hv
  obtain ⟨before', stands', quotes⟩ := v.exists_standsBehind ((Program.eq_of_build built).2.2 v hv).1 met
  obtain rfl := stands.unique stands'
  have marked : IsMarked before := by
    obtain ⟨offset, l, ls, rest, there, -, parts, -⟩ := stands
    have start : x.start = 0 := by
      have there : x.start ∈ v.sightings.map (·.start) := List.mem_map_of_mem met
      simpa [first] using there
    have lexed : ParsedText.bodyOf v.text.toList = "pub struct S;\n".toList := by
      rw [text]
      decide +kernel
    rw [start, lexed] at there
    have first : ((Lexeme.cut "pub struct S;\n".toList)[0]?).map (·.1) = some 0 := by decide +kernel
    rw [there] at first
    obtain rfl : offset = 0 := Option.some.inj first
    rw [lexed, text, List.drop_zero] at parts
    obtain rfl : ['\ufeff'] = before := List.append_cancel_right parts
    exact ⟨rfl, by decide⟩
  let d := Diagnostic.filterFailure "G" ⟨"panic", "<no trace captured>", "boom"⟩ n.location
  have short := quotes m n.id d (congrArg (fun y : NodeView => some y.location) node)
  rw [if_pos marked] at short
  cases (under d rfl).unique short

end SourceGen
