import Mathlib.Data.List.Basic
import SourceGen.Build.Cargo
import SourceGen.Proofs.Program.Fingerprint
import SourceGen.Proofs.Text.Quoted
import SourceGen.Proofs.Text.Split
import SourceGen.Toml.Dependencies

/-!
# The dependencies of a manifest, read back

The dependencies are written between quotes as the source language does it, and read by the rules of TOML. The two agree
on the characters that stand for themselves and on the common escapes; the null character and the escapes by code point
are no TOML (`Toml.readString_quoted`). So a manifest has one line for each reference, in their order, and names the
references exactly if the paths and versions hold only portable characters (`CargoProject.dependencies?_manifestOf`).
-/

namespace SourceGen

open SourceGen.Text

namespace Toml

open SourceGen.Literal

/-! ### Basic strings -/

/-- Whether the quoted form of a character is one of a basic string. -/
def isPortable (c : Char) : Bool :=
  c = '\t' || c = '\r' || c = '\n' || (isPrintable c && !isGraphemeExtend c)

/-- A visible character is no control character. -/
lemma isUnescaped_of_isPrintable {c : Char} (printable : isPrintable c = true) (quote : c ≠ '"') (back : c ≠ '\\') :
    isUnescaped c = true := by
  have visible : 32 ≤ c.toNat ∧ c.toNat ≠ 127 := by
    rw [isPrintable] at printable
    split at printable
    case isTrue =>
      simp only [Bool.and_eq_true, decide_eq_true_eq] at printable
      omega
    case isFalse => omega
  simp [isUnescaped, visible, quote, back]

/-- How a character is quoted: a portable one by a short escape of TOML or not at all, another one as no TOML. -/
lemma escapeChar_portable_cases (c : Char) :
    (isPortable c = true ∧ ∃ d, escapeChar c = ['\\', d] ∧ shortEscape? d = some c) ∨
    (isPortable c = true ∧ escapeChar c = [c] ∧ isUnescaped c = true ∧ c ≠ '"' ∧ c ≠ '\\') ∨
    isPortable c = false ∧ (escapeChar c = ['\\', '0'] ∨ escapeChar c = codePointEscape c) := by
  rw [escapeChar]
  split_ifs with nul tab ret line back quote hidden
  · exact .inr (.inr ⟨nul ▸ rfl, .inl rfl⟩)
  · exact .inl ⟨by simp [isPortable, tab], 't', rfl, tab ▸ rfl⟩
  · exact .inl ⟨by simp [isPortable, ret], 'r', rfl, ret ▸ rfl⟩
  · exact .inl ⟨by simp [isPortable, line], 'n', rfl, line ▸ rfl⟩
  · exact .inl ⟨back ▸ rfl, '\\', rfl, by rw [back]; rfl⟩
  · exact .inl ⟨quote ▸ rfl, '"', rfl, by rw [quote]; rfl⟩
  · refine .inr (.inr ⟨?_, .inr rfl⟩)
    have unprintable : (isPrintable c && !isGraphemeExtend c) = false := by
      rw [← Bool.not_eq_true', Bool.not_and, Bool.not_not, Bool.or_comm, hidden]
    simp [isPortable, tab, ret, line, unprintable]
  · rw [Bool.not_eq_true, Bool.or_eq_false_iff, Bool.not_eq_false'] at hidden
    refine .inr (.inl ⟨?_, rfl, isUnescaped_of_isPrintable hidden.2 quote back, quote, back⟩)
    simp [isPortable, hidden]

/-- A quoted character is read back if it is portable, and is no TOML otherwise. -/
lemma readString_escapeChar (c : Char) (rest : List Char) :
    readString .text (escapeChar c ++ rest) =
      if isPortable c then (readString .text rest).map fun (cs, after) => (c :: cs, after) else none := by
  obtain ⟨portable, d, eq, short⟩ | ⟨portable, eq, plain, quote, back⟩ | ⟨portable, eq | eq⟩ :=
    escapeChar_portable_cases c
  · simp [eq, portable, readString, short]
  · simp [eq, portable, readString, plain, quote, back]
  · rw [eq, portable]
    rfl
  · -- a brace is no digit of a code point
    rw [eq, portable]
    rfl

/-- A quoted text is read back if all its characters are portable, and is no TOML otherwise. -/
lemma readString_quoted (cs rest : List Char) :
    readString .text (cs.flatMap escapeChar ++ '"' :: rest) = if cs.all isPortable then some (cs, rest) else none := by
  induction cs with
  | nil => rfl
  | cons c cs ih =>
    rw [List.flatMap_cons, List.append_assoc, readString_escapeChar, ih, List.all_cons]
    cases isPortable c <;> cases cs.all isPortable <;> rfl

lemma readText?_quoted (s : String) (rest : List Char) :
    readText? (' ' :: ((quoted s).toList ++ rest)) = if s.toList.all isPortable then some (s, rest) else none := by
  have opened : readSign? '"' (' ' :: ((quoted s).toList ++ rest)) =
      some (s.toList.flatMap escapeChar ++ '"' :: rest) := by
    rw [toList_quoted, List.cons_append, List.append_assoc]
    rfl
  rw [readText?, opened, Option.bind_some, readString_quoted]
  split
  · simp only [Option.map_some, String.ofList_toList]
  · rfl

/-! ### Entries -/

lemma skipBlanks_of_isKeyChar {c : Char} (key : isKeyChar c = true) (s : List Char) : skipBlanks (c :: s) = c :: s := by
  have visible : c ≠ ' ' ∧ c ≠ '\t' := by
    constructor <;> rintro rfl <;> cases key
  simp [skipBlanks, isBlank, visible]

/-- A bare key is read up to what cannot stand in it. -/
lemma readKey?_append {name : String} (bare : isBareKey name = true) {stop : Char} (other : isKeyChar stop = false)
    (rest : List Char) : readKey? (skipBlanks (name.toList ++ stop :: rest)) = some (name, stop :: rest) := by
  rw [isBareKey, Bool.and_eq_true, Bool.not_eq_true', List.all_eq_true] at bare
  obtain ⟨some_there, keys⟩ := bare
  have start : skipBlanks (name.toList ++ stop :: rest) = name.toList ++ stop :: rest := by
    cases chars : name.toList with
    | nil =>
      rw [chars] at some_there
      cases some_there
    | cons c cs => exact skipBlanks_of_isKeyChar (keys c (chars ▸ List.mem_cons_self)) _
  rw [start, readKey?, List.takeWhile_append_of_pos keys, List.dropWhile_append_of_pos keys, List.takeWhile_cons,
    List.dropWhile_cons, other]
  simp [some_there]

end Toml

namespace Reference

open SourceGen.Literal Toml

/-- Whether the path or the version of a reference has portable characters only. -/
def isPortable (r : Reference) : Bool :=
  match r.source with
  | .path p => p.toList.all Toml.isPortable
  | .version v => v.toList.all Toml.isPortable

lemma toList_manifestEntry (r : Reference) :
    r.manifestEntry.toList = r.name.toList ++ ' ' :: '=' ::
      match r.source with
      | .path p => ' ' :: '\x7b' :: ' ' :: 'p' :: 'a' :: 't' :: 'h' :: ' ' :: '=' :: ' ' ::
          ((quoted p).toList ++ [' ', '\x7d'])
      | .version v => ' ' :: ((quoted v).toList ++ []) := by
  obtain ⟨name, _ | _⟩ := r <;> simp [manifestEntry, String.toList_append]

lemma readSign?_blank {sign : Char} (visible : isBlank sign = false) (rest : List Char) :
    readSign? sign (' ' :: sign :: rest) = some rest := by
  have start : skipBlanks (' ' :: sign :: rest) = sign :: rest := by
    rw [skipBlanks, List.dropWhile_cons_of_pos rfl, List.dropWhile_cons_of_neg (by rw [visible]; exact Bool.false_ne_true)]
  simp only [readSign?, start, if_pos]

/-- The line of a reference is read back if it is portable, and is no TOML otherwise. -/
lemma readDependency?_manifestEntry {r : Reference} (bare : isBareKey r.name = true) :
    readDependency? r.manifestEntry.toList = if r.isPortable then some r else none := by
  have assigned (rest : List Char) : readSign? '=' (' ' :: '=' :: rest) = some rest := readSign?_blank rfl rest
  rw [toList_manifestEntry, readDependency?, readKey?_append bare rfl]
  obtain ⟨name, p | v⟩ := r
  · have portable_eq : p.toList.all Toml.isPortable = isPortable ⟨name, .path p⟩ := rfl
    have opened (rest : List Char) : readSign? '\x7b' (' ' :: '\x7b' :: rest) = some rest := readSign?_blank rfl rest
    have key (rest : List Char) : readKey? (skipBlanks (' ' :: 'p' :: 'a' :: 't' :: 'h' :: ' ' :: rest)) =
      some ("path", ' ' :: rest) := rfl
    simp only [Option.bind_eq_bind, Option.bind_some, key, assigned, opened, readText?_quoted, portable_eq]
    split <;> rfl
  · have portable_eq : v.toList.all Toml.isPortable = isPortable ⟨name, .version v⟩ := rfl
    have noTable : readSign? '\x7b' (' ' :: ((quoted v).toList ++ [])) = none := by
      rw [toList_quoted]
      rfl
    simp only [Option.bind_eq_bind, Option.bind_some, assigned, noTable, readText?_quoted, portable_eq]
    split <;> rfl

/-! ### Lines -/

lemma isHexDigit_of_mem_hexDigits {c : Char} {n : Nat} (there : c ∈ hexDigits n) : isHexDigit c = true := by
  induction n using Nat.strongRecOn with
  | ind n ih =>
    rw [hexDigits] at there
    split at there
    case isTrue small =>
      obtain rfl := List.mem_singleton.mp there
      exact (hexDigit_spec n small).2.2.2.1
    case isFalse large =>
      cases List.mem_append.mp there with
      | inl front => exact ih (n / 16) (Nat.div_lt_self (by omega) (by decide)) front
      | inr last =>
        obtain rfl := List.mem_singleton.mp last
        exact (hexDigit_spec (n % 16) (Nat.mod_lt n (by decide))).2.2.2.1

lemma newline_notMem_escapeChar (c : Char) : '\n' ∉ escapeChar c := by
  obtain ⟨-, d, eq, short⟩ | ⟨-, eq, plain, -, -⟩ | ⟨-, eq | eq⟩ := escapeChar_portable_cases c
  · have other : d ≠ '\n' := by
      rintro rfl
      cases short
    simp [eq, other.symm]
  · have other : c ≠ '\n' := by
      rintro rfl
      cases plain
    simp [eq, other.symm]
  · rw [eq]
    decide
  · have digits : '\n' ∉ hexDigits c.toNat := fun there => by cases isHexDigit_of_mem_hexDigits there
    simp [eq, codePointEscape, digits]

/-- A reference is one line. -/
lemma newline_notMem_manifestEntry {r : Reference} (bare : isBareKey r.name = true) :
    '\n' ∉ r.manifestEntry.toList := by
  have name : '\n' ∉ r.name.toList := by
    intro there
    rw [isBareKey, Bool.and_eq_true, List.all_eq_true] at bare
    cases bare.2 _ there
  have text (s : String) : '\n' ∉ (quoted s).toList := by
    rw [toList_quoted]
    simp [newline_notMem_escapeChar]
  rw [toList_manifestEntry]
  cases r.source <;> simp [name, text]

lemma withoutReturn_manifestEntry (r : Reference) : withoutReturn r.manifestEntry.toList = r.manifestEntry.toList := by
  have last : r.manifestEntry.toList.getLast? ≠ some '\r' := by
    rw [toList_manifestEntry]
    cases r.source <;> simp [toList_quoted, List.getLast?_append, List.getLast?_cons]
  rw [withoutReturn, if_neg last]

/-- The line of a reference starts with its key. -/
lemma exists_manifestEntry_eq_cons {r : Reference} (bare : isBareKey r.name = true) :
    ∃ c cs, r.manifestEntry.toList = c :: cs ∧ isKeyChar c = true := by
  rw [isBareKey, Bool.and_eq_true, List.all_eq_true] at bare
  rw [toList_manifestEntry]
  cases chars : r.name.toList with
  | nil =>
    rw [chars] at bare
    cases bare.1
  | cons c cs => exact ⟨c, _, rfl, bare.2 c (chars ▸ List.mem_cons_self)⟩

lemma readTable?_cons {r : Reference} (bare : isBareKey r.name = true) (rest : List (List Char)) :
    readTable? (r.manifestEntry.toList :: rest) =
      if r.isPortable then (readTable? rest).map (r :: ·) else none := by
  obtain ⟨c, cs, line, key⟩ := exists_manifestEntry_eq_cons bare
  have other : c ≠ '#' ∧ c ≠ '[' := by
    constructor <;> rintro rfl <;> cases key
  have start : skipBlanks r.manifestEntry.toList = c :: cs := line ▸ skipBlanks_of_isKeyChar key cs
  simp only [readTable?, start, if_neg other.1, if_neg other.2, readDependency?_manifestEntry bare]
  split <;> rfl

/-- The lines of references name them if all are portable, and are no TOML otherwise. -/
lemma readTable?_manifestEntries {references : List Reference} (bare : ∀ r ∈ references, isBareKey r.name = true)
    (rest : List (List Char)) :
    readTable? (references.map (·.manifestEntry.toList) ++ rest) =
      if references.all isPortable then (readTable? rest).map (references ++ ·) else none := by
  induction references with
  | nil => exact (Option.map_id_apply).symm
  | cons r rs ih =>
    obtain ⟨first, others⟩ := List.forall_mem_cons.mp bare
    rw [List.map_cons, List.cons_append, readTable?_cons first, ih others, List.all_cons]
    cases r.isPortable
    · rfl
    · by_cases portable : rs.all isPortable = true
      · simp [portable, Function.comp_def]
      · simp [portable]

end Reference

namespace CargoProject

open Toml

/-- The lines of the dependency table: one for each reference, in their order, or a remark that there is none. -/
def tableOf (references : List Reference) : List (List Char) :=
  if references.isEmpty then ["# No additional dependencies".toList] else references.map (·.manifestEntry.toList)

variable {references : List Reference}

lemma lines_dependencies (bare : ∀ r ∈ references, isBareKey r.name = true) (rest : List Char) :
    lines ((dependencies references).toList ++ '\n' :: rest) = tableOf references ++ lines rest := by
  rw [dependencies, tableOf]
  split
  case isTrue => exact lines_cons_of_not_mem (by decide) rest
  case isFalse some_there =>
    have entries : ((references.map (·.manifestEntry)).map String.toList) = references.map (·.manifestEntry.toList) :=
      List.map_map
    have one : ∀ l ∈ references.map (·.manifestEntry.toList), '\n' ∉ l :=
      List.forall_mem_map.mpr fun r hr => Reference.newline_notMem_manifestEntry (bare r hr)
    have kept : (references.map (·.manifestEntry.toList)).map withoutReturn = references.map (·.manifestEntry.toList) := by
      rw [List.map_map]
      exact List.map_congr_left fun r _ => Reference.withoutReturn_manifestEntry r
    have ne : references.map (·.manifestEntry.toList) ≠ [] := by simpa using some_there
    rw [lines_append_cons, split_eq_splitOn, String.toList_intercalate, entries]
    exact congrArg (· ++ lines rest) ((congrArg _ (List.splitOn_intercalate '\n' one ne)).trans kept)

lemma header_notMem_tableOf (bare : ∀ r ∈ references, isBareKey r.name = true) : header ∉ tableOf references := by
  rw [tableOf]
  split
  case isTrue => decide
  case isFalse =>
    intro there
    obtain ⟨r, hr, eq⟩ := List.mem_map.mp there
    obtain ⟨c, cs, line, key⟩ := Reference.exists_manifestEntry_eq_cons (bare r hr)
    rw [line] at eq
    obtain ⟨rfl, -⟩ := List.cons.inj eq
    cases key

/-- What a manifest says before its dependencies. -/
def preamble (crateName edition : String) : String :=
  "[package]\nname = \"" ++ crateName ++ "\"\nversion = \"0.0.0\"\nedition = \"" ++ edition ++
    "\"\npublish = false\n\n# Generated by microgen " ++ libraryVersion ++
    "\n\n[lib]\npath = \"src/lib.rs\"\ncrate-type = [\"cdylib\"]\n\n"

lemma isEnded_preamble (crateName edition : String) : IsEnded (preamble crateName edition).toList := by
  have last : "\n\n[lib]\npath = \"src/lib.rs\"\ncrate-type = [\"cdylib\"]\n\n".toList.getLast? = some '\n' := by
    decide +kernel
  unfold preamble
  exact .inr (by rw [String.toList_append, List.getLast?_append, last, Option.some_or])

lemma toList_manifestOf (crateName edition : String) (references : List Reference) :
    (manifestOf crateName edition references).toList = (preamble crateName edition).toList ++
      (header ++ '\n' :: ((dependencies references).toList ++ '\n' :: "\n[workspace]\n".toList)) := by
  have library : "\n\n[lib]\npath = \"src/lib.rs\"\ncrate-type = [\"cdylib\"]\n\n[dependencies]\n" =
      "\n\n[lib]\npath = \"src/lib.rs\"\ncrate-type = [\"cdylib\"]\n\n" ++ "[dependencies]\n" := by
    decide +kernel
  have opened : "[dependencies]\n".toList = header ++ ['\n'] := by decide +kernel
  have closed : "\n\n[workspace]\n".toList = '\n' :: "\n[workspace]\n".toList := by decide +kernel
  unfold manifestOf preamble
  simp only [library, String.toList_append, opened, closed, List.append_assoc, List.cons_append, List.nil_append]

/-- A manifest ends with its dependency table, an empty line and the header of the workspace. -/
lemma tableLines_manifestOf (crateName edition : String) (bare : ∀ r ∈ references, isBareKey r.name = true) :
    tableLines (manifestOf crateName edition references) = tableOf references ++ [[], "[workspace]".toList] := by
  have all : lines (manifestOf crateName edition references).toList =
      lines (preamble crateName edition).toList ++ header :: (tableOf references ++ [[], "[workspace]".toList]) := by
    rw [toList_manifestOf, lines_append (isEnded_preamble crateName edition), lines_cons_of_not_mem (by decide),
      lines_dependencies bare]
    rfl
  have others : ∀ l ∈ (tableOf references ++ [[], "[workspace]".toList]).reverse, decide (l ≠ header) = true := by
    intro l hl
    refine decide_eq_true fun eq => ?_
    obtain there | there := List.mem_append.mp (List.mem_reverse.mp (eq ▸ hl))
    · exact header_notMem_tableOf bare there
    · exact absurd there (by decide)
  rw [tableLines, all, List.reverse_append, List.reverse_cons, List.append_assoc, List.takeWhile_append_of_pos others]
  simp

/-- A manifest has one line for each reference, in their order. The line is read back as the reference if its path or
version holds portable characters only, and is no TOML otherwise, so the manifest names the references exactly if all of
them are portable. -/
theorem dependencies?_manifestOf (crateName edition : String) (references : List Reference)
    (bare : ∀ r ∈ references, isBareKey r.name = true) :
    tableLines (manifestOf crateName edition references) = tableOf references ++ [[], "[workspace]".toList] ∧
      (∀ r ∈ references, readDependency? r.manifestEntry.toList = if r.isPortable then some r else none) ∧
      dependencies? (manifestOf crateName edition references) =
        if references.all Reference.isPortable then some references else none := by
  have table := tableLines_manifestOf crateName edition bare
  refine ⟨table, fun r hr => Reference.readDependency?_manifestEntry (bare r hr), ?_⟩
  have closing : readTable? [[], "[workspace]".toList] = some [] := by decide +kernel
  rw [dependencies?, table, tableOf]
  split
  case isTrue empty =>
    obtain rfl := List.isEmpty_iff.mp empty
    decide +kernel
  case isFalse =>
    rw [Reference.readTable?_manifestEntries bare, closing, Option.map_some, List.append_nil]

/-- A path with quotes and line feeds, and a version. -/
theorem dependencies?_manifestOf_lineFeed :
    let references : List Reference := [⟨"microgen_sdk", .path "/opt/\"sdk\"\n\\"⟩, ⟨"serde", .version "1.0"⟩]
    (∀ r ∈ references, isBareKey r.name = true) ∧
      dependencies? (manifestOf "plugin" "2021" references) = some references := by
  intro references
  have bare : ∀ r ∈ references, isBareKey r.name = true := by decide +kernel
  have portable : references.all Reference.isPortable = true := by decide +kernel
  obtain ⟨-, -, read⟩ := dependencies?_manifestOf "plugin" "2021" references bare
  exact ⟨bare, read.trans (if_pos portable)⟩

/-- A combining character in a path, or a null character in a version, makes a manifest that is no TOML. -/
theorem not_dependencies?_combiningMark :
    let combining : Reference := ⟨"plain", .path "/opt/e\u0301"⟩
    let null : Reference := ⟨"plain", .version "1\x00"⟩
    isBareKey "plain" = true ∧ dependencies? (manifestOf "plugin" "2021" [combining]) = none ∧
      dependencies? (manifestOf "plugin" "2021" [null]) = none := by
  intro combining null
  have key : isBareKey "plain" = true := by decide +kernel
  have bare (source : ReferenceSource) : ∀ r ∈ [(⟨"plain", source⟩ : Reference)], isBareKey r.name = true :=
    List.forall_mem_singleton.mpr key
  refine ⟨key, ?_⟩
  rw [dependencies?, dependencies?, tableLines_manifestOf _ _ (bare _), tableLines_manifestOf _ _ (bare _)]
  decide +kernel

end CargoProject

end SourceGen
