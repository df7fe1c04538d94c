import Mathlib.Data.List.Forall2
import Mathlib.Tactic.Lemma
import SourceGen.Build.CargoMessage
import SourceGen.Proofs.Text.Split

/-!
# What the message stream of a build says

Each line of the stream says one thing about a crate or nothing, and a line that says nothing can be put in or left out
anywhere (`ParsedBuild.noteLine_of_isNoise`). What is kept of the lines read so far (`ParsedBuild.Reads`) is one entry for
each reported message, the library of the last line that names one, and the last word on success; this holds of the
empty build and is kept by each line, hence of every stream (`ParsedBuild.ofStream_reads`).
-/

namespace SourceGen

open SourceGen.Text

/-! ### First and last -/

/-- The first member of a list that has a property, if there is one. -/
inductive First {α : Type} (P : α → Prop) : List α → Option α → Prop
  | absent {xs : List α} (others : ∀ x ∈ xs, ¬ P x) : First P xs none
  | found {before after : List α} {x : α} (others : ∀ y ∈ before, ¬ P y) (here : P x) :
    First P (before ++ x :: after) (some x)

/-- The value that a relation gives for the last member of a list for which it gives one, if there is one. -/
inductive Last {α β : Type} (R : α → β → Prop) : List α → Option β → Prop
  | absent {xs : List α} (others : ∀ x ∈ xs, ∀ b, ¬ R x b) : Last R xs none
  | found {before after : List α} {x : α} {b : β} (here : R x b) (others : ∀ y ∈ after, ∀ b, ¬ R y b) :
    Last R (before ++ x :: after) (some b)

lemma first_find? {α : Type} (p : α → Bool) (xs : List α) : First (fun x => p x = true) xs (xs.find? p) := by
  cases eq : xs.find? p with
  | none => exact .absent (List.find?_eq_none.mp eq)
  | some x =>
    obtain ⟨here, before, after, rfl, others⟩ := List.find?_eq_some_iff_append.mp eq
    exact .found (fun y hy => by simpa using others y hy) here

namespace Last

variable {α β : Type} {R : α → β → Prop} {xs : List α} {x : α}

lemma concat_found {b : β} (here : R x b) : Last R (xs ++ [x]) (some b) :=
  .found here fun _ hy => absurd hy List.not_mem_nil

lemma concat_absent {b : Option β} (last : Last R xs b) (nothing : ∀ b, ¬ R x b) : Last R (xs ++ [x]) b := by
  cases last with
  | absent others => exact .absent (List.forall_mem_append.mpr ⟨others, List.forall_mem_singleton.mpr nothing⟩)
  | found here others =>
    rw [List.append_assoc, List.cons_append]
    exact .found here (List.forall_mem_append.mpr ⟨others, List.forall_mem_singleton.mpr nothing⟩)

end Last

/-! ### What a line says -/

/-- How grave the messages of a level are; messages of other levels are of no interest. -/
inductive HasLevel : String → MessageLevel → Prop
  | error : HasLevel "error" .error
  | internal : HasLevel "error: internal compiler error" .error
  | warning : HasLevel "warning" .warning

lemma RawMessage.level?_eq_some_iff {m : RawMessage} {level : MessageLevel} :
    m.level? = some level ↔ HasLevel m.level level := by
  rw [RawMessage.level?]
  constructor
  · intro eq
    split at eq
    case isTrue h =>
      cases eq
      obtain h | h : m.level = "error" ∨ m.level = "error: internal compiler error" := by simpa using h
      · exact h ▸ .error
      · exact h ▸ .internal
    case isFalse =>
      split at eq
      case isTrue h =>
        cases eq
        exact h ▸ .warning
      case isFalse => cases eq
  · generalize m.level = text
    rintro (_ | _ | _) <;> rfl

namespace ParsedBuild

variable {crateName : String} {line : List Char} {p : ParsedBuild}

/-- Whether a line is a message of the compiler about the crate that is reported as the given entry, located at its first
primary span. -/
inductive Reports (crateName : String) (line : List Char) : CompilerMessage → Prop
  | intro {target : CargoTarget} {m : RawMessage} {level : MessageLevel} {span : Option CargoSpan}
    (decoded : CargoMessage.ofLine? line = some (.compilerMessage target m)) (own : target.name = crateName)
    (grave : HasLevel m.level level) (place : First (fun s => s.isPrimary = true) m.spans span) :
    Reports crateName line ⟨m.code, level, m.message, m.rendered,
      span.map fun s => ⟨crateName ++ "/" ++ s.fileName, s.line, s.column⟩⟩

/-- Whether a line tells which files were made for the dynamic library of the crate. -/
def MakesLibrary (crateName : String) (line : List Char) (fileNames : List String) : Prop :=
  ∃ target, CargoMessage.ofLine? line = some (.compilerArtifact target fileNames) ∧ target.name = crateName ∧
    "cdylib" ∈ target.kind

/-- Whether a line tells how the build ended. -/
def Finishes (line : List Char) (success : Bool) : Prop :=
  CargoMessage.ofLine? line = some (.buildFinished success)

/-- Whether a line says nothing about a crate. -/
inductive IsNoise (crateName : String) (line : List Char) : Prop
  | noBrace (other : line.head? ≠ some '{')
  | undecoded (failed : (Json.read? line).bind CargoMessage.ofValue? = none)
  | otherMessage {target : CargoTarget} {m : RawMessage}
    (decoded : CargoMessage.ofLine? line = some (.compilerMessage target m)) (other : target.name ≠ crateName)
  | otherArtifact {target : CargoTarget} {fileNames : List String}
    (decoded : CargoMessage.ofLine? line = some (.compilerArtifact target fileNames)) (other : target.name ≠ crateName)
  | /-- A message of a level that is of no interest. -/
    slight {target : CargoTarget} {m : RawMessage}
    (decoded : CargoMessage.ofLine? line = some (.compilerMessage target m)) (other : ∀ level, ¬ HasLevel m.level level)
  | /-- Files of the crate that are no dynamic library. -/
    otherKind {target : CargoTarget} {fileNames : List String}
    (decoded : CargoMessage.ofLine? line = some (.compilerArtifact target fileNames)) (other : "cdylib" ∉ target.kind)
  | otherReason (decoded : CargoMessage.ofLine? line = some .other)

/-- Takes note of a line. -/
def noteLine (crateName : String) (p : ParsedBuild) (line : List Char) : ParsedBuild :=
  match CargoMessage.ofLine? line with
  | some m => p.note crateName m
  | none => p

lemma ofStream_eq (stream crateName : String) :
    ofStream stream crateName = (lines stream.toList).foldl (noteLine crateName) empty := by
  rw [ofStream, CargoMessage.ofStream, List.foldl_filterMap]
  congr 1
  funext p line
  rw [noteLine]
  cases CargoMessage.ofLine? line <;> rfl

lemma ofLine?_eq_none_iff : CargoMessage.ofLine? line = none ↔
    line.head? ≠ some '{' ∨ (Json.read? line).bind CargoMessage.ofValue? = none := by
  rw [CargoMessage.ofLine?]
  split <;> simp_all

/-- Whether a line is a message of the compiler about the crate, of a level that is of interest. -/
def isReported (crateName : String) (line : List Char) : Bool :=
  match CargoMessage.ofLine? line with
  | some (.compilerMessage target m) =>
    target.name = crateName && ["error", "error: internal compiler error", "warning"].contains m.level
  | _ => false

/-- Noise changes nothing. -/
lemma noteLine_of_isNoise (noise : IsNoise crateName line) : noteLine crateName p line = p := by
  have nothing (undecoded : CargoMessage.ofLine? line = none) : noteLine crateName p line = p := by
    simp only [noteLine, undecoded]
  cases noise with
  | noBrace other => exact nothing (ofLine?_eq_none_iff.mpr (.inl other))
  | undecoded failed => exact nothing (ofLine?_eq_none_iff.mpr (.inr failed))
  | otherMessage decoded other => simp only [noteLine, decoded, note, if_neg other]
  | otherArtifact decoded other => simp [noteLine, decoded, note, other]
  | @slight target m decoded other =>
    have none : m.level? = none :=
      Option.eq_none_iff_forall_not_mem.mpr fun level h => other level (RawMessage.level?_eq_some_iff.mp h)
    simp [noteLine, decoded, note, RawMessage.toMessage?, none]
  | otherKind decoded other => simp [noteLine, decoded, note, other]
  | otherReason decoded => simp only [noteLine, decoded, note]

lemma exists_hasLevel_iff (level : String) :
    (∃ l, HasLevel level l) ↔ ["error", "error: internal compiler error", "warning"].contains level = true := by
  simp only [List.contains_cons, List.contains_nil, Bool.or_false, Bool.or_eq_true, beq_iff_eq]
  constructor
  · rintro ⟨_, _ | _ | _⟩ <;> simp
  · rintro (rfl | rfl | rfl)
    exacts [⟨_, .error⟩, ⟨_, .internal⟩, ⟨_, .warning⟩]

/-- A reported message adds one entry, and no other line adds any. -/
lemma messages_noteLine (crateName : String) (p : ParsedBuild) (line : List Char) :
    (isReported crateName line = true ∧ ∃ entry, Reports crateName line entry ∧
      (noteLine crateName p line).messages = p.messages ++ [entry]) ∨
    isReported crateName line = false ∧ (noteLine crateName p line).messages = p.messages := by
  cases decoded : CargoMessage.ofLine? line with
  | none => exact .inr ⟨by simp only [isReported, decoded], by simp only [noteLine, decoded]⟩
  | some message =>
    cases message with
    | compilerMessage target m =>
      by_cases own : target.name = crateName
      · cases level : m.level? with
        | none =>
          have slight : ["error", "error: internal compiler error", "warning"].contains m.level = false := by
            rw [← Bool.not_eq_true, ← exists_hasLevel_iff]
            rintro ⟨l, grave⟩
            rw [RawMessage.level?_eq_some_iff.mpr grave] at level
            cases level
          refine .inr ⟨?_, ?_⟩
          · simp only [isReported, decoded, own, slight, Bool.and_false]
          · simp [noteLine, decoded, note, RawMessage.toMessage?, level]
        | some l =>
          have grave := RawMessage.level?_eq_some_iff.mp level
          have contained := (exists_hasLevel_iff m.level).mp ⟨l, grave⟩
          refine .inl ⟨?_, _, .intro decoded own grave (first_find? _ _), ?_⟩
          · simp only [isReported, decoded, own, contained, decide_true, Bool.and_true]
          · simp [noteLine, decoded, note, own, RawMessage.toMessage?, level, RawMessage.location?]
      · exact .inr ⟨by simp [isReported, decoded, own], by simp [noteLine, decoded, note, own]⟩
    | compilerArtifact target fileNames =>
      refine .inr ⟨by simp only [isReported, decoded], ?_⟩
      simp only [noteLine, decoded, note]
      split <;> rfl
    | buildFinished success => exact .inr ⟨by simp only [isReported, decoded], by simp only [noteLine, decoded, note]⟩
    | other => exact .inr ⟨by simp only [isReported, decoded], by simp only [noteLine, decoded, note]⟩

/-- The files of the library replace what was there, and no other line changes it. -/
lemma artifact_noteLine (crateName : String) (p : ParsedBuild) (line : List Char) :
    (∃ fileNames, MakesLibrary crateName line fileNames ∧
      (noteLine crateName p line).artifact = library? fileNames) ∨
    (∀ fileNames, ¬ MakesLibrary crateName line fileNames) ∧ (noteLine crateName p line).artifact = p.artifact := by
  cases decoded : CargoMessage.ofLine? line with
  | none => exact .inr ⟨by simp [MakesLibrary, decoded], by simp only [noteLine, decoded]⟩
  | some message =>
    cases message with
    | compilerMessage target m =>
      refine .inr ⟨by simp [MakesLibrary, decoded], ?_⟩
      simp only [noteLine, decoded, note]
      split <;> rfl
    | compilerArtifact target fileNames =>
      by_cases own : target.name = crateName ∧ "cdylib" ∈ target.kind
      · exact .inl ⟨fileNames, ⟨target, decoded, own⟩, by simp [noteLine, decoded, note, own]⟩
      · refine .inr ⟨?_, by simp [noteLine, decoded, note, own]⟩
        rintro fileNames' ⟨target', decoded', own'⟩
        rw [decoded] at decoded'
        cases decoded'
        exact own own'
    | buildFinished success => exact .inr ⟨by simp [MakesLibrary, decoded], by simp only [noteLine, decoded, note]⟩
    | other => exact .inr ⟨by simp [MakesLibrary, decoded], by simp only [noteLine, decoded, note]⟩

/-- The end of the build replaces what was said about it, and no other line changes it. -/
lemma success_noteLine (crateName : String) (p : ParsedBuild) (line : List Char) :
    (∃ success, Finishes line success ∧ (noteLine crateName p line).success = some success) ∨
    (∀ success, ¬ Finishes line success) ∧ (noteLine crateName p line).success = p.success := by
  cases decoded : CargoMessage.ofLine? line with
  | none => exact .inr ⟨by simp [Finishes, decoded], by simp only [noteLine, decoded]⟩
  | some message =>
    cases message with
    | buildFinished success => exact .inl ⟨success, decoded, by simp only [noteLine, decoded, note]⟩
    | compilerMessage target m =>
      refine .inr ⟨by simp [Finishes, decoded], ?_⟩
      simp only [noteLine, decoded, note]
      split <;> rfl
    | compilerArtifact target fileNames =>
      refine .inr ⟨by simp [Finishes, decoded], ?_⟩
      simp only [noteLine, decoded, note]
      split <;> rfl
    | other => exact .inr ⟨by simp [Finishes, decoded], by simp only [noteLine, decoded, note]⟩

/-! ### What the lines so far say -/

/-- What is kept of lines: one entry for each reported message, in their order, the first library among the files of the
last line that tells them, and what the last line about the end of the build says. -/
structure Reads (crateName : String) (ls : List (List Char)) (p : ParsedBuild) : Prop where
  messages : List.Forall₂ (Reports crateName) (ls.filter (isReported crateName)) p.messages
  artifact : ∃ fileNames, Last (MakesLibrary crateName) ls fileNames ∧
    First (fun f => SourcePath.extension? f = some "so") (fileNames.getD []) p.artifact
  success : Last Finishes ls p.success

lemma reads_empty (crateName : String) : Reads crateName [] empty where
  messages := .nil
  artifact := ⟨none, .absent fun _ h => absurd h List.not_mem_nil, .absent fun _ h => absurd h List.not_mem_nil⟩
  success := .absent fun _ h => absurd h List.not_mem_nil

lemma first_library? (fileNames : List String) :
    First (fun f => SourcePath.extension? f = some "so") fileNames (library? fileNames) := by
  have first := first_find? (fun f => decide (SourcePath.extension? f = some libraryExtension)) fileNames
  simp only [decide_eq_true_eq] at first
  exact first

/-- A line is read on top of those before it. -/
lemma Reads.noteLine {ls : List (List Char)} (reads : Reads crateName ls p) (line : List Char) :
    Reads crateName (ls ++ [line]) (noteLine crateName p line) where
  messages := by
    rw [List.filter_append]
    obtain ⟨reported, entry, reports, eq⟩ | ⟨unreported, eq⟩ := messages_noteLine crateName p line
    · rw [List.filter_singleton, reported, eq]
      exact List.rel_append reads.messages (.cons reports .nil)
    · rw [List.filter_singleton, unreported, eq]
      exact (List.append_nil _).symm ▸ reads.messages
  artifact := by
    obtain ⟨fileNames, last, first⟩ := reads.artifact
    obtain ⟨fileNames', makes, eq⟩ | ⟨nothing, eq⟩ := artifact_noteLine crateName p line
    · exact ⟨some fileNames', .concat_found makes, eq ▸ first_library? fileNames'⟩
    · exact ⟨fileNames, last.concat_absent nothing, eq ▸ first⟩
  success := by
    obtain ⟨success, finishes, eq⟩ | ⟨nothing, eq⟩ := success_noteLine crateName p line
    · exact eq ▸ .concat_found finishes
    · exact eq ▸ reads.success.concat_absent nothing

lemma reads_foldl {ls : List (List Char)} (reads : Reads crateName ls p) (more : List (List Char)) :
    Reads crateName (ls ++ more) (more.foldl (ParsedBuild.noteLine crateName) p) := by
  induction more generalizing ls p with
  | nil => exact (List.append_nil ls).symm ▸ reads
  | cons line more ih =>
    have rest := ih (reads.noteLine line)
    rwa [List.append_assoc, List.singleton_append] at rest

lemma foldl_noteLine_of_isNoise (noise : IsNoise crateName line) (before after : List (List Char)) :
    (before ++ line :: after).foldl (ParsedBuild.noteLine crateName) p =
      (before ++ after).foldl (ParsedBuild.noteLine crateName) p := by
  rw [List.foldl_append, List.foldl_cons, noteLine_of_isNoise noise, ← List.foldl_append]

/-- A stream is read line by line, and noise has no say: it can be put in behind the end of any line, or left out. What
is kept of a stream is one entry for each reported message, in their order and at its first primary span, the library of
the last line that names one, and the last word on success. -/
theorem ofStream_reads (crateName : String) :
    (∀ stream stream' : String, ∀ before line after, lines stream.toList = before ++ line :: after →
      IsNoise crateName line → lines stream'.toList = before ++ after →
        ofStream stream crateName = ofStream stream' crateName) ∧
      (∀ before line after : List Char, IsEnded before → '\n' ∉ line → IsNoise crateName (withoutReturn line) →
        ofStream (String.ofList (before ++ line ++ '\n' :: after)) crateName =
          ofStream (String.ofList (before ++ after)) crateName) ∧
      ∀ stream, Reads crateName (lines stream.toList) (ofStream stream crateName) := by
  refine ⟨fun stream stream' before line after there noise without => ?_, fun before line after ended one noise => ?_,
    fun stream => ?_⟩
  · rw [ofStream_eq, ofStream_eq, there, without, foldl_noteLine_of_isNoise noise]
  · rw [ofStream_eq, ofStream_eq, String.toList_ofList, String.toList_ofList, lines_insert ended one,
      lines_append ended, foldl_noteLine_of_isNoise noise]
  · rw [ofStream_eq]
    exact reads_foldl (reads_empty crateName) (lines stream.toList)

/-- A warning about another crate behind the end of the build is passed over. -/
theorem ofStream_reads_otherCrate :
    let finished := "\x7b\"reason\":\"build-finished\",\"success\":true\x7d\n"
    let line := "\x7b\"reason\":\"compiler-message\",\"target\":\x7b\"name\":\"serde\"\x7d,\"message\":" ++
      "\x7b\"message\":\"unused\",\"level\":\"warning\"\x7d\x7d"
    IsEnded finished.toList ∧ '\n' ∉ line.toList ∧ IsNoise "plugin" (withoutReturn line.toList) ∧
      ofStream (String.ofList (finished.toList ++ line.toList ++ ['\n'])) "plugin" = ⟨[], none, some true⟩ := by
  intro finished line
  have ended : IsEnded finished.toList := .inr (by decide +kernel)
  have one : '\n' ∉ line.toList := by decide +kernel
  have decoded : CargoMessage.ofLine? (withoutReturn line.toList) =
      some (.compilerMessage ⟨"serde", []⟩ ⟨"unused", none, "warning", [], none⟩) := by
    decide +kernel
  have noise : IsNoise "plugin" (withoutReturn line.toList) := .otherMessage decoded (by decide)
  refine ⟨ended, one, noise, ?_⟩
  rw [(ofStream_reads "plugin").2.1 finished.toList line.toList [] ended one noise]
  decide +kernel

end ParsedBuild

end SourceGen
