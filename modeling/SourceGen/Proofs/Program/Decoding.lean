import SourceGen.Proofs.Parser.ReadFiles
import SourceGen.Proofs.Program.Fingerprint
import SourceGen.Proofs.Resolution.Paths
import SourceGen.Proofs.Syntax.Ending

/-!
# Reading summaries back

The token summary of a program is made of three texts for each unit and of one line for each reference, one behind the
other. No line of the dependency table is the text of a file: the text ends in `;`, in a square bracket or in braces,
and if these end like those of a path, there is no `=` before them (`ParsedText.text_ne_manifestEntry`). So the summary
tells where the units end, and it determines their paths, their modules and their tokens, and the lines of the
references (`Program.decodes_summaries`).
-/

namespace SourceGen

open SourceGen.Text

/-- The text of a parsed file is no line of the dependency table. -/
lemma ParsedText.text_ne_manifestEntry {text : String} {parsed : ParsedText} (h : parse text = .ok parsed)
    (r : Reference) : parsed.file.text ≠ r.manifestEntry := by
  have sound : LexemeKind.AllSound parsed.file.lexemes := allSound_lexemes h
  have ends : ∀ i ∈ parsed.file.items, i.Ends := (lexemes_of_parse h).2.2.2
  intro eq
  have chars := congrArg String.toList eq
  obtain ⟨name, path | requirement⟩ := r
  · rw [Reference.manifestEntry_path] at chars
    rcases SourceFile.finished ends sound with empty | ⟨ps, printed, finished, sound⟩
    · simp [empty] at chars
    · rw [printed] at chars
      exact finished.ne_path sound name.toList path (by simpa using chars)
  · rw [Reference.manifestEntry_version, toList_quoted] at chars
    rcases SourceFile.finished ends sound with empty | ⟨ps, printed, finished, -⟩
    · simp [empty] at chars
    · rw [printed] at chars
      obtain ⟨c, closing, last⟩ := finished.getLast?_join true
      rw [Piece.join] at chars
      rw [chars, ← List.cons_append, ← List.cons_append, ← List.append_assoc, List.getLast?_concat] at last
      cases last
      simp at closing

/-- Names that are not empty and have no colon are read off their join. -/
lemma joinPath_injective {names names' : List String} (plain : ∀ s ∈ names, s ≠ "" ∧ ':' ∉ s.toList)
    (plain' : ∀ s ∈ names', s ≠ "" ∧ ':' ∉ s.toList) (same : joinPath names = joinPath names') : names = names' := by
  have some_there {n : String} {ns : List String} (there : n ≠ "") : joinPath (n :: ns) ≠ joinPath [] := by
    intro eq
    have chars := congrArg String.toList eq
    rw [Model.toList_joinPath] at chars
    exact there (String.toList_eq_nil_iff.mp (List.append_eq_nil_iff.mp chars).1)
  cases names with
  | nil =>
    cases names' with
    | nil => rfl
    | cons n ns => exact absurd same.symm (some_there (plain' n List.mem_cons_self).1)
  | cons n ns =>
    cases names' with
    | nil => exact absurd same (some_there (plain n List.mem_cons_self).1)
    | cons n' ns' => exact Model.eq_of_joinPath (fun s hs => (plain s hs).2) (fun s hs => (plain' s hs).2) same

/-- Whether units have the same tokens at the same place. -/
structure SourceUnit.SameTokens (u v : SourceUnit) : Prop where
  path : u.path = v.path
  modulePath : u.modulePath = v.modulePath
  tokens : u.parsed.file.text = v.parsed.file.text

namespace Program

variable {δ : Type} [Digest δ]

/-- The texts that the token summary of units and references is made of. -/
def summarized (us : List SourceUnit) (rs : List Reference) : List String :=
  us.flatMap (fun u => [u.path, joinPath u.modulePath, u.parsed.file.text]) ++ rs.map Reference.manifestEntry

lemma fingerprintParts_eq (p : Program) :
    (p.fingerprintParts : List δ) = (summarized p.units p.references).map Digest.ofText := by
  simp [fingerprintParts, summarized, List.map_flatMap, SourceUnit.fingerprint]

/-- A row of references does not stand for a unit. -/
lemma references_ne {v : SourceUnit} {vs : List SourceUnit} {rs ss : List Reference}
    (parsed : ParsedText.parse v.text = .ok v.parsed) : summarized [] rs ≠ summarized (v :: vs) ss := by
  intro eq
  match rs with
  | [] | [_] | [_, _] => simpa [summarized] using congrArg List.length eq
  | _ :: _ :: r :: rs =>
    obtain ⟨-, eq⟩ := List.cons.inj eq
    obtain ⟨-, eq⟩ := List.cons.inj eq
    exact ParsedText.text_ne_manifestEntry parsed r (List.cons.inj eq).1.symm

/-- The texts of a summary tell the units from the references. -/
lemma sameTokens_of_summarized {us vs : List SourceUnit} {rs ss : List Reference}
    (parsed : ∀ u ∈ us ++ vs, ParsedText.parse u.text = .ok u.parsed)
    (plain : ∀ u ∈ us ++ vs, ∀ s ∈ u.modulePath, s ≠ "" ∧ ':' ∉ s.toList)
    (eq : summarized us rs = summarized vs ss) :
    List.Forall₂ SourceUnit.SameTokens us vs ∧ rs.map Reference.manifestEntry = ss.map Reference.manifestEntry := by
  induction us generalizing vs with
  | nil =>
    cases vs with
    | nil => exact ⟨.nil, eq⟩
    | cons v vs => exact absurd eq (references_ne (parsed v (by simp)))
  | cons u us ih =>
    cases vs with
    | nil => exact absurd eq.symm (references_ne (parsed u (by simp)))
    | cons v vs =>
      obtain ⟨path, eq⟩ := List.cons.inj eq
      obtain ⟨module, eq⟩ := List.cons.inj eq
      obtain ⟨tokens, eq⟩ := List.cons.inj eq
      have inside : us ++ vs ⊆ u :: us ++ v :: vs := by
        intro w hw
        simp only [List.mem_append, List.mem_cons] at hw ⊢
        tauto
      obtain ⟨rest, lines⟩ := ih (fun w hw => parsed w (inside hw)) (fun w hw => plain w (inside hw)) eq
      exact ⟨.cons ⟨path, joinPath_injective (plain u (by simp)) (plain v (by simp)) module, tokens⟩ rest, lines⟩

/-- The summaries of paths and texts tell the units. -/
lemma forall₂_of_layout (inj : Digest.Injective δ) {us vs : List SourceUnit}
    (eq : us.flatMap (fun u => [(Digest.ofText u.path : δ), Digest.ofText u.text]) =
      vs.flatMap fun v => [Digest.ofText v.path, Digest.ofText v.text]) :
    List.Forall₂ (fun u v => u.path = v.path ∧ u.text = v.text) us vs := by
  induction us generalizing vs with
  | nil =>
    cases vs with
    | nil => exact .nil
    | cons v vs => cases eq
  | cons u us ih =>
    cases vs with
    | nil => cases eq
    | cons v vs =>
      obtain ⟨path, eq⟩ := List.cons.inj eq
      obtain ⟨text, eq⟩ := List.cons.inj eq
      exact .cons ⟨inj.ofText path, inj.ofText text⟩ (ih eq)

/-- The token summary of a program determines the paths, the modules and the tokens of its units and the lines of its
references, if no step of a module path is empty or has a colon; a line determines its reference. The layout summary
determines the paths and the texts. -/
theorem decodes_summaries (inj : Digest.Injective δ) :
    (∀ {b c : ProgramBuilder} {p q : Program}, b.build = .ok p → c.build = .ok q →
      (∀ u ∈ p.units ++ q.units, ∀ s ∈ u.modulePath, s ≠ "" ∧ ':' ∉ s.toList) →
      (p.fingerprint : δ) = q.fingerprint →
        List.Forall₂ SourceUnit.SameTokens p.units q.units ∧
          p.references.map Reference.manifestEntry = q.references.map Reference.manifestEntry) ∧
    (∀ r s : Reference, r.manifestEntry = s.manifestEntry → r = s) ∧
    ∀ p q : Program, (p.layout : δ) = q.layout →
      List.Forall₂ (fun u v => u.path = v.path ∧ u.text = v.text) p.units q.units := by
  refine ⟨fun {b c p q} built built' plain same => ?_, fun r s => @Reference.manifestEntry_injective r s,
    fun p q same => ?_⟩
  · have parts := inj.combine same
    rw [fingerprintParts_eq, fingerprintParts_eq] at parts
    refine sameTokens_of_summarized (fun u hu => ?_) plain ((List.map_injective_iff.mpr inj.ofText) parts)
    rcases List.mem_append.mp hu with hu | hu
    · exact ((eq_of_build built).2.2 u hu).1
    · exact ((eq_of_build built').2.2 u hu).1
  · exact forall₂_of_layout inj (inj.combine same)

/-- Texts that differ in blanks only have one token summary: it determines the tokens, and not the texts. -/
theorem decodes_respaced :
    let b (text : String) := (ProgramBuilder.new "host" "/sdk").unit "src/a.rs" text
    ∃ p q : Program, (b "pub struct A;").build = .ok p ∧ (b "pub  struct A ;").build = .ok q ∧
      (∀ u ∈ p.units ++ q.units, ∀ s ∈ u.modulePath, s ≠ "" ∧ ':' ∉ s.toList) ∧
      (p.fingerprint : Transcript) = q.fingerprint ∧ List.Forall₂ SourceUnit.SameTokens p.units q.units ∧
      p.references.map Reference.manifestEntry = q.references.map Reference.manifestEntry ∧
      (p.layout : Transcript) ≠ q.layout := by
  intro b
  have computed : (b "pub struct A;").build.isOk = true ∧ (b "pub  struct A ;").build.isOk = true ∧
      let p := (b "pub struct A;").build.toOption.getD ⟨"host", [], []⟩
      let q := (b "pub  struct A ;").build.toOption.getD ⟨"host", [], []⟩
      (∀ u ∈ p.units ++ q.units, ∀ s ∈ u.modulePath, s ≠ "" ∧ ':' ∉ s.toList) ∧
        (p.fingerprint : Transcript) = q.fingerprint ∧ (p.layout : Transcript) ≠ q.layout := by
    decide +kernel
  cases built : (b "pub struct A;").build with
  | error e =>
    rw [built] at computed
    cases computed.1
  | ok p =>
    cases built' : (b "pub  struct A ;").build with
    | error e =>
      rw [built'] at computed
      cases computed.2.1
    | ok q =>
      rw [built, built'] at computed
      obtain ⟨-, -, plain, tokens, texts⟩ := computed
      obtain ⟨units, lines⟩ := (decodes_summaries Transcript.injective).1 built built' plain tokens
      exact ⟨p, q, rfl, rfl, plain, tokens, units, lines, texts⟩

end Program

end SourceGen
