import Mathlib.Data.List.Forall2
import SourceGen.Program.Basic
import SourceGen.Proofs.Except
import SourceGen.Proofs.Text.Quoted

/-!
# What summaries tell apart

Under a digest without collisions, summaries stand for what they are made of. A line of the dependency table
determines its reference (`Reference.manifestEntry_injective`), so the summary of references determines
them, and the token summary and the layout summary of a program together determine its texts and its
references, among programs that are parsed from their texts (`Program.sameTexts_of_summaries`), but neither the
name of the crate nor the steps of a module path. Among programs of one crate they determine the program
(`Program.eq_of_summaries`). Programs that were built from units at their places are such programs
(`Program.oneCrate_of_build`).
-/

namespace SourceGen

open SourceGen.Text

/-- Digests that never give two texts, or two lists, one summary. -/
structure Digest.Injective (δ : Type) [Digest δ] : Prop where
  ofText : Function.Injective (Digest.ofText : String → δ)
  combine : Function.Injective (Digest.combine : List δ → δ)

/-- A summary that forgets nothing: a text, or a list of summaries. -/
inductive Transcript
  | text (s : String)
  | nil
  | cons (first rest : Transcript)
deriving DecidableEq

namespace Transcript

instance : Digest Transcript := ⟨.text, List.foldr .cons .nil⟩

/-- Summaries that forget nothing tell all texts and all lists apart. -/
lemma injective : Digest.Injective Transcript where
  ofText := fun _ _ eq => Transcript.text.inj eq
  combine := by
    intro xs ys eq
    induction xs generalizing ys with
    | nil =>
      cases ys with
      | nil => rfl
      | cons y ys => cases eq
    | cons x xs ih =>
      cases ys with
      | nil => cases eq
      | cons y ys =>
        obtain ⟨first, rest⟩ := Transcript.cons.inj eq
        rw [first, ih rest]

end Transcript

namespace Reference

lemma manifestEntry_path (name path : String) :
    (manifestEntry ⟨name, .path path⟩).toList =
      (name.toList ++ " = \x7b path =".toList) ++ ' ' :: (quoted path).toList ++ [' ', '\x7d'] := by
  simp [manifestEntry, String.toList_append]

lemma manifestEntry_version (name requirement : String) :
    (manifestEntry ⟨name, .version requirement⟩).toList =
      (name.toList ++ " =".toList) ++ ' ' :: (quoted requirement).toList := by
  simp [manifestEntry, String.toList_append]

/-- The lines of the two kinds end differently. -/
lemma manifestEntry_ne (name name' path requirement : String) :
    manifestEntry ⟨name, .path path⟩ ≠ manifestEntry ⟨name', .version requirement⟩ := by
  intro eq
  have chars := congrArg String.toList eq
  have brace : ∃ x, (manifestEntry ⟨name, .path path⟩).toList = x ++ ['\x7d'] := by
    rw [manifestEntry_path]
    exact ⟨_ ++ [' '], (List.append_assoc _ [' '] ['\x7d']).symm⟩
  have quote : ∃ y, (manifestEntry ⟨name', .version requirement⟩).toList = y ++ ['"'] := by
    rw [manifestEntry_version, toList_quoted]
    exact ⟨name'.toList ++ " =".toList ++ ' ' :: '"' :: requirement.toList.flatMap escapeChar, by simp⟩
  obtain ⟨x, brace⟩ := brace
  obtain ⟨y, quote⟩ := quote
  rw [brace, quote] at chars
  cases (List.append_inj' chars rfl).2

/-- References with one line in the dependency table are equal. -/
lemma manifestEntry_injective : Function.Injective manifestEntry := by
  intro r s eq
  have chars := congrArg String.toList eq
  obtain ⟨name, source⟩ := r
  obtain ⟨name', source'⟩ := s
  cases source with
  | path path =>
    cases source' with
    | path path' =>
      rw [manifestEntry_path, manifestEntry_path] at chars
      obtain ⟨names, rfl⟩ := blank_quoted_inj (List.append_cancel_right chars)
      obtain rfl := String.toList_inj.mp (List.append_cancel_right names)
      rfl
    | version requirement => exact absurd eq (manifestEntry_ne name name' path requirement)
  | version requirement =>
    cases source' with
    | path path => exact absurd eq.symm (manifestEntry_ne name' name path requirement)
    | version requirement' =>
      rw [manifestEntry_version, manifestEntry_version] at chars
      obtain ⟨names, rfl⟩ := blank_quoted_inj chars
      obtain rfl := String.toList_inj.mp (List.append_cancel_right names)
      rfl

end Reference

namespace ProgramBuilder

lemma parseUnit_eq_ok_iff {w : PendingUnit} {u : SourceUnit} :
    parseUnit w = .ok u ↔
      w.path = u.path ∧ w.modulePath = u.modulePath ∧ w.text = u.text ∧ ParsedText.parse u.text = .ok u.parsed := by
  rw [parseUnit]
  constructor
  · intro h
    cases parsed : ParsedText.parse w.text with
    | error position =>
      rw [parsed] at h
      cases h
    | ok tree =>
      rw [parsed] at h
      cases h
      exact ⟨rfl, rfl, rfl, parsed⟩
  · rintro ⟨path, modulePath, text, parsed⟩
    rw [text, parsed, path, modulePath]

/-- A program is built exactly if its units can be parsed. -/
lemma build_eq_ok_iff {b : ProgramBuilder} {p : Program} :
    b.build = .ok p ↔ p.crateName = b.crateName ∧ p.references = b.allReferences ∧
      List.Forall₂ (fun w u => parseUnit w = .ok u) b.units p.units := by
  rw [build, ← mapM_eq_ok_iff]
  constructor
  · intro h
    obtain ⟨us, units, eq⟩ := ok_of_bind h
    cases eq
    exact ⟨rfl, rfl, units⟩
  · rintro ⟨name, references, units⟩
    rw [units, ← name, ← references]
    rfl

end ProgramBuilder

/-- Whether units have the same text at the same path. Of their modules only the joined names need to be the same. -/
structure SourceUnit.SameText (u v : SourceUnit) : Prop where
  path : u.path = v.path
  module : joinPath u.modulePath = joinPath v.modulePath
  text : u.text = v.text
  parsed : u.parsed = v.parsed

/-- Whether programs have the same texts and references. The names of their crates need not be the same. -/
structure Program.SameTexts (p q : Program) : Prop where
  units : List.Forall₂ SourceUnit.SameText p.units q.units
  references : p.references = q.references

namespace Program

variable {δ : Type} [Digest δ]

/-- Whether the units of a program were parsed from their texts. -/
def IsParsed (p : Program) : Prop := ∀ u ∈ p.units, ParsedText.parse u.text = .ok u.parsed

/-- Whether units of two programs that have one path define one module. -/
def SamePlaces (p q : Program) : Prop :=
  ∀ u ∈ p.units, ∀ v ∈ q.units,
    SourcePath.parts u.path = SourcePath.parts v.path → u.modulePath = v.modulePath

/-- Units that were parsed are parsed from their texts, and stay where they were put. -/
lemma parsed_of_forall₂ {pending : List PendingUnit} {units : List SourceUnit}
    (rows : List.Forall₂ (fun w u => ProgramBuilder.parseUnit w = .ok u) pending units) :
    ∀ u ∈ units, ParsedText.parse u.text = .ok u.parsed ∧
      ∃ w ∈ pending, w.path = u.path ∧ w.modulePath = u.modulePath := by
  induction rows with
  | nil => exact List.forall_mem_nil _
  | @cons w u ws us first rest ih =>
    obtain ⟨path, modulePath, -, parsed⟩ := ProgramBuilder.parseUnit_eq_ok_iff.mp first
    refine List.forall_mem_cons.mpr ⟨⟨parsed, w, List.mem_cons_self, path, modulePath⟩, fun v hv => ?_⟩
    obtain ⟨parsed, x, hx, same⟩ := ih v hv
    exact ⟨parsed, x, List.mem_cons_of_mem w hx, same⟩

/-- A program that was built has the name, the references and the units of its builder, parsed and where they
were put. -/
lemma eq_of_build {b : ProgramBuilder} {p : Program} (h : b.build = .ok p) :
    p.crateName = b.crateName ∧ p.references = b.allReferences ∧
      ∀ u ∈ p.units, ParsedText.parse u.text = .ok u.parsed ∧
        ∃ w ∈ b.units, w.path = u.path ∧ w.modulePath = u.modulePath := by
  obtain ⟨name, references, units⟩ := ProgramBuilder.build_eq_ok_iff.mp h
  exact ⟨name, references, parsed_of_forall₂ units⟩

/-- Programs of one crate that reference the crate of the markers, are parsed from their texts, and have
one module for one path. -/
structure OneCrate (known : List Program) : Prop where
  name : ∀ p ∈ known, ∀ q ∈ known, p.crateName = q.crateName
  markers : ∀ p ∈ known, p.references.any (·.name = sdkCrate) = true
  parsed : ∀ p ∈ known, p.IsParsed
  places : ∀ p ∈ known, ∀ q ∈ known, p.SamePlaces q

/-- The summaries of the lines of references determine the references. -/
lemma references_eq_of_lines (inj : Digest.Injective δ) {rs ss : List Reference}
    (lines : rs.map (fun r => (Digest.ofText r.manifestEntry : δ)) =
      ss.map fun s => Digest.ofText s.manifestEntry) : rs = ss :=
  List.map_inj_right (fun _ _ eq => Reference.manifestEntry_injective (inj.ofText eq)) |>.mp lines

/-- Units that were parsed from their texts have the same texts, row by row, if the summaries of the rows are the
same; what follows the summaries of their tokens is the same, too. -/
lemma forall₂_sameText (inj : Digest.Injective δ) {us vs : List SourceUnit} {xs ys : List δ}
    (parsed : ∀ u ∈ us, ParsedText.parse u.text = .ok u.parsed)
    (parsed' : ∀ v ∈ vs, ParsedText.parse v.text = .ok v.parsed)
    (texts : us.flatMap (fun u => [(Digest.ofText u.path : δ), Digest.ofText u.text]) =
      vs.flatMap fun v => [Digest.ofText v.path, Digest.ofText v.text])
    (tokens : us.flatMap (fun u =>
        [(Digest.ofText u.path : δ), Digest.ofText (joinPath u.modulePath), u.fingerprint]) ++ xs =
      vs.flatMap (fun v => [Digest.ofText v.path, Digest.ofText (joinPath v.modulePath), v.fingerprint]) ++ ys) :
    List.Forall₂ SourceUnit.SameText us vs ∧ xs = ys := by
  induction us generalizing vs with
  | nil =>
    cases vs with
    | nil => exact ⟨.nil, tokens⟩
    | cons v vs => cases texts
  | cons u us ih =>
    cases vs with
    | nil => cases texts
    | cons v vs =>
      -- both rows are taken apart unit by unit; only the second one tells the modules
      obtain ⟨path, texts⟩ := List.cons.inj texts
      obtain ⟨text, texts⟩ := List.cons.inj texts
      obtain ⟨-, tokens⟩ := List.cons.inj tokens
      obtain ⟨module, tokens⟩ := List.cons.inj tokens
      obtain ⟨-, tokens⟩ := List.cons.inj tokens
      have text : u.text = v.text := inj.ofText text
      have tree : u.parsed = v.parsed := by
        have one := parsed u List.mem_cons_self
        have other := parsed' v List.mem_cons_self
        rw [text, other] at one
        exact (Except.ok.inj one).symm
      obtain ⟨rest, behind⟩ := ih (fun w hw => parsed w (List.mem_cons_of_mem u hw))
        (fun w hw => parsed' w (List.mem_cons_of_mem v hw)) texts tokens
      exact ⟨.cons ⟨inj.ofText path, inj.ofText module, text, tree⟩ rest, behind⟩

/-- Programs that were parsed from their texts have the same texts if they have the same summaries. -/
lemma sameTexts_of_summaries (inj : Digest.Injective δ) {p q : Program} (parsed : p.IsParsed) (parsed' : q.IsParsed)
    (tokens : (p.fingerprint : δ) = q.fingerprint) (texts : (p.layout : δ) = q.layout) : p.SameTexts q := by
  obtain ⟨units, lines⟩ := forall₂_sameText inj parsed parsed' (inj.combine texts) (inj.combine tokens)
  exact ⟨units, references_eq_of_lines inj lines⟩

namespace SameTexts

variable {p q : Program}

/-- Programs with the same texts agree on all that units with the same text agree on. -/
lemma map_eq {α : Type} (same : p.SameTexts q) {f : SourceUnit → α}
    (agree : ∀ ⦃u v⦄, SourceUnit.SameText u v → f u = f v) : p.units.map f = q.units.map f := by
  have mapped : List.Forall₂ Eq (p.units.map f) (q.units.map f) := List.rel_map agree same.units
  rwa [List.forall₂_eq_eq_eq] at mapped

lemma summaries_eq (same : p.SameTexts q) : (p.fingerprint : δ) = q.fingerprint ∧ (p.layout : δ) = q.layout := by
  constructor
  · rw [fingerprint, fingerprint, fingerprintParts, fingerprintParts, same.references, List.flatMap_def,
      List.flatMap_def, same.map_eq fun u v alike => ?_]
    rw [alike.path, alike.module, SourceUnit.fingerprint, SourceUnit.fingerprint, alike.parsed]
  · rw [layout, layout, List.flatMap_def, List.flatMap_def, same.map_eq fun u v alike => ?_]
    rw [alike.path, alike.text]

/-- Programs of one crate with the same texts are equal if their units define the same modules. -/
lemma eq_of_places (same : p.SameTexts q) (crate : p.crateName = q.crateName) (places : SamePlaces p q) : p = q := by
  obtain ⟨name, us, references⟩ := p
  obtain ⟨name', vs, references'⟩ := q
  obtain ⟨units, rfl⟩ := same
  obtain rfl : name = name' := crate
  have units : us = vs := by
    change ∀ u ∈ us, ∀ v ∈ vs, _ at places
    change List.Forall₂ _ us vs at units
    induction units with
    | nil => rfl
    | @cons u v us vs alike _ ih =>
      have place := places u List.mem_cons_self v List.mem_cons_self (congrArg SourcePath.parts alike.path)
      have rest : us = vs := ih fun w hw x hx => places w (List.mem_cons_of_mem u hw) x (List.mem_cons_of_mem v hx)
      obtain ⟨path, -, text, parsed⟩ := alike
      obtain ⟨_, _, _, _⟩ := u
      obtain ⟨_, _, _, _⟩ := v
      subst path text parsed place rest
      rfl
  rw [units]

end SameTexts

lemma eq_of_summaries (inj : Digest.Injective δ) {p q : Program} (crate : p.crateName = q.crateName)
    (parsed : p.IsParsed) (parsed' : q.IsParsed) (places : SamePlaces p q)
    (tokens : (p.fingerprint : δ) = q.fingerprint) (texts : (p.layout : δ) = q.layout) : p = q :=
  (sameTexts_of_summaries inj parsed parsed' tokens texts).eq_of_places crate places

end Program

/-! ### Programs that were built -/

namespace ProgramBuilder

variable {b : ProgramBuilder}

/-- Whether every unit defines the module that its path stands for. -/
def Placed (b : ProgramBuilder) : Prop := ∀ u ∈ b.units, u.modulePath = SourcePath.moduleOfPath u.path

lemma placed_new {crateName sdkPath : String} : (new crateName sdkPath).Placed :=
  fun _ hu => absurd hu List.not_mem_nil

lemma Placed.unit (h : b.Placed) (path text : String) : (b.unit path text).Placed := by
  intro u hu
  cases List.mem_append.mp hu with
  | inl hu => exact h u hu
  | inr hu =>
    cases List.mem_singleton.mp hu
    rfl

lemma Placed.reference (h : b.Placed) (r : Reference) : (b.reference r).Placed := h

/-- The crate of the markers is referenced if it is injected, or was referenced before. -/
lemma any_allReferences (h : b.injectSdk = true ∨ b.references.any (·.name = sdkCrate) = true) :
    b.allReferences.any (·.name = sdkCrate) = true := by
  have sorted (rs : List Reference) (there : rs.any (·.name = sdkCrate) = true) :
      (Reference.sortByName rs).any (·.name = sdkCrate) = true := by
    obtain ⟨r, hr, name⟩ := List.any_eq_true.mp there
    exact List.any_eq_true.mpr ⟨r, (List.mergeSort_perm rs _).mem_iff.mpr hr, name⟩
  unfold allReferences
  split
  case isTrue => exact sorted _ (by simp)
  case isFalse kept =>
    refine sorted _ (of_not_not fun unknown => ?_)
    cases h with
    | inl injected => exact kept (by simp [injected, unknown])
    | inr known => exact unknown known

end ProgramBuilder

namespace Program

/-- Programs of one name that were built from placed units, with a crate of the markers, are programs of one
crate. -/
lemma oneCrate_of_build (name : String) {known : List Program}
    (built : ∀ p ∈ known, ∃ b : ProgramBuilder, b.crateName = name ∧ b.Placed ∧
      (b.injectSdk = true ∨ b.references.any (·.name = sdkCrate) = true) ∧ b.build = .ok p) :
    OneCrate known where
  name := by
    intro p hp q hq
    obtain ⟨b, rfl, -, -, hb⟩ := built p hp
    obtain ⟨b', eq, -, -, hb'⟩ := built q hq
    rw [(eq_of_build hb).1, (eq_of_build hb').1, eq]
  markers := by
    intro p hp
    obtain ⟨b, -, -, markers, hb⟩ := built p hp
    rw [(eq_of_build hb).2.1]
    exact ProgramBuilder.any_allReferences markers
  parsed := by
    intro p hp u hu
    obtain ⟨b, -, -, -, hb⟩ := built p hp
    exact ((eq_of_build hb).2.2 u hu).1
  places := by
    have place : ∀ p ∈ known, ∀ u ∈ p.units, u.modulePath = SourcePath.moduleOfPath u.path := by
      intro p hp u hu
      obtain ⟨b, -, placed, -, hb⟩ := built p hp
      obtain ⟨w, hw, path, modulePath⟩ := ((eq_of_build hb).2.2 u hu).2
      rw [← modulePath, placed w hw, path]
    intro p hp q hq u hu v hv parts
    rw [place p hp u hu, place q hq v hv, SourcePath.moduleOfPath, SourcePath.moduleOfPath, parts]

end Program

end SourceGen
