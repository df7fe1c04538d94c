import SourceGen.Proofs.Parser.Texts
import SourceGen.Proofs.Pipeline.Repeat

/-!
# Passes over reformatted programs

Texts that differ in layout only have the same syntax, but for tokens that are kept as written: the bodies of
macros, the arguments of attributes, and declarations that are not modelled. So a program that was reformatted
has the same trees exactly if these are spaced alike, and then a pass over it compiles nothing
(`PipelineCells.reuses_of_reformatted`). Kept tokens that are spaced otherwise make it another program
(`PipelineCells.rebuilds_respacedAttribute`).
-/

namespace SourceGen

open SourceGen.Pass

variable {δ γ β : Type}

/-! ### Reformatted programs -/

/-- Whether units before they are parsed differ in the layout of their texts only. -/
structure PendingUnit.Reformatted (w x : PendingUnit) : Prop where
  path : w.path = x.path
  modulePath : w.modulePath = x.modulePath
  text : ParsedText.Reformatted w.text x.text

instance PendingUnit.decidableReformatted (w x : PendingUnit) : Decidable (w.Reformatted x) :=
  decidable_of_iff (w.path = x.path ∧ w.modulePath = x.modulePath ∧ ParsedText.Reformatted w.text x.text)
    ⟨fun ⟨path, modulePath, text⟩ => ⟨path, modulePath, text⟩, fun ⟨path, modulePath, text⟩ => ⟨path, modulePath, text⟩⟩

/-- Whether programs under construction differ in the layout of their texts only. -/
structure ProgramBuilder.Reformatted (b b' : ProgramBuilder) : Prop where
  units : List.Forall₂ PendingUnit.Reformatted b.units b'.units
  rest : { b with units := b'.units } = b'

instance ProgramBuilder.decidableReformatted (b b' : ProgramBuilder) : Decidable (b.Reformatted b') :=
  decidable_of_iff (List.Forall₂ PendingUnit.Reformatted b.units b'.units ∧ { b with units := b'.units } = b')
    ⟨fun ⟨units, rest⟩ => ⟨units, rest⟩, fun ⟨units, rest⟩ => ⟨units, rest⟩⟩

/-- Whether units differ in their texts and in the spacing of kept tokens only. -/
structure SourceUnit.Respaced (u v : SourceUnit) : Prop where
  path : u.path = v.path
  modulePath : u.modulePath = v.modulePath
  file : u.parsed.file.unspaced = v.parsed.file.unspaced

/-- The tokens that a program keeps as written, unit by unit. -/
def Program.kept (p : Program) : List (List TokenTree) := p.units.map fun u => u.parsed.file.kept

namespace ProgramBuilder

/-- A reformatted unit is parsed if the unit is. -/
lemma parseUnit_of_reformatted {w x : PendingUnit} (reformatted : w.Reformatted x) {u : SourceUnit}
    (parsed : parseUnit w = .ok u) : ∃ v, parseUnit x = .ok v ∧ u.Respaced v := by
  obtain ⟨path, modulePath, text, first⟩ := parseUnit_eq_ok_iff.mp parsed
  obtain ⟨tree', second, like⟩ := ParsedText.parse_of_reformatted reformatted.text (text ▸ first)
  refine ⟨⟨x.path, x.modulePath, x.text, tree'⟩, parseUnit_eq_ok_iff.mpr ⟨rfl, rfl, rfl, second⟩, ?_⟩
  exact ⟨path.symm.trans reformatted.path, modulePath.symm.trans reformatted.modulePath, like⟩

lemma parseUnits_of_reformatted {ws xs : List PendingUnit}
    (reformatted : List.Forall₂ PendingUnit.Reformatted ws xs) {us : List SourceUnit}
    (parsed : List.Forall₂ (fun w u => parseUnit w = .ok u) ws us) :
    ∃ vs, List.Forall₂ (fun x v => parseUnit x = .ok v) xs vs ∧ List.Forall₂ SourceUnit.Respaced us vs := by
  induction reformatted generalizing us with
  | nil =>
    cases parsed
    exact ⟨[], .nil, .nil⟩
  | cons first _ ih =>
    cases parsed with
    | cons head tail =>
      obtain ⟨v, head', respaced⟩ := parseUnit_of_reformatted first head
      obtain ⟨vs, tail', others⟩ := ih tail
      exact ⟨v :: vs, .cons head' tail', .cons respaced others⟩

/-- A reformatted program is built if the program is, with the same trees up to the spacing of kept tokens. -/
lemma build_of_reformatted {b b' : ProgramBuilder} (reformatted : b.Reformatted b') {p : Program}
    (built : b.build = .ok p) :
    ∃ q, b'.build = .ok q ∧ p.crateName = q.crateName ∧ p.references = q.references ∧
      List.Forall₂ SourceUnit.Respaced p.units q.units := by
  obtain ⟨units, rest⟩ := reformatted
  obtain ⟨crateName, references, parsed⟩ := build_eq_ok_iff.mp built
  obtain ⟨vs, parsed', respaced⟩ := parseUnits_of_reformatted units parsed
  have same : b.crateName = b'.crateName ∧ b.allReferences = b'.allReferences := rest ▸ ⟨rfl, rfl⟩
  refine ⟨⟨b'.crateName, vs, b'.allReferences⟩, build_eq_ok_iff.mpr ⟨rfl, rfl, parsed'⟩, ?_, ?_, respaced⟩
  · exact crateName.trans same.1
  · exact references.trans same.2

end ProgramBuilder

lemma PassCall.build_ofText {text : String} (parsed : (ofText text).build.isOk = true) :
    (ofText text).build = .ok (built text) := by
  rw [built]
  cases eq : (ofText text).build with
  | ok p => rfl
  | error e =>
    rw [eq] at parsed
    cases parsed

/-! ### Trees that are the same -/

namespace Program

variable {p q : Program}

/-- Units that differ in the spacing of kept tokens have the same trees exactly if they keep the same tokens. -/
lemma forall₂_sameTree_iff {us vs : List SourceUnit} (respaced : List.Forall₂ SourceUnit.Respaced us vs) :
    List.Forall₂ SourceUnit.SameTree us vs ↔
      (us.map fun u => u.parsed.file.kept) = vs.map fun v => v.parsed.file.kept := by
  induction respaced with
  | nil => exact ⟨fun _ => rfl, fun _ => .nil⟩
  | @cons u v us vs first rest ih =>
    rw [List.forall₂_cons, ih, List.map_cons, List.map_cons, List.cons.injEq,
      ← SourceFile.eq_iff_kept first.file]
    exact and_congr_left fun _ => ⟨fun same => same.file, fun file => ⟨first.path, first.modulePath, file⟩⟩

/-- Programs that differ in the spacing of kept tokens have the same trees exactly if they keep the same tokens. -/
lemma sameTrees_iff (crateName : p.crateName = q.crateName) (references : p.references = q.references)
    (respaced : List.Forall₂ SourceUnit.Respaced p.units q.units) : p.SameTrees q ↔ p.kept = q.kept :=
  ⟨fun same => (forall₂_sameTree_iff respaced).mp same.units,
    fun kept => ⟨crateName, (forall₂_sameTree_iff respaced).mpr kept, references⟩⟩

/-- Whether units of two programs have one summary, and fragments that compare as equal and have one summary. -/
structure Alike (δ : Type) [Digest δ] (p q : Program) (u v : SourceUnit) : Prop where
  fingerprint : (u.fingerprint : δ) = v.fingerprint
  fragments : ∀ m, Model.ofProgram p = .ok m → ∀ m', Model.ofProgram q = .ok m' → ∀ index index',
    (Fragment.ofUnit m index u == Fragment.ofUnit m' index' v) = true ∧
      (Fragment.ofUnit m index u).map (Fragment.fingerprint : Fragment → δ) =
        (Fragment.ofUnit m' index' v).map Fragment.fingerprint

/-- Units with the same tree are alike in programs with the same references. -/
lemma alike_of_sameTree [Digest δ] (references : p.references = q.references) {u v : SourceUnit}
    (same : SourceUnit.SameTree u v) : Alike δ p q u v where
  fingerprint := same.fingerprint_eq
  fragments := by
    intro m hm m' hm' index index'
    obtain ⟨markers, crates⟩ := Model.congr_of_ofProgram references.symm hm hm'
    have placeless := Fragment.ofUnit_placeless markers crates same.modulePath (by rw [same.file]) index index'
    have summaries := congrArg (List.map (Fragment.fingerprint : Fragment → δ)) placeless
    rw [List.map_map, List.map_map] at summaries
    exact ⟨Fragment.beq_of_map_placeless placeless, summaries⟩

end Program

namespace PipelineCells

variable [Digest δ] [BEq δ] [LawfulBEq δ] [Generator γ]

/-- A program that was reformatted can be built, and it has the same trees exactly if its kept tokens are spaced
alike. If they are, units have the same summaries, fragments and global imports, and a pass over the reformatted
program, after one that came to its end, takes its module and what was loaded from memory. -/
theorem reuses_of_reformatted (h h' : Host β γ) (config : Config) (c : PipelineCells δ γ) {k : PassCall β}
    {b b' : ProgramBuilder} (built : b.build = .ok k.program) (reformatted : b.Reformatted b') :
    ∃ q, b'.build = .ok q ∧ (k.program.SameTrees q ↔ k.program.kept = q.kept) ∧
      (k.program.kept = q.kept →
        List.Forall₂ (Program.Alike δ k.program q) k.program.units q.units ∧
        (k.program.fingerprint : δ) = q.fingerprint ∧
        GlobalImports.ofProgram k.program = .ofProgram q ∧
        ∀ out, (k.run h config c).1 = .ok out → (k.program.units.map unitKey).Nodup →
          Reuses h' config (k.run h config c).2 q) := by
  obtain ⟨q, built', crateName, references, respaced⟩ := ProgramBuilder.build_of_reformatted reformatted built
  have exactly := Program.sameTrees_iff crateName references respaced
  refine ⟨q, built', exactly, fun kept => ?_⟩
  have same := exactly.mpr kept
  exact ⟨same.units.imp fun _ _ tree => Program.alike_of_sameTree references tree, same.fingerprint_eq,
    same.globals_eq, fun out ended distinct => reuses_of_sameTrees ended same distinct⟩

/-- A comment, and blanks around an operator and in an attribute: the second pass reuses what the first one left. -/
theorem reuses_of_reformatted_comment :
    let text := "#[microgen_sdk::micro_generator]\n#[m(1,2)]\ntrait G \x7b\n    const X: i8=-1;\n\x7d"
    let text' := "#[microgen_sdk::micro_generator]\n#[m(1, 2)]\ntrait G \x7b\n    const X: i8 = -1; // below zero\n\x7d"
    let k : PassCall Bool := ⟨PassCall.built text, false⟩
    let c : PipelineCells Transcript Memoryless := (k.run PassCall.willingHost .default start).2
    (PassCall.ofText text).build = .ok k.program ∧ (PassCall.ofText text).Reformatted (PassCall.ofText text') ∧
      ∃ q, (PassCall.ofText text').build = .ok q ∧ k.program.SameTrees q ∧
        List.Forall₂ (Program.Alike Transcript k.program q) k.program.units q.units ∧
        GlobalImports.ofProgram k.program = .ofProgram q ∧ Reuses PassCall.willingHost .default c q := by
  intro text text' k c
  have computed : (PassCall.ofText text).build.isOk = true ∧ (PassCall.ofText text').build.isOk = true ∧
      (PassCall.ofText text).Reformatted (PassCall.ofText text') ∧
      (k.program.kept == (PassCall.built text').kept) = true ∧ (k.program.units.map unitKey).Nodup ∧
      (k.run PassCall.willingHost .default (start : PipelineCells Transcript Memoryless)).1.isOk = true := by
    decide +kernel
  obtain ⟨parsed, parsed', reformatted, kept, distinct, ends⟩ := computed
  have built : (PassCall.ofText text).build = .ok k.program := PassCall.build_ofText parsed
  obtain ⟨q, built', exactly, reused⟩ := reuses_of_reformatted PassCall.willingHost PassCall.willingHost .default
    (start : PipelineCells Transcript Memoryless) built reformatted
  obtain rfl : PassCall.built text' = q := Except.ok.inj ((PassCall.build_ofText parsed').symm.trans built')
  have kept := eq_of_beq kept
  obtain ⟨alike, -, globals, reuses⟩ := reused kept
  refine ⟨built, reformatted, _, built', exactly.mpr kept, alike, globals, ?_⟩
  cases done : (k.run PassCall.willingHost .default (start : PipelineCells Transcript Memoryless)).1 with
  | ok out => exact reuses out done distinct
  | error e =>
    rw [done] at ends
    cases ends

/-- A blank after a comma in an attribute is seen where an operator comes next: the tokens are the same, but the
summaries and the fragments are not, and the second pass builds a second module. -/
theorem rebuilds_respacedAttribute :
    let text := "#[microgen_sdk::micro_generator]\n#[m(1,-2)]\ntrait G {}"
    let text' := "#[microgen_sdk::micro_generator]\n#[m(1, -2)]\ntrait G {}"
    let after : List (PassCall Bool) → PipelineCells Transcript Memoryless := .after PassCall.willingHost .default
    ParsedText.SameTokens text text' ∧ (PassCall.ofText text).Reformatted (PassCall.ofText text') ∧
      (∀ u ∈ (PassCall.built text).units, ∀ v ∈ (PassCall.built text').units,
        (u.fingerprint : Transcript) ≠ v.fingerprint) ∧
      ((Model.ofProgram (PassCall.built text)).toOption.bind fun m =>
        (Model.ofProgram (PassCall.built text')).toOption.map fun m' =>
          (Fragment.ofModel m == Fragment.ofModel m')) = some false ∧
      (after [⟨PassCall.built text, false⟩, ⟨PassCall.built text', false⟩]).module.stats = ⟨0, 2⟩ := by
  decide +kernel

end PipelineCells

end SourceGen
