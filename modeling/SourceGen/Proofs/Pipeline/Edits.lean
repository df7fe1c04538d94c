import SourceGen.Proofs.Pipeline.Ends
import SourceGen.Proofs.Pipeline.Repeat
import SourceGen.Proofs.Program.Edits

/-!
# Passes over edited programs

An item that is nothing to the fragments can be put in, taken out or replaced, and a pass over the edited program
reuses what the first pass of a pipeline has left (`PipelineCells.reuses_of_edited`): whatever the cells of the first
two stages can tell of the edit, they hand out fragments and global imports that compare as equal to those before, so
neither the compiler nor the loader is asked for anything. What is inside a declaration of a marked type or an
implementation for one is no such item (`PipelineCells.rebuilds_editInMethod`).
-/

namespace SourceGen

open SourceGen.Pass

variable {δ γ β : Type}

/-! ### What the first pass leaves for the second -/

variable [Digest δ] {config : Config} {p q : Program} {m m' : Model}

lemma SourceUnit.SameFragments.exists_of_mem {us vs : List SourceUnit}
    (each : List.Forall₂ (SourceUnit.SameFragments m m') us vs) {u : SourceUnit} (hu : u ∈ us) :
    ∃ v ∈ vs, SourceUnit.SameFragments m m' u v := by
  induction each with
  | nil => cases hu
  | cons first rest ih =>
    cases hu with
    | head => exact ⟨_, List.mem_cons_self, first⟩
    | tail _ hu =>
      obtain ⟨v, hv, same⟩ := ih hu
      exact ⟨v, List.mem_cons_of_mem _ hv, same⟩

lemma SourceUnit.SameFragments.map_unitKey_eq
    (each : List.Forall₂ (SourceUnit.SameFragments m m') p.units q.units) :
    p.units.map unitKey = q.units.map unitKey := by
  have mapped : List.Forall₂ Eq (p.units.map unitKey) (q.units.map unitKey) := List.rel_map (fun _ _ same => same.key) each
  rwa [List.forall₂_eq_eq_eq] at mapped

section Edited

variable (hm : Model.ofProgram p = .ok m) (hm' : Model.ofProgram q = .ok m')
  (each : List.Forall₂ (SourceUnit.SameFragments m m') p.units q.units)

include hm hm' each

/-- Fragments that were taken under the path of a unit, from its program or from the one before the edit, add the same
to a crate as its own. -/
lemma Pass.placeless_of_takenFrom (distinct : (q.units.map unitKey).Nodup) {v : SourceUnit} (hv : v ∈ q.units)
    {summary : δ × δ} {fs : List Fragment} (taken : TakenFrom config [p, q] (unitKey v) summary fs) (index : Nat) :
    fs.map Fragment.placeless = (Fragment.ofUnit m' index v).map Fragment.placeless := by
  obtain ⟨r, hr, model, resolved, w, hw, index', key, -, rfl⟩ := taken
  have alone {w : SourceUnit} (hw : w ∈ q.units) (key : unitKey w = unitKey v) : w = v :=
    List.inj_on_of_nodup_map distinct hw hv key
  cases List.mem_cons.mp hr with
  | inl before =>
    -- the cell is from the first pass, and the unit of that path is the one before the edit
    subst before
    cases hm.symm.trans resolved
    obtain ⟨w', hw', same⟩ := SourceUnit.SameFragments.exists_of_mem each hw
    obtain rfl := alone hw' (same.key.symm.trans key)
    exact same.fragments index' index
  | inr after =>
    cases List.mem_singleton.mp after
    cases hm'.symm.trans resolved
    obtain rfl := alone hw key
    exact Fragment.ofUnit_index _ _ _ _

namespace PipelineCells

variable [BEq δ] [LawfulBEq δ] [Generator γ] {h : Host β γ} {s : β} {out : GenerationOutput}

/-- However the cells tell the units of an edited program apart from those of the program of a first pass, they hand out
fragments that compare as equal. -/
lemma fragments_beq_of_run (distinct : (p.units.map unitKey).Nodup) :
    let c : PipelineCells δ γ := ((PassCall.mk p s).run h config start).2
    (((start : PipelineCells δ γ).input config m).fragments == (c.input config m').fragments) = true := by
  intro c
  have program := Model.program_of_ofProgram hm
  have distinct' : (q.units.map unitKey).Nodup := SourceUnit.SameFragments.map_unitKey_eq each ▸ distinct
  have first : ((start : PipelineCells δ γ).input config m).fragments = Fragment.ofModel m :=
    fragments_start (program ▸ distinct)
  have holds : c.fragments.Holds (TakenFrom config [p, q]) :=
    takenFrom_run (fun _ _ _ there => absurd there List.not_mem_nil) List.mem_cons_self
  obtain ⟨parts, second, taken⟩ := input_takenFrom holds (List.mem_cons_of_mem p List.mem_cons_self) hm'
  apply Fragment.beq_of_map_placeless
  rw [first, second, Fragment.map_placeless_flatten taken
    (fun v hv fs => placeless_of_takenFrom hm hm' each distinct' hv) 0, Fragment.ofModel, program]
  exact Fragment.ofUnits_placeless each 0

end PipelineCells

end Edited

namespace PipelineCells

variable [BEq δ] [Generator γ] {h : Host β γ} {c c' : PipelineCells δ γ} {out : GenerationOutput}

/-- A first pass that came to its end has built its module, and leaves it with what was loaded. -/
lemma entry_of_completed (completed : Completed h config m start out c') :
    ∃ built outcome, c'.module.entry = some ((start : PipelineCells δ γ).input config m, built) ∧
      c'.load.held? built.epoch = some outcome := by
  obtain ⟨module, load, output⟩ := completed
  have loaded := load.held?
  cases module with
  | held known => cases known
  | built new made => cases load <;> cases output <;> exact ⟨_, _, rfl, loaded⟩

/-- A pass that finds its module in the cells comes to its end, unless it is given up. -/
lemma exists_ok_of_held (hm : Model.ofProgram p = .ok m) {built : SyntheticModule}
    (held : c.module.held? (c.input config m) = some built) (never : ∀ s, (h.poll s).1 = false) (s : β) :
    ∃ out, ((PassCall.mk p s).run h config c).1 = .ok out := by
  cases ends : ((PassCall.mk p s).run h config c).1 with
  | ok out => exact ⟨out, rfl⟩
  | error stop =>
    have gives (s : β) : (h.poll s).1 ≠ true := by
      rw [never s]
      exact Bool.false_ne_true
    obtain ⟨s, given, -⟩ | ⟨e, unresolved, -⟩ | ⟨model, resolved, reason⟩ := run_stopsFor p s stop ends
    · exact absurd given (gives s)
    · cases hm.symm.trans unresolved
    · cases hm.symm.trans resolved
      cases reason with
      | cancelled given => exact absurd given (gives _)
      | inBuild new broken => cases held.symm.trans new

variable [LawfulBEq δ]

/-- A first pass leaves its global imports, which are those of an edited program too. -/
lemma globals_eq_of_completed (hm : Model.ofProgram p = .ok m) (hm' : Model.ofProgram q = .ok m')
    (completed : Completed h config m start out c')
    (globals : GlobalImports.ofProgram p = .ofProgram q) :
    ((start : PipelineCells δ γ).input config m).globals = (c'.input config m').globals := by
  have program := congrArg GlobalImports.ofProgram (Model.program_of_ofProgram hm)
  have program' := congrArg GlobalImports.ofProgram (Model.program_of_ofProgram hm')
  have known : c'.globals.Holds fun _ g => g = GlobalImports.ofProgram p := by
    rw [globals_of_completed completed]
    exact (Memo.getOrCompute_holds (P := fun _ g => g = GlobalImports.ofProgram p) (m := start.globals) nofun
      (fun _ => .ofProgram m.program) program).2
  have own : (c'.input config m').globals = GlobalImports.ofProgram p :=
    (Memo.getOrCompute_holds known (fun _ => .ofProgram m'.program) (program'.trans globals.symm)).1
  exact program.trans own.symm

/-- An edit of an item that is nothing to the fragments leaves the fragments of every unit, the global imports and the
references as they are. If the units have paths of their own, a pass over the edited program, on any host, after the
first pass of a pipeline came to its end, takes its module and what was loaded from memory, and it comes to its end
unless it is given up. -/
theorem reuses_of_edited (h h' : Host β γ) (config : Config) (hm : Model.ofProgram p = .ok m) (edited : p.Edited m q)
    (distinct : (p.units.map unitKey).Nodup) :
    ∃ m', Model.ofProgram q = .ok m' ∧ List.Forall₂ (SourceUnit.SameFragments m m') p.units q.units ∧
      (Fragment.ofModel m == Fragment.ofModel m') = true ∧ GlobalImports.ofProgram p = .ofProgram q ∧
      referenceSet config p = referenceSet config q ∧
      ∀ s out, ((PassCall.mk p s).run h config (start : PipelineCells δ γ)).1 = .ok out →
        let c : PipelineCells δ γ := ((PassCall.mk p s).run h config start).2
        Reuses h' config c q ∧
          ((∀ s, (h'.poll s).1 = false) → ∀ s, ∃ out', ((PassCall.mk q s).run h' config c).1 = .ok out') := by
  obtain ⟨m', hm'⟩ := Model.exists_of_references edited.references.symm hm
  have each := edited.sameFragments hm hm'
  have globals := GlobalImports.ofProgram_of_edited edited
  have references : referenceSet config p = referenceSet config q := by
    rw [referenceSet, referenceSet, edited.references]
  refine ⟨m', hm', each, ?_, globals, references, ?_⟩
  · apply Fragment.beq_of_map_placeless
    rw [Fragment.ofModel, Fragment.ofModel, Model.program_of_ofProgram hm, Model.program_of_ofProgram hm']
    exact Fragment.ofUnits_placeless each 0
  · intro s out ended c
    obtain ⟨model, out, resolved, -, completed⟩ | ⟨⟨e, stop⟩, -⟩ :=
      (PassCall.mk p s).run_steps h config (start : PipelineCells δ γ)
    · cases hm.symm.trans resolved
      have asked : referenceSet config m.program = referenceSet config m'.program := by
        rw [Model.program_of_ofProgram hm, Model.program_of_ofProgram hm', references]
      have same : ((start : PipelineCells δ γ).input config m == c.input config m') = true :=
        ModuleInput.beq_of_parts (fragments_beq_of_run hm hm' each distinct)
          (globals_eq_of_completed hm hm' completed globals) asked
      obtain ⟨built, outcome, entry, loaded⟩ := entry_of_completed completed
      have held : c.module.held? (c.input config m') = some built := Memo.held?_of_entry entry same
      refine ⟨reuses_of_held fun model resolved => ?_, exists_ok_of_held hm' held⟩
      cases hm'.symm.trans resolved
      exact ⟨built, outcome, held, loaded⟩
    · rw [ended] at stop
      cases stop

def itemsOfText (text : String) : List Item := (PassCall.built text).units.flatMap (·.parsed.file.items)

/-- In a module, a function is replaced by an implementation for a type that is not marked: the second pass reuses what
the first one left. -/
theorem reuses_of_edited_nestedModule :
    let text (item : String) := "mod a \x7b\n#[microgen_sdk::micro_generator]\ntrait G {}\n" ++ item ++ "\n\x7d\n"
    let p := PassCall.built (text "fn f() {}")
    let q := PassCall.built (text "impl B {}")
    let h := PassCall.willingHost.steadfast
    let c : PipelineCells Transcript Memoryless := ((PassCall.mk p false).run h .default start).2
    ∃ m, Model.ofProgram p = .ok m ∧ p.Edited m q ∧ ∃ m', Model.ofProgram q = .ok m' ∧
      (Fragment.ofModel m == Fragment.ofModel m') = true ∧ Reuses h .default c q ∧
      ∃ out, ((PassCall.mk q false).run h .default c).1 = .ok out := by
  intro text p q h c
  let before := itemsOfText "#[microgen_sdk::micro_generator]\ntrait G {}"
  let old := (itemsOfText "fn f() {}").head?
  let new := (itemsOfText "impl B {}").head?
  let edited (item : Option Item) : List Item :=
    [.mk [] .inherited (.module false "a" (some (before ++ item.toList ++ [])))]
  have units : (p.units.length = 1 ∧ q.units.length = 1 ∧ (p.units.map unitKey).Nodup ∧
      p.crateName = q.crateName ∧ p.references = q.references) ∧
      ∀ u ∈ p.units, ∀ v ∈ q.units, u.path = v.path ∧ u.modulePath = [] ∧ v.modulePath = [] ∧
        (u.parsed.file.attrs == v.parsed.file.attrs) = true ∧
        (u.parsed.file.items == edited old) = true ∧ (v.parsed.file.items == edited new) = true := by
    decide +kernel
  have unrelated : (old.toList.flatMap Item.uses == new.toList.flatMap Item.uses) = true ∧
      (Model.ofProgram p).isOk = true ∧
      ∀ m ∈ (Model.ofProgram p).toOption, (∀ i ∈ old, m.Unrelated ["a"] (before ++ old.toList ++ []) i) ∧
        ∀ i ∈ new, m.Unrelated ["a"] (before ++ new.toList ++ []) i := by
    decide +kernel
  have ends : ((PassCall.mk p false).run h .default (start : PipelineCells Transcript Memoryless)).1.isOk = true := by
    decide +kernel
  obtain ⟨⟨one, one', distinct, crateName, references⟩, units⟩ := units
  obtain ⟨uses, known, unrelated⟩ := unrelated
  obtain ⟨u, hu⟩ := List.length_eq_one_iff.mp one
  obtain ⟨v, hv⟩ := List.length_eq_one_iff.mp one'
  obtain ⟨path, root, root', attrs, items, items'⟩ := units u (hu ▸ List.mem_singleton_self u) v
    (hv ▸ List.mem_singleton_self v)
  cases resolved : Model.ofProgram p with
  | error e =>
    rw [resolved] at known
    cases known
  | ok m =>
    obtain ⟨gone, come⟩ := unrelated m (congrArg Except.toOption resolved)
    have edit : m.Edit u.modulePath u.parsed.file.items v.parsed.file.items := by
      have inner : m.Edit ["a"] (before ++ old.toList ++ []) (before ++ new.toList ++ []) :=
        .splice gone come (eq_of_beq uses)
      rw [root, eq_of_beq items, eq_of_beq items']
      change m.Edit [] ([] ++ _ :: []) ([] ++ _ :: [])
      exact .inside inner
    have edited : p.Edited m q := ⟨crateName, references, [], u, v, [], hu, hv, path, root.trans root'.symm,
      eq_of_beq attrs, edit⟩
    obtain ⟨m', hm', -, fragments, -, -, reuses⟩ :=
      reuses_of_edited (δ := Transcript) h h .default resolved edited distinct
    cases done : ((PassCall.mk p false).run h .default (start : PipelineCells Transcript Memoryless)).1 with
    | error e =>
      rw [done] at ends
      cases ends
    | ok out =>
      obtain ⟨reuses, comes⟩ := reuses false out done
      exact ⟨m, rfl, edited, m', hm', fragments, reuses, comes (fun _ => rfl) false⟩

/-- A type that is put into a module in a method of a marked trait is part of the trait: the fragments differ, though
the global imports do not, and the second pass builds a second module. -/
theorem rebuilds_editInMethod :
    let text (item : String) := "#[microgen_sdk::micro_generator]\npub trait G \x7b\n    fn f() \x7b\n" ++
      "        mod a \x7b" ++ item ++ "\x7d\n    \x7d\n\x7d\n"
    let p := PassCall.built (text "")
    let q := PassCall.built (text "struct X;")
    let modules (p : Program) := (p.units.flatMap (·.sightings)).filterMap fun s =>
      s.item.moduleBody?.map fun m => (m.1, m.2.map Item.text)
    let after : List (PassCall Bool) → PipelineCells Transcript Memoryless := .after PassCall.willingHost .default
    (modules p = [("a", [])] ∧ modules q = [("a", ["struct X ;"])]) ∧
      ((Model.ofProgram p).toOption.bind fun m => (Model.ofProgram q).toOption.map fun m' =>
        (Fragment.ofModel m == Fragment.ofModel m')) = some false ∧
      (GlobalImports.ofProgram p == .ofProgram q) = true ∧
      (after [⟨p, false⟩]).module.stats = ⟨0, 1⟩ ∧ (after [⟨p, false⟩, ⟨q, false⟩]).module.stats = ⟨0, 2⟩ ∧
      (after [⟨p, false⟩, ⟨q, false⟩]).load.stats = ⟨0, 2⟩ ∧
      (after [⟨p, false⟩, ⟨q, false⟩]).epoch = (after [⟨p, false⟩]).epoch.next := by
  decide +kernel

end PipelineCells

end SourceGen
