import Mathlib
import SourceGen.Host.Machine
import SourceGen.Host.Scripted
import SourceGen.Proofs.Except
import SourceGen.Proofs.Pipeline.Hosts
import SourceGen.Proofs.Pipeline.Incremental

/-!
# Epochs over the life of a pipeline

A build is counted, and its epoch begun, before the compiler runs; its module is kept only if it comes to its
end, and is loaded and dispatched later, if at all. `Chronicle` says how the cells of a pipeline hang together
with the builds it began. Every call keeps it, however the call ends, so it holds from the first pass on:
epochs count the builds, and whatever is loaded or dispatched is of the module that was built last
(`PipelineCells.epochs_of_builds`).
-/

namespace SourceGen

open SourceGen.Pass

variable {δ γ β : Type}

/-! ### Loaders that stamp -/

namespace Loading

/-- An image is opened in the epoch that it is asked for, and hands out the table of its library. -/
lemma library_of_openImage {link : Linker γ} {e : Epoch} {crateName : String} {image : List UInt8}
    {source : PluginSource γ} (opened : openImage link e crateName image = .ok source) :
    source.epoch = e ∧ ∃ library, link image = .ok library ∧ library.discover = .ok source.table := by
  unfold openImage at opened
  cases refused : stageRefusal? crateName with
  | some refusal =>
    rw [refused] at opened
    cases opened
  | none =>
    rw [refused] at opened
    obtain ⟨library, linked, opened⟩ := ok_of_bind opened
    obtain ⟨_, -, opened⟩ := ok_of_bind opened
    obtain ⟨_, -, opened⟩ := ok_of_bind opened
    obtain ⟨table, found, opened⟩ := ok_of_bind opened
    cases opened
    exact ⟨rfl, library, ok_of_mapError linked, ok_of_mapError found⟩

end Loading

namespace Dispatch

variable [Generator γ]

end Dispatch

/-! ### Builds -/

/-- A build that a pipeline began, and its module if it came to its end. -/
structure Build where
  epoch : Epoch
  module? : Option SyntheticModule

namespace PipelineCells

/-- The build between two states of the cells, if one was begun: a build is counted when it begins, and leaves
its module in place of the one before. -/
def build? (c c' : PipelineCells δ γ) : Option Build :=
  if c'.module.stats.misses = c.module.stats.misses then none
  else some ⟨c'.epoch, if c'.currentModule = c.currentModule then none else c'.currentModule⟩

/-- The builds that calls in a row begin, from given cells on. -/
def builds [Digest δ] [BEq δ] [Generator γ] (h : Host β γ) (config : Config) (c : PipelineCells δ γ) :
    List (PassCall β) → List Build
  | [] => []
  | k :: ks => (c.build? (k.run h config c).2).toList ++ builds h config (k.run h config c).2 ks

/-- How cells hang together with the builds that led to them. -/
structure Chronicle (h : Host β γ) (bs : List Build) (c : PipelineCells δ γ) : Prop where
  /-- Epochs count the builds. -/
  epochs : bs.map (·.epoch.number) = List.range' 1 c.epoch.number
  stamped : ∀ b ∈ bs, ∀ m, b.module? = some m → m.epoch = b.epoch ∧ m.crateName = b.epoch.crateName
  /-- The last build that came to its end left the current module. -/
  current : c.currentModule = (bs.filterMap (·.module?)).getLast?
  /-- What is loaded in an epoch was loaded from the module of the epoch. -/
  loaded : ∀ e outcome, c.load.entry = some (e, outcome) →
    ∃ m ∈ bs.filterMap (·.module?), m.epoch = e ∧ ∃ s, (h.load m s).1 = outcome

variable {h : Host β γ} {bs : List Build} {c c' : PipelineCells δ γ}

lemma chronicle_start : (start : PipelineCells δ γ).Chronicle h [] where
  epochs := rfl
  stamped := fun _ there => absurd there List.not_mem_nil
  current := rfl
  loaded := fun _ _ entry => by cases entry

namespace Chronicle

lemma congr (inv : c.Chronicle h bs) (epoch : c'.epoch = c.epoch) (current : c'.currentModule = c.currentModule)
    (load : c'.load.entry = c.load.entry) : c'.Chronicle h bs where
  epochs := epoch ▸ inv.epochs
  stamped := inv.stamped
  current := current ▸ inv.current
  loaded := load ▸ inv.loaded

lemma epoch_le (inv : c.Chronicle h bs) {b : Build} (there : b ∈ bs) : b.epoch.number ≤ c.epoch.number := by
  have counted : b.epoch.number ∈ List.range' 1 c.epoch.number :=
    inv.epochs ▸ List.mem_map_of_mem there
  have := (List.mem_range'_1.mp counted).2
  omega

/-- Every module is that of a build, and carries its epoch. -/
lemma build_of_mem (inv : c.Chronicle h bs) {m : SyntheticModule} (there : m ∈ bs.filterMap (·.module?)) :
    ∃ b ∈ bs, b.module? = some m ∧ m.epoch = b.epoch := by
  obtain ⟨b, hb, left⟩ := List.mem_filterMap.mp there
  exact ⟨b, hb, left, (inv.stamped b hb m left).1⟩

lemma mem_of_current (inv : c.Chronicle h bs) {m : SyntheticModule} (current : c.currentModule = some m) :
    m ∈ bs.filterMap (·.module?) :=
  List.mem_of_getLast? (inv.current ▸ current)

/-- Epochs tell modules apart. -/
lemma eq_of_epoch (inv : c.Chronicle h bs) {m m' : SyntheticModule} (there : m ∈ bs.filterMap (·.module?))
    (there' : m' ∈ bs.filterMap (·.module?)) (same : m.epoch = m'.epoch) : m = m' := by
  obtain ⟨b, hb, left, epoch⟩ := inv.build_of_mem there
  obtain ⟨b', hb', left', epoch'⟩ := inv.build_of_mem there'
  have distinct : (bs.map (·.epoch.number)).Nodup := inv.epochs ▸ List.nodup_range'
  obtain rfl : b = b' := List.inj_on_of_nodup_map distinct hb hb' (by rw [← epoch, ← epoch', same])
  exact Option.some.inj (left.symm.trans left')

lemma building (inv : c.Chronicle h bs) : c.building.Chronicle h (bs ++ [⟨c.epoch.next, none⟩]) where
  epochs := by
    rw [List.map_append, inv.epochs, PipelineCells.building, Epoch.next, List.range'_concat]
    simp only [List.map_cons, List.map_nil, Nat.one_mul, Nat.add_comm]
  stamped := by
    intro b there m left
    cases List.mem_append.mp there with
    | inl there => exact inv.stamped b there m left
    | inr last =>
      obtain rfl := List.mem_singleton.mp last
      cases left
  current := by
    rw [List.filterMap_append]
    exact inv.current.trans (by simp only [List.filterMap_cons, List.filterMap_nil, List.append_nil])
  loaded := by
    intro e outcome entry
    obtain ⟨m, there, rest⟩ := inv.loaded e outcome entry
    exact ⟨m, List.filterMap_append ▸ List.mem_append_left _ there, rest⟩

/-- A build that comes to its end. -/
lemma built (inv : c.Chronicle h bs) {i : ModuleInput} {m : SyntheticModule} (epoch : m.epoch = c.epoch.next)
    (crateName : m.crateName = c.epoch.next.crateName) :
    (c.built i m).Chronicle h (bs ++ [⟨c.epoch.next, some m⟩]) where
  epochs := by
    have begun := inv.building.epochs
    rw [List.map_append] at begun ⊢
    exact begun
  stamped := by
    intro b there m' left
    cases List.mem_append.mp there with
    | inl there => exact inv.stamped b there m' left
    | inr last =>
      obtain rfl := List.mem_singleton.mp last
      cases left
      exact ⟨epoch, crateName⟩
  current := by
    rw [List.filterMap_append]
    exact List.getLast?_concat.symm
  loaded := by
    intro e outcome entry
    obtain ⟨m', there, rest⟩ := inv.loaded e outcome entry
    exact ⟨m', List.filterMap_append ▸ List.mem_append_left _ there, rest⟩

lemma loading (inv : c.Chronicle h bs) {m : SyntheticModule} (current : c.currentModule = some m) (s : β) :
    (c.loaded m (h.load m s).1).Chronicle h bs where
  epochs := inv.epochs
  stamped := inv.stamped
  current := inv.current
  loaded := by
    intro e outcome entry
    cases entry
    exact ⟨m, inv.mem_of_current current, rfl, s, rfl⟩

end Chronicle

end PipelineCells

/-! ### Calls -/

namespace Pass

variable {h : Host β γ} {config : Config} {bs : List Build} {c c' : PipelineCells δ γ}

lemma Builds.stamped {e : Epoch} {i : ModuleInput} {m : SyntheticModule} (made : Builds h e i m) :
    m.epoch = e ∧ m.crateName = e.crateName := by
  cases made with
  | empty => exact ⟨rfl, rfl⟩
  | @compiled crate s result _ _ _ =>
    cases result with
    | ok => exact ⟨rfl, rfl⟩
    | error => exact ⟨rfl, rfl⟩

/-- The stage of the module begins a build or none, and leaves the module that it answers. -/
lemma ModuleStep.chronicle {i : ModuleInput} {m : SyntheticModule} (step : ModuleStep h c i m c')
    (inv : c.Chronicle h bs) :
    c'.Chronicle h (bs ++ (c.build? c').toList) ∧ c'.currentModule = some m := by
  cases step with
  | held known =>
    obtain ⟨cached, entry, -⟩ := Memo.entry_of_held? known
    have none_begun : c.build? { c with module := c.module.hit } = none := if_pos rfl
    rw [none_begun, Option.toList_none, List.append_nil]
    exact ⟨inv.congr rfl rfl rfl, congrArg (Option.map Prod.snd) entry⟩
  | built new made =>
    obtain ⟨epoch, crateName⟩ := made.stamped
    -- the module before is of an older epoch, so the one that is left is new
    have other : (c.built i m).currentModule ≠ c.currentModule := by
      intro same
      obtain ⟨b, hb, -, stamp⟩ := inv.build_of_mem (inv.mem_of_current same.symm)
      have below := inv.epoch_le hb
      rw [← stamp, epoch] at below
      exact absurd below (Nat.not_succ_le_self _)
    have counted : (c.built i m).module.stats.misses ≠ c.module.stats.misses := Nat.succ_ne_self _
    have begun : c.build? (c.built i m) = some ⟨c.epoch.next, some m⟩ := by
      rw [PipelineCells.build?, if_neg counted, if_neg other]
      rfl
    rw [begun]
    exact ⟨inv.built epoch crateName, rfl⟩

/-- The stage of loading leaves the module alone, and what it answers was loaded from it. -/
lemma LoadStep.chronicle {m : SyntheticModule} {outcome : LoadOutcome γ} (step : LoadStep h c m outcome c')
    (inv : c.Chronicle h bs) (current : c.currentModule = some m) :
    c'.Chronicle h bs ∧ c'.module = c.module ∧ c'.epoch = c.epoch ∧
      c'.load.entry = some (m.epoch, outcome) := by
  cases step with
  | held known =>
    obtain ⟨e, entry, same⟩ := Memo.entry_of_held? known
    obtain rfl := eq_of_beq same
    exact ⟨inv.congr rfl rfl rfl, rfl, rfl, entry⟩
  | loaded new => exact ⟨inv.loading current _, rfl, rfl, rfl⟩

/-- The stages before the dispatch leave its cell alone. -/
lemma output_of_steps {i : ModuleInput} {m : SyntheticModule} {outcome : LoadOutcome γ}
    {c₁ c₂ : PipelineCells δ γ} (module : ModuleStep h c i m c₁) (load : LoadStep h c₁ m outcome c₂) :
    c₂.output = c.output := by
  cases module with
  | held => cases load <;> rfl
  | built => cases load <;> rfl

lemma chronicle_unbuilt (inv : c.Chronicle h bs) (module : c'.module = c.module) (epoch : c'.epoch = c.epoch)
    (load : c'.load = c.load) : c'.Chronicle h (bs ++ (c.build? c').toList) := by
  have none_begun : c.build? c' = none := if_pos (by rw [module])
  rw [none_begun, Option.toList_none, List.append_nil]
  exact inv.congr epoch (congrArg Memo.peek module) (congrArg Memo.entry load)

variable [Digest δ] [BEq δ] {model : Model}

/-- A pass that has loaded its module keeps the chronicle; the module is the current one, and was loaded. -/
lemma chronicle_loaded (inv : c.Chronicle h bs) {m : SyntheticModule} {outcome : LoadOutcome γ}
    {c₁ c₂ : PipelineCells δ γ} (module : ModuleStep h (c.collected config model) (c.input config model) m c₁)
    (load : LoadStep h c₁ m outcome c₂) :
    c₂.Chronicle h (bs ++ (c.build? c₂).toList) ∧ c₂.currentModule = some m ∧
      c₂.load.entry = some (m.epoch, outcome) := by
  have collected : (c.collected config model).Chronicle h bs := inv.congr rfl rfl rfl
  obtain ⟨inv₁, current⟩ := module.chronicle collected
  obtain ⟨inv₂, module_same, epoch_same, entry⟩ := load.chronicle inv₁ current
  have same : c.build? c₂ = (c.collected config model).build? c₁ := by
    rw [PipelineCells.build?, PipelineCells.currentModule, module_same, epoch_same]
    rfl
  exact ⟨same ▸ inv₂, (congrArg Memo.peek module_same).trans current, entry⟩

lemma Stopped.chronicle (stopped : Stopped h config model c c') (inv : c.Chronicle h bs) :
    c'.Chronicle h (bs ++ (c.build? c').toList) := by
  cases stopped with
  | afterFragments => exact chronicle_unbuilt inv rfl rfl rfl
  | afterGlobals => exact chronicle_unbuilt inv rfl rfl rfl
  | inBuild new =>
    have begun : c.build? (c.collected config model).building = some ⟨c.epoch.next, none⟩ := by
      have counted : (c.collected config model).building.module.stats.misses ≠ c.module.stats.misses :=
        Nat.succ_ne_self _
      rw [PipelineCells.build?, if_neg counted]
      exact congrArg (fun m? => some (Build.mk c.epoch.next m?)) (if_pos rfl)
    rw [begun]
    exact inv.building.congr rfl rfl rfl
  | afterModule module => exact (module.chronicle (inv.congr rfl rfl rfl)).1
  | afterLoad module load => exact (chronicle_loaded inv module load).1

variable [Generator γ]

/-- A pass that comes to its end keeps the chronicle, and is about the current module: that one is loaded, and
that one is dispatched unless the output is remembered. -/
lemma Completed.chronicle {out : GenerationOutput} (done : Completed h config model c out c')
    (inv : c.Chronicle h bs) :
    c'.Chronicle h (bs ++ (c.build? c').toList) ∧
      ∃ m outcome, c'.currentModule = some m ∧ c'.load.entry = some (m.epoch, outcome) ∧
        (∃ s, (h.load m s).1 = outcome) ∧
        (c'.output.stats.misses ≠ c.output.stats.misses → out = outputOf model m outcome) := by
  obtain @⟨m, outcome, _, c₁, c₂, _, module, load, output⟩ := done
  obtain ⟨inv₂, current, entry⟩ := chronicle_loaded inv module load
  obtain ⟨m', there, epoch, s, answer⟩ := inv₂.loaded m.epoch outcome entry
  obtain rfl : m' = m := inv₂.eq_of_epoch there (inv₂.mem_of_current current) epoch
  have before : c₂.output = (c.collected config model).output := output_of_steps module load
  cases output with
  | held known =>
    refine ⟨inv₂.congr rfl rfl rfl, m', outcome, current, entry, ⟨s, answer⟩, ?_⟩
    intro computed
    exact absurd (congrArg (·.stats.misses) before) computed
  | dispatched new =>
    exact ⟨inv₂.congr rfl rfl rfl, m', outcome, current, entry, ⟨s, answer⟩, fun _ => rfl⟩

end Pass

lemma PassCall.chronicle [Digest δ] [BEq δ] [Generator γ] {h : Host β γ} {config : Config} {bs : List Build}
    {c : PipelineCells δ γ} (inv : c.Chronicle h bs) (k : PassCall β) :
    (k.run h config c).2.Chronicle h (bs ++ (c.build? (k.run h config c).2).toList) := by
  obtain ⟨model, out, -, -, completed⟩ | ⟨-, same | ⟨model, -, stopped⟩⟩ := k.run_steps h config c
  · exact (completed.chronicle inv).1
  · exact chronicle_unbuilt inv (by rw [same]) (by rw [same]) (by rw [same])
  · exact stopped.chronicle inv

lemma PipelineCells.Chronicle.calls [Digest δ] [BEq δ] [Generator γ] {h : Host β γ} {config : Config}
    {bs : List Build} {c : PipelineCells δ γ} (inv : c.Chronicle h bs) (ks : List (PassCall β)) :
    (ks.foldl (fun c k => (k.run h config c).2) c).Chronicle h (bs ++ c.builds h config ks) := by
  induction ks generalizing bs c with
  | nil => exact (List.append_nil bs).symm ▸ inv
  | cons k ks ih =>
    have first : (k.run h config c).2.Chronicle h (bs ++ (c.build? (k.run h config c).2).toList) := k.chronicle inv
    have rest := ih first
    rw [List.append_assoc] at rest
    exact rest

end SourceGen
