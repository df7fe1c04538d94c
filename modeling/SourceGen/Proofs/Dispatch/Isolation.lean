import SourceGen.Proofs.Dispatch.Units

/-!
# Isolation of faults

A unit of work that faults, while it looks at its node, while it produces or when it commits, costs only
itself. Units share the sink, so that the fate of one depends on what earlier ones published; but a unit
with a report leaves the sink as it was, and by induction over the run the units behind it do what they
would have done without it (`Dispatch.runUnits_sound`). `Dispatch.faults_isolated` is the whole statement.
-/

namespace SourceGen

namespace Dispatch

variable {ι γ : Type} [DecidableEq ι] [Generator γ] {c : Context}

/-- The units of a run with those of their reports that are of a kind. -/
def unitsWith (kind : Option Diagnostic → Bool) (units : List (ι × NodeView))
    (reports : List (Option Diagnostic)) : List (ι × NodeView) :=
  ((units.zip reports).filter fun u => kind u.2).map (·.1)

/-- The units of a run that have no report. -/
abbrev soundUnits (units : List (ι × NodeView)) (reports : List (Option Diagnostic)) :
    List (ι × NodeView) :=
  unitsWith Option.isNone units reports

/-- The units of a run that have a report. -/
abbrev faultyUnits (units : List (ι × NodeView)) (reports : List (Option Diagnostic)) :
    List (ι × NodeView) :=
  unitsWith Option.isSome units reports

/-- Without its faulty units a run publishes the same, and reports nothing. The two runs may start with
instances that were shown different nodes before. -/
lemma runUnits_sound {insts now later : ι → PluginInstance γ}
    (steady : ∀ i, Generator.Steady c (insts i).generator) (units : List (ι × NodeView)) (pass : PassSink)
    (h : ∀ i, Asked c (insts i) (now i)) (h' : ∀ i, Asked c (insts i) (later i)) :
    let full := runUnits c now pass units
    let reduced := runUnits c later pass (soundUnits units full.reports)
    reduced.pass = full.pass ∧ ∀ r ∈ reduced.reports, r = none := by
  induction units generalizing now later pass with
  | nil => exact ⟨rfl, fun _ hr => absurd hr List.not_mem_nil⟩
  | cons u us ih =>
    obtain ⟨i, n⟩ := u
    have next := Asked.replace h pass i n
    obtain ⟨pass_now, report_now⟩ := runUnit_asked (steady i) (h i) pass n
    cases (runUnit_spec c pass (now i) n).2.1.cases with
    | inl sound =>
      -- the unit is in both runs, where it does the same
      obtain ⟨pass_later, report_later⟩ := runUnit_asked (steady i) (h' i) pass n
      have next' := Asked.replace h' pass i n
      obtain ⟨same, silent⟩ := ih (runUnit c pass (now i) n).pass next next'
      rw [pass_now, ← pass_later] at same silent
      have silent_unit : (runUnit c pass (later i) n).report = none :=
        report_later.trans (report_now.symm.trans sound)
      simp only [runUnits, soundUnits, unitsWith, List.zip_cons_cons, sound, List.filter_cons,
        Option.isNone_none, if_true, List.map_cons, pass_now, ← pass_later]
      refine ⟨same, fun r hr => ?_⟩
      cases List.mem_cons.mp hr with
      | inl eq => exact eq.trans silent_unit
      | inr hr => exact silent r hr
    | inr faulty =>
      -- the unit is in the full run only, and leaves nothing behind there
      obtain ⟨same_pass, d, report, -⟩ := faulty
      have rest := ih pass next h'
      simpa only [runUnits, soundUnits, unitsWith, List.zip_cons_cons, report, List.filter_cons,
        Option.isNone_some, Bool.false_eq_true, if_false, same_pass] using rest

/-- The reports of a run belong to its faulty units, one to each, in order. -/
lemma reports_of_faulty {insts now : ι → PluginInstance γ} (units : List (ι × NodeView)) (pass : PassSink)
    (h : ∀ i, Asked c (insts i) (now i)) :
    let full := runUnits c now pass units
    List.Forall₂ (fun u d => IsReportOf (insts u.1) u.2 d) (faultyUnits units full.reports)
      full.diagnostics := by
  induction units generalizing now pass with
  | nil => exact .nil
  | cons u us ih =>
    obtain ⟨i, n⟩ := u
    have rest := ih (runUnit c pass (now i) n).pass (Asked.replace h pass i n)
    cases (runUnit_spec c pass (now i) n).2.1.cases with
    | inl sound =>
      simpa [runUnits, faultyUnits, unitsWith, UnitsResult.diagnostics, sound] using rest
    | inr faulty =>
      obtain ⟨-, d, report, about⟩ := faulty
      have name : (now i).typeName = (insts i).typeName := by
        obtain ⟨ns, eq⟩ := h i
        rw [eq]
      have about : IsReportOf (insts i) n d := by
        rwa [IsReportOf, name] at about
      have both := List.Forall₂.cons (R := fun u d => IsReportOf (insts u.1) u.2 d) (a := (i, n)) about rest
      simpa [runUnits, faultyUnits, unitsWith, UnitsResult.diagnostics, report] using both

/-- Faults are isolated. In a run of units with steady generators, the units without those that have a report
publish the same sources and report nothing; and every unit with a report has exactly one, which names its
generator and stands at its node, in the order of the units. -/
theorem faults_isolated (c : Context) (insts : ι → PluginInstance γ)
    (steady : ∀ i, Generator.Steady c (insts i).generator) (pass : PassSink)
    (units : List (ι × NodeView)) :
    let full := runUnits c insts pass units
    let reduced := runUnits c insts pass (soundUnits units full.reports)
    reduced.pass.sources = full.pass.sources ∧ reduced.diagnostics = [] ∧
      List.Forall₂ (fun u d => IsReportOf (insts u.1) u.2 d) (faultyUnits units full.reports)
        full.diagnostics := by
  intro full reduced
  have unasked : ∀ i, Asked c (insts i) (insts i) := fun i => .refl c (insts i)
  obtain ⟨same, silent⟩ := runUnits_sound steady units pass unasked unasked
  refine ⟨congrArg PassSink.sources same, ?_, reports_of_faulty units pass unasked⟩
  exact List.filterMap_eq_nil_iff.mpr silent

/-- A node without a name. -/
def plainNode (id : Nat) : NodeView := ⟨id, .fn, none, [], [], "", ⟨"src/lib.rs", id + 1, 1⟩⟩

/-- A generator that produces well for the first node and faults for all others, after it has staged a
source. -/
def faultyLater : Memoryless where
  accepts _ := .ok true
  produces n :=
    .offer ("s" ++ toString n.id) "" fun _ => if n.id = 0 then .done else .fault ⟨"Panic", "", ""⟩

/-- With a generator that faults for the second of three nodes and all later ones, two units are isolated. -/
theorem faults_isolated_faultyLater :
    let insts : Unit → PluginInstance Memoryless := fun _ => ⟨"G", .start, faultyLater⟩
    let units := [((), plainNode 0), ((), plainNode 1), ((), plainNode 2)]
    let full := runUnits ⟨"host", []⟩ insts .empty units
    let reduced := runUnits ⟨"host", []⟩ insts .empty (soundUnits units full.reports)
    (full.pass.sources.length = 1 ∧ full.diagnostics.length = 2) ∧
      reduced.pass.sources = full.pass.sources ∧ reduced.diagnostics = [] ∧
      List.Forall₂ (fun u d => IsReportOf (insts u.1) u.2 d) (faultyUnits units full.reports)
        full.diagnostics := by
  intro insts units full reduced
  refine ⟨⟨rfl, rfl⟩, ?_⟩
  exact faults_isolated ⟨"host", []⟩ insts (fun i => Generator.steady_memoryless _ (insts i).generator)
    .empty units

end Dispatch

end SourceGen
