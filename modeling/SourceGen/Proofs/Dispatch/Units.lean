import Mathlib.Data.List.Nodup
import SourceGen.Dispatch.Units

/-!
# Units of work

What one unit of work can do, and how units in a row make up a pass. A unit with a report leaves the sink as
it was (`Dispatch.Outcome.cases`). A steady generator answers alike however often it was asked before
(`Dispatch.runUnit_asked`). A pass over nodes is a run of its units, node by node
(`Dispatch.run_eq_runUnits`).
-/

namespace SourceGen

/-- A generator without a memory: its answers are settled beforehand. -/
structure Memoryless where
  accepts : NodeView → Except Fault Bool
  produces : NodeView → Production

instance : Generator Memoryless where
  prepare g _ := .ok g
  accept g _ n := (g.accepts n, g)
  produce g _ n := g.produces n

namespace Generator

lemma steady_memoryless (c : Context) (g : Memoryless) : Steady c g := by
  intro before n
  have same : shown c g before = g := by
    induction before with
    | nil => rfl
    | cons m ms ih => exact ih
  rw [same]
  exact ⟨rfl, rfl⟩

variable {γ : Type} [Generator γ] {c : Context} {g : γ}

lemma shown_append (c : Context) (g : γ) (before after : List NodeView) :
    shown c g (before ++ after) = shown c (shown c g before) after := by
  induction before generalizing g with
  | nil => rfl
  | cons n ns ih => exact ih (accept g c n).2

end Generator

/-- How a production ends against the sink of its unit: each offer is answered, and it goes on from the answer. -/
inductive Production.Ends (pass : PassSink) : UnitSink → Production → Except Fault UnitSink → Prop
  | done {u : UnitSink} : Ends pass u .done (.ok u)
  | fault {u : UnitSink} {f : Fault} : Ends pass u (.fault f) (.error f)
  | taken {u v : UnitSink} {name text : String} {next : Except GeneratorError Unit → Production}
      {r : Except Fault UnitSink} :
    u.add pass name text = .ok v → Ends pass v (next (.ok ())) r → Ends pass u (.offer name text next) r
  | refused {u : UnitSink} {name text : String} {next : Except GeneratorError Unit → Production}
      {e : GeneratorError} {r : Except Fault UnitSink} :
    u.add pass name text = .error e → Ends pass u (next (.error e)) r → Ends pass u (.offer name text next) r

/-- To carry on with a production is to bring it to its end. -/
lemma Production.ends_run (pass : PassSink) (u : UnitSink) (p : Production) : Ends pass u p (p.run pass u) := by
  induction p generalizing u with
  | done => exact .done
  | fault f => exact .fault
  | offer name text next ih =>
    rw [run]
    cases answer : u.add pass name text with
    | ok v => exact .taken answer (ih (.ok ()) v)
    | error e => exact .refused answer (ih (.error e) u)

namespace Dispatch

variable {ι γ : Type}

/-- A report about a unit of work: it names the generator and stands at the node. -/
def IsReportOf (inst : PluginInstance γ) (n : NodeView) (d : Diagnostic) : Prop :=
  ∃ f, d = .filterFailure inst.typeName f n.location ∨ d = .productionFailure inst.typeName f n.location

lemma IsReportOf.location {inst : PluginInstance γ} {n : NodeView} {d : Diagnostic}
    (h : IsReportOf inst n d) : d.location = some n.location := by
  obtain ⟨f, rfl | rfl⟩ := h <;> rfl

@[simp] lemma replace_self [DecidableEq ι] (insts : ι → PluginInstance γ) (i : ι)
    (inst : PluginInstance γ) : replace insts i inst i = inst := if_pos rfl

lemma replace_ne [DecidableEq ι] {i j : ι} (insts : ι → PluginInstance γ) (inst : PluginInstance γ)
    (ne : j ≠ i) : replace insts i inst j = insts j := if_neg ne

/-! ### One unit -/

variable [Generator γ] {c : Context}

/-- What can come of a unit of work: the sink after it, and its report. The generator is asked about the node;
only if it accepts does it produce, from the state in which the question left it, and what it produces is published
as a whole. -/
inductive Outcome (c : Context) (pass : PassSink) (i : PluginInstance γ) (n : NodeView) :
    PassSink → Option Diagnostic → Prop
  | unanswered {g : γ} {f : Fault} : Generator.accept i.generator c n = (.error f, g) →
    Outcome c pass i n pass (some (.filterFailure i.typeName f n.location))
  | declined {g : γ} : Generator.accept i.generator c n = (.ok false, g) → Outcome c pass i n pass none
  | faulted {g : γ} {f : Fault} : Generator.accept i.generator c n = (.ok true, g) →
    Production.Ends pass (.new i.typeName n.id) (Generator.produce g c n) (.error f) →
    Outcome c pass i n pass (some (.productionFailure i.typeName f n.location))
  | refused {g : γ} {u : UnitSink} {f : Fault} : Generator.accept i.generator c n = (.ok true, g) →
    Production.Ends pass (.new i.typeName n.id) (Generator.produce g c n) (.ok u) → u.commit pass = .error f →
    Outcome c pass i n pass (some (.productionFailure i.typeName f n.location))
  | published {g : γ} {u : UnitSink} {q : PassSink} : Generator.accept i.generator c n = (.ok true, g) →
    Production.Ends pass (.new i.typeName n.id) (Generator.produce g c n) (.ok u) → u.commit pass = .ok q →
    Outcome c pass i n q none

/-- What a unit of work does: the question changes the generator, what comes of the unit is one of the outcomes,
and the generator is called to produce exactly if it accepts. -/
lemma runUnit_spec (c : Context) (pass : PassSink) (i : PluginInstance γ) (n : NodeView) :
    let u := runUnit c pass i n
    let asked := Generator.accept i.generator c n
    u.inst = { i with generator := asked.2 } ∧ Outcome c pass i n u.pass u.report ∧
      u.calls = .accept n.id :: if asked.1 matches .ok true then [.produce n.id] else [] := by
  cases asked : Generator.accept i.generator c n with
  | mk answer g =>
    simp only [runUnit, PluginInstance.accept, asked]
    cases answer with
    | error f => exact ⟨rfl, .unanswered asked, rfl⟩
    | ok yes =>
      cases yes with
      | false => exact ⟨rfl, .declined asked, rfl⟩
      | true =>
        have ended := (Generator.produce g c n).ends_run pass (.new i.typeName n.id)
        simp only [produceUnit, PluginInstance.produce]
        generalize (Generator.produce g c n).run pass (.new i.typeName n.id) = produced at ended
        cases produced with
        | error f => exact ⟨rfl, .faulted asked ended, rfl⟩
        | ok u =>
          cases committed : u.commit pass with
          | error f =>
            simp only [committed]
            exact ⟨trivial, .refused asked ended committed, rfl⟩
          | ok q =>
            simp only [committed]
            exact ⟨trivial, .published asked ended committed, rfl⟩

/-- A unit of work changes no more of its instance than the generator, which was shown the node. -/
lemma runUnit_inst (c : Context) (pass : PassSink) (i : PluginInstance γ) (n : NodeView) :
    (runUnit c pass i n).inst = { i with generator := (Generator.accept i.generator c n).2 } :=
  (runUnit_spec c pass i n).1

/-- A unit of work has no report, or it has one and leaves the sink as it was. -/
lemma Outcome.cases {pass q : PassSink} {i : PluginInstance γ} {n : NodeView} {report : Option Diagnostic}
    (h : Outcome c pass i n q report) : report = none ∨ q = pass ∧ ∃ d, report = some d ∧ IsReportOf i n d := by
  cases h with
  | unanswered => exact .inr ⟨rfl, _, rfl, _, .inl rfl⟩
  | declined => exact .inl rfl
  | faulted => exact .inr ⟨rfl, _, rfl, _, .inr rfl⟩
  | refused => exact .inr ⟨rfl, _, rfl, _, .inr rfl⟩
  | published => exact .inl rfl

/-- An instance as it may have become by being shown nodes. -/
def Asked (c : Context) (i j : PluginInstance γ) : Prop :=
  ∃ ns, j = { i with generator := Generator.shown c i.generator ns }

lemma Asked.refl (c : Context) (i : PluginInstance γ) : Asked c i i := ⟨[], rfl⟩

lemma Asked.runUnit {i j : PluginInstance γ} (h : Asked c i j) (pass : PassSink) (n : NodeView) :
    Asked c i (runUnit c pass j n).inst := by
  obtain ⟨ns, rfl⟩ := h
  refine ⟨ns ++ [n], ?_⟩
  rw [runUnit_inst, Generator.shown_append]
  rfl

/-- A steady generator does a unit of work alike, whatever it was shown before. -/
lemma runUnit_asked {i j : PluginInstance γ} (steady : Generator.Steady c i.generator) (h : Asked c i j)
    (pass : PassSink) (n : NodeView) :
    (runUnit c pass j n).pass = (runUnit c pass i n).pass ∧
      (runUnit c pass j n).report = (runUnit c pass i n).report := by
  obtain ⟨ns, rfl⟩ := h
  have answer := (steady ns n).1
  have later : Generator.produce (Generator.shown c i.generator (ns ++ [n])) c n =
      Generator.produce (Generator.shown c i.generator [n]) c n :=
    (steady (ns ++ [n]) n).2.trans (steady [n] n).2.symm
  rw [Generator.shown_append] at later
  simp only [Generator.shown] at later
  simp only [Dispatch.runUnit, PluginInstance.accept, answer, produceUnit, PluginInstance.produce, later]
  cases (Generator.accept i.generator c n).1 with
  | error f => exact ⟨rfl, rfl⟩
  | ok yes =>
    cases yes with
    | false => exact ⟨rfl, rfl⟩
    | true =>
      simp only
      split <;> exact ⟨rfl, rfl⟩

/-! ### Units in a row -/

variable [DecidableEq ι] {insts : ι → PluginInstance γ}

/-- Instances that were shown nodes are still such after one more unit of work. -/
lemma Asked.replace {now : ι → PluginInstance γ} (h : ∀ j, Asked c (insts j) (now j)) (pass : PassSink)
    (i : ι) (n : NodeView) :
    ∀ j, Asked c (insts j) (Dispatch.replace now i (Dispatch.runUnit c pass (now i) n).inst j) := by
  intro j
  by_cases eq : j = i
  · subst eq
    rw [replace_self]
    exact (h j).runUnit pass n
  · rw [replace_ne now _ eq]
    exact h j

lemma length_reports (insts : ι → PluginInstance γ) (pass : PassSink) (units : List (ι × NodeView)) :
    (runUnits c insts pass units).reports.length = units.length := by
  induction units generalizing insts pass with
  | nil => rfl
  | cons u us ih => exact congrArg Nat.succ (ih _ _)

lemma runUnits_append (insts : ι → PluginInstance γ) (pass : PassSink) (us vs : List (ι × NodeView)) :
    let first := runUnits c insts pass us
    let second := runUnits c first.insts first.pass vs
    runUnits c insts pass (us ++ vs) = { second with reports := first.reports ++ second.reports } := by
  induction us generalizing insts pass with
  | nil => rfl
  | cons u us ih =>
    simp only [List.cons_append, runUnits, ih]

/-- Units leave alone the instances of other keys. -/
lemma runUnits_insts_ne (insts : ι → PluginInstance γ) (pass : PassSink) (units : List (ι × NodeView))
    {j : ι} (other : ∀ u ∈ units, u.1 ≠ j) : (runUnits c insts pass units).insts j = insts j := by
  induction units generalizing insts pass with
  | nil => rfl
  | cons u us ih =>
    have ne : j ≠ u.1 := (other u List.mem_cons_self).symm
    have rest := ih (replace insts u.1 (runUnit c pass (insts u.1) u.2).inst)
      (runUnit c pass (insts u.1) u.2).pass fun v hv => other v (List.mem_cons_of_mem u hv)
    exact rest.trans (replace_ne insts _ ne)

/-! ### A pass as units in a row -/

/-- To show a node to one generator after the other is to do the units of that node. -/
lemma runNode_eq (n : NodeView) {keys : List ι} (distinct : keys.Nodup) (rs : List (Ready γ))
    (insts : ι → PluginInstance γ) (pass : PassSink) (same : rs.map (·.inst) = keys.map insts) :
    let units := runUnits c insts pass (keys.map (·, n))
    (runNode c n pass rs).1.map (·.inst) = keys.map units.insts ∧
      (runNode c n pass rs).2.1 = units.pass ∧ (runNode c n pass rs).2.2.1 = units.diagnostics := by
  induction keys generalizing rs insts pass with
  | nil =>
    cases rs with
    | nil => exact ⟨rfl, rfl, rfl⟩
    | cons r rs => cases same
  | cons i is ih =>
    cases rs with
    | nil => cases same
    | cons r rs =>
      obtain ⟨first, later⟩ := List.cons.inj same
      obtain ⟨fresh, distinct⟩ := List.nodup_cons.mp distinct
      have ne : ∀ j ∈ is, j ≠ i := fun j hj eq => fresh (eq ▸ hj)
      have first : r.inst = insts i := first
      -- the unit of the first instance changes no other one, so the rest starts from the same instances
      have kept : rs.map (·.inst) = is.map (replace insts i (runUnit c pass (insts i) n).inst) :=
        later.trans (List.map_congr_left fun j hj => (replace_ne insts _ (ne j hj)).symm)
      obtain ⟨insts_eq, pass_eq, reports_eq⟩ := ih distinct rs _ (runUnit c pass (insts i) n).pass kept
      have head := runUnits_insts_ne (c := c) (replace insts i (runUnit c pass (insts i) n).inst)
        (runUnit c pass (insts i) n).pass (is.map (·, n)) (j := i) fun u hu => by
          obtain ⟨j, hj, rfl⟩ := List.mem_map.mp hu
          exact ne j hj
      rw [replace_self] at head
      simp only [runNode, List.map_cons, runUnits, first]
      refine ⟨?_, pass_eq, ?_⟩
      · rw [insts_eq, head]
      · rw [reports_eq]
        simp only [UnitsResult.diagnostics, List.filterMap_cons, id]
        cases (runUnit c pass (insts i) n).report <;> rfl

/-- To show all nodes to all generators is to do the units, node by node. -/
lemma runNodes_eq (nodes : List NodeView) {keys : List ι} (distinct : keys.Nodup) (rs : List (Ready γ))
    (insts : ι → PluginInstance γ) (pass : PassSink) (same : rs.map (·.inst) = keys.map insts) :
    let units := runUnits c insts pass (nodeMajor keys nodes)
    (runNodes c pass rs nodes).1 = units.pass ∧ (runNodes c pass rs nodes).2.1 = units.diagnostics := by
  induction nodes generalizing rs insts pass with
  | nil => exact ⟨rfl, rfl⟩
  | cons n ns ih =>
    obtain ⟨insts_eq, pass_eq, reports_eq⟩ := runNode_eq (c := c) n distinct rs insts pass same
    obtain ⟨later_pass, later_reports⟩ := ih _ _ (runUnits c insts pass (keys.map (·, n))).pass insts_eq
    have split : nodeMajor keys (n :: ns) = keys.map (·, n) ++ nodeMajor keys ns := rfl
    simp only [split, runUnits_append, runNodes, pass_eq, reports_eq, later_pass, later_reports,
      UnitsResult.diagnostics, List.filterMap_append, and_self]

/-- The instances that are ready after all were prepared. -/
def readyInsts (c : Context) (epoch : Epoch) (instances : List (PluginInstance γ)) :
    List (PluginInstance γ) :=
  (prepareAll c epoch 0 instances).1.map (·.inst)

/-- A pass does its units in a row: its sources are those that the units publish, and its reports are those of
generators that could not be prepared, then those of the units. -/
lemma run_eq_runUnits {epoch : Epoch} {instances : List (PluginInstance γ)} {keys : List ι}
    (distinct : keys.Nodup) (ready : readyInsts c epoch instances = keys.map insts)
    (nodes : List NodeView) :
    let units := runUnits c insts .empty (nodeMajor keys nodes)
    run c epoch instances nodes =
      ⟨units.pass.sources, (prepareAll c epoch 0 instances).2.1 ++ units.diagnostics⟩ := by
  obtain ⟨pass_eq, reports_eq⟩ :=
    runNodes_eq (c := c) nodes distinct (prepareAll c epoch 0 instances).1 insts .empty ready
  simp only [run, runTraced, pass_eq, reports_eq]

end Dispatch

end SourceGen
