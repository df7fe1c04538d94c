import Mathlib.Data.List.Infix
import SourceGen.Proofs.Dispatch.Units

/-!
# The calls of a pass

A pass makes its calls in three phases. It prepares the instances of its epoch, and then visits every node with
every instance that is ready; a visit asks whether the node is accepted, and produces if it is. What is accepted
depends on the nodes that the instance was shown before, so a visit carries these along. One visit is a step
(`Dispatch.runUnit_spec`), all visits of one node and of all nodes follow by induction
(`Dispatch.runNode_visits`, `Dispatch.runNodes_visits`), and `Dispatch.runTraced_protocol` is the whole trace,
with what the calls lead to.
-/

namespace SourceGen

namespace Dispatch

variable {γ : Type} [Generator γ]

/-- The instances of an epoch with their positions. -/
def current (epoch : Epoch) (instances : List (PluginInstance γ)) : List (PluginInstance γ × Nat) :=
  instances.zipIdx.filter (·.1.epoch = epoch)

/-- An instance at a position after it was prepared without fault. -/
def ready? (c : Context) (i : PluginInstance γ × Nat) : Option (Ready γ) :=
  match Generator.prepare i.1.generator c with
  | .ok g => some ⟨i.2, { i.1 with generator := g }⟩
  | .error _ => none

/-- The report of an instance that faulted when it was prepared. -/
def preparationReport? (c : Context) (i : PluginInstance γ × Nat) : Option Diagnostic :=
  match Generator.prepare i.1.generator c with
  | .ok _ => none
  | .error f => some (.initializationFailure i.1.typeName f)

/-- A node that is shown to an instance after other nodes. -/
structure Visit (γ : Type) where
  before : List NodeView
  node : NodeView
  ready : Ready γ

namespace Visit

/-- The instance of a visit, as the nodes before have left it. -/
def inst (c : Context) (v : Visit γ) : PluginInstance γ :=
  { v.ready.inst with generator := Generator.shown c v.ready.inst.generator v.before }

/-- What the instance of a visit answers. -/
def answer (c : Context) (v : Visit γ) : Except Fault Bool :=
  (Generator.accept (v.inst c).generator c v.node).1

/-- The calls of a visit: it asks, and produces if the answer is yes. -/
def calls (c : Context) (v : Visit γ) : List GeneratorCall :=
  ⟨v.ready.index, .accept v.node.id⟩ ::
    match v.answer c with
    | .ok true => [⟨v.ready.index, .produce v.node.id⟩]
    | _ => []

/-- Whether a report is missing or is one about a visit. -/
def IsReported (v : Visit γ) (report : Option Diagnostic) : Prop :=
  ∀ d ∈ report, IsReportOf v.ready.inst v.node d ∧ d.location = some v.node.location

end Visit

/-- Visits that are made one after the other, from one sink to another, with their reports: each comes to an
outcome for the sink that the visits before it have left. -/
inductive Made (c : Context) : PassSink → List (Visit γ) → List (Option Diagnostic) → PassSink → Prop
  | nil (p : PassSink) : Made c p [] [] p
  | cons {p q r : PassSink} {v : Visit γ} {vs : List (Visit γ)} {report : Option Diagnostic}
      {reports : List (Option Diagnostic)} :
    Outcome c p (v.inst c) v.node q report → Made c q vs reports r → Made c p (v :: vs) (report :: reports) r

/-- The visits of nodes that follow on others: node by node, and for every node instance by instance. -/
def visits (before nodes : List NodeView) (rs : List (Ready γ)) : List (Visit γ) :=
  (nodes.inits.zip nodes).flatMap fun n => rs.map (⟨before ++ n.1, n.2, ·⟩)

/-- The calls that are made to an instance at a position. -/
def callsTo (c : Context) (epoch : Epoch) (nodes : List NodeView) (i : PluginInstance γ × Nat) :
    List GeneratorCall :=
  if i.1.epoch = epoch then
    ⟨i.2, .prepare⟩ :: (visits [] nodes (ready? c i).toList).flatMap (·.calls c)
  else []

variable {c : Context}

/-! ### Preparing -/

lemma prepareAll_eq (c : Context) (epoch : Epoch) (index : Nat) (instances : List (PluginInstance γ)) :
    let known := (instances.zipIdx index).filter (·.1.epoch = epoch)
    prepareAll c epoch index instances =
      (known.filterMap (ready? c), known.filterMap (preparationReport? c), known.map (⟨·.2, .prepare⟩)) := by
  induction instances generalizing index with
  | nil => rfl
  | cons i is ih =>
    intro known
    by_cases here : i.epoch = epoch
    · have split : known = (i, index) :: (is.zipIdx (index + 1)).filter (·.1.epoch = epoch) := by
        apply List.filter_cons_of_pos
        simpa using here
      rw [split, prepareAll, ih (index + 1)]
      simp only [here, if_true, PluginInstance.prepare]
      cases prepared : Generator.prepare i.generator c <;> simp [ready?, preparationReport?, prepared, here]
    · have split : known = (is.zipIdx (index + 1)).filter (·.1.epoch = epoch) := by
        apply List.filter_cons_of_neg
        simpa using here
      rw [split, prepareAll, ih (index + 1)]
      simp only [here, if_false]

/-! ### Visiting -/

/-- An instance that is ready, after it was shown some nodes. -/
def Ready.after (c : Context) (before : List NodeView) (r : Ready γ) : Ready γ :=
  ⟨r.index, { r.inst with generator := Generator.shown c r.inst.generator before }⟩

/-- A unit of work makes the calls of its visit. -/
lemma calls_of_runUnit (before : List NodeView) (n : NodeView) (pass : PassSink) (r : Ready γ) :
    (runUnit c pass (r.after c before).inst n).calls.map (⟨r.index, ·⟩) =
      (⟨before, n, r⟩ : Visit γ).calls c := by
  rw [(runUnit_spec c pass (r.after c before).inst n).2.2, Visit.calls, List.map_cons]
  change _ :: List.map _ (if ((⟨before, n, r⟩ : Visit γ).answer c) matches .ok true then _ else _) = _
  cases answer : (⟨before, n, r⟩ : Visit γ).answer c with
  | error f => rfl
  | ok yes => cases yes <;> rfl

/-- A unit of work leaves its instance as one that was shown the node as well. -/
lemma after_of_runUnit (before : List NodeView) (n : NodeView) (pass : PassSink) (r : Ready γ) :
    (⟨r.index, (runUnit c pass (r.after c before).inst n).inst⟩ : Ready γ) = r.after c (before ++ [n]) := by
  rw [runUnit_inst, Ready.after, Ready.after, Generator.shown_append]
  rfl

/-- Visits can be made in two parts. -/
lemma Made.append {p q r : PassSink} {vs vs' : List (Visit γ)} {reports reports' : List (Option Diagnostic)}
    (first : Made c p vs reports q) (second : Made c q vs' reports' r) :
    Made c p (vs ++ vs') (reports ++ reports') r := by
  induction first with
  | nil => exact second
  | cons outcome _ ih => exact .cons outcome (ih second)

/-- A visit has no report but one that names its instance and stands at its node. -/
lemma Made.isReported {p q : PassSink} {vs : List (Visit γ)} {reports : List (Option Diagnostic)}
    (made : Made c p vs reports q) : List.Forall₂ Visit.IsReported vs reports := by
  induction made with
  | nil => exact .nil
  | @cons _ _ _ v _ _ _ outcome _ ih =>
    refine .cons (fun d hd => ?_) ih
    obtain silent | ⟨-, d', report, about⟩ := outcome.cases
    · rw [silent] at hd
      cases hd
    · rw [report] at hd
      cases hd
      exact ⟨about, about.location⟩

/-- To show a node to one instance after the other is to make a visit to each. -/
lemma runNode_visits (before : List NodeView) (n : NodeView) (pass : PassSink) (rs : List (Ready γ)) :
    let vs : List (Visit γ) := rs.map (⟨before, n, ·⟩)
    let run := runNode c n pass (rs.map (·.after c before))
    run.1 = rs.map (·.after c (before ++ [n])) ∧ run.2.2.2 = vs.flatMap (·.calls c) ∧
      ∃ reports, Made c pass vs reports run.2.1 ∧ run.2.2.1 = reports.filterMap id := by
  induction rs generalizing pass with
  | nil => exact ⟨rfl, rfl, [], .nil pass, rfl⟩
  | cons r rs ih =>
    intro vs run
    -- the other instances write into the sink as the first one leaves it
    obtain ⟨after, calls, reports, made, diagnostics⟩ := ih (runUnit c pass (r.after c before).inst n).pass
    let report := (runUnit c pass (r.after c before).inst n).report
    have first := (runUnit_spec c pass (r.after c before).inst n).2.1
    refine ⟨?_, ?_, report :: reports, .cons first made, ?_⟩
    · exact congr (congrArg List.cons (after_of_runUnit before n pass r)) after
    · exact congr (congrArg List.append (calls_of_runUnit before n pass r)) calls
    · have split : (report :: reports).filterMap id = report.toList ++ reports.filterMap id := by
        cases report <;> rfl
      rw [split, ← diagnostics]
      rfl

omit [Generator γ] in
lemma visits_cons (before : List NodeView) (n : NodeView) (ns : List NodeView) (rs : List (Ready γ)) :
    visits before (n :: ns) rs = rs.map (⟨before, n, ·⟩) ++ visits (before ++ [n]) ns rs := by
  simp [visits, List.zip_map_left, List.flatMap_map]

/-- To show all nodes to all instances is to make all visits. -/
lemma runNodes_visits (before nodes : List NodeView) (pass : PassSink) (rs : List (Ready γ)) :
    let run := runNodes c pass (rs.map (·.after c before)) nodes
    run.2.2 = (visits before nodes rs).flatMap (·.calls c) ∧
      ∃ reports, Made c pass (visits before nodes rs) reports run.1 ∧ run.2.1 = reports.filterMap id := by
  induction nodes generalizing before pass with
  | nil => exact ⟨rfl, [], .nil pass, rfl⟩
  | cons n ns ih =>
    intro run
    obtain ⟨after, calls, reports, made, diagnostics⟩ := runNode_visits (c := c) before n pass rs
    -- the rest is shown to instances that have also seen `n`, which is why `before` varies in the induction
    obtain ⟨later, more, made', diagnostics'⟩ :=
      ih (before ++ [n]) (runNode c n pass (rs.map (·.after c before))).2.1
    rw [← after] at later made' diagnostics'
    rw [visits_cons]
    refine ⟨?_, reports ++ more, made.append made', ?_⟩
    · rw [List.flatMap_append, ← calls, ← later]
      rfl
    · rw [List.filterMap_append, ← diagnostics, ← diagnostics']
      rfl

/-! ### The calls to one instance -/

lemma zipIdx_filter {α : Type} (l : List α) (start k : Nat) :
    (l.zipIdx start).filter (·.2 = start + k) = (l[k]?.map (·, start + k)).toList := by
  induction l generalizing start k with
  | nil => rfl
  | cons a as ih =>
    rw [List.zipIdx_cons]
    cases k with
    | zero =>
      have behind : (as.zipIdx (start + 1)).filter (·.2 = start + 0) = [] := by
        apply List.filter_eq_nil_iff.mpr
        intro e he
        have := List.le_snd_of_mem_zipIdx he
        simp only [decide_eq_true_eq]
        omega
      rw [List.filter_cons_of_pos (by simp), behind]
      rfl
    | succ k =>
      rw [List.filter_cons_of_neg (by simp), show start + (k + 1) = start + 1 + k by omega, ih]
      rfl

omit [Generator γ] in
lemma filter_current {epoch : Epoch} {instances : List (PluginInstance γ)} {k : Nat} {i : PluginInstance γ}
    (there : instances[k]? = some i) :
    (current epoch instances).filter (·.2 = k) = if i.epoch = epoch then [(i, k)] else [] := by
  have alone : instances.zipIdx.filter (·.2 = k) = [(i, k)] := by
    simpa [there] using zipIdx_filter instances 0 k
  rw [current, List.filter_comm, alone]
  by_cases here : i.epoch = epoch <;> simp [here]

lemma filter_calls (k : Nat) (v : Visit γ) :
    (v.calls c).filter (·.index = k) = if v.ready.index = k then v.calls c else [] := by
  have index : ∀ x ∈ v.calls c, x.index = v.ready.index := by
    intro x hx
    rw [Visit.calls] at hx
    split at hx
    case h_1 =>
      cases hx with
      | head => rfl
      | tail _ hx => exact List.mem_singleton.mp hx ▸ rfl
    case h_2 => exact List.mem_singleton.mp hx ▸ rfl
  split
  case isTrue here => exact List.filter_eq_self.mpr fun x hx => by simpa [here] using index x hx
  case isFalse there => exact List.filter_eq_nil_iff.mpr fun x hx => by simpa [index x hx] using there

lemma filter_flatMap_calls (k : Nat) (vs : List (Visit γ)) :
    (vs.flatMap (·.calls c)).filter (·.index = k) = (vs.filter (·.ready.index = k)).flatMap (·.calls c) := by
  induction vs with
  | nil => rfl
  | cons v vs ih =>
    rw [List.flatMap_cons, List.filter_append, ih, filter_calls]
    by_cases here : v.ready.index = k <;> simp [here]

omit [Generator γ] in
lemma filter_visits (k : Nat) (before nodes : List NodeView) (rs : List (Ready γ)) :
    (visits before nodes rs).filter (·.ready.index = k) = visits before nodes (rs.filter (·.index = k)) := by
  simp only [visits, List.filter_flatMap, List.filter_map]
  rfl

lemma index_of_ready? {i : PluginInstance γ × Nat} {r : Ready γ} (h : ready? c i = some r) : r.index = i.2 := by
  unfold ready? at h
  split at h
  · cases h
    rfl
  · cases h

lemma filter_ready? (k : Nat) (known : List (PluginInstance γ × Nat)) :
    (known.filterMap (ready? c)).filter (·.index = k) = (known.filter (·.2 = k)).filterMap (ready? c) := by
  induction known with
  | nil => rfl
  | cons i is ih =>
    cases prepared : ready? c i with
    | none => by_cases here : i.2 = k <;> simp [prepared, here, ih]
    | some r =>
      have index := index_of_ready? prepared
      by_cases here : i.2 = k <;> simp [prepared, here, index, ih]

/-- A pass prepares the instances of its epoch in their order, and then makes its visits; a visit asks once, and
produces exactly if the answer is yes. So an instance of another epoch is not called, and one that faults when it is
prepared is not called again. The visits lead, each from the sink that the one before has left, to what the pass puts
out. The reports are those of preparations, which have no place, and then those of visits, at most one each, which
stand at their nodes. -/
theorem runTraced_protocol (c : Context) (epoch : Epoch) (instances : List (PluginInstance γ))
    (nodes : List NodeView) :
    let known := current epoch instances
    let vs := visits [] nodes (known.filterMap (ready? c))
    let pass := runTraced c epoch instances nodes
    pass.2 = known.map (⟨·.2, .prepare⟩) ++ vs.flatMap (·.calls c) ∧
      (∀ k i, instances[k]? = some i → pass.2.filter (·.index = k) = callsTo c epoch nodes (i, k)) ∧
      (∀ d ∈ known.filterMap (preparationReport? c), d.location = none) ∧
      ∃ reports sink, Made c .empty vs reports sink ∧ List.Forall₂ Visit.IsReported vs reports ∧
        pass.1 = ⟨sink.sources, known.filterMap (preparationReport? c) ++ reports.filterMap id⟩ := by
  intro known vs pass
  have prepared := prepareAll_eq c epoch 0 instances
  have started : (known.filterMap (ready? c)).map (·.after c []) = known.filterMap (ready? c) :=
    List.map_id' _
  obtain ⟨calls, reports, made, diagnostics⟩ :=
    runNodes_visits (c := c) [] nodes .empty (known.filterMap (ready? c))
  rw [started] at calls made diagnostics
  have trace : pass.2 = known.map (⟨·.2, .prepare⟩) ++ vs.flatMap (·.calls c) := by
    simp only [pass, runTraced, prepared]
    rw [← calls]
    rfl
  refine ⟨trace, ?_, ?_, reports, _, made, made.isReported, ?_⟩
  · intro k i there
    have own : known.filter (·.2 = k) = if i.epoch = epoch then [(i, k)] else [] := filter_current there
    have preparations : (known.map fun i => (⟨i.2, .prepare⟩ : GeneratorCall)).filter (·.index = k) =
        (known.filter (·.2 = k)).map (⟨·.2, .prepare⟩) := List.filter_map
    rw [trace, List.filter_append, preparations, filter_flatMap_calls, filter_visits, filter_ready?, own, callsTo]
    split
    case isTrue => cases prepared : ready? c (i, k) <;> simp [prepared]
    case isFalse => simp [visits]
  · intro d hd
    obtain ⟨i, -, report⟩ := List.mem_filterMap.mp hd
    unfold preparationReport? at report
    split at report
    · cases report
    · cases report
      rfl
  · simp only [pass, runTraced, prepared]
    rw [← diagnostics]
    rfl

end Dispatch

end SourceGen
