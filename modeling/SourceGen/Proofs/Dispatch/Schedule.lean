import Mathlib.Data.List.Lattice
import SourceGen.Dispatch.Interleaving
import SourceGen.Proofs.Dispatch.Sink
import SourceGen.Proofs.Dispatch.Units

/-!
# Independence of schedules

Units of work that attempt different names do not notice each other: whatever the schedule, each of them does
what it does on its own (`Dispatch.alone`). The invariant is `Interleaving.Coherent`; one step keeps it
(`Interleaving.Coherent.step`), so every schedule that ends all units ends in the same place. The sequential
pass is one of these schedules (`Interleaving.sequential_schedule`). `Interleaving.schedule_independent` puts
both together.
-/

namespace SourceGen

namespace Production

/-- The names that a production offers, against the sink of its unit. -/
def offers (pass : PassSink) (u : UnitSink) : Production → List String
  | .done => []
  | .fault _ => []
  | .offer name text next =>
    name ::
      match u.add pass name text with
      | .ok u => offers pass u (next (.ok ()))
      | .error e => offers pass u (next (.error e))

/-- What a production has staged in the end was staged before, or was offered. -/
lemma mem_staged_run {pass : PassSink} {u v : UnitSink} {rest : Production}
    (h : rest.run pass u = .ok v) : ∀ e ∈ v.staged, e ∈ u.staged ∨ e.1 ∈ rest.offers pass u := by
  induction rest generalizing u with
  | done =>
    cases h
    exact fun e he => .inl he
  | fault f => cases h
  | offer name text next ih =>
    intro e he
    simp only [run] at h
    simp only [offers]
    cases added : u.add pass name text with
    | ok w =>
      simp only [added] at h
      obtain ⟨-, -, rfl⟩ := UnitSink.add_ok added
      cases ih (.ok ()) h e he with
      | inl staged =>
        cases List.mem_append.mp staged with
        | inl staged => exact .inl staged
        | inr new =>
          obtain rfl := List.mem_singleton.mp new
          exact .inr List.mem_cons_self
      | inr offered => exact .inr (List.mem_cons_of_mem name offered)
    | error f =>
      simp only [added] at h
      exact (ih (.error f) h e he).imp_right (List.mem_cons_of_mem name)

end Production

namespace UnitSink

/-- A commit against two sinks that agree on the staged names fails in both with the same fault, or publishes
in both what is staged. -/
lemma commit_like {u : UnitSink} {p q : PassSink} (o : p.Ordered) (d : u.Distinct)
    (same : ∀ e ∈ u.staged, p.contains e.1 = q.contains e.1) :
    (∃ f, u.commit p = .error f ∧ u.commit q = .error f) ∨
      ∃ p' q', u.commit p = .ok p' ∧ u.commit q = .ok q' ∧ p'.Ordered ∧
        p'.sources.Perm (u.toSources ++ p.sources) := by
  have alike := commit_congr same
  cases commit_cases o d with
  | inl failed =>
    obtain ⟨e, -, -, failed⟩ := failed
    cases other : u.commit q with
    | error f =>
      rw [failed, other] at alike
      cases alike
      exact .inl ⟨_, failed, rfl⟩
    | ok q' =>
      rw [failed, other] at alike
      cases alike
  | inr done =>
    obtain ⟨-, p', done, ordered, perm⟩ := done
    cases other : u.commit q with
    | error f =>
      rw [done, other] at alike
      cases alike
    | ok q' => exact .inr ⟨p', q', done, rfl, ordered, perm⟩

end UnitSink

namespace Dispatch

variable {ι γ : Type} [Generator γ]

/-- What a unit of work publishes and reports after its production. -/
def settled (base : PassSink) (i : PluginInstance γ) (n : NodeView) (produced : Except Fault UnitSink) :
    List GeneratedSource × Option Diagnostic :=
  match produced with
  | .error f => ([], some (.productionFailure i.typeName f n.location))
  | .ok u =>
    match u.commit base with
    | .error f => ([], some (.productionFailure i.typeName f n.location))
    | .ok _ => (u.toSources, none)

/-- The production of a unit of work that does its work on its own. -/
def producedAlone (c : Context) (base : PassSink) (i : PluginInstance γ) (n : NodeView) :
    Except Fault UnitSink :=
  (Generator.produce i.generator c n).run base (.new i.typeName n.id)

/-- What a unit of work publishes and reports that does its work on its own. -/
def alone (c : Context) (base : PassSink) (i : PluginInstance γ) (n : NodeView) :
    List GeneratedSource × Option Diagnostic :=
  match (Generator.accept i.generator c n).1 with
  | .error f => ([], some (.filterFailure i.typeName f n.location))
  | .ok false => ([], none)
  | .ok true => settled base i n (producedAlone c base i n)

/-- The names that a unit of work attempts on its own. -/
def attempted (c : Context) (base : PassSink) (i : PluginInstance γ) (n : NodeView) : List String :=
  match (Generator.accept i.generator c n).1 with
  | .ok true => (Generator.produce i.generator c n).offers base (.new i.typeName n.id)
  | _ => []

/-- A unit of work publishes only names that it attempts. -/
lemma mem_attempted {c : Context} {base : PassSink} {i : PluginInstance γ} {n : NodeView}
    {x : GeneratedSource} (h : x ∈ (alone c base i n).1) : x.name ∈ attempted c base i n := by
  unfold alone at h
  unfold attempted
  cases answer : (Generator.accept i.generator c n).1 with
  | error f =>
    simp only [answer] at h
    cases h
  | ok yes =>
    cases yes with
    | false =>
      simp only [answer] at h
      cases h
    | true =>
      simp only [answer, settled] at h
      cases produced : producedAlone c base i n with
      | error f =>
        simp only [produced] at h
        cases h
      | ok u =>
        simp only [produced] at h
        cases done : u.commit base with
        | error f =>
          simp only [done] at h
          cases h
        | ok q =>
          simp only [done] at h
          have staged := (UnitSink.mem_toSources.mp h).1
          cases Production.mem_staged_run produced _ staged with
          | inl before => cases before
          | inr offered => exact offered

end Dispatch

namespace Interleaving

open Dispatch

variable {ι γ : Type} [Generator γ] {c : Context} {base : PassSink} {insts : ι → PluginInstance γ}

/-! ### One unit among others -/

/-- How far a unit of work has come on the way that it takes on its own, against the sink at the start. -/
def OnItsWay (c : Context) (base : PassSink) (i : PluginInstance γ) (n : NodeView) : UnitPhase → Prop
  | .waiting => True
  | .accepted => (Generator.accept i.generator c n).1 = .ok true
  | .producing u rest =>
    (Generator.accept i.generator c n).1 = .ok true ∧ u.Distinct ∧
      (∀ e ∈ u.staged, e.1 ∈ attempted c base i n) ∧ (∀ x ∈ rest.offers base u, x ∈ attempted c base i n) ∧
      rest.run base u = producedAlone c base i n
  | .ended report => report = (alone c base i n).2

/-- What a unit of work has published, if it has ended. -/
def published (c : Context) (base : PassSink) (i : PluginInstance γ) (n : NodeView) :
    UnitPhase → List GeneratedSource
  | .ended _ => (alone c base i n).1
  | _ => []

/-- A unit of work that does not see the published names of others stays on its way: its step publishes what
it publishes on its own, or nothing. -/
lemma advance_onItsWay [DecidableEq ι] {now : ι → PluginInstance γ} {pass : PassSink} {t : UnitTask ι}
    (steady : ∀ i, Generator.Steady c (insts i).generator) (asked : ∀ i, Asked c (insts i) (now i))
    (ordered : pass.Ordered) (active : t.phase.isEnded = false)
    (h : OnItsWay c base (insts t.key) t.node t.phase)
    (unseen : ∀ x ∈ attempted c base (insts t.key) t.node, pass.contains x = base.contains x) :
    let next := advance c now pass t
    (∀ i, Asked c (insts i) (next.1 i)) ∧ next.2.1.Ordered ∧
      OnItsWay c base (insts t.key) t.node next.2.2 ∧
      next.2.1.sources.Perm (published c base (insts t.key) t.node next.2.2 ++ pass.sources) := by
  obtain ⟨key, node, phase⟩ := t
  obtain ⟨before, eq⟩ := asked key
  have name : (now key).typeName = (insts key).typeName := by rw [eq]
  -- a steady generator answers as on its own, whatever it was shown in between
  have answer : (Generator.accept (now key).generator c node).1 =
      (Generator.accept (insts key).generator c node).1 := by
    rw [eq]
    exact (steady key before node).1
  have production : Generator.produce (now key).generator c node =
      Generator.produce (insts key).generator c node := by
    rw [eq]
    exact (steady key before node).2
  cases phase with
  | ended report => cases active
  | waiting =>
    have shown : ∀ i, Asked c (insts i)
        (replace now key { now key with generator := (Generator.accept (now key).generator c node).2 } i) := by
      have later := Asked.replace asked pass key node
      rwa [runUnit_inst] at later
    cases own : (Generator.accept (insts key).generator c node).1 with
    | error f =>
      simp only [advance, answer, own]
      refine ⟨shown, ordered, ?_, ?_⟩
      · simp only [OnItsWay, alone, own, name]
      · simp only [published, alone, own, List.nil_append, List.Perm.refl]
    | ok yes =>
      cases yes with
      | false =>
        simp only [advance, answer, own]
        refine ⟨shown, ordered, ?_, ?_⟩
        · simp only [OnItsWay, alone, own]
        · simp only [published, alone, own, List.nil_append, List.Perm.refl]
      | true =>
        simp only [advance, answer, own]
        exact ⟨shown, ordered, own, .refl _⟩
  | accepted =>
    have own : (Generator.accept (insts key).generator c node).1 = .ok true := h
    simp only [advance, production, name]
    refine ⟨asked, ordered, ⟨own, UnitSink.distinct_new _ _, ?_, fun x hx => ?_, rfl⟩, .refl _⟩
    · exact fun _ he => absurd he List.not_mem_nil
    · simpa only [attempted, own] using hx
  | producing u rest =>
    obtain ⟨own, distinct, staged, offered, way⟩ := h
    cases rest with
    | done =>
      -- the commit looks up staged names only, which the unit attempts and nobody else does
      have same : ∀ e ∈ u.staged, pass.contains e.1 = base.contains e.1 := fun e he => unseen _ (staged e he)
      have outcome : alone c base (insts key) node = settled base (insts key) node (.ok u) := by
        simp only [alone, own, ← way, Production.run]
      cases UnitSink.commit_like ordered distinct same with
      | inl failed =>
        obtain ⟨f, failed, failed_alone⟩ := failed
        simp only [advance, failed, name]
        refine ⟨asked, ordered, ?_, ?_⟩
        · simp only [OnItsWay, outcome, settled, failed_alone]
        · simp only [published, outcome, settled, failed_alone, List.nil_append, List.Perm.refl]
      | inr done =>
        obtain ⟨p, q, done, done_alone, ordered', perm⟩ := done
        simp only [advance, done]
        refine ⟨asked, ordered', ?_, ?_⟩
        · simp only [OnItsWay, outcome, settled, done_alone]
        · simpa only [published, outcome, settled, done_alone] using perm
    | fault f =>
      have outcome : alone c base (insts key) node = settled base (insts key) node (.error f) := by
        simp only [alone, own, ← way, Production.run]
      simp only [advance, name]
      refine ⟨asked, ordered, ?_, ?_⟩
      · simp only [OnItsWay, outcome, settled]
      · simp only [published, outcome, settled, List.nil_append, List.Perm.refl]
    | offer x text next =>
      have fresh : x ∈ attempted c base (insts key) node := by
        refine offered x ?_
        rw [Production.offers]
        exact List.mem_cons_self
      have same : u.add pass x text = u.add base x text := UnitSink.add_congr (unseen x fresh)
      cases added : u.add base x text with
      | ok v =>
        obtain ⟨-, -, grown⟩ := UnitSink.add_ok added
        simp only [advance, same, added]
        refine ⟨asked, ordered, ⟨own, distinct.add added, fun e he => ?_, fun y hy => ?_, ?_⟩, .refl _⟩
        · rw [grown] at he
          cases List.mem_append.mp he with
          | inl he => exact staged e he
          | inr he =>
            obtain rfl := List.mem_singleton.mp he
            exact fresh
        · refine offered y ?_
          simp only [Production.offers, added]
          exact List.mem_cons_of_mem x hy
        · simpa only [Production.run, added] using way
      | error e =>
        simp only [advance, same, added]
        refine ⟨asked, ordered, ⟨own, distinct, staged, fun y hy => ?_, ?_⟩, .refl _⟩
        · refine offered y ?_
          simp only [Production.offers, added]
          exact List.mem_cons_of_mem x hy
        · simpa only [Production.run, added] using way

/-! ### All units together -/

/-- The invariant of all schedules: every unit is on its way, and the published sources are those that the
ended units publish on their own. -/
structure Coherent (c : Context) (base : PassSink) (insts : ι → PluginInstance γ)
    (units : List (ι × NodeView)) (s : Interleaving ι γ) : Prop where
  units : s.tasks.map (fun t => (t.key, t.node)) = units
  asked : ∀ i, Asked c (insts i) (s.insts i)
  ordered : s.pass.Ordered
  onTheirWay : ∀ t ∈ s.tasks, OnItsWay c base (insts t.key) t.node t.phase
  sources : s.pass.sources.Perm
    (s.tasks.flatMap (fun t => published c base (insts t.key) t.node t.phase) ++ base.sources)

/-- Units that attempt no name in common. -/
def Apart (c : Context) (base : PassSink) (insts : ι → PluginInstance γ) (units : List (ι × NodeView)) :
    Prop :=
  units.Pairwise fun u v =>
    (attempted c base (insts u.1) u.2).Disjoint (attempted c base (insts v.1) v.2)

/-- Before their first steps, all units are on their way. -/
lemma coherent_start (ordered : base.Ordered) (units : List (ι × NodeView)) :
    Coherent c base insts units (start insts base units) where
  units := by
    rw [start, List.map_map]
    exact List.map_id units
  asked := fun i => .refl c (insts i)
  ordered := ordered
  onTheirWay := fun t ht => by
    obtain ⟨u, -, rfl⟩ := List.mem_map.mp ht
    trivial
  sources := by
    have nothing : (start insts base units).tasks.flatMap
        (fun t => published c base (insts t.key) t.node t.phase) = [] := by
      refine List.flatMap_eq_nil_iff.mpr fun t ht => ?_
      obtain ⟨u, -, rfl⟩ := List.mem_map.mp ht
      rfl
    rw [nothing]
    exact .refl _

lemma mem_attempted_of_published {i : PluginInstance γ} {n : NodeView} {phase : UnitPhase}
    {x : GeneratedSource} (h : x ∈ published c base i n phase) : x.name ∈ attempted c base i n := by
  cases phase with
  | ended report => exact mem_attempted h
  | waiting => cases h
  | accepted => cases h
  | producing u rest => cases h

/-- Among units that attempt no name in common, the names that an active unit attempts are published by nobody
but those who had published them at the start. -/
lemma Coherent.unseen {s : Interleaving ι γ} {before after : List (UnitTask ι)} {t : UnitTask ι}
    {units : List (ι × NodeView)} (h : Coherent c base insts units s) (apart : Apart c base insts units)
    (tasks : s.tasks = before ++ t :: after) (active : t.phase.isEnded = false) :
    ∀ x ∈ attempted c base (insts t.key) t.node, s.pass.contains x = base.contains x := by
  intro x hx
  -- the names of `t` meet those of no other unit
  have others : ∀ o ∈ before ++ after,
      (attempted c base (insts t.key) t.node).Disjoint (attempted c base (insts o.key) o.node) := by
    have pairs := apart
    rw [Apart, ← h.units, tasks, List.pairwise_map, List.pairwise_middle fun d => d.symm] at pairs
    exact (List.pairwise_cons.mp pairs).1
  rw [Bool.eq_iff_iff, PassSink.contains_iff, PassSink.contains_iff]
  constructor
  · rintro ⟨y, hy, rfl⟩
    cases List.mem_append.mp (h.sources.mem_iff.mp hy) with
    | inr start => exact ⟨y, start, rfl⟩
    | inl later =>
      obtain ⟨o, ho, hy⟩ := List.mem_flatMap.mp later
      rw [tasks, List.mem_append, List.mem_cons] at ho
      have attempts := mem_attempted_of_published hy
      obtain ho | rfl | ho := ho
      · exact (others o (List.mem_append_left _ ho) hx attempts).elim
      · obtain ⟨key, node, phase⟩ := o
        cases phase with
        | ended report => cases active
        | waiting => cases hy
        | accepted => cases hy
        | producing u rest => cases hy
      · exact (others o (List.mem_append_right _ ho) hx attempts).elim
  · rintro ⟨y, hy, rfl⟩
    exact ⟨y, h.sources.mem_iff.mpr (List.mem_append_right _ hy), rfl⟩

lemma exists_around {α : Type} {l : List α} {k : Nat} {a : α} (h : l[k]? = some a) :
    ∃ before after, l = before ++ a :: after ∧ ∀ b, l.set k b = before ++ b :: after := by
  induction l generalizing k with
  | nil => cases h
  | cons x xs ih =>
    cases k with
    | zero =>
      cases h
      exact ⟨[], xs, rfl, fun _ => rfl⟩
    | succ k =>
      obtain ⟨before, after, eq, sets⟩ := ih h
      exact ⟨x :: before, after, congrArg (x :: ·) eq, fun b => congrArg (x :: ·) (sets b)⟩

/-- One step of any unit keeps all units on their way. -/
lemma Coherent.step [DecidableEq ι] {s : Interleaving ι γ} {units : List (ι × NodeView)}
    (steady : ∀ i, Generator.Steady c (insts i).generator) (apart : Apart c base insts units)
    (h : Coherent c base insts units s) (position : Nat) :
    Coherent c base insts units (step c s position) := by
  cases found : s.tasks[position]? with
  | none =>
    simp only [Interleaving.step, found]
    exact h
  | some t =>
    obtain ⟨before, after, tasks, sets⟩ := exists_around found
    simp only [Interleaving.step, found, sets]
    have ht : t ∈ s.tasks := List.mem_of_getElem? found
    cases active : t.phase.isEnded with
    | true =>
      -- a unit that has ended stays where it is
      obtain ⟨key, node, phase⟩ := t
      cases phase with
      | ended report =>
        simp only [advance, ← tasks]
        exact h
      | waiting => cases active
      | accepted => cases active
      | producing u rest => cases active
    | false =>
      obtain ⟨asked, ordered, way, perm⟩ := advance_onItsWay steady h.asked h.ordered active
        (h.onTheirWay t ht) (h.unseen apart tasks active)
      have nothing : published c base (insts t.key) t.node t.phase = [] := by
        cases phase : t.phase with
        | ended report => simp [phase, UnitPhase.isEnded] at active
        | waiting => rfl
        | accepted => rfl
        | producing u rest => rfl
      refine ⟨?_, asked, ordered, fun o ho => ?_, ?_⟩
      · rw [← h.units, tasks]
        simp
      · rw [List.mem_append, List.mem_cons] at ho
        obtain ho | rfl | ho := ho
        · exact h.onTheirWay o (tasks ▸ List.mem_append_left _ ho)
        · exact way
        · exact h.onTheirWay o (tasks ▸ List.mem_append_right _ (List.mem_cons_of_mem t ho))
      · have rest := h.sources
        rw [tasks] at rest
        simp only [List.flatMap_append, List.flatMap_cons, nothing, List.nil_append] at rest
        simp only [List.flatMap_append, List.flatMap_cons]
        refine perm.trans ((rest.append_left _).trans ?_)
        rw [← List.append_assoc, ← List.append_assoc, ← List.append_assoc]
        exact (List.perm_append_comm.append_right _).append_right _

lemma Coherent.run [DecidableEq ι] {s : Interleaving ι γ} {units : List (ι × NodeView)}
    (steady : ∀ i, Generator.Steady c (insts i).generator) (apart : Apart c base insts units)
    (h : Coherent c base insts units s) (schedule : List Nat) :
    Coherent c base insts units (run c s schedule) := by
  induction schedule generalizing s with
  | nil => exact h
  | cons k ks ih => exact ih (h.step steady apart k)

/-- When all units have ended, their reports and the published sources are those that the units have on their
own. -/
lemma Coherent.done {s : Interleaving ι γ} {units : List (ι × NodeView)}
    (h : Coherent c base insts units s) (done : s.isDone = true) :
    s.reports = units.map (fun u => (alone c base (insts u.1) u.2).2) ∧
      s.pass.sources.Perm (units.flatMap (fun u => (alone c base (insts u.1) u.2).1) ++ base.sources) := by
  have ended : ∀ t ∈ s.tasks, t.phase = .ended (alone c base (insts t.key) t.node).2 := fun t ht => by
    have way := h.onTheirWay t ht
    have last := List.all_eq_true.mp done t ht
    cases phase : t.phase with
    | ended report =>
      rw [phase] at way
      exact congrArg UnitPhase.ended way
    | waiting => simp [phase, UnitPhase.isEnded] at last
    | accepted => simp [phase, UnitPhase.isEnded] at last
    | producing u rest => simp [phase, UnitPhase.isEnded] at last
  constructor
  · rw [← h.units, List.map_map, reports]
    exact List.map_congr_left fun t ht => by rw [ended t ht]; rfl
  · have perm := h.sources
    rw [← h.units, List.flatMap_map]
    have same : s.tasks.flatMap (fun t => published c base (insts t.key) t.node t.phase) =
        s.tasks.flatMap (fun t => (alone c base (insts t.key) t.node).1) := by
      refine List.flatMap_congr fun t ht => ?_
      rw [ended t ht]
      rfl
    rwa [same] at perm

/-! ### The sequential pass as a schedule -/

/-- The tasks of units that have ended with some reports. -/
def endedTasks (units : List (ι × NodeView)) (reports : List (Option Diagnostic)) : List (UnitTask ι) :=
  List.zipWith (fun u r => ⟨u.1, u.2, .ended r⟩) units reports

/-- The tasks of units that have ended are done, and hold the reports. -/
lemma endedTasks_done (units : List (ι × NodeView)) {reports : List (Option Diagnostic)}
    (length : reports.length = units.length) :
    (endedTasks units reports).all (·.phase.isEnded) = true ∧
      (endedTasks units reports).map (·.phase.report?) = reports := by
  induction units generalizing reports with
  | nil =>
    obtain rfl := List.length_eq_zero_iff.mp length
    exact ⟨rfl, rfl⟩
  | cons u us ih =>
    cases reports with
    | nil => cases length
    | cons r rs =>
      obtain ⟨done, same⟩ := ih (Nat.succ.inj length)
      exact ⟨done, congrArg (r :: ·) same⟩

variable [DecidableEq ι]

/-- Whether some schedule leads from one state to another. -/
def Reaches (c : Context) (s s' : Interleaving ι γ) : Prop := ∃ schedule, run c s schedule = s'

lemma Reaches.trans {s s' s'' : Interleaving ι γ} (h : Reaches c s s') (h' : Reaches c s' s'') :
    Reaches c s s'' := by
  obtain ⟨ks, rfl⟩ := h
  obtain ⟨ls, rfl⟩ := h'
  exact ⟨ks ++ ls, List.foldl_append⟩

/-- A unit takes its step where it stands. -/
lemma step_reaches (insts : ι → PluginInstance γ) (pass : PassSink) (before after : List (UnitTask ι))
    (t : UnitTask ι) :
    let next := advance c insts pass t
    Reaches c ⟨insts, pass, before ++ t :: after⟩
      ⟨next.1, next.2.1, before ++ { t with phase := next.2.2 } :: after⟩ := by
  refine ⟨[before.length], ?_⟩
  simp [run, step]

/-- What a production comes to with the commit behind it. -/
def finish (pass : PassSink) (u : UnitSink) (rest : Production) : Except Fault PassSink :=
  match rest.run pass u with
  | .error f => .error f
  | .ok u => u.commit pass

/-- A unit that goes on alone from its production ends as the production and the commit behind it say. -/
lemma production_reaches (insts : ι → PluginInstance γ) (pass : PassSink) (before after : List (UnitTask ι))
    (key : ι) (node : NodeView) (u : UnitSink) (rest : Production) :
    Reaches c ⟨insts, pass, before ++ ⟨key, node, .producing u rest⟩ :: after⟩ <|
      match finish pass u rest with
      | .error f =>
        let report := Diagnostic.productionFailure (insts key).typeName f node.location
        ⟨insts, pass, before ++ ⟨key, node, .ended (some report)⟩ :: after⟩
      | .ok q => ⟨insts, q, before ++ ⟨key, node, .ended none⟩ :: after⟩ := by
  induction rest generalizing u with
  | done =>
    have last := step_reaches (c := c) insts pass before after ⟨key, node, .producing u .done⟩
    cases done : u.commit pass <;> simpa only [finish, Production.run, advance, done] using last
  | fault f =>
    have last := step_reaches (c := c) insts pass before after ⟨key, node, .producing u (.fault f)⟩
    simpa only [finish, Production.run, advance] using last
  | offer name text next ih =>
    have first := step_reaches (c := c) insts pass before after ⟨key, node, .producing u (.offer name text next)⟩
    cases added : u.add pass name text with
    | ok v =>
      simp only [advance, added] at first
      simpa only [finish, Production.run, added] using first.trans (ih (.ok ()) v)
    | error e =>
      simp only [advance, added] at first
      simpa only [finish, Production.run, added] using first.trans (ih (.error e) u)

lemma unit_reaches (insts : ι → PluginInstance γ) (pass : PassSink) (before after : List (UnitTask ι))
    (key : ι) (node : NodeView) :
    let u := runUnit c pass (insts key) node
    Reaches c ⟨insts, pass, before ++ ⟨key, node, .waiting⟩ :: after⟩
      ⟨replace insts key u.inst, u.pass, before ++ ⟨key, node, .ended u.report⟩ :: after⟩ := by
  have first := step_reaches (c := c) insts pass before after ⟨key, node, .waiting⟩
  cases asked : Generator.accept (insts key).generator c node with
  | mk answer g =>
    cases answer with
    | error f => simpa only [runUnit, PluginInstance.accept, asked, advance] using first
    | ok yes =>
      cases yes with
      | false => simpa only [runUnit, PluginInstance.accept, asked, advance] using first
      | true =>
        simp only [asked, advance] at first
        have second := step_reaches (c := c) (replace insts key { insts key with generator := g }) pass
          before after ⟨key, node, .accepted⟩
        simp only [advance, replace_self] at second
        have third := production_reaches (c := c) (replace insts key { insts key with generator := g }) pass
          before after key node (.new (insts key).typeName node.id) (Generator.produce g c node)
        simp only [replace_self] at third
        have all := first.trans (second.trans third)
        have produced : produceUnit c pass { insts key with generator := g } node =
            (finish pass (.new (insts key).typeName node.id) (Generator.produce g c node), [.produce node.id]) := rfl
        simp only [runUnit, PluginInstance.accept, asked, produced]
        cases finished : finish pass (.new (insts key).typeName node.id) (Generator.produce g c node) with
        | error f => simpa only [finished] using all
        | ok q => simpa only [finished] using all

/-- Units behind others that have ended can go on one by one. -/
lemma units_reach (insts : ι → PluginInstance γ) (pass : PassSink) (before : List (UnitTask ι))
    (units : List (ι × NodeView)) :
    let r := runUnits c insts pass units
    Reaches c ⟨insts, pass, before ++ units.map fun (i, n) => ⟨i, n, .waiting⟩⟩
      ⟨r.insts, r.pass, before ++ endedTasks units r.reports⟩ := by
  induction units generalizing insts pass before with
  | nil => exact ⟨[], rfl⟩
  | cons u us ih =>
    obtain ⟨i, n⟩ := u
    have first := unit_reaches (c := c) insts pass before (us.map fun (i, n) => ⟨i, n, .waiting⟩) i n
    have rest := ih (replace insts i (runUnit c pass (insts i) n).inst) (runUnit c pass (insts i) n).pass
      (before ++ [⟨i, n, .ended (runUnit c pass (insts i) n).report⟩])
    simp only [List.append_assoc, List.singleton_append] at rest
    exact first.trans rest

/-- The sequential pass is one of the schedules, and ends all units. -/
lemma sequential_schedule (c : Context) (insts : ι → PluginInstance γ) (pass : PassSink)
    (units : List (ι × NodeView)) :
    ∃ schedule, (run c (start insts pass units) schedule).isDone = true ∧
      (run c (start insts pass units) schedule).result = runUnits c insts pass units := by
  obtain ⟨schedule, reached⟩ := units_reach (c := c) insts pass [] units
  obtain ⟨done, reports⟩ := endedTasks_done units (length_reports (c := c) insts pass units)
  refine ⟨schedule, ?_, ?_⟩
  · rw [start]
    exact (congrArg isDone reached).trans done
  · rw [start]
    refine (congrArg result reached).trans ?_
    simp only [result, Interleaving.reports, List.nil_append, reports]

/-! ### All schedules -/

/-- Units of steady generators that attempt no name in common end alike under all schedules: two schedules
that end all units publish the same sources and make the same reports. -/
lemma result_unique {insts : ι → PluginInstance γ} (steady : ∀ i, Generator.Steady c (insts i).generator)
    (ordered : base.Ordered) {units : List (ι × NodeView)} (apart : Apart c base insts units)
    {ks ls : List Nat} (doneK : (run c (start insts base units) ks).isDone = true)
    (doneL : (run c (start insts base units) ls).isDone = true) :
    (run c (start insts base units) ks).pass = (run c (start insts base units) ls).pass ∧
      (run c (start insts base units) ks).reports = (run c (start insts base units) ls).reports := by
  have cohK := (coherent_start (c := c) ordered units).run steady apart ks
  have cohL := (coherent_start (c := c) ordered units).run steady apart ls
  obtain ⟨reportsK, permK⟩ := cohK.done doneK
  obtain ⟨reportsL, permL⟩ := cohL.done doneL
  exact ⟨cohK.ordered.eq_of_perm cohL.ordered (permK.trans permL.symm), reportsK.trans reportsL.symm⟩

/-- The output of a pass whose units were under way together, after the reports of generators that could not
be prepared. -/
def output (prepared : List Diagnostic) (s : Interleaving ι γ) : GenerationOutput :=
  ⟨s.pass.sources, prepared ++ s.result.diagnostics⟩

/-- Schedules make no difference. Let the units of steady generators attempt no name in common. Then every
schedule that ends all units publishes what the units publish in a row, and gives each of them the report
that it has in a row. So the output of a pass is the same whether its units are done in a row or together:
its reports come node by node, and for every node generator by generator. -/
theorem schedule_independent (c : Context) (insts : ι → PluginInstance γ)
    (steady : ∀ i, Generator.Steady c (insts i).generator) (units : List (ι × NodeView))
    (apart : Apart c .empty insts units) (schedule : List Nat)
    (done : (run c (start insts .empty units) schedule).isDone = true) :
    let final := run c (start insts .empty units) schedule
    let sequential := runUnits c insts .empty units
    final.pass.sources = sequential.pass.sources ∧ final.reports = sequential.reports ∧
      ∀ epoch instances keys nodes, keys.Nodup → readyInsts c epoch instances = keys.map insts →
        units = nodeMajor keys nodes →
        final.output (prepareAll c epoch 0 instances).2.1 = Dispatch.run c epoch instances nodes := by
  intro final sequential
  obtain ⟨ks, all, result⟩ := sequential_schedule c insts .empty units
  obtain ⟨pass, reports⟩ := result_unique steady PassSink.ordered_empty apart done all
  have pass : final.pass = sequential.pass := pass.trans (congrArg UnitsResult.pass result)
  have reports : final.reports = sequential.reports := reports.trans (congrArg UnitsResult.reports result)
  refine ⟨congrArg PassSink.sources pass, reports, ?_⟩
  intro epoch instances keys nodes distinct ready eq
  rw [run_eq_runUnits distinct ready nodes, ← eq, output, pass]
  simp only [Interleaving.result, UnitsResult.diagnostics, reports, sequential]

/-- A generator that produces one source of a given name for every node. -/
def oneSource (name : String) : Memoryless where
  accepts _ := .ok true
  produces _ := .offer name "" fun _ => .done

/-- Two generators that produce one source each, under different names. -/
def twoInsts (b : Bool) : PluginInstance Memoryless := ⟨"G", .start, oneSource (cond b "a" "b")⟩

/-- A node without a name. -/
def oneNode : NodeView := ⟨0, .fn, none, [], [], "", ⟨"src/lib.rs", 1, 1⟩⟩

/-- The units of two generators and one node. -/
def twoUnits : List (Bool × NodeView) := nodeMajor [true, false] [oneNode]

/-- Two units that take turns end as in a row, and as in a pass over the node. -/
theorem schedule_independent_twoUnits :
    let c : Context := ⟨"host", []⟩
    let final := run c (start twoInsts .empty twoUnits) [1, 0, 1, 0, 1, 0, 1, 0]
    let sequential := runUnits c twoInsts .empty twoUnits
    final.isDone = true ∧ final.pass.sources = sequential.pass.sources ∧
      final.reports = sequential.reports ∧
      final.output [] = Dispatch.run c .start [twoInsts true, twoInsts false] [oneNode] := by
  have apart : Apart ⟨"host", []⟩ .empty twoInsts twoUnits := by
    refine List.pairwise_pair.mpr fun x hx hy => ?_
    have a : x = "a" := List.mem_singleton.mp hx
    have b : x = "b" := List.mem_singleton.mp hy
    exact absurd (a.symm.trans b) (by decide)
  have done : (run ⟨"host", []⟩ (start twoInsts .empty twoUnits) [1, 0, 1, 0, 1, 0, 1, 0]).isDone = true := by
    decide +kernel
  obtain ⟨sources, reports, passes⟩ := schedule_independent ⟨"host", []⟩ twoInsts
    (fun i => Generator.steady_memoryless _ (twoInsts i).generator) twoUnits apart _ done
  refine ⟨done, sources, reports, ?_⟩
  exact passes .start [twoInsts true, twoInsts false] [true, false] [oneNode] (by decide) rfl rfl

end Interleaving

end SourceGen
