import Mathlib.Data.List.Induction
import SourceGen.Dispatch.Board
import SourceGen.Proofs.Dispatch.Sink

/-!
# Safety of sinks under any schedule

Any number of units open, stage, commit and drop in any order, and their names may collide.
`SinkBoard.Sound` is the invariant of all schedules; `SinkBoard.step_spec` says what one step can do to what
is published, and `SinkBoard.run_perm` adds this up over a run. Together they give `SinkBoard.run_safe`:
nothing published is ever lost, a commit is all or nothing, and in the end exactly what the units of the
successful commits had staged is published.
-/

namespace SourceGen

/-- Whether a step opens, commits or drops the unit of a name. -/
def SinkStep.bounds (handle : String) : SinkStep → Bool
  | .start other _ _ | .commit other | .drop other => other = handle
  | .add _ _ _ | .contains _ => false

namespace SinkBoard

variable {b : SinkBoard} {s : SinkStep} {handle : String} {u : UnitSink}

/-- What every schedule preserves: published sources are in order, and no open unit has staged a name twice.
-/
structure Sound (b : SinkBoard) : Prop where
  ordered : b.pass.Ordered
  distinct : ∀ e ∈ b.units, e.2.Distinct

/-- What a unit has staged, as sources: each with its name and its text, and with the generator and the node of
the unit. -/
def sourcesOf (u : UnitSink) : List GeneratedSource :=
  u.staged.map fun (name, text) =>
    { name := name, text := text, generator := u.generator, node := u.node }

/-- The unit whose sources a step publishes, if its answer is that of a successful commit. -/
def published? (b : SinkBoard) (s : SinkStep) : Option UnitSink :=
  match s, (b.step s).1 with
  | .commit handle, .committed (.ok _) => b.unit? handle
  | _, _ => none

/-- The units whose commits succeed in a run, in the order of their commits. -/
def publishedBy (b : SinkBoard) : List SinkStep → List UnitSink
  | [] => []
  | s :: steps => (b.published? s).toList ++ publishedBy (b.step s).2 steps

/-- What an open unit answers to an offer: it takes the source, or its name is staged or published already. -/
inductive OfferAnswer (b : SinkBoard) (u : UnitSink) (name : String) : Except GeneratorError Unit → Prop
  | taken : (∀ e ∈ u.staged, e.1 ≠ name) → (∀ x ∈ b.pass.sources, x.name ≠ name) →
    OfferAnswer b u name (.ok ())
  | staged {text : String} : (name, text) ∈ u.staged → OfferAnswer b u name (.error (.duplicateSource name))
  | published {x : GeneratedSource} : x ∈ b.pass.sources → x.name = name →
    OfferAnswer b u name (.error (.duplicateSource name))

/-- What a step may do to the published sources: nothing is lost, an offer to an open unit is taken if its name is
free, a commit of an open unit is answered, one that fails changes nothing and names a staged source that was
published before, one that succeeds publishes all that the unit has staged, and no other step publishes. -/
structure SafeStep (b : SinkBoard) (s : SinkStep) : Prop where
  kept : ∀ x ∈ b.pass.sources, x ∈ (b.step s).2.pass.sources
  offered : ∀ handle name text u, s = .add handle name text → b.unit? handle = some u →
    ∃ r n, (b.step s).1 = .added r n ∧ b.OfferAnswer u name r
  answered : ∀ handle u, s = .commit handle → b.unit? handle = some u → ∃ r, (b.step s).1 = .committed r
  failed : ∀ f, (b.step s).1 = .committed (.error f) →
    (b.step s).2.pass = b.pass ∧
      ∃ handle u e, s = .commit handle ∧ b.unit? handle = some u ∧ e ∈ u.staged ∧
        (∃ x ∈ b.pass.sources, x.name = e.1) ∧
        f = ⟨"DuplicateSource", "<commit>", "a source named `" ++ e.1 ++ "` was already produced in this pass"⟩
  succeeded : ∀ n, (b.step s).1 = .committed (.ok n) →
    ∃ handle u, s = .commit handle ∧ b.unit? handle = some u ∧ n = u.staged.length ∧
      (∀ e ∈ u.staged, ∀ x ∈ b.pass.sources, x.name ≠ e.1) ∧
      (b.step s).2.pass.sources.Perm (sourcesOf u ++ b.pass.sources)
  quiet : (∀ r, (b.step s).1 ≠ .committed r) → (b.step s).2.pass = b.pass

/-! ### The units of a board -/

lemma mem_of_unit? (h : b.unit? handle = some u) : (handle, u) ∈ b.units := by
  obtain ⟨e, found, rfl⟩ := Option.map_eq_some_iff.mp h
  have eq : e.1 = handle := by simpa using List.find?_some found
  exact eq ▸ List.mem_of_find?_eq_some found

lemma unit?_close (b : SinkBoard) (handle : String) : (b.close handle).unit? handle = none := by
  simp [unit?, close, List.find?_filter]

lemma unit?_close_ne {other : String} (b : SinkBoard) (ne : handle ≠ other) :
    (b.close handle).unit? other = b.unit? other := by
  simp only [unit?, close, List.find?_filter]
  congr 1
  refine List.find?_congr fun e _ => ?_
  by_cases eq : e.1 = other
  · simp [eq, Ne.symm ne]
  · simp [eq]

lemma unit?_put (b : SinkBoard) (handle : String) (u : UnitSink) :
    (b.put handle u).unit? handle = some u := by
  simp [unit?, put]

lemma unit?_put_ne {other : String} (b : SinkBoard) (u : UnitSink) (ne : handle ≠ other) :
    (b.put handle u).unit? other = b.unit? other := by
  have closed := unit?_close_ne b ne
  simp only [unit?, close] at closed
  simpa only [unit?, put, List.find?_cons, decide_eq_false ne] using closed

lemma Sound.put (h : b.Sound) (d : u.Distinct) : (b.put handle u).Sound := by
  refine ⟨h.ordered, fun e he => ?_⟩
  cases List.mem_cons.mp he with
  | inl eq => exact eq ▸ d
  | inr he => exact h.distinct e (List.mem_filter.mp he).1

lemma Sound.close (h : b.Sound) : (b.close handle).Sound :=
  ⟨h.ordered, fun e he => h.distinct e (List.mem_filter.mp he).1⟩

lemma sound_empty : empty.Sound :=
  ⟨PassSink.ordered_empty, fun _ he => absurd he List.not_mem_nil⟩

/-! ### One step -/

/-- What a commit of an open unit does to a sound board. -/
lemma commit_cases (h : b.Sound) (open_ : b.unit? handle = some u) :
    (∃ e ∈ u.staged, (∃ x ∈ b.pass.sources, x.name = e.1) ∧
        b.step (.commit handle) = (.committed (.error (UnitSink.conflict e.1)), b.close handle)) ∨
      (∀ e ∈ u.staged, ∀ x ∈ b.pass.sources, x.name ≠ e.1) ∧
        ∃ q, b.step (.commit handle) = (.committed (.ok u.staged.length), { b.close handle with pass := q }) ∧
          q.Ordered ∧ q.sources.Perm (sourcesOf u ++ b.pass.sources) := by
  have distinct : u.Distinct := h.distinct _ (mem_of_unit? open_)
  cases UnitSink.commit_cases h.ordered distinct with
  | inl taken =>
    obtain ⟨e, staged, published, failed⟩ := taken
    refine .inl ⟨e, staged, PassSink.contains_iff.mp published, ?_⟩
    simp only [step, open_, failed]
  | inr free =>
    obtain ⟨free, q, done, ordered, perm⟩ := free
    refine .inr ⟨fun e he x hx same => ?_, q, ?_, ordered, perm⟩
    · have taken : b.pass.contains e.1 = true := PassSink.contains_iff.mpr ⟨x, hx, same⟩
      exact Bool.false_ne_true ((free e he).symm.trans taken)
    · simp only [step, open_, done]

/-- A step that is no commit of an open unit publishes nothing and keeps the board sound. -/
lemma quiet_step (h : b.Sound) (quiet : ∀ handle u, s = .commit handle → b.unit? handle ≠ some u) :
    (∀ r, (b.step s).1 ≠ .committed r) ∧ (b.step s).2.pass = b.pass ∧ (b.step s).2.Sound := by
  cases s with
  | start handle generator node =>
    exact ⟨nofun, rfl, h.put (UnitSink.distinct_new generator node)⟩
  | add handle name text =>
    cases found : b.unit? handle with
    | none =>
      simp only [step, found]
      exact ⟨nofun, trivial, h⟩
    | some u =>
      have distinct : u.Distinct := h.distinct _ (mem_of_unit? found)
      cases added : u.add b.pass name text with
      | ok v =>
        simp only [step, found, added]
        exact ⟨nofun, rfl, h.put (distinct.add added)⟩
      | error e =>
        simp only [step, found, added]
        exact ⟨nofun, trivial, h⟩
  | commit handle =>
    cases found : b.unit? handle with
    | none =>
      simp only [step, found]
      exact ⟨nofun, trivial, h⟩
    | some u => exact absurd found (quiet handle u rfl)
  | drop handle => exact ⟨nofun, rfl, h.close⟩
  | contains name => exact ⟨nofun, rfl, h⟩

/-- An open unit answers every offer. -/
lemma offerAnswer (b : SinkBoard) (name text : String) (open_ : b.unit? handle = some u) :
    ∃ r n, (b.step (.add handle name text)).1 = .added r n ∧ b.OfferAnswer u name r := by
  obtain ⟨stages, contains, added⟩ | ⟨taken, refused⟩ := u.add_cases b.pass name text
  · simp only [step, open_, added]
    refine ⟨_, _, rfl, .taken (fun e he same => ?_) fun x hx same => ?_⟩
    · exact Bool.false_ne_true (stages.symm.trans (UnitSink.stages_iff.mpr ⟨e, he, same⟩))
    · exact Bool.false_ne_true (contains.symm.trans (PassSink.contains_iff.mpr ⟨x, hx, same⟩))
  · simp only [step, open_, refused]
    refine ⟨_, _, rfl, ?_⟩
    cases taken with
    | inl staged =>
      obtain ⟨e, he, rfl⟩ := UnitSink.stages_iff.mp staged
      exact .staged he
    | inr published =>
      obtain ⟨x, hx, same⟩ := PassSink.contains_iff.mp published
      exact .published hx same

/-- A step that answers no commit publishes no unit. -/
lemma published?_quiet (quiet : ∀ r, (b.step s).1 ≠ .committed r) : b.published? s = none := by
  unfold published?
  split
  case h_1 answer => exact absurd answer (quiet _)
  case h_2 => rfl

/-- A step of a sound board leaves it sound, publishes exactly the sources of the unit that it commits, and is
safe. -/
lemma step_spec (h : b.Sound) (s : SinkStep) :
    (b.step s).2.Sound ∧
      (b.step s).2.pass.sources.Perm ((b.published? s).toList.flatMap sourcesOf ++ b.pass.sources) ∧
      b.SafeStep s := by
  -- only a commit of an open unit can publish anything
  by_cases commits : ∃ handle u, s = .commit handle ∧ b.unit? handle = some u
  case neg =>
    have none_commits : ∀ handle u, s = .commit handle → b.unit? handle ≠ some u :=
      fun handle u eq found => commits ⟨handle, u, eq, found⟩
    obtain ⟨quiet, same, sound⟩ := quiet_step h none_commits
    refine ⟨sound, ?_, ?_⟩
    · rw [published?_quiet quiet, same]
      exact .refl _
    · exact {
        kept := fun x hx => same ▸ hx
        offered := fun _ name text _ eq found => eq ▸ b.offerAnswer name text found
        answered := fun handle u eq found => absurd ⟨handle, u, eq, found⟩ commits
        failed := fun f eq => absurd eq (quiet _)
        succeeded := fun n eq => absurd eq (quiet _)
        quiet := fun _ => same }
  case pos =>
    obtain ⟨handle, u, rfl, found⟩ := commits
    cases commit_cases h found with
    | inl taken =>
      obtain ⟨e, staged, published, step⟩ := taken
      have answer : (b.step (.commit handle)).1 = .committed (.error (UnitSink.conflict e.1)) := congrArg Prod.fst step
      have none_published : b.published? (.commit handle) = none := by simp only [published?, step]
      refine ⟨step ▸ h.close, ?_, ?_⟩
      · rw [none_published, step]
        exact .refl _
      · exact {
          kept := fun x hx => step ▸ hx
          offered := nofun
          answered := fun _ _ _ _ => ⟨_, answer⟩
          failed := fun f eq => by
            rw [step] at eq ⊢
            cases eq
            exact ⟨rfl, handle, u, e, rfl, found, staged, published, rfl⟩
          succeeded := fun n eq => nomatch answer.symm.trans eq
          quiet := fun quiet => absurd answer (quiet _) }
    | inr free =>
      obtain ⟨free, q, step, ordered, perm⟩ := free
      have answer : (b.step (.commit handle)).1 = .committed (.ok u.staged.length) := congrArg Prod.fst step
      have some_published : b.published? (.commit handle) = some u := by simp only [published?, step, found]
      refine ⟨step ▸ ⟨ordered, h.close.distinct⟩, ?_, ?_⟩
      · rw [some_published, step]
        simpa using perm
      · exact {
          kept := fun x hx => by
            rw [step]
            exact perm.mem_iff.mpr (List.mem_append_right _ hx)
          offered := nofun
          answered := fun _ _ _ _ => ⟨_, answer⟩
          failed := fun f eq => nomatch answer.symm.trans eq
          succeeded := fun n eq => by
            rw [step] at eq ⊢
            cases eq
            exact ⟨handle, u, rfl, found, rfl, free, perm⟩
          quiet := fun quiet => absurd answer (quiet _) }

/-! ### Runs -/

lemma run_append (b : SinkBoard) (before after : List SinkStep) :
    (b.run (before ++ after)).2 = ((b.run before).2.run after).2 := by
  induction before generalizing b with
  | nil => rfl
  | cons s steps ih => exact ih (b.step s).2

lemma run_sound (h : b.Sound) (steps : List SinkStep) : (b.run steps).2.Sound := by
  induction steps generalizing b with
  | nil => exact h
  | cons s steps ih => exact ih (step_spec h s).1

/-- A run publishes exactly the sources of the units that it commits. -/
lemma run_perm (h : b.Sound) (steps : List SinkStep) :
    (b.run steps).2.pass.sources.Perm
      ((b.publishedBy steps).flatMap sourcesOf ++ b.pass.sources) := by
  induction steps generalizing b with
  | nil => exact .refl _
  | cons s steps ih =>
    obtain ⟨sound, first, -⟩ := step_spec h s
    rw [publishedBy, List.flatMap_append, List.append_assoc]
    refine (ih sound).trans ((first.append_left _).trans ?_)
    rw [← List.append_assoc, ← List.append_assoc]
    exact List.perm_append_comm.append_right _

/-- What is published stays published to the end of a run. -/
lemma run_kept (h : b.Sound) (steps : List SinkStep) {x : GeneratedSource} (hx : x ∈ b.pass.sources) :
    x ∈ (b.run steps).2.pass.sources :=
  (run_perm h steps).mem_iff.mpr (List.mem_append_right _ hx)

/-! ### Where the staged sources of a unit come from -/

/-- The source that a step stages, with the unit that stages it, if the answer says so. -/
def accepted? (b : SinkBoard) (s : SinkStep) : Option (String × String × String) :=
  match s, (b.step s).1 with
  | .add handle name text, .added (.ok _) _ => some (handle, name, text)
  | _, _ => none

/-- The sources that a step stages in the unit of a name. -/
def acceptedBy (b : SinkBoard) (handle : String) (s : SinkStep) : List (String × String) :=
  ((b.accepted? s).toList.filter (·.1 = handle)).map (·.2)

/-- The sources that a run stages in the unit of a name, in their order. -/
def stagedBy (b : SinkBoard) (handle : String) : List SinkStep → List (String × String)
  | [] => []
  | s :: steps => b.acceptedBy handle s ++ stagedBy (b.step s).2 handle steps

/-- A unit goes back to the step that opened it, and holds what it was offered and took since then. -/
def Opened (steps : List SinkStep) (handle : String) (u : UnitSink) : Prop :=
  ∃ before after, steps = before ++ .start handle u.generator u.node :: after ∧
    (∀ s ∈ after, s.bounds handle = false) ∧
    u.staged = (empty.run (before ++ [.start handle u.generator u.node])).2.stagedBy handle after

lemma stagedBy_append (b : SinkBoard) (handle : String) (before after : List SinkStep) :
    b.stagedBy handle (before ++ after) =
      b.stagedBy handle before ++ (b.run before).2.stagedBy handle after := by
  induction before generalizing b with
  | nil => rfl
  | cons s steps ih =>
    rw [List.cons_append, stagedBy, ih, stagedBy, List.append_assoc]
    rfl

/-- A step that neither opens nor ends the unit of a name can only stage a source in it. -/
lemma unit?_step (b : SinkBoard) (inside : s.bounds handle = false) :
    (b.step s).2.unit? handle =
      (b.unit? handle).map fun u => { u with staged := u.staged ++ b.acceptedBy handle s } := by
  have unchanged : b.unit? handle = (b.unit? handle).map fun u => { u with staged := u.staged ++ [] } := by
    simp
  cases s with
  | start other generator node =>
    have ne : other ≠ handle := of_decide_eq_false inside
    rw [step, unit?_put_ne b _ ne]
    exact unchanged
  | add other name text =>
    cases found : b.unit? other with
    | none => simp [step, acceptedBy, accepted?, found]
    | some v =>
      cases added : v.add b.pass name text with
      | error e => simp [step, acceptedBy, accepted?, found, added]
      | ok w =>
        obtain ⟨-, -, rfl⟩ := UnitSink.add_ok added
        by_cases eq : other = handle
        · subst eq
          simp [step, acceptedBy, accepted?, found, added, unit?_put]
        · simp [step, acceptedBy, accepted?, found, added, unit?_put_ne b _ eq, eq]
  | commit other =>
    have ne : other ≠ handle := of_decide_eq_false inside
    have closed : (b.close other).unit? handle = b.unit? handle := unit?_close_ne b ne
    cases found : b.unit? other with
    | none => simp [step, acceptedBy, accepted?, found]
    | some v =>
      cases done : v.commit b.pass with
      | ok q =>
        simp only [step, found, done]
        exact closed.trans unchanged
      | error f =>
        simp only [step, found, done]
        exact closed.trans unchanged
  | drop other =>
    have ne : other ≠ handle := of_decide_eq_false inside
    rw [step, unit?_close_ne b ne]
    exact unchanged
  | contains name => exact unchanged

/-- A step that opens or ends the unit of a name leaves a new unit under that name, or none. -/
lemma unit?_bounds (bounds : s.bounds handle = true) (found : (b.step s).2.unit? handle = some u) :
    s = .start handle u.generator u.node ∧ u.staged = [] := by
  cases s with
  | start other generator node =>
    obtain rfl : other = handle := of_decide_eq_true bounds
    rw [step, unit?_put] at found
    cases found
    exact ⟨rfl, rfl⟩
  | commit other =>
    obtain rfl : other = handle := of_decide_eq_true bounds
    have closed := unit?_close b other
    cases before : b.unit? other with
    | none =>
      simp only [step, before] at found
      cases found
    | some v =>
      cases done : v.commit b.pass with
      | ok q =>
        simp only [step, before, done] at found
        cases closed.symm.trans found
      | error f =>
        simp only [step, before, done] at found
        cases closed.symm.trans found
  | drop other =>
    obtain rfl : other = handle := of_decide_eq_true bounds
    rw [step, unit?_close] at found
    cases found
  | add _ _ _ => cases bounds
  | contains _ => cases bounds

/-- Every open unit goes back to the step that opened it. -/
lemma opened (steps : List SinkStep) (found : (empty.run steps).2.unit? handle = some u) :
    Opened steps handle u := by
  induction steps using List.reverseRecOn generalizing u with
  | nil => cases found
  | append_singleton steps s ih =>
    rw [run_append] at found
    change ((empty.run steps).2.step s).2.unit? handle = some u at found
    cases bounds : s.bounds handle with
    | true =>
      obtain ⟨rfl, none_staged⟩ := unit?_bounds bounds found
      exact ⟨steps, [], rfl, fun _ h => absurd h List.not_mem_nil, none_staged⟩
    | false =>
      rw [unit?_step _ bounds] at found
      obtain ⟨v, before, rfl⟩ := Option.map_eq_some_iff.mp found
      obtain ⟨pre, post, rfl, inside, staged⟩ := ih before
      refine ⟨pre, post ++ [s], by simp, fun t ht => ?_, ?_⟩
      · cases List.mem_append.mp ht with
        | inl ht => exact inside t ht
        | inr ht => exact List.mem_singleton.mp ht ▸ bounds
      · have run_post : (empty.run (pre ++ .start handle v.generator v.node :: post)).2 =
            ((empty.run (pre ++ [.start handle v.generator v.node])).2.run post).2 := by
          rw [← run_append, List.append_assoc, List.singleton_append]
        rw [stagedBy_append, ← run_post, ← staged, stagedBy, stagedBy, List.append_nil]

/-- Steps that neither open nor end the unit of a name can only stage sources in it. -/
lemma unit?_run (b : SinkBoard) {steps : List SinkStep} (inside : ∀ s ∈ steps, s.bounds handle = false) :
    (b.run steps).2.unit? handle =
      (b.unit? handle).map fun u => { u with staged := u.staged ++ b.stagedBy handle steps } := by
  induction steps generalizing b with
  | nil => simp [run, stagedBy]
  | cons s steps ih =>
    have rest := ih (b.step s).2 fun t ht => inside t (List.mem_cons_of_mem s ht)
    rw [unit?_step b (inside s List.mem_cons_self)] at rest
    refine rest.trans ?_
    simp [stagedBy, Function.comp_def]

/-- A unit that was opened and not ended since is open. -/
lemma unit?_of_opened {steps : List SinkStep} (h : Opened steps handle u) :
    (empty.run steps).2.unit? handle = some u := by
  obtain ⟨before, after, rfl, inside, staged⟩ := h
  have opening : (empty.run (before ++ [.start handle u.generator u.node])).2.unit? handle =
      some (.new u.generator u.node) := by
    rw [run_append]
    exact unit?_put _ _ _
  rw [← List.singleton_append, ← List.append_assoc, run_append, unit?_run _ inside, opening, ← staged]
  rfl

/-! ### All schedules -/

/-- Sinks are safe under every schedule. After any steps, the published sources are what the units had staged
whose commits succeeded, in the strict order of their names; the next step is safe; whatever comes, no published
source goes away or gives way to another one of its name; and the open units are those that were opened and not
ended since, with what they were offered and took. -/
theorem run_safe (steps more : List SinkStep) (s : SinkStep) :
    let b := (empty.run steps).2
    let final := (empty.run (steps ++ more)).2
    b.pass.sources.Pairwise (fun x y => x.name < y.name) ∧
      b.pass.sources.Perm ((empty.publishedBy steps).flatMap sourcesOf) ∧
      b.SafeStep s ∧
      (∀ x ∈ b.pass.sources, x ∈ final.pass.sources ∧
        ∀ y ∈ final.pass.sources, y.name = x.name → y = x) ∧
      ∀ handle u, b.unit? handle = some u ↔ Opened steps handle u := by
  intro b final
  have sound : b.Sound := run_sound sound_empty steps
  have final_sound : final.Sound := run_sound sound_empty (steps ++ more)
  have kept : ∀ x ∈ b.pass.sources, x ∈ final.pass.sources := fun x hx => by
    have later := run_kept sound more hx
    rwa [← run_append] at later
  refine ⟨sound.ordered, ?_, (step_spec sound s).2.2, fun x hx => ⟨kept x hx, fun y hy eq => ?_⟩, ?_⟩
  · have perm := run_perm sound_empty steps
    rwa [show empty.pass.sources = [] from rfl, List.append_nil] at perm
  · exact final_sound.ordered.eq_of_name hy (kept x hx) eq
  · exact fun handle u => ⟨opened steps, unit?_of_opened⟩

end SinkBoard

end SourceGen
