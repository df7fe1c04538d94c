import Mathlib.Data.List.Induction
import Mathlib.Data.List.Sort
import Mathlib.Data.String.Basic
import SourceGen.Pipeline.Pass
import SourceGen.Proofs.Program.Fingerprint
import SourceGen.Proofs.Sorting

/-!
# The references of a program

References are a map from names in which the last one counts. However a builder is called, the references of the built
program are sorted by name, one for each name (`ProgramBuilder.references_of_calls`); so they do not depend on the order
in which references of different names are given.
-/

namespace SourceGen

namespace Reference

/-- The last reference of a name. -/
def last? (rs : List Reference) (name : String) : Option Reference := (rs.filter (·.name = name)).getLast?

/-- Whether no two references have one name. -/
def Distinct (rs : List Reference) : Prop := rs.Pairwise fun r s => r.name ≠ s.name

/-- Whether references are in the order of their names, with no name twice. -/
def Increasing (rs : List Reference) : Prop := rs.Pairwise fun r s => r.name < s.name

lemma last?_concat (rs : List Reference) (s : Reference) (name : String) :
    last? (rs ++ [s]) name = if s.name = name then some s else last? rs name := by
  rw [last?, List.filter_append]
  split
  case isTrue here => simp [here]
  case isFalse other => simp [other, last?]

/-- References that are added one after the other have different names, and are the last ones of their names. -/
lemma foldl_insert (rs : List Reference) :
    Distinct (rs.foldl insert []) ∧ ∀ r, r ∈ rs.foldl insert [] ↔ last? rs r.name = some r := by
  induction rs using List.reverseRecOn with
  | nil => exact ⟨.nil, fun r => by simp [last?]⟩
  | append_singleton rs s ih =>
    obtain ⟨distinct, mem⟩ := ih
    rw [List.foldl_append, List.foldl_cons, List.foldl_nil, insert]
    constructor
    · refine List.pairwise_append.mpr ⟨distinct.filter _, List.pairwise_singleton _ _, fun r there t last => ?_⟩
      obtain rfl := List.mem_singleton.mp last
      simpa using (List.mem_filter.mp there).2
    · intro r
      rw [List.mem_append, List.mem_filter, List.mem_singleton, mem, last?_concat]
      by_cases same : s.name = r.name
      · simp [same, eq_comm]
      · have ne : r ≠ s := fun eq => same (eq ▸ rfl)
        simp [same, ne, Ne.symm same]

lemma mem_map_name_foldl_insert {rs : List Reference} {name : String} :
    name ∈ (rs.foldl insert []).map (·.name) ↔ name ∈ rs.map (·.name) := by
  rw [List.mem_map, List.mem_map]
  constructor
  · rintro ⟨r, there, rfl⟩
    have last := ((foldl_insert rs).2 r).mp there
    exact ⟨r, (List.mem_filter.mp (List.mem_of_getLast? last)).1, rfl⟩
  · rintro ⟨r, there, rfl⟩
    have some_there : rs.filter (·.name = r.name) ≠ [] := List.ne_nil_of_mem (List.mem_filter.mpr ⟨there, by simp⟩)
    have name : ((rs.filter (·.name = r.name)).getLast some_there).name = r.name := by
      simpa using (List.mem_filter.mp (List.getLast_mem some_there)).2
    refine ⟨_, ((foldl_insert rs).2 _).mpr ?_, name⟩
    rw [name, last?, List.getLast?_eq_some_getLast some_there]

lemma mem_sortByName {rs : List Reference} {r : Reference} : r ∈ sortByName rs ↔ r ∈ rs :=
  (List.mergeSort_perm rs _).mem_iff

/-- Sorting brings references of different names into a strict order. -/
lemma increasing_sortByName {rs : List Reference} (distinct : Distinct rs) : Increasing (sortByName rs) := by
  have sorted : (sortByName rs).Pairwise fun r s => r.name ≤ s.name := pairwise_mergeSort name rs
  have distinct : Distinct (sortByName rs) :=
    (List.mergeSort_perm rs _).symm.pairwise distinct fun ne => ne.symm
  exact (sorted.and distinct).imp fun h => lt_of_le_of_ne h.1 h.2

/-- References in a strict order are known by what they are. -/
lemma Increasing.ext {rs ss : List Reference} (increasing : Increasing rs) (increasing' : Increasing ss)
    (same : ∀ r, r ∈ rs ↔ r ∈ ss) : rs = ss := by
  have irrefl : Std.Irrefl fun r s : Reference => r.name < s.name := ⟨fun r => lt_irrefl r.name⟩
  have asymm : Std.Asymm fun r s : Reference => r.name < s.name := ⟨fun r s => lt_asymm⟩
  exact increasing.eq_of_mem_iff increasing' same

/-- The references of a program and a crate that it needs. -/
lemma mem_withCrate {rs : List Reference} (crate : Reference) {r : Reference} :
    r ∈ (if rs.any (·.name = crate.name) then rs else rs ++ [crate]) ↔
      r ∈ rs ∨ crate.name ∉ rs.map (·.name) ∧ r = crate := by
  have known : rs.any (·.name = crate.name) = true ↔ crate.name ∈ rs.map (·.name) := by simp
  split
  case isTrue there => simp [known.mp there]
  case isFalse absent => rw [List.mem_append, List.mem_singleton, and_iff_right (mt known.mpr absent)]

/-- A crate that is not among references of different names can be put behind them. -/
lemma Distinct.concat {rs : List Reference} {crate : Reference} (distinct : Distinct rs)
    (absent : ¬ rs.any (·.name = crate.name) = true) : Distinct (rs ++ [crate]) := by
  refine List.pairwise_append.mpr ⟨distinct, List.pairwise_singleton _ _, fun r there t last eq => absent ?_⟩
  obtain rfl := List.mem_singleton.mp last
  exact List.any_eq_true.mpr ⟨r, there, decide_eq_true eq⟩

end Reference

namespace ProgramBuilder

/-- A call of a builder. -/
inductive Call
  | unit (path text : String)
  | unitAt (path : String) (modulePath : List String) (text : String)
  | reference (r : Reference)
  | sdkPath (path : String)
  | withoutMarkers

namespace Call

/-- A builder after a call. -/
def apply (b : ProgramBuilder) : Call → ProgramBuilder
  | .unit path text => b.unit path text
  | .unitAt path modulePath text => b.unitAt path modulePath text
  | .reference r => b.reference r
  | .sdkPath path => b.withSdkPath path
  | .withoutMarkers => b.withoutMarkers

/-- The reference that a call gives. -/
def given? : Call → Option Reference
  | .reference r => some r
  | _ => none

/-- The path of the crate of the markers that a call sets. -/
def sdkPath? : Call → Option String
  | .sdkPath path => some path
  | _ => none

/-- Whether the order of two calls is of no matter: one gives a reference, and the other one gives none of its name. -/
def Independent (c d : Call) : Prop :=
  (c.given?.isSome ∨ d.given?.isSome) ∧ ∀ r s, c.given? = some r → d.given? = some s → r.name ≠ s.name

/-- Whether calls differ from others in the order of independent ones. -/
inductive Reordered : List Call → List Call → Prop
  | refl (calls : List Call) : Reordered calls calls
  | swap {c d : Call} (independent : c.Independent d) (before after : List Call) :
    Reordered (before ++ c :: d :: after) (before ++ d :: c :: after)
  | trans {calls calls' calls'' : List Call} :
    Reordered calls calls' → Reordered calls' calls'' → Reordered calls calls''

end Call

/-- The references that are given by calls, in their order. -/
def given (calls : List Call) : List Reference := calls.filterMap Call.given?

/-- A builder after calls in a row. -/
def after (b : ProgramBuilder) (calls : List Call) : ProgramBuilder := calls.foldl Call.apply b

variable {b : ProgramBuilder}

lemma references_after (calls : List Call) :
    (b.after calls).references = (given calls).foldl Reference.insert b.references := by
  induction calls generalizing b with
  | nil => rfl
  | cons c calls ih =>
    change ((c.apply b).after calls).references = _
    rw [ih]
    cases c <;> rfl

/-- A builder but for its references. -/
def bare (b : ProgramBuilder) : ProgramBuilder := { b with references := [] }

/-- Calls that give references touch nothing but references. -/
lemma bare_after (calls : List Call) : (b.after calls).bare = b.bare.after (calls.filter (·.given?.isNone)) := by
  induction calls generalizing b with
  | nil => rfl
  | cons c calls ih =>
    change ((c.apply b).after calls).bare = _
    rw [ih]
    cases c <;> rfl

lemma injectSdk_after (calls : List Call) :
    (b.after calls).injectSdk = true ↔ b.injectSdk = true ∧ .withoutMarkers ∉ calls := by
  induction calls generalizing b with
  | nil => simp [after]
  | cons c calls ih =>
    change ((c.apply b).after calls).injectSdk = true ↔ _
    rw [ih]
    cases c <;> simp [Call.apply, unit, unitAt, reference, withSdkPath, withoutMarkers]

lemma sdkPath_after (calls : List Call) :
    (b.after calls).sdkPath = (calls.filterMap Call.sdkPath?).getLast?.getD b.sdkPath := by
  induction calls using List.reverseRecOn with
  | nil => rfl
  | append_singleton calls c ih =>
    rw [after, List.foldl_append, List.filterMap_append]
    change (c.apply (b.after calls)).sdkPath = _
    cases c <;> simp [Call.apply, Call.sdkPath?, unit, unitAt, reference, withSdkPath, withoutMarkers, ih]

/-- The references of the built program, before they are sorted. -/
lemma allReferences_eq (b : ProgramBuilder) :
    b.allReferences = Reference.sortByName (if b.injectSdk then
      if b.references.any (·.name = sdkCrate) then b.references else b.references ++ [⟨sdkCrate, .path b.sdkPath⟩]
    else b.references) := by
  unfold allReferences
  cases b.injectSdk
  · rfl
  · cases b.references.any (·.name = sdkCrate) <;> rfl

lemma mem_allReferences {r : Reference} :
    r ∈ b.allReferences ↔ r ∈ b.references ∨
      b.injectSdk = true ∧ sdkCrate ∉ b.references.map (·.name) ∧ r = ⟨sdkCrate, .path b.sdkPath⟩ := by
  rw [allReferences_eq, Reference.mem_sortByName]
  cases b.injectSdk
  · simp
  · rw [if_pos rfl, and_iff_right rfl]
    exact Reference.mem_withCrate ⟨sdkCrate, .path b.sdkPath⟩

lemma increasing_allReferences (distinct : Reference.Distinct b.references) : Reference.Increasing b.allReferences := by
  rw [allReferences_eq]
  refine Reference.increasing_sortByName ?_
  split
  case isTrue =>
    split
    case isTrue => exact distinct
    case isFalse absent => exact distinct.concat absent
  case isFalse => exact distinct

/-- What is built depends on the references only by those of the built program. -/
lemma build_congr {b' : ProgramBuilder} (same : b.bare = b'.bare) (references : b.allReferences = b'.allReferences) :
    b.build = b'.build := by
  have name : b.crateName = b'.crateName := congrArg (·.crateName) same
  have units : b.units = b'.units := congrArg (·.units) same
  rw [build, build, name, units, references]

/-! ### The order of calls -/

namespace Call.Reordered

variable {calls calls' : List Call}

lemma filter_eq (reordered : Reordered calls calls') :
    calls.filter (·.given?.isNone) = calls'.filter (·.given?.isNone) := by
  induction reordered with
  | refl => rfl
  | @swap c d independent before after =>
    rw [List.filter_append, List.filter_append]
    congr 1
    obtain given | given := independent.1 <;> simp [List.filter_cons, Option.isSome_iff_ne_none.mp given]
  | trans _ _ ih ih' => exact ih.trans ih'

/-- Reordered calls give the references of one name in one order. -/
lemma last?_given (reordered : Reordered calls calls') (name : String) :
    Reference.last? (given calls) name = Reference.last? (given calls') name := by
  induction reordered with
  | refl => rfl
  | @swap c d independent before after =>
    have same : ((given [c, d]).filter (·.name = name)) = (given [d, c]).filter (·.name = name) := by
      cases hc : c.given? with
      | none => cases hd : d.given? <;> simp [given, hc, hd]
      | some r =>
        cases hd : d.given? with
        | none => simp [given, hc, hd]
        | some s =>
          have ne := independent.2 r s hc hd
          by_cases here : r.name = name
          · have other : s.name ≠ name := fun eq => ne (here.trans eq.symm)
            simp [given, hc, hd, here, other]
          · simp [given, hc, hd, List.filter_cons, here]
    have split (c d : Call) : given (before ++ c :: d :: after) = given before ++ given [c, d] ++ given after := by
      simp [given, ← List.filterMap_append]
    rw [Reference.last?, Reference.last?, split, split, List.filter_append, List.filter_append, same, List.filter_append,
      List.filter_append]
  | trans _ _ ih ih' => exact ih.trans ih'

end Call.Reordered

/-- Calls in another order build the same, or fail in the same way. -/
lemma build_after_of_reordered {b : ProgramBuilder} (none : b.references = []) {calls calls' : List Call}
    (reordered : Call.Reordered calls calls') : (b.after calls).build = (b.after calls').build := by
  have references (calls : List Call) : (b.after calls).references = (given calls).foldl Reference.insert [] := by
    rw [references_after, none]
  have distinct (calls : List Call) : Reference.Distinct (b.after calls).references := by
    rw [references]
    exact (Reference.foldl_insert (given calls)).1
  have same : (b.after calls).bare = (b.after calls').bare := by
    rw [bare_after, bare_after, reordered.filter_eq]
  have given : ∀ r, r ∈ (b.after calls).references ↔ r ∈ (b.after calls').references := by
    intro r
    rw [references, references, (Reference.foldl_insert _).2, (Reference.foldl_insert _).2, reordered.last?_given]
  refine build_congr same ((increasing_allReferences (distinct calls)).ext (increasing_allReferences (distinct calls'))
    fun r => ?_)
  have inject : (b.after calls).injectSdk = (b.after calls').injectSdk := congrArg (·.injectSdk) same
  have sdkPath : (b.after calls).sdkPath = (b.after calls').sdkPath := congrArg (·.sdkPath) same
  have names : sdkCrate ∈ (b.after calls).references.map (·.name) ↔ sdkCrate ∈ (b.after calls').references.map (·.name) := by
    rw [List.mem_map, List.mem_map]
    exact exists_congr fun r => and_congr_left fun _ => given r
  rw [mem_allReferences, mem_allReferences, given r, inject, sdkPath, names]

end ProgramBuilder

/-! ### The references of a pass -/

namespace Pass

/-- The references of a module are those of the program and, if it is not among them, the crate of the contract. -/
lemma mem_referenceSet {config : Config} {p : Program} {r : Reference} :
    r ∈ referenceSet config p ↔ r ∈ p.references ∨
      sdkCrate ∉ p.references.map (·.name) ∧ r = ⟨sdkCrate, .path config.sdkPathText⟩ := by
  refine Iff.trans ?_ (Reference.mem_withCrate ⟨sdkCrate, .path config.sdkPathText⟩)
  rw [referenceSet]
  split
  case isTrue => rfl
  case isFalse => exact Reference.mem_sortByName

lemma increasing_referenceSet {config : Config} {p : Program} (increasing : Reference.Increasing p.references) :
    Reference.Increasing (referenceSet config p) := by
  unfold referenceSet
  split
  case isTrue => exact increasing
  case isFalse absent =>
    have distinct : Reference.Distinct p.references := increasing.imp fun lt => ne_of_lt lt
    exact Reference.increasing_sortByName (distinct.concat absent)

/-- The crate of the contract is among the references of a module, once. -/
lemma count_referenceSet {config : Config} {p : Program} (increasing : Reference.Increasing p.references) :
    ((referenceSet config p).map (·.name)).count sdkCrate = 1 := by
  have once : ((referenceSet config p).map (·.name)).Nodup :=
    List.pairwise_map.mpr ((increasing_referenceSet increasing).imp fun lt => ne_of_lt lt)
  refine List.count_eq_one_of_mem once ?_
  by_cases known : sdkCrate ∈ p.references.map (·.name)
  · obtain ⟨r, there, name⟩ := List.mem_map.mp known
    exact List.mem_map.mpr ⟨r, mem_referenceSet.mpr (.inl there), name⟩
  · exact List.mem_map.mpr ⟨_, mem_referenceSet.mpr (.inr ⟨known, rfl⟩), rfl⟩

end Pass

namespace ProgramBuilder

/-- Whatever calls a program is built by, its references are strictly increasing by name. They are the last reference that
was given of each name, and the crate of the markers at its path if markers are injected and no reference of that name was
given. What is built, and with it the summary of the program and the references of a pass, does not change if references
of different names are given in another order; those of a pass are increasing, too, with the crate of the contract among
them once. -/
theorem references_of_calls {δ : Type} [Digest δ] (crateName sdkPath : String) (calls : List Call) :
    (∀ p, ((new crateName sdkPath).after calls).build = .ok p →
      Reference.Increasing p.references ∧
      (∀ r, r ∈ p.references ↔ Reference.last? (given calls) r.name = some r ∨
        .withoutMarkers ∉ calls ∧ sdkCrate ∉ (given calls).map (·.name) ∧
          r = ⟨sdkCrate, .path ((calls.filterMap Call.sdkPath?).getLast?.getD sdkPath)⟩) ∧
      ∀ config, Reference.Increasing (Pass.referenceSet config p) ∧
        ((Pass.referenceSet config p).map (·.name)).count sdkCrate = 1 ∧
        ∀ r, r ∈ Pass.referenceSet config p ↔ r ∈ p.references ∨
          sdkCrate ∉ p.references.map (·.name) ∧ r = ⟨sdkCrate, .path config.sdkPathText⟩) ∧
    ∀ calls', Call.Reordered calls calls' →
      ((new crateName sdkPath).after calls).build = ((new crateName sdkPath).after calls').build ∧
      ∀ p p', ((new crateName sdkPath).after calls).build = .ok p →
        ((new crateName sdkPath).after calls').build = .ok p' →
          (p.fingerprint : δ) = p'.fingerprint ∧ ∀ config, Pass.referenceSet config p = Pass.referenceSet config p' := by
  have references (calls : List Call) :
      ((new crateName sdkPath).after calls).references = (given calls).foldl Reference.insert [] :=
    references_after calls
  refine ⟨fun p built => ?_, fun calls' reordered => ?_⟩
  · obtain ⟨distinct, last⟩ := Reference.foldl_insert (given calls)
    have increasing : Reference.Increasing p.references := by
      rw [(Program.eq_of_build built).2.1]
      exact increasing_allReferences (references calls ▸ distinct)
    refine ⟨increasing, fun r => ?_, fun config =>
      ⟨Pass.increasing_referenceSet increasing, Pass.count_referenceSet increasing, fun _ => Pass.mem_referenceSet⟩⟩
    rw [(Program.eq_of_build built).2.1, mem_allReferences, injectSdk_after, sdkPath_after, references, last,
      Reference.mem_map_name_foldl_insert]
    exact or_congr_right (and_congr_left fun _ => and_iff_right rfl)
  · have same : ((new crateName sdkPath).after calls).build = ((new crateName sdkPath).after calls').build :=
      build_after_of_reordered rfl reordered
    refine ⟨same, fun p p' built built' => ?_⟩
    obtain rfl := Except.ok.inj (built.symm.trans (same.trans built'))
    exact ⟨rfl, fun config => rfl⟩

/-- A reference that is given again counts, wherever a reference of another name stands. -/
theorem references_of_calls_givenAgain :
    let serde (requirement : String) : Call := .reference ⟨"serde", .version requirement⟩
    let anyhow : Call := .reference ⟨"anyhow", .version "1"⟩
    let p : Program := ⟨"host", [], [⟨"anyhow", .version "1"⟩, ⟨sdkCrate, .path "/sdk"⟩, ⟨"serde", .version "2"⟩]⟩
    Call.Reordered [serde "1", serde "2", anyhow] [serde "1", anyhow, serde "2"] ∧
      ((new "host" "/sdk").after [serde "1", serde "2", anyhow]).build = .ok p ∧
      ((new "host" "/sdk").after [serde "1", anyhow, serde "2"]).build = .ok p ∧
      Reference.Increasing p.references ∧ ⟨"serde", .version "1"⟩ ∉ p.references := by
  intro serde anyhow p
  have reordered : Call.Reordered [serde "1", serde "2", anyhow] [serde "1", anyhow, serde "2"] := by
    refine .swap ⟨.inl rfl, fun r s hr hs => ?_⟩ [serde "1"] []
    cases hr
    cases hs
    decide
  have built : ((new "host" "/sdk").after [serde "1", serde "2", anyhow]).build = .ok p := by
    let rs : List Reference := [⟨"serde", .version "2"⟩, ⟨"anyhow", .version "1"⟩, ⟨sdkCrate, .path "/sdk"⟩]
    have unsorted : ((new "host" "/sdk").after [serde "1", serde "2", anyhow]).allReferences = Reference.sortByName rs :=
      rfl
    have distinct : Reference.Distinct rs := by
      unfold Reference.Distinct
      decide
    have increasing : Reference.Increasing p.references := by
      unfold Reference.Increasing
      decide
    have perm : rs.Perm p.references := by decide
    have sorted : Reference.sortByName rs = p.references :=
      (Reference.increasing_sortByName distinct).ext increasing fun r => Reference.mem_sortByName.trans perm.mem_iff
    rw [build, unsorted, sorted]
    rfl
  obtain ⟨program, order⟩ := @references_of_calls Transcript _ "host" "/sdk" [serde "1", serde "2", anyhow]
  obtain ⟨increasing, mem, -⟩ := program p built
  refine ⟨reordered, built, (order _ reordered).1.symm.trans built, increasing, fun there => ?_⟩
  obtain last | ⟨-, -, crate⟩ := (mem _).mp there
  · exact absurd last (by decide)
  · exact absurd crate (by decide)

end ProgramBuilder

end SourceGen
