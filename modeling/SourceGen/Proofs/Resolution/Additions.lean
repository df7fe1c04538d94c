import Mathlib.Logic.Relation
import SourceGen.Proofs.Resolution.Chains

/-!
# More imports in a scope

What a path may stand for is a matter of the imports that bind its first name and, if there are none, of the imports of
all names of a module (`Model.candidates_congr`). So an import of another name has no say. One more import of all names
can add a candidate, and it takes nothing away. The new one comes before the path as seen from its own module only. If
that is a marker, it is the first candidate already, so no marker is hidden (`Model.candidates_of_adds`).
-/

namespace SourceGen

open SourceGen.Text

namespace Scope

/-- Whether a path means the same whatever modules all names are imported from. -/
def Settles (s : Scope) (path : NamePath) : Prop :=
  path.rooted = true ∨ ∀ first ∈ path.names.head?, first ∈ placeWords ∨ s.named first ≠ []

/-- Whether a scope has one import more than another one: one of another name than a path starts with, or one of all
names of a module behind the others. -/
inductive Adds (path : NamePath) (s : Scope) : Scope → Prop
  | name {before after : List Binding} {b : Binding} (bindings : s.bindings = before ++ after) (one : b.glob = false)
      (other : path.names.head? ≠ some b.name) : Adds path s { s with bindings := before ++ b :: after }
  | all {b : Binding} (all : b.glob = true) : Adds path s { s with bindings := s.bindings ++ [b] }

variable {s : Scope} {b : Binding}

lemma named_of_name {before after : List Binding} {first : String} (bindings : s.bindings = before ++ after)
    (other : first ≠ b.name) : { s with bindings := before ++ b :: after }.named first = s.named first := by
  have out : ¬ (!b.glob && b.name == first) = true := fun there =>
    other (eq_of_beq (Bool.and_eq_true_iff.mp there).2).symm
  rw [named, named, bindings, List.filter_append, List.filter_append, List.filter_cons, if_neg out]

lemma globs_of_name {before after : List Binding} (bindings : s.bindings = before ++ after) (one : b.glob = false) :
    { s with bindings := before ++ b :: after }.globs = s.globs := by
  rw [globs, globs, bindings, List.filter_append, List.filter_append,
    List.filter_cons_of_neg (Bool.eq_false_iff.mp one)]

lemma named_of_all (all : b.glob = true) (first : String) :
    { s with bindings := s.bindings ++ [b] }.named first = s.named first := by
  have out : ¬ (!b.glob && b.name == first) = true := by
    rw [all]
    exact Bool.false_ne_true
  rw [named, named, List.filter_append, List.filter_cons, if_neg out, List.filter_nil, List.append_nil]

lemma globs_of_all (all : b.glob = true) : { s with bindings := s.bindings ++ [b] }.globs = s.globs ++ [b] := by
  rw [globs, globs, List.filter_append, List.filter_cons_of_pos all, List.filter_nil]

lemma exists_of_not_settles {path : NamePath} (open' : ¬ s.Settles path) :
    ∃ first rest, path = ⟨false, first :: rest⟩ ∧ first ∉ placeWords ∧ s.named first = [] := by
  obtain ⟨rooted, names⟩ := path
  obtain ⟨relative, free⟩ := not_or.mp open'
  cases rooted with
  | true => exact absurd rfl relative
  | false =>
    cases names with
    | nil => exact absurd (fun _ none => nomatch none) free
    | cons first rest =>
      refine ⟨first, rest, rfl, fun word => free ?_, not_not.mp fun bound => free ?_⟩
      · rintro _ ⟨rfl⟩
        exact .inl word
      · rintro _ ⟨rfl⟩
        exact .inr bound

end Scope

namespace Model

variable {p : Program} {m : Model} {s s' : Scope} {first : String} {rest : List String} {path : NamePath}

/-! ### What candidates depend on -/

/-- Candidates depend on the module, on the imports that bind the first name, and on the imports of all names unless
these have no say. -/
lemma candidates_congr (place : s'.modulePath = s.modulePath)
    (named : ∀ first ∈ path.names.head?, s'.named first = s.named first)
    (globs : s.Settles path ∨ s'.globs = s.globs) : m.candidates s' path = m.candidates s path := by
  obtain ⟨rooted, names⟩ := path
  cases rooted with
  | true => rfl
  | false =>
    cases names with
    | nil => rfl
    | cons first rest =>
      have named : s'.named first = s.named first := named first rfl
      by_cases word : first ∈ placeWords
      · rw [candidates_of_placeWord word, candidates_of_placeWord word, place]
      · by_cases free : s.named first = []
        · have globs : s'.globs = s.globs := by
            refine globs.resolve_left fun settles => ?_
            obtain relative | bound := settles
            · cases relative
            · exact (bound first rfl).elim word (· free)
          rw [candidates_of_free word free, candidates_of_free word (named.trans free), globs, place]
        · rw [candidates_of_bound word free, candidates_of_bound word (named ▸ free), named, place]

lemma candidates_of_name {before after : List Binding} {b : Binding} (bindings : s.bindings = before ++ after)
    (one : b.glob = false) (other : path.names.head? ≠ some b.name) :
    m.candidates { s with bindings := before ++ b :: after } path = m.candidates s path := by
  refine candidates_congr rfl (fun first starts => ?_) (.inr (Scope.globs_of_name bindings one))
  exact Scope.named_of_name bindings fun same => other (same ▸ starts)

/-! ### One more import of all names -/

lemma distinct_append_singleton (cs : List String) (c : String) :
    distinct (cs ++ [c]) = if c ∈ cs then distinct cs else distinct cs ++ [c] := by
  have step : distinct (cs ++ [c]) = if (distinct cs).contains c then distinct cs else distinct cs ++ [c] := by
    rw [distinct, List.foldl_append]
    rfl
  rw [step]
  simp only [List.contains_iff_mem, mem_distinct]

/-- A candidate before the last one is left out if it is there already, and otherwise nothing changes beside it. -/
lemma distinct_insert (cs : List String) (c last : String) :
    (c ∈ cs ++ [last] → distinct (cs ++ [c] ++ [last]) = distinct (cs ++ [last])) ∧
      (c ∉ cs ++ [last] → ∃ before after, distinct (cs ++ [last]) = before ++ after ∧
        distinct (cs ++ [c] ++ [last]) = before ++ c :: after) := by
  rw [distinct_append_singleton (cs ++ [c]), distinct_append_singleton cs c, distinct_append_singleton cs last]
  constructor
  · intro there
    by_cases known : c ∈ cs
    · have same : last ∈ cs ++ [c] ↔ last ∈ cs := by
        rw [List.mem_append, List.mem_singleton, or_iff_left_of_imp fun eq => eq ▸ known]
      simp only [known, same, if_true]
    · obtain rfl : c = last := List.mem_singleton.mp ((List.mem_append.mp there).resolve_left known)
      rw [if_pos (List.mem_append_right _ (List.mem_singleton_self c))]
  · intro unknown
    rw [List.mem_append, List.mem_singleton, not_or] at unknown
    have same : last ∈ cs ++ [c] ↔ last ∈ cs := by
      rw [List.mem_append, List.mem_singleton, or_iff_left (Ne.symm unknown.2)]
    simp only [unknown.1, same, if_false]
    by_cases known : last ∈ cs
    · refine ⟨distinct cs, [], ?_, ?_⟩
      · rw [if_pos known, List.append_nil]
      · rw [if_pos known]
    · refine ⟨distinct cs, [last], ?_, ?_⟩
      · rw [if_neg known]
      · rw [if_neg known, List.append_assoc]
        rfl

/-- One more import of all names adds the path below it to the candidates, unless this is one of them. -/
lemma candidates_of_all {b : Binding} (all : b.glob = true) (unsettled : ¬ s.Settles path) :
    (m.canonical s.modulePath (b.target ++ path.names) ∈ m.candidates s path →
      m.candidates { s with bindings := s.bindings ++ [b] } path = m.candidates s path) ∧
    (m.canonical s.modulePath (b.target ++ path.names) ∉ m.candidates s path → ∃ before after,
      m.candidates s path = before ++ after ∧ m.candidates { s with bindings := s.bindings ++ [b] } path =
        before ++ m.canonical s.modulePath (b.target ++ path.names) :: after) := by
  obtain ⟨first, rest, rfl, name, free⟩ := Scope.exists_of_not_settles unsettled
  have more := (Scope.named_of_all all first).trans free
  rw [candidates_of_free name free, candidates_of_free name more, Scope.globs_of_all all, List.map_append,
    List.map_singleton, ← List.append_assoc, mem_distinct]
  exact distinct_insert _ _ _

lemma candidates_of_all_settled {b : Binding} (all : b.glob = true) (settles : s.Settles path) :
    m.candidates { s with bindings := s.bindings ++ [b] } path = m.candidates s path :=
  candidates_congr rfl (fun first _ => Scope.named_of_all all first) (.inl settles)

/-- No import takes a candidate away. -/
lemma candidates_sublist_of_adds (adds : s.Adds path s') : (m.candidates s path).Sublist (m.candidates s' path) := by
  cases adds with
  | name bindings one other => rw [candidates_of_name bindings one other]
  | @all b all =>
    by_cases settles : s.Settles path
    · rw [candidates_of_all_settled all settles]
    · obtain ⟨known, new⟩ := candidates_of_all (m := m) all settles
      by_cases there : m.canonical s.modulePath (b.target ++ path.names) ∈ m.candidates s path
      · rw [known there]
      · obtain ⟨before, after, eq, eq'⟩ := new there
        rw [eq, eq']
        exact (List.sublist_cons_self _ _).append_left _

/-! ### Markers -/

variable {a : Attr}

/-- A path whose first name is free leads to a marker if the marker is declared there, or else if it is declared below
a module that all names are imported from. -/
lemma markerOf_of_free (built : ofProgram p = .ok m) (path : a.path = ⟨false, first :: rest⟩)
    (name : first ∉ placeWords) (free : s.named first = []) :
    m.markerOf s a = (m.markerAt? (first :: rest)).or
      (s.globs.findSome? fun b => m.markerAt? (b.target ++ first :: rest)) := by
  have outside : (if m.isExternCrate first then [joinPath (first :: rest)] else []).findSome? m.markers.lookup? =
      m.markerAt? (first :: rest) := by
    rw [markerAt?]
    by_cases crate : m.isExternCrate first = true
    · rw [if_pos crate, if_pos ⟨name, crate⟩, List.findSome?_singleton]
    · rw [if_neg crate, if_neg fun both => crate both.2, List.findSome?_nil]
  have among : (s.globs.map fun b => m.canonical s.modulePath (b.target ++ first :: rest)).findSome? m.markers.lookup? =
      s.globs.findSome? fun b => m.markerAt? (b.target ++ first :: rest) := by
    rw [List.findSome?_map]
    exact congrArg (List.findSome? · _) (funext fun _ => lookup?_canonical built s.modulePath _)
  rw [markerOf, MarkerTable.classify, path, candidates_of_free name free, findSome?_distinct, List.findSome?_append,
    List.findSome?_append, List.findSome?_singleton, outside, among, lookup?_canonical built]
  -- the path below its own module is the last candidate, but a marker that it leads to was found at the first one
  cases m.markerAt? (first :: rest) with
  | none => exact Option.or_none
  | some k => rfl

/-- No import hides a marker. -/
lemma markerOf_of_adds (built : ofProgram p = .ok m) (adds : s.Adds a.path s') {k : Marker}
    (marked : m.markerOf s a = some k) : m.markerOf s' a = some k := by
  rw [← marked]
  cases adds with
  | name bindings one other => exact congrArg m.markers.classify (candidates_of_name bindings one other)
  | @all b all =>
    by_cases settles : s.Settles a.path
    · exact congrArg m.markers.classify (candidates_of_all_settled all settles)
    · obtain ⟨first, rest, path, name, free⟩ := Scope.exists_of_not_settles settles
      have more := (Scope.named_of_all all first).trans free
      rw [markerOf_of_free built path name free] at marked ⊢
      rw [markerOf_of_free built path name more, Scope.globs_of_all all, List.findSome?_append, ← Option.or_assoc,
        marked]
      rfl

/-- An import of another name leaves the candidates of a path as they are, wherever it stands among the others. So does
one more import of all names, behind the others, if the path starts at the root of all crates, at a place in the program
or with a bound name, or if the path below the module is a candidate already. If not, this path is the one candidate
that comes in between. So after any number of such imports all candidates are still there, in their order, and a marker
is still the same. -/
theorem candidates_of_adds (m : Model) (s : Scope) (path : NamePath) :
    (∀ before after b, s.bindings = before ++ after → b.glob = false → path.names.head? ≠ some b.name →
      m.candidates { s with bindings := before ++ b :: after } path = m.candidates s path) ∧
    (∀ b : Binding, b.glob = true →
      let more := { s with bindings := s.bindings ++ [b] }
      let below := m.canonical s.modulePath (b.target ++ path.names)
      (s.Settles path ∨ below ∈ m.candidates s path → m.candidates more path = m.candidates s path) ∧
      (¬ s.Settles path → below ∉ m.candidates s path → ∃ before after,
        m.candidates s path = before ++ after ∧ m.candidates more path = before ++ below :: after)) ∧
    ∀ s', Relation.ReflTransGen (Scope.Adds path) s s' →
      (m.candidates s path).Sublist (m.candidates s' path) ∧
      ∀ p a k, ofProgram p = .ok m → a.path = path → m.markerOf s a = some k → m.markerOf s' a = some k := by
  refine ⟨fun before after b bindings one other => candidates_of_name bindings one other, fun b all => ?_,
    fun s' more => ?_⟩
  · refine ⟨fun same => ?_, fun unsettled new => (candidates_of_all all unsettled).2 new⟩
    by_cases settles : s.Settles path
    · exact candidates_of_all_settled all settles
    · exact (candidates_of_all all settles).1 (same.resolve_left settles)
  · induction more with
    | refl => exact ⟨List.Sublist.refl _, fun _ _ _ _ _ marked => marked⟩
    | tail _ adds ih =>
      refine ⟨ih.1.trans (candidates_sublist_of_adds adds), fun p a k built eq marked => ?_⟩
      subst eq
      exact markerOf_of_adds built adds (ih.2 p a k built rfl marked)

/-- A marker that is reached through an import of all names, and two imports more: one of another name before the one
that is there, and one of all names of a module behind it. -/
theorem candidates_of_adds_prelude :
    let a := Attr.ofNames false "micro_generator" []
    let sdk : Binding := ⟨"*", ["microgen_sdk"], true⟩
    let fmt : Binding := ⟨"fmt", ["std", "fmt"], false⟩
    let prelude : Binding := ⟨"*", ["crate", "prelude"], true⟩
    let known := ["microgen_sdk::micro_generator", "crate::micro_generator"]
    ∃ m u, Model.ofText? "use microgen_sdk::*;\n" = some m ∧ m.program.units = [u] ∧
      (Scope.ofUnit u).bindings = [sdk] ∧ ¬ (Scope.ofUnit u).Settles a.path ∧
      m.candidates (Scope.ofUnit u) a.path = known ∧ m.markerOf (Scope.ofUnit u) a = some .generator ∧
      m.candidates { Scope.ofUnit u with bindings := [fmt, sdk] } a.path = known ∧
      (∃ before after, known = before ++ after ∧
        m.candidates { Scope.ofUnit u with bindings := [sdk, prelude] } a.path =
          before ++ "crate::prelude::micro_generator" :: after) ∧
      m.markerOf { Scope.ofUnit u with bindings := [fmt, sdk, prelude] } a = some .generator := by
  intro a sdk fmt prelude known
  obtain ⟨m, u, built, units, computed⟩ : ∃ m u, Model.ofText? "use microgen_sdk::*;\n" = some m ∧
      m.program.units = [u] ∧ ((Scope.ofUnit u).bindings == [sdk] &&
        m.candidates (Scope.ofUnit u) a.path == known && m.markerOf (Scope.ofUnit u) a == some .generator) = true :=
    Model.exists_of_ofText? (by decide +kernel)
  simp only [Bool.and_eq_true, beq_iff_eq] at computed
  obtain ⟨⟨bindings, candidates⟩, marked⟩ := computed
  have unsettled : ¬ (Scope.ofUnit u).Settles a.path := by
    rintro (relative | bound)
    · cases relative
    · refine (bound "micro_generator" rfl).elim (by decide) fun named => named ?_
      rw [Scope.named, bindings]
      decide
  obtain ⟨names, all, any⟩ := candidates_of_adds m (Scope.ofUnit u) a.path
  have other : a.path.names.head? ≠ some fmt.name := by decide
  have inside : m.canonical (Scope.ofUnit u).modulePath (prelude.target ++ a.path.names) =
      "crate::prelude::micro_generator" := rfl
  refine ⟨m, u, built, units, bindings, unsettled, candidates, marked, ?_, ?_, ?_⟩
  · exact (names [] [sdk] fmt bindings rfl other).trans candidates
  · have new := (all prelude rfl).2 unsettled
    rw [inside, candidates, bindings] at new
    exact new (by decide)
  · have one : (Scope.ofUnit u).Adds a.path { Scope.ofUnit u with bindings := [fmt, sdk] } :=
      @Scope.Adds.name _ _ [] [sdk] fmt bindings rfl other
    have two : Scope.Adds a.path { Scope.ofUnit u with bindings := [fmt, sdk] }
        { Scope.ofUnit u with bindings := [fmt, sdk, prelude] } := .all (b := prelude) rfl
    exact (any _ ((Relation.ReflTransGen.single one).tail two)).2 _ a _ (Model.ofProgram_of_ofText? built) rfl marked

end Model

end SourceGen
