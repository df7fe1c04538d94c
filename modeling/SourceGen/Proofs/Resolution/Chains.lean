import SourceGen.Proofs.Resolution.Paths

/-!
# Chains of imports

An import can name what another import binds, in its own module or in another one, and so on until a path names a
marker (`Model.Reaches`). Resolution follows one import: the marker of an attribute is that of the path which an import
writes in place of its first name, and if this is again a path to an import, then there is none
(`Model.markerOf_of_reaches`, `Model.not_markerOf_renamedCrate`).
-/

namespace SourceGen

open SourceGen.Text

/-- The scope of a module. -/
def SourceModule.scope (M : SourceModule) : Scope := .ofItems M.path M.items M.carried

/-- Whether a path that starts at a place in the program leads to a path from its root, if it is written in the module
at a path. -/
inductive LeadsTo (modulePath : List String) : List String → List String → Prop
  | crate {rest : List String} : LeadsTo modulePath ("crate" :: rest) rest
  | relative {fromSelf : Bool} {supers : Nat} {rest : List String} (relative : fromSelf = true ∨ 0 < supers)
      (within : supers ≤ modulePath.length) :
      LeadsTo modulePath (relativePath fromSelf supers rest) (modulePath.take (modulePath.length - supers) ++ rest)

namespace Model

/-- The marker that is declared at a path, if this starts at another crate. -/
def markerAt? (m : Model) (path : List String) : Option Marker :=
  match path with
  | [] => none
  | first :: _ => if first ∉ placeWords ∧ m.isExternCrate first = true then m.markers.lookup? (joinPath path) else none

/-- Whether a path in a scope reaches a marker over a number of imports: a name that is bound in the scope, or in
another module of the program to which the path leads, stands for the path of its import. -/
inductive Reaches (m : Model) : Scope → List String → Nat → Marker → Prop
  | there {s : Scope} {path : List String} {k : Marker} (declared : m.markerAt? path = some k) : Reaches m s path 0 k
  | here {s : Scope} {first : String} {rest : List String} {b : Binding} {links : Nat} {k : Marker}
      (further : m.markerAt? (first :: rest) = none) (name : first ∉ placeWords) (bound : b ∈ s.named first)
      (reaches : Reaches m s (b.target ++ rest) links k) : Reaches m s (first :: rest) (links + 1) k
  | elsewhere {s : Scope} {path : List String} {M : SourceModule} {first : String} {rest : List String} {b : Binding}
      {links : Nat} {k : Marker} (further : m.markerAt? path = none) (module : M ∈ m.program.modules)
      (leads : LeadsTo s.modulePath path (M.path ++ first :: rest)) (bound : b ∈ M.scope.named first)
      (reaches : Reaches m M.scope (b.target ++ rest) links k) : Reaches m s path (links + 1) k

variable {p : Program} {m : Model}

/-! ### The table of markers -/

lemma isExternCrate_iff (built : ofProgram p = .ok m) {name : String} :
    m.isExternCrate name = true ↔ name ∈ builtinCrates ∨ ∃ r ∈ p.references, r.name = name := by
  obtain ⟨_, -, rfl⟩ := eq_of_ofProgram built
  rw [isExternCrate, List.contains_iff_mem, List.mem_append, List.mem_map]

lemma exists_crate_of_lookup? (built : ofProgram p = .ok m) {path : String} {k : Marker}
    (found : m.markers.lookup? path = some k) : ∃ c ∈ markerCrates, path = c ++ "::" ++ k.attributeName := by
  obtain ⟨markers, table, rfl⟩ := eq_of_ofProgram built
  rw [MarkerTable.ofProgram] at table
  split at table
  case isTrue => cases table
  case isFalse =>
    cases table
    obtain ⟨⟨path', k'⟩, first, rfl⟩ := Option.map_eq_some_iff.mp found
    have same : path' = path := by simpa using List.find?_some first
    obtain ⟨k'', -, there⟩ := List.mem_flatMap.mp (List.mem_of_find?_eq_some first)
    obtain ⟨c, hc, eq⟩ := List.mem_map.mp there
    cases eq
    exact ⟨c, (List.mem_filter.mp hc).1, same.symm⟩

/-- No marker is declared in the program itself. -/
lemma lookup?_fromRoot (built : ofProgram p = .ok m) (names : List String) :
    m.markers.lookup? (fromRoot names) = none := by
  cases found : m.markers.lookup? (fromRoot names) with
  | none => rfl
  | some k =>
    obtain ⟨c, hc, eq⟩ := exists_crate_of_lookup? built found
    have own : (fromRoot names).toList.head? = some 'c' := by
      rw [fromRoot]
      split
      case isTrue => rfl
      case isFalse =>
        rw [String.toList_append]
        rfl
    have other : ∀ c ∈ markerCrates, (c ++ "::" ++ k.attributeName).toList.head? = some 'm' := by
      cases k <;> decide
    rw [eq, other c hc] at own
    cases own

/-- The marker at the canonical form of a path is the one that is declared at the path. -/
lemma lookup?_canonical (built : ofProgram p = .ok m) (modulePath path : List String) :
    m.markers.lookup? (m.canonical modulePath path) = m.markerAt? path := by
  cases path with
  | nil => exact lookup?_fromRoot built []
  | cons first rest =>
    by_cases name : first ∈ placeWords
    · have inside : ∃ names, m.canonicalNames modulePath (first :: rest) = "crate" :: names := by
        simp only [placeWords, List.mem_cons, List.not_mem_nil, or_false] at name
        obtain rfl | rfl | rfl := name <;> exact ⟨_, rfl⟩
      obtain ⟨names, inside⟩ := inside
      rw [canonical_eq, inside, ← fromRoot_eq, lookup?_fromRoot built]
      exact (if_neg fun outside => outside.1 name).symm
    · rw [canonical_eq, canonicalNames_of_name name, markerAt?]
      by_cases crate : m.isExternCrate first = true
      · rw [if_pos crate, if_pos ⟨name, crate⟩]
      · rw [if_neg crate, ← fromRoot_eq, lookup?_fromRoot built, if_neg fun outside => crate outside.2]

/-- A crate that declares the markers declares each of them under its name, if the program references the crate. -/
lemma markerAt?_of_reference (built : ofProgram p = .ok m) {c : String} (declares : c ∈ markerCrates)
    (referenced : (p.reference? c).isSome = true) (k : Marker) : m.markerAt? [c, k.attributeName] = some k := by
  have name : ∀ c ∈ markerCrates, c ∉ placeWords := by decide
  have crate : m.isExternCrate c = true := by
    obtain ⟨r, found⟩ := Option.isSome_iff_exists.mp referenced
    have same : r.name = c := by simpa using List.find?_some found
    exact (isExternCrate_iff built).mpr (.inr ⟨r, List.mem_of_find?_eq_some found, same⟩)
  have there : (joinPath [c, k.attributeName], k) ∈ m.markers.paths := by
    obtain ⟨markers, table, rfl⟩ := eq_of_ofProgram built
    rw [MarkerTable.ofProgram] at table
    split at table
    case isTrue => cases table
    case isFalse =>
      cases table
      refine List.mem_flatMap.mpr ⟨k, by cases k <;> decide, List.mem_map.mpr ⟨c, ?_, rfl⟩⟩
      exact List.mem_filter.mpr ⟨declares, referenced⟩
  have found : (m.markers.lookup? (joinPath [c, k.attributeName])).isSome = true := by
    rw [MarkerTable.lookup?, Option.isSome_map, List.find?_isSome]
    exact ⟨_, there, decide_eq_true rfl⟩
  obtain ⟨k', found⟩ := Option.isSome_iff_exists.mp found
  -- the path tells the marker
  obtain ⟨c', declares', same⟩ := exists_crate_of_lookup? built found
  have tells : ∀ c ∈ markerCrates, ∀ c' ∈ markerCrates,
      joinPath [c, k.attributeName] = c' ++ "::" ++ k'.attributeName → k' = k := by
    cases k <;> cases k' <;> decide
  rw [markerAt?, if_pos ⟨name c declares, crate⟩, found, tells c declares c' declares' same]

/-! ### One import -/

lemma findSome?_addAllNew {α β : Type} [BEq α] [LawfulBEq α] (f : α → Option β) (values more : List α) :
    (ModuleContent.addAllNew values more).findSome? f = (values ++ more).findSome? f := by
  induction more generalizing values with
  | nil => rw [List.append_nil]; rfl
  | cons v more ih =>
    change (ModuleContent.addAllNew (ModuleContent.addNew values v) more).findSome? f = _
    rw [ih, ModuleContent.addNew]
    split
    case isTrue there =>
      have there : v ∈ values := List.contains_iff_mem.mp there
      rw [List.findSome?_append, List.findSome?_append, List.findSome?_cons]
      cases found : values.findSome? f with
      | some _ => rfl
      | none => rw [List.findSome?_eq_none_iff.mp found v there]
    case isFalse => rw [List.append_assoc, List.singleton_append]

lemma findSome?_distinct {β : Type} (f : String → Option β) (cs : List String) :
    (distinct cs).findSome? f = cs.findSome? f :=
  findSome?_addAllNew f [] cs

lemma head?_distinct (cs : List String) : (distinct cs).head? = cs.head? := by
  have head (cs : List String) : cs.findSome? some = cs.head? := by cases cs <;> rfl
  rw [← head, findSome?_distinct, head]

variable {s : Scope} {a : Attr} {first : String} {rest : List String}

lemma markerOf_of_bound (built : ofProgram p = .ok m) (path : a.path = ⟨false, first :: rest⟩)
    (name : first ∉ placeWords) (bound : s.named first ≠ []) :
    m.markerOf s a = (s.named first).findSome? fun b => m.markerAt? (b.target ++ rest) := by
  rw [markerOf, MarkerTable.classify, path, candidates_of_bound name bound, findSome?_distinct, List.findSome?_map]
  exact congrArg (List.findSome? · _) (funext fun b : Binding => lookup?_canonical built s.modulePath (b.target ++ rest))

/-- What reaches a marker without an import is where it is declared, and all else is not. -/
lemma Reaches.markerAt?_eq {path : List String} {links : Nat} {k : Marker} (reaches : m.Reaches s path links k) :
    m.markerAt? path = if links = 0 then some k else none := by
  cases reaches with
  | there declared => exact declared
  | here further => exact further
  | elsewhere further => exact further

/-- The marker of an attribute whose path starts with an imported name is the one that the first of the imports names
which names one. So if the name stands for one path only, and this reaches a marker, then this is the marker of the
attribute exactly if no other imports lie between them. Markers are declared by the crates for that which the program
references. -/
theorem markerOf_of_reaches (built : ofProgram p = .ok m) (path : a.path = ⟨false, first :: rest⟩)
    (name : first ∉ placeWords) (bound : s.named first ≠ []) :
    m.markerOf s a = ((s.named first).findSome? fun b => m.markerAt? (b.target ++ rest)) ∧
      (∀ b ∈ s.named first, (∀ b' ∈ s.named first, b'.target = b.target) →
        ∀ links k, m.Reaches s (b.target ++ rest) links k → m.markerOf s a = if links = 0 then some k else none) ∧
      ∀ c ∈ markerCrates, (p.reference? c).isSome = true → ∀ k : Marker, m.markerAt? [c, k.attributeName] = some k := by
  have marker := markerOf_of_bound built path name bound
  refine ⟨marker, fun b hb only links k reaches => ?_, fun c declares => markerAt?_of_reference built declares⟩
  rw [marker, ← reaches.markerAt?_eq]
  cases declared : m.markerAt? (b.target ++ rest) with
  | none =>
    apply List.findSome?_eq_none_iff.mpr
    intro b' hb'
    rw [only b' hb', declared]
  | some k' =>
    obtain ⟨b', bs, all⟩ := List.exists_cons_of_ne_nil bound
    have same : b'.target = b.target := only b' (all ▸ List.mem_cons_self)
    rw [all, List.findSome?_cons, same, declared]

/-- An import of a marker by another name, and one of a marker that another module of the program imports: the first is
followed, and the second is not. -/
theorem markerOf_of_reaches_otherModule :
    let text := "mod prelude \x7b\npub use microgen_sdk::micro_generator;\n\x7d\n" ++
      "use crate::prelude::micro_generator;\nuse microgen_sdk::generator_dependency as needed;\n"
    ∃ m u, Model.ofText? text = some m ∧ Model.ofProgram m.program = .ok m ∧ m.program.units = [u] ∧
      (Scope.ofUnit u).named "needed" = [⟨"needed", ["microgen_sdk", "generator_dependency"], false⟩] ∧
      (Scope.ofUnit u).named "micro_generator" = [⟨"micro_generator", ["crate", "prelude", "micro_generator"], false⟩] ∧
      m.Reaches (Scope.ofUnit u) ["crate", "prelude", "micro_generator"] 1 .generator ∧
      m.markerOf (Scope.ofUnit u) (Attr.ofNames false "needed" []) = some .dependency ∧
      m.markerOf (Scope.ofUnit u) (Attr.ofNames false "micro_generator" []) = none := by
  intro text
  obtain ⟨m, u, built, units, computed⟩ : ∃ m u, Model.ofText? text = some m ∧ m.program.units = [u] ∧
      ((Scope.ofUnit u).named "needed" == [⟨"needed", ["microgen_sdk", "generator_dependency"], false⟩] &&
        (Scope.ofUnit u).named "micro_generator" ==
          [⟨"micro_generator", ["crate", "prelude", "micro_generator"], false⟩] &&
        u.modules.any (fun M => M.path == ["prelude"] &&
          M.scope.named "micro_generator" == [⟨"micro_generator", ["microgen_sdk", "micro_generator"], false⟩]) &&
        m.markerAt? ["microgen_sdk", "generator_dependency"] == some .dependency &&
        m.markerAt? ["microgen_sdk", "micro_generator"] == some .generator) = true :=
    Model.exists_of_ofText? (by decide +kernel)
  simp only [Bool.and_eq_true, beq_iff_eq, List.any_eq_true] at computed
  obtain ⟨⟨⟨⟨needed, imported⟩, M, hM, path, inside⟩, dependency⟩, generator⟩ := computed
  have ofProgram := Model.ofProgram_of_ofText? built
  have reaches : m.Reaches (Scope.ofUnit u) ["crate", "prelude", "micro_generator"] 1 .generator := by
    have leads : LeadsTo (Scope.ofUnit u).modulePath ["crate", "prelude", "micro_generator"]
        (M.path ++ ["micro_generator"]) := by
      rw [path]
      exact .crate
    have module : M ∈ m.program.modules := List.mem_flatMap.mpr ⟨u, units ▸ List.mem_singleton_self u, hM⟩
    have bound : ⟨"micro_generator", ["microgen_sdk", "micro_generator"], false⟩ ∈ M.scope.named "micro_generator" :=
      inside ▸ List.mem_singleton_self _
    exact .elsewhere rfl module leads bound (.there generator)
  refine ⟨m, u, built, ofProgram, units, needed, imported, reaches, ?_, ?_⟩
  · obtain ⟨-, marker, -⟩ := markerOf_of_reaches ofProgram (s := Scope.ofUnit u)
      (a := Attr.ofNames false "needed" []) rfl (by decide) (needed ▸ List.cons_ne_nil _ _)
    rw [needed] at marker
    exact marker _ List.mem_cons_self (fun _ hb => by rw [List.mem_singleton.mp hb]) 0 _ (.there dependency)
  · obtain ⟨-, marker, -⟩ := markerOf_of_reaches ofProgram (s := Scope.ofUnit u)
      (a := Attr.ofNames false "micro_generator" []) rfl (by decide) (imported ▸ List.cons_ne_nil _ _)
    rw [imported] at marker
    exact marker _ List.mem_cons_self (fun _ hb => by rw [List.mem_singleton.mp hb]) 1 _ reaches

/-- A marker is not recognised that is imported from its crate under another name of the crate. -/
theorem not_markerOf_renamedCrate :
    let text := "use microgen_sdk as sdk;\nuse sdk::micro_generator;\n"
    ∃ m u, Model.ofText? text = some m ∧ m.program.units = [u] ∧
      (Scope.ofUnit u).named "micro_generator" = [⟨"micro_generator", ["sdk", "micro_generator"], false⟩] ∧
      m.Reaches (Scope.ofUnit u) ["sdk", "micro_generator"] 1 .generator ∧
      m.markerOf (Scope.ofUnit u) (Attr.ofNames false "micro_generator" []) = none := by
  intro text
  obtain ⟨m, u, built, units, computed⟩ : ∃ m u, Model.ofText? text = some m ∧ m.program.units = [u] ∧
      ((Scope.ofUnit u).named "micro_generator" == [⟨"micro_generator", ["sdk", "micro_generator"], false⟩] &&
        (Scope.ofUnit u).named "sdk" == [⟨"sdk", ["microgen_sdk"], false⟩] &&
        m.markerAt? ["sdk", "micro_generator"] == none &&
        m.markerAt? ["microgen_sdk", "micro_generator"] == some .generator &&
        m.markerOf (Scope.ofUnit u) (Attr.ofNames false "micro_generator" []) == none) = true :=
    Model.exists_of_ofText? (by decide +kernel)
  simp only [Bool.and_eq_true, beq_iff_eq] at computed
  obtain ⟨⟨⟨⟨bound, renamed⟩, further⟩, declared⟩, unmarked⟩ := computed
  refine ⟨m, u, built, units, bound, ?_, unmarked⟩
  apply Reaches.here further (by decide) (b := ⟨"sdk", ["microgen_sdk"], false⟩)
  · rw [renamed]
    exact List.mem_singleton_self _
  · exact .there declared

end Model

end SourceGen
