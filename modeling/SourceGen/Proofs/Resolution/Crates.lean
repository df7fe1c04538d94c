import SourceGen.Proofs.Resolution.Chains

/-!
# Names of referenced crates

Code calls a referenced crate by its identifier: the name of the reference with underscores in place of hyphens.
Resolution knows crates by the names of their references. So a path that starts at a crate leads there if the name has
no hyphen, or if another reference is called by the identifier, and otherwise it is taken for a path below its module
(`Model.canonical_identifier_iff`, `Model.not_canonical_hyphenatedName`).
-/

namespace SourceGen

open SourceGen.Text

/-- The name by which code calls a referenced crate. -/
def Reference.identifier (r : Reference) : String := r.name.map fun c => if c = '-' then '_' else c

lemma Reference.identifier_eq_name_iff (r : Reference) : r.identifier = r.name ↔ '-' ∉ r.name.toList := by
  have kept (c : Char) : (if c = '-' then '_' else c) = c ↔ c ≠ '-' := by
    by_cases hyphen : c = '-'
    · rw [if_pos hyphen, hyphen]
      decide
    · rw [if_neg hyphen]
      exact iff_of_true rfl hyphen
  calc r.identifier = r.name
      ↔ r.name.toList.map (fun c => if c = '-' then '_' else c) = r.name.toList.map id := by
        rw [← String.toList_inj, identifier, String.toList_map, List.map_id]
    _ ↔ ∀ c ∈ r.name.toList, c ≠ '-' := by
        rw [List.map_inj_left]
        exact forall₂_congr fun c _ => kept c
    _ ↔ '-' ∉ r.name.toList := List.forall_mem_ne'

namespace Model

variable {p : Program} {m : Model}

/-- The model of a program of one unit that refers to a crate, unless the text cannot be parsed. -/
def ofReference? (r : Reference) (text : String) : Option Model :=
  ((((ProgramBuilder.new "host" "/sdk").unit "src/lib.rs" text).reference r).build.toOption).bind fun p =>
    (Model.ofProgram p).toOption

lemma ofReference?_eq {r : Reference} {text : String} (other : r.name ≠ sdkCrate) (before : ¬ sdkCrate < r.name) :
    ofReference? r text = (((ProgramBuilder.new "host" "/sdk").unit "src/lib.rs" text).build.toOption).bind fun p =>
      (Model.ofProgram { p with references := [r, ⟨sdkCrate, .path "/sdk"⟩] }).toOption := by
  let b := (ProgramBuilder.new "host" "/sdk").unit "src/lib.rs" text
  have references : (b.reference r).allReferences = [r, ⟨sdkCrate, .path "/sdk"⟩] := by
    have absent : [r].any (·.name = sdkCrate) = false := by
      rw [List.any_cons, List.any_nil, Bool.or_false, decide_eq_false other]
    have sorted : [r, ⟨sdkCrate, .path "/sdk"⟩].Pairwise (fun a b => !(b.name < a.name)) := by
      rw [List.pairwise_pair, decide_eq_false before]
      rfl
    change Reference.sortByName
      (if true && !([r].any (·.name = sdkCrate)) then [r, ⟨sdkCrate, .path "/sdk"⟩] else [r]) = _
    rw [absent]
    exact List.mergeSort_of_pairwise sorted
  have build : (b.reference r).build = b.units.mapM ProgramBuilder.parseUnit >>= fun units =>
      .ok ⟨b.crateName, units, [r, ⟨sdkCrate, .path "/sdk"⟩]⟩ := by
    rw [← references]
    rfl
  have build' : b.build = b.units.mapM ProgramBuilder.parseUnit >>= fun units =>
      .ok ⟨b.crateName, units, b.allReferences⟩ := rfl
  change ((b.reference r).build.toOption).bind _ = (b.build.toOption).bind _
  rw [build, build']
  cases b.units.mapM ProgramBuilder.parseUnit with
  | error e => rfl
  | ok units => rfl

/-- A path that starts with the identifier of a referenced crate, as written or as an import writes it, leads to the
crate exactly if the name of the reference has no hyphen or if another reference, or a crate that every program can
name, is called by the identifier. If not, it leads below its own module. -/
theorem canonical_identifier_iff (built : ofProgram p = .ok m) {r : Reference} (there : r ∈ p.references)
    (name : r.identifier ∉ placeWords) {s : Scope} {names rest : List String}
    (spells : s.Spells names (r.identifier :: rest)) :
    let path := r.identifier :: rest
    (m.canonical s.modulePath path = joinPath path ↔
      '-' ∉ r.name.toList ∨ r.identifier ∈ builtinCrates ∨ ∃ r' ∈ p.references, r' ≠ r ∧ r'.name = r.identifier) ∧
    (m.canonical s.modulePath path ≠ joinPath path → m.canonical s.modulePath path = fromRoot (s.modulePath ++ path)) ∧
    m.canonical s.modulePath path ∈ m.candidates s ⟨false, names⟩ ∧
    ((∀ path', s.Spells names path' → path' = path) →
      m.candidates s ⟨false, names⟩ = [m.canonical s.modulePath path]) ∧
    (names = path → s.named r.identifier = [] → m.canonical s.modulePath path = joinPath path →
      (m.candidates s ⟨false, names⟩).head? = some (joinPath path)) := by
  intro path
  have inside :
      m.canonical s.modulePath path = fromRoot (s.modulePath ++ path) ↔ m.isExternCrate r.identifier = false :=
    canonical_eq_fromRoot_iff name s.modulePath rest
  have outside : m.isExternCrate r.identifier = true → m.canonical s.modulePath path = joinPath path := by
    intro crate
    rw [canonical_eq, canonicalNames_of_name name, if_pos crate]
  have crate_of_outside : m.canonical s.modulePath path = joinPath path → m.isExternCrate r.identifier = true := by
    intro eq
    cases crate : m.isExternCrate r.identifier with
    | true => rfl
    | false => exact absurd (eq.symm.trans (inside.mpr crate)) (fromRoot_ne_joinPath _ _ _)
  refine ⟨?_, fun ne => ?_, mem_candidates_iff.mpr ⟨path, spells, rfl⟩, candidates_eq_singleton spells, ?_⟩
  · calc m.canonical s.modulePath path = joinPath path
        ↔ m.isExternCrate r.identifier = true := ⟨crate_of_outside, outside⟩
      _ ↔ r.identifier ∈ builtinCrates ∨ ∃ r' ∈ p.references, r'.name = r.identifier := isExternCrate_iff built
      _ ↔ _ := by
        rw [← r.identifier_eq_name_iff]
        constructor
        · rintro (builtin | ⟨r', there', same⟩)
          · exact .inr (.inl builtin)
          · by_cases own : r' = r
            · exact .inl (own ▸ same.symm)
            · exact .inr (.inr ⟨r', there', own, same⟩)
        · rintro (same | builtin | ⟨r', there', -, same⟩)
          · exact .inr ⟨r, there, same.symm⟩
          · exact .inl builtin
          · exact .inr ⟨r', there', same⟩
  · exact inside.mpr (Bool.eq_false_iff.mpr fun crate => ne (outside crate))
  · rintro rfl free known
    rw [candidates_of_free name free, head?_distinct, if_pos (crate_of_outside known)]
    rfl

/-- An attribute that is imported from a crate, and one that is called by its path in the crate. -/
theorem canonical_identifier_iff_plainName :
    let r : Reference := ⟨"async_trait", .version "0.1"⟩
    let text := "use async_trait::async_trait as object;\n"
    ∃ m u, ofReference? r text = some m ∧ m.program.units = [u] ∧ r ∈ m.program.references ∧
      (Scope.ofUnit u).Spells ["object"] [r.identifier, "async_trait"] ∧
      m.candidates (Scope.ofUnit u) ⟨false, ["object"]⟩ = ["async_trait::async_trait"] ∧
      (m.candidates (Scope.ofUnit u) ⟨false, [r.identifier, "async_trait"]⟩).head? =
        some "async_trait::async_trait" := by
  intro r text
  let b : Binding := ⟨"object", ["async_trait", "async_trait"], false⟩
  obtain ⟨m, u, built, units, computed⟩ : ∃ m u, ofReference? r text = some m ∧ m.program.units = [u] ∧
      (m.program.references.contains r && (Scope.ofUnit u).bindings == [b]) = true := by
    rw [ofReference?_eq (by decide) (by decide +kernel)]
    exact exists_of_any (by decide +kernel)
  simp only [Bool.and_eq_true, beq_iff_eq, List.contains_iff_mem] at computed
  obtain ⟨there, bindings⟩ := computed
  have identifier : r.identifier = "async_trait" := r.identifier_eq_name_iff.mpr (by decide)
  have name : r.identifier ∉ placeWords := by
    rw [identifier]
    decide
  have bound : (Scope.ofUnit u).named "object" = [b] := by
    rw [Scope.named, bindings]
    rfl
  have free : (Scope.ofUnit u).named r.identifier = [] := by
    rw [Scope.named, bindings, identifier]
    rfl
  have imported : (Scope.ofUnit u).Spells ["object"] [r.identifier, "async_trait"] := by
    rw [identifier]
    exact .imported (b := b) (by decide) (bound ▸ List.mem_singleton_self _)
  have itself : (Scope.ofUnit u).Spells [r.identifier, "async_trait"] [r.identifier, "async_trait"] :=
    .itself (.inr free)
  have program := ofProgram_of_toOption built
  obtain ⟨leads, -, -, one, -⟩ := canonical_identifier_iff program there name imported
  obtain ⟨-, -, -, -, first⟩ := canonical_identifier_iff program there name itself
  have known := leads.mpr (.inl (by decide))
  have text : joinPath [r.identifier, "async_trait"] = "async_trait::async_trait" := by
    rw [identifier]
    rfl
  refine ⟨m, u, built, units, there, imported, ?_, (first rfl free known).trans (congrArg some text)⟩
  rw [one fun path spells => ?_, known, text]
  rw [spells.eq_of_named (by decide) bound, identifier]
  rfl

/-- A crate is not found whose name has a hyphen. -/
theorem not_canonical_hyphenatedName :
    let r : Reference := ⟨"async-trait", .version "0.1"⟩
    ∃ m u, ofReference? r "" = some m ∧ m.program.units = [u] ∧ r ∈ m.program.references ∧
      r.identifier = "async_trait" ∧ (Scope.ofUnit u).bindings = [] ∧
      m.candidates (Scope.ofUnit u) ⟨false, ["async_trait", "async_trait"]⟩ = ["crate::async_trait::async_trait"] := by
  intro r
  obtain ⟨m, u, built, units, computed⟩ : ∃ m u, ofReference? r "" = some m ∧ m.program.units = [u] ∧
      (m.program.references.contains r && r.identifier == "async_trait" && (Scope.ofUnit u).bindings == [] &&
        m.candidates (Scope.ofUnit u) ⟨false, ["async_trait", "async_trait"]⟩ ==
          ["crate::async_trait::async_trait"]) = true := by
    rw [ofReference?_eq (by decide) (by decide +kernel)]
    exact exists_of_any (by decide +kernel)
  simp only [Bool.and_eq_true, beq_iff_eq, List.contains_iff_mem] at computed
  obtain ⟨⟨⟨there, identifier⟩, bindings⟩, candidates⟩ := computed
  exact ⟨m, u, built, units, there, identifier, bindings, candidates⟩

end Model

end SourceGen
