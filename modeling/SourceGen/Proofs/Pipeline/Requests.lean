import SourceGen.Proofs.Assembly.Modules
import SourceGen.Proofs.Pipeline.Fragments

/-!
# What the compiler is sent

The module of an input is remembered under its fragments, which are compared without their names, their kinds and
what marked them. Nothing is lost by that: fragments that compare as equal assemble to the same crate, since all that
assembly reads is determined by what is compared. So the compiler is sent the same crate for both
(`Fragment.requests_of_beq`).
-/

namespace SourceGen

open SourceGen.Pass

variable {δ γ β : Type}

/-- A host that also keeps what it was asked to compile. -/
def Host.recording (h : Host β γ) : Host (β × List CompileRequest) γ where
  poll s := ((h.poll s.1).1, (h.poll s.1).2, s.2)
  compile r s := ((h.compile r s.1).1, (h.compile r s.1).2, s.2 ++ [r])
  load m s := ((h.load m s.1).1, (h.load m s.1).2, s.2)

/-- What a build asks the compiler for. -/
def Pass.requests (h : Host β γ) (e : Epoch) (i : ModuleInput) (s : PassState δ γ β) : List CompileRequest :=
  (buildModule h.recording e i ⟨s.cells, s.host, []⟩).2.host.2

namespace Pass

/-- A build asks for the crate of its input, if there is one. -/
lemma requests_eq (h : Host β γ) (e : Epoch) (i : ModuleInput) (s : PassState δ γ β) :
    requests h e i s =
      match i.crate with
      | .ok (some crate) => [.ofCrate e crate i.references]
      | _ => [] := by
  unfold requests buildModule ModuleInput.crate
  split
  case isTrue => rfl
  case isFalse =>
    cases assembled : assemble i.fragments i.globals with
    | error f => rfl
    | ok crate =>
      let r : CompileRequest := .ofCrate e crate i.references
      have asked : (ask (h.recording.compile r) : PassM δ γ (β × List CompileRequest) _) ⟨s.cells, s.host, []⟩ =
          (.ok (h.compile r s.host).1, ⟨s.cells, (h.compile r s.host).2, [r]⟩) := rfl
      simp only [bind_apply]
      rw [asked]
      cases answer : (h.compile r s.host).1 with
      | finished result => rfl
      | crashed => rfl

end Pass

namespace Fragment

variable {fs gs : List Fragment} {a b : GlobalImports}

/-- Fragments of units that compare as equal differ in their places and in what marked them, and in nothing else. So
with equal global imports they assemble to the same crate, or cannot be assembled for the same reason, and have the
same summaries; a build does the same with either, and whatever the references are, it asks the compiler for a crate
of the same name and text. -/
theorem requests_of_beq (hf : ∀ f ∈ fs, ∃ m index u, f ∈ ofUnit m index u)
    (hg : ∀ g ∈ gs, ∃ m index u, g ∈ ofUnit m index u) (eq : (fs == gs) = true) (same : (a == b) = true) :
    fs.map placeless = gs.map placeless ∧ assemble fs a = assemble gs b ∧
      (∀ δ [Digest δ], fs.map (fingerprint : Fragment → δ) = gs.map fingerprint) ∧
      ∀ δ γ β (h : Host β γ) (e : Epoch) (references : List Reference),
        (buildModule h e ⟨fs, a, references⟩ : PassM δ γ β _) = buildModule h e ⟨gs, b, references⟩ ∧
        ∀ (h' : Host β γ) (references' : List Reference) (s s' : PassState δ γ β),
          (requests h e ⟨fs, a, references⟩ s).map (fun r => (r.crateName, r.source)) =
            (requests h' e ⟨gs, b, references'⟩ s').map fun r => (r.crateName, r.source) := by
  have named {fs : List Fragment} (h : ∀ f ∈ fs, ∃ m index u, f ∈ ofUnit m index u) : ∀ f ∈ fs, f.WellNamed := by
    intro f hf
    obtain ⟨m, index, u, there⟩ := h f hf
    exact wellNamed_of_mem_ofUnit there
  have places := map_placeless_eq_of_beq (named hf) (named hg) eq
  have imports : (a.imports == b.imports) = true := same
  obtain rfl : a = b := congrArg GlobalImports.mk (eq_of_beq imports)
  have assembled : assemble fs a = assemble gs a := assemble_placeless places
  have bare : fs.isEmpty = gs.isEmpty := by
    rw [← List.isEmpty_map (f := placeless), places, List.isEmpty_map]
  refine ⟨places, assembled, ?_, ?_⟩
  · intro δ _
    have summaries := congrArg (List.map (fingerprint : Fragment → δ)) places
    rwa [List.map_map, List.map_map] at summaries
  · intro δ γ β h e references
    refine ⟨?_, ?_⟩
    · unfold buildModule
      rw [bare, assembled]
    · intro h' references' s s'
      have crate : (ModuleInput.mk fs a references).crate = (ModuleInput.mk gs a references').crate :=
        ModuleInput.crate_congr places rfl
      rw [requests_eq, requests_eq, crate]
      cases (ModuleInput.mk gs a references').crate with
      | error f => rfl
      | ok made => cases made <;> rfl

/-- A type that is marked as a generator, and the same type marked as a dependency. -/
theorem requests_of_beq_otherMarker :
    let fs := Assembly.fragmentsOfText "#[microgen_sdk::micro_generator]\npub struct G;\n"
    let gs := Assembly.fragmentsOfText "#[microgen_sdk::generator_dependency]\npub struct G;\n"
    (fs.map (·.marker) = [.generator] ∧ gs.map (·.marker) = [.dependency]) ∧
      fs.map placeless = gs.map placeless ∧ assemble fs ⟨[]⟩ = assemble gs ⟨[]⟩ := by
  intro fs gs
  have computed : (fs.map (·.marker) = [.generator] ∧ gs.map (·.marker) = [.dependency]) ∧ (fs == gs) = true := by
    decide +kernel
  obtain ⟨markers, eq⟩ := computed
  obtain ⟨places, assembled, -⟩ := requests_of_beq (a := ⟨[]⟩) (b := ⟨[]⟩)
    (fun _ => Assembly.exists_of_mem_fragmentsOfText) (fun _ => Assembly.exists_of_mem_fragmentsOfText) eq rfl
  exact ⟨markers, places, assembled⟩

end Fragment

end SourceGen
