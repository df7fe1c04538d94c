import Mathlib.Data.List.Find
import Mathlib.Data.List.Nodup
import Mathlib.Data.String.Basic
import SourceGen.Dispatch.Sink

/-!
# Sinks, one operation at a time

What one operation does to the sink of a pass and to the sink of a unit. Published sources stay in the strict
order of their names (`PassSink.Ordered`), and the names that a unit has staged are distinct
(`UnitSink.Distinct`). Under these two, `UnitSink.commit_cases` says all that a commit can do: either a staged
name was published before and nothing happens, or the staged sources join the published ones.
-/

namespace SourceGen

namespace PassSink

variable {p : PassSink} {s : GeneratedSource} {name : String}

/-- The published sources stand in the strict order of their names. -/
def Ordered (p : PassSink) : Prop :=
  p.sources.Pairwise fun a b => a.name < b.name

lemma contains_iff : p.contains name = true ↔ ∃ s ∈ p.sources, s.name = name := by
  simp [contains]

@[simp] lemma contains_empty : empty.contains name = false := rfl

lemma ordered_empty : empty.Ordered := List.Pairwise.nil

lemma Ordered.nodup (o : p.Ordered) : (p.sources.map (·.name)).Nodup := by
  rw [List.nodup_iff_pairwise_ne, List.pairwise_map]
  exact o.imp fun lt => lt.ne

/-- Sources of one name are one source. -/
lemma Ordered.eq_of_name {a b : GeneratedSource} (o : p.Ordered) (ha : a ∈ p.sources)
    (hb : b ∈ p.sources) (eq : a.name = b.name) : a = b :=
  List.inj_on_of_nodup_map o.nodup ha hb eq

/-- Sinks in order that publish the same sources are the same. -/
lemma Ordered.eq_of_perm {q : PassSink} (op : p.Ordered) (oq : q.Ordered)
    (perm : p.sources.Perm q.sources) : p = q := by
  obtain ⟨ps⟩ := p
  obtain ⟨qs⟩ := q
  have eq : ps = qs := perm.eq_of_pairwise (fun a b _ _ ab ba => absurd ab ba.asymm) op oq
  rw [eq]

/-- A source of a new name is put in without a loss. -/
lemma insertByName_perm {l : List GeneratedSource} (new : ∀ t ∈ l, t.name ≠ s.name) :
    (insertByName s l).Perm (s :: l) := by
  induction l with
  | nil => exact .refl _
  | cons t ts ih =>
    have ne : s.name ≠ t.name := fun eq => new t List.mem_cons_self eq.symm
    rw [insertByName, if_neg ne]
    split
    · exact .refl _
    · have perm := ih fun u hu => new u (List.mem_cons_of_mem t hu)
      exact (perm.cons t).trans (.swap s t ts)

lemma mem_insertByName {l : List GeneratedSource} {u : GeneratedSource} (h : u ∈ insertByName s l) :
    u = s ∨ u ∈ l := by
  induction l with
  | nil => exact .inl (List.mem_singleton.mp h)
  | cons t ts ih =>
    rw [insertByName] at h
    split at h
    · exact List.mem_cons.mp h
    · split at h
      · exact (List.mem_cons.mp h).imp_right (List.mem_cons_of_mem t)
      · cases List.mem_cons.mp h with
        | inl eq => exact .inr (eq ▸ List.mem_cons_self)
        | inr h => exact (ih h).imp_right (List.mem_cons_of_mem t)

lemma insertByName_pairwise {l : List GeneratedSource} (o : l.Pairwise fun a b => a.name < b.name) :
    (insertByName s l).Pairwise fun a b => a.name < b.name := by
  induction l with
  | nil => exact List.pairwise_singleton _ _
  | cons t ts ih =>
    obtain ⟨below, rest⟩ := List.pairwise_cons.mp o
    rw [insertByName]
    split
    case isTrue lt =>
      refine List.pairwise_cons.mpr ⟨fun u hu => ?_, o⟩
      cases List.mem_cons.mp hu with
      | inl eq => exact eq ▸ lt
      | inr hu => exact lt.trans (below u hu)
    case isFalse nlt =>
      split
      case isTrue eq => exact List.pairwise_cons.mpr ⟨fun u hu => eq ▸ below u hu, rest⟩
      case isFalse ne =>
        have lt : t.name < s.name := lt_of_le_of_ne (not_lt.mp nlt) (Ne.symm ne)
        refine List.pairwise_cons.mpr ⟨fun u hu => ?_, ih rest⟩
        cases mem_insertByName hu with
        | inl eq => exact eq ▸ lt
        | inr hu => exact below u hu

lemma Ordered.publish (o : p.Ordered) : (p.publish s).Ordered := insertByName_pairwise o

lemma publish_perm (new : p.contains s.name = false) : (p.publish s).sources.Perm (s :: p.sources) := by
  refine insertByName_perm fun t ht eq => ?_
  rw [contains_iff.mpr ⟨t, ht, eq⟩] at new
  cases new

lemma contains_publish (new : p.contains s.name = false) :
    (p.publish s).contains name = true ↔ s.name = name ∨ p.contains name = true := by
  simp only [contains_iff, (publish_perm new).mem_iff, List.mem_cons, exists_eq_or_imp]

end PassSink

namespace UnitSink

variable {u v : UnitSink} {p q : PassSink} {name text : String}

/-- The names that a unit has staged are distinct. -/
def Distinct (u : UnitSink) : Prop := (u.staged.map (·.1)).Nodup

lemma stages_iff : u.stages name = true ↔ ∃ e ∈ u.staged, e.1 = name := by
  simp [stages]

lemma distinct_new (generator : String) (node : Nat) : (new generator node).Distinct :=
  List.nodup_nil

/-- What an offer comes to: its name is free and it is staged, or the name is taken and nothing happens. -/
lemma add_cases (u : UnitSink) (p : PassSink) (name text : String) :
    (u.stages name = false ∧ p.contains name = false ∧
        u.add p name text = .ok { u with staged := u.staged ++ [(name, text)] }) ∨
      (u.stages name = true ∨ p.contains name = true) ∧ u.add p name text = .error (.duplicateSource name) := by
  rw [add]
  split
  case isTrue taken => exact .inr ⟨Bool.or_eq_true _ _ ▸ taken, rfl⟩
  case isFalse free =>
    obtain ⟨stages, contains⟩ := not_or.mp (Bool.or_eq_true _ _ ▸ free)
    exact .inl ⟨eq_false_of_ne_true stages, eq_false_of_ne_true contains, rfl⟩

/-- A source that is staged has a new name, and nothing else changes. -/
lemma add_ok (h : u.add p name text = .ok v) :
    u.stages name = false ∧ p.contains name = false ∧
      v = { u with staged := u.staged ++ [(name, text)] } := by
  obtain ⟨stages, contains, added⟩ | ⟨-, refused⟩ := u.add_cases p name text
  · exact ⟨stages, contains, Except.ok.inj (h.symm.trans added)⟩
  · cases h.symm.trans refused

/-- The answer to an offer depends on nothing that is published but its own name. -/
lemma add_congr (same : p.contains name = q.contains name) : u.add p name text = u.add q name text := by
  rw [add, add, same]

lemma Distinct.add (d : u.Distinct) (h : u.add p name text = .ok v) : v.Distinct := by
  obtain ⟨free, -, rfl⟩ := add_ok h
  have fresh : ∀ e ∈ u.staged, e.1 ≠ name := fun e he eq => by
    rw [stages_iff.mpr ⟨e, he, eq⟩] at free
    cases free
  simp only [Distinct, List.map_append, List.map_cons, List.map_nil]
  refine List.nodup_append.mpr ⟨d, List.nodup_singleton name, fun a ha b hb eq => ?_⟩
  obtain ⟨e, he, rfl⟩ := List.mem_map.mp ha
  exact fresh e he (eq.trans (List.mem_singleton.mp hb))

/-- The sources of a unit carry the names that it has staged. -/
lemma names_toSources (u : UnitSink) : u.toSources.map (·.name) = u.staged.map (·.1) := by
  simp [toSources]

/-- Every source of a unit carries its generator and its node, and a staged name with its text. -/
lemma mem_toSources {s : GeneratedSource} :
    s ∈ u.toSources ↔ (s.name, s.text) ∈ u.staged ∧ s.generator = u.generator ∧ s.node = u.node := by
  obtain ⟨n, t, g, i⟩ := s
  simp only [toSources, List.mem_map, Prod.exists, GeneratedSource.mk.injEq]
  constructor
  · rintro ⟨a, b, mem, rfl, rfl, rfl, rfl⟩
    exact ⟨mem, rfl, rfl⟩
  · rintro ⟨mem, rfl, rfl⟩
    exact ⟨n, t, mem, rfl, rfl, rfl, rfl⟩

/-- Sources of new and distinct names are published without a loss, and in order. -/
lemma publish_all {sources : List GeneratedSource} (o : p.Ordered)
    (new : ∀ s ∈ sources, p.contains s.name = false) (distinct : (sources.map (·.name)).Nodup) :
    (sources.foldl PassSink.publish p).Ordered ∧
      (sources.foldl PassSink.publish p).sources.Perm (sources ++ p.sources) := by
  induction sources generalizing p with
  | nil => exact ⟨o, .refl _⟩
  | cons s ss ih =>
    rw [List.map_cons, List.nodup_cons] at distinct
    obtain ⟨fresh, distinct⟩ := distinct
    have first := new s List.mem_cons_self
    have later : ∀ t ∈ ss, (p.publish s).contains t.name = false := fun t ht => by
      refine eq_false_of_ne_true fun taken => ?_
      cases (PassSink.contains_publish first).mp taken with
      | inl eq => exact fresh (eq ▸ List.mem_map_of_mem ht)
      | inr taken => exact Bool.false_ne_true ((new t (List.mem_cons_of_mem s ht)).symm.trans taken)
    obtain ⟨ordered, perm⟩ := ih o.publish later distinct
    refine ⟨ordered, perm.trans ?_⟩
    exact ((PassSink.publish_perm first).append_left ss).trans List.perm_middle

/-- What a commit can do: it fails because of a staged name that is published, or it publishes all that is
staged. -/
lemma commit_cases (o : p.Ordered) (d : u.Distinct) :
    (∃ e ∈ u.staged, p.contains e.1 = true ∧ u.commit p = .error (conflict e.1)) ∨
      ((∀ e ∈ u.staged, p.contains e.1 = false) ∧
        ∃ q, u.commit p = .ok q ∧ q.Ordered ∧ q.sources.Perm (u.toSources ++ p.sources)) := by
  cases found : u.staged.find? fun e => p.contains e.1 with
  | some e =>
    have taken : p.contains e.1 = true := List.find?_some (p := fun e : String × String => p.contains e.1) found
    refine .inl ⟨e, List.mem_of_find?_eq_some found, taken, ?_⟩
    simp only [commit, found]
  | none =>
    have free : ∀ e ∈ u.staged, p.contains e.1 = false := fun e he =>
      eq_false_of_ne_true (List.find?_eq_none.mp found e he)
    refine .inr ⟨free, u.toSources.foldl PassSink.publish p, ?_, ?_⟩
    · simp only [commit, found]
    · refine publish_all o (fun s hs => ?_) (u.names_toSources ▸ d)
      exact free _ (mem_toSources.mp hs).1

/-- Whether a commit fails, and why, depends on nothing that is published but the names that are staged. -/
lemma commit_congr (same : ∀ e ∈ u.staged, p.contains e.1 = q.contains e.1) :
    (u.commit p).map (fun _ => ()) = (u.commit q).map fun _ => () := by
  have found := List.find?_congr same
  simp only [commit, found]
  cases u.staged.find? fun e => q.contains e.1 <;> rfl

end UnitSink

end SourceGen
