import Mathlib.Data.List.Infix
import SourceGen.Proofs.Resolution.Chains
import SourceGen.View.Index

/-!
# What an attribute is called

A generator asks for an attribute by the last name of the path that it is declared under. The attribute is called that
if the path as written ends with this name, or if the name is all of the path (`AttributeView.isCalled_lastName_iff`).
So what stands before the last name may be imported in any way, but an import that gives the attribute itself another
name hides it (`NodeView.hasAttribute_lastName_iff`, `NodeView.not_hasAttribute_renamedImport`).
-/

namespace SourceGen

open SourceGen.Text

namespace AttributeView

/-! ### Last segments -/

lemma hasSeparator_cons (c : Char) (cs : List Char) :
    hasSeparator (c :: cs) = true ↔ c = ':' ∧ cs.head? = some ':' ∨ hasSeparator cs = true := by
  by_cases start : c = ':' ∧ cs.head? = some ':'
  · obtain ⟨rfl, first⟩ := start
    obtain ⟨rest, rfl⟩ := List.head?_eq_some_iff.mp first
    exact iff_of_true rfl (.inl ⟨rfl, rfl⟩)
  · have other (rest : List Char) (colon : c = ':') (eq : cs = ':' :: rest) : False :=
      start ⟨colon, by rw [eq, List.head?_cons]⟩
    rw [or_iff_right start, hasSeparator.eq_2 c cs other]

lemma hasSeparator_iff {cs : List Char} : hasSeparator cs = true ↔ [':', ':'] <:+: cs := by
  induction cs with
  | nil => exact iff_of_false nofun fun there => nomatch List.infix_nil.mp there
  | cons c cs ih =>
    have start : [':', ':'] <+: c :: cs ↔ c = ':' ∧ cs.head? = some ':' := by
      rw [List.cons_prefix_cons, eq_comm]
      refine and_congr_right fun _ => ?_
      cases cs with
      | nil => exact iff_of_false nofun nofun
      | cons d ds => rw [List.cons_prefix_cons, List.head?_cons, Option.some_inj, eq_comm, and_iff_left List.nil_prefix]
    rw [hasSeparator_cons, ih, List.infix_cons_iff, start]

lemma head?_of_head?_beforeSeparator {cs : List Char} {c : Char} (first : (beforeSeparator cs).head? = some c) :
    cs.head? = some c := by
  revert first
  fun_cases beforeSeparator cs with
  | case1 => exact nofun
  | case2 => exact id
  | case3 => exact nofun

lemma not_hasSeparator_beforeSeparator (cs : List Char) : hasSeparator (beforeSeparator cs) = false := by
  fun_induction beforeSeparator cs with
  | case1 => rfl
  | case2 c rest other ih =>
    rw [Bool.eq_false_iff, ne_eq, hasSeparator_cons, not_or]
    refine ⟨?_, Bool.eq_false_iff.mp ih⟩
    rintro ⟨rfl, first⟩
    obtain ⟨rest', rfl⟩ := List.head?_eq_some_iff.mp (head?_of_head?_beforeSeparator first)
    exact other rest' rfl rfl
  | case3 => rfl

lemma beforeSeparator_of_not_hasSeparator {cs : List Char} (none : hasSeparator cs = false) :
    beforeSeparator cs = cs := by
  fun_induction beforeSeparator cs with
  | case1 => cases none
  | case2 c rest other ih =>
    rw [Bool.eq_false_iff, ne_eq, hasSeparator_cons, not_or] at none
    rw [ih (Bool.eq_false_iff.mpr none.2)]
  | case3 => rfl

lemma beforeSeparator_append {cs : List Char} (plain : ':' ∉ cs) (rest : List Char) :
    beforeSeparator (cs ++ ':' :: ':' :: rest) = cs := by
  induction cs with
  | nil => rfl
  | cons c cs ih =>
    rw [List.mem_cons, not_or] at plain
    rw [List.cons_append, beforeSeparator.eq_2 _ _ fun _ colon => absurd colon.symm plain.1, ih plain.2]

/-- The last name of a path. -/
def lastName (path : String) : String := String.ofList (lastSegment path.toList)

lemma not_hasSeparator_lastName (path : String) : hasSeparator (lastName path).toList = false := by
  rw [lastName, String.toList_ofList, lastSegment, Bool.eq_false_iff, ne_eq, hasSeparator_iff]
  intro there
  have there := List.reverse_infix.mpr there
  rw [List.reverse_reverse] at there
  exact Bool.eq_false_iff.mp (not_hasSeparator_beforeSeparator _) (hasSeparator_iff.mpr there)

lemma lastName_of_not_hasSeparator {path : String} (none : hasSeparator path.toList = false) :
    lastName path = path := by
  have none : hasSeparator path.toList.reverse = false := by
    rw [Bool.eq_false_iff, ne_eq, hasSeparator_iff] at none ⊢
    exact fun there => none (List.reverse_infix.mp there)
  rw [lastName, lastSegment, beforeSeparator_of_not_hasSeparator none, List.reverse_reverse, String.ofList_toList]

lemma lastName_lastName (path : String) : lastName (lastName path) = lastName path :=
  lastName_of_not_hasSeparator (not_hasSeparator_lastName path)

/-- Whatever stands before its last name, a path has this name. -/
lemma lastName_eq {path name : String} (plain : ':' ∉ name.toList)
    (ends : path = name ∨ ∃ before, path.toList = before ++ ':' :: ':' :: name.toList) : lastName path = name := by
  obtain rfl | ⟨before, ends⟩ := ends
  · apply lastName_of_not_hasSeparator
    rw [Bool.eq_false_iff, ne_eq, hasSeparator_iff]
    exact fun there => plain (there.subset List.mem_cons_self)
  · have reversed : path.toList.reverse = name.toList.reverse ++ ':' :: ':' :: before.reverse := by
      rw [ends, List.reverse_append, List.reverse_cons, List.reverse_cons, List.append_assoc, List.append_assoc]
      rfl
    rw [lastName, lastSegment, reversed, beforeSeparator_append (fun colon => plain (List.mem_reverse.mp colon)),
      List.reverse_reverse, String.ofList_toList]

/-- If an attribute can mean one thing only, then it is called by the last name of this if it is written with this
name, or if the name is all there is. -/
lemma isCalled_lastName_iff {a : AttributeView} {d : String} (only : a.resolved = [d]) :
    a.isCalled (lastName d) = true ↔ lastName a.path = lastName d ∨ d = lastName d := by
  have last : lastSegment a.path.toList = (lastName d).toList ↔ lastName a.path = lastName d := by
    rw [← String.toList_inj, lastName, lastName, String.toList_ofList, String.toList_ofList]
  rw [isCalled, only, not_hasSeparator_lastName, Bool.not_false, Bool.true_and, Bool.or_eq_true, Bool.or_eq_true,
    beq_iff_eq, List.contains_iff_mem, List.mem_singleton, beq_iff_eq, last]
  constructor
  · rintro ((written | meant) | written)
    · left
      rw [written, lastName_lastName]
    · exact .inr meant.symm
    · exact .inl written
  · rintro (written | meant)
    · exact .inr written
    · exact .inl (.inr meant.symm)

end AttributeView

namespace Model

open AttributeView (lastName lastName_eq)

variable {m : Model} {s : Scope} {last : String}

/-! ### Last names of paths -/

lemma ends_joinPath (names : List String) (last : String) :
    joinPath (names ++ [last]) = last ∨
      ∃ before, (joinPath (names ++ [last])).toList = before ++ ':' :: ':' :: last.toList := by
  cases names with
  | nil => exact .inl rfl
  | cons n ns =>
    refine .inr ⟨(joinPath (n :: ns)).toList, ?_⟩
    rw [List.cons_append, toList_joinPath, toList_joinPath, List.flatMap_append, List.append_assoc,
      List.flatMap_singleton]

lemma lastName_joinPath (names : List String) (plain : ':' ∉ last.toList) :
    lastName (joinPath (names ++ [last])) = last :=
  lastName_eq plain (ends_joinPath names last)

lemma lastName_pathText {path : NamePath} {names : List String} (written : path.names = names ++ [last])
    (plain : ':' ∉ last.toList) : lastName (pathText path) = last := by
  refine lastName_eq plain ?_
  rw [pathText, written]
  cases path.rooted with
  | false => exact ends_joinPath names last
  | true =>
    right
    obtain single | ⟨before, ends⟩ := ends_joinPath names last
    · exact ⟨[], by rw [single, if_pos rfl, String.toList_append]; rfl⟩
    · exact ⟨':' :: ':' :: before, by rw [if_pos rfl, String.toList_append, ends]; rfl⟩

/-- A canonical form ends with the name that the path ends with. -/
lemma exists_canonicalNames_append (name : last ∉ placeWords) (modulePath names : List String) :
    ∃ before, m.canonicalNames modulePath (names ++ [last]) = before ++ [last] := by
  cases names with
  | nil =>
    rw [List.nil_append, canonicalNames_of_name name]
    split
    case isTrue => exact ⟨[], rfl⟩
    case isFalse => exact ⟨"crate" :: modulePath, rfl⟩
  | cons first rest =>
    rw [List.cons_append, canonicalNames]
    split
    case isTrue => exact ⟨first :: rest, rfl⟩
    case isFalse =>
      split
      case isTrue => exact ⟨"crate" :: (modulePath ++ rest), by rw [List.cons_append, List.append_assoc]⟩
      case isFalse =>
        split
        case isTrue =>
          have other : ¬ (last == "super") = true := by
            intro eq
            apply name
            rw [eq_of_beq eq]
            decide
          have left : (first :: (rest ++ [last])).dropWhile (· == "super") =
              (first :: rest).dropWhile (· == "super") ++ [last] := by
            rw [← List.cons_append, List.dropWhile_append, List.dropWhile_cons_of_neg (p := (· == "super")) other]
            split
            case isTrue none => rw [List.isEmpty_iff.mp none, List.nil_append]
            case isFalse => rfl
          dsimp only
          rw [left, ← List.append_assoc, ← List.cons_append]
          exact ⟨_, rfl⟩
        case isFalse =>
          split
          case isTrue => exact ⟨first :: rest, rfl⟩
          case isFalse => exact ⟨"crate" :: (modulePath ++ first :: rest), by simp⟩

lemma lastName_canonical (name : last ∉ placeWords) (plain : ':' ∉ last.toList) (modulePath names : List String) :
    lastName (m.canonical modulePath (names ++ [last])) = last := by
  obtain ⟨before, ends⟩ := exists_canonicalNames_append (m := m) name modulePath names
  rw [canonical_eq, ends]
  exact lastName_joinPath before plain

/-! ### Renamed attributes -/

/-- Whether a path is written as one name that an import gives to something with another one. -/
def Renames (m : Model) (s : Scope) (path : NamePath) : Prop :=
  path.rooted = false ∧ ∃ name, path.names = [name] ∧
    ∃ b ∈ s.named name, lastName (m.canonical s.modulePath b.target) ≠ name

/-- The last name of what a path stands for is lost exactly if an import renames it. -/
lemma renames_iff {path : NamePath} {d : String} (only : m.candidates s path = [d])
    (written : path.names.getLast? = some last) (name : last ∉ placeWords) (plain : ':' ∉ last.toList) :
    m.Renames s path ↔ lastName (pathText path) ≠ lastName d := by
  obtain ⟨rooted, names⟩ := path
  obtain ⟨before, rfl⟩ := List.getLast?_eq_some_iff.mp written
  rw [lastName_pathText rfl plain]
  cases rooted with
  | true =>
    obtain rfl : joinPath (before ++ [last]) = d := List.singleton_inj.mp only
    rw [lastName_joinPath before plain]
    exact iff_of_false (fun renames => nomatch renames.1) (fun ne => ne rfl)
  | false =>
    obtain ⟨path, spells, rfl⟩ := mem_candidates_iff.mp (only ▸ List.mem_singleton_self d)
    by_cases single : before = [] ∧ s.named last ≠ []
    · -- one name that is imported: all that imports give it is the candidate
      obtain ⟨rfl, bound⟩ := single
      have same (b : Binding) (hb : b ∈ s.named last) :
          m.canonical s.modulePath b.target = m.canonical s.modulePath path := by
        have there : m.canonical s.modulePath (b.target ++ []) ∈ m.candidates s ⟨false, [last]⟩ :=
          mem_candidates_iff.mpr ⟨_, .imported name hb, rfl⟩
        rw [List.append_nil] at there
        exact List.mem_singleton.mp (only ▸ there)
      constructor
      · rintro ⟨-, _, eq, b, hb, other⟩
        cases eq
        rw [same b hb] at other
        exact other.symm
      · intro other
        obtain ⟨b, hb⟩ := List.exists_mem_of_ne_nil _ bound
        exact ⟨rfl, last, rfl, b, hb, (same b hb).symm ▸ other.symm⟩
    · -- the last name is kept by what stands in place of the first one
      have kept : ∃ before', path = before' ++ [last] := by
        generalize written : before ++ [last] = names at spells
        cases spells with
        | itself => exact ⟨before, written.symm⟩
        | @imported first rest b _ bound =>
          cases before with
          | nil =>
            cases written
            exact absurd ⟨rfl, List.ne_nil_of_mem bound⟩ single
          | cons n ns =>
            cases written
            exact ⟨b.target ++ ns, (List.append_assoc _ _ _).symm⟩
        | @among first rest b =>
          exact ⟨b.target ++ before, by rw [List.append_assoc, written]⟩
      obtain ⟨before', rfl⟩ := kept
      rw [lastName_canonical name plain]
      refine iff_of_false ?_ fun ne => ne rfl
      rintro ⟨-, n, eq, b, hb, -⟩
      cases before with
      | nil =>
        cases eq
        exact single ⟨rfl, List.ne_nil_of_mem hb⟩
      | cons n' ns => exact absurd (List.cons.inj eq).2 (List.append_ne_nil_of_right_ne_nil ns (List.cons_ne_nil _ _))

end Model

namespace NodeView

open AttributeView (lastName)

/-- An attribute that can mean one thing only: a declaration that has it is known by the last name of this thing if the
attribute is written with that name, or if the name is all there is. So if the path that is written ends with a name,
then the declaration is known by the name of the attribute unless an import renames it. -/
theorem hasAttribute_lastName_iff {m : Model} {u : SourceUnit} {x : Sighting} {a : Attr}
    (visible : a ∈ x.item.visibleAttrs) {d : String} (only : m.candidates x.scope a.path = [d]) (id : Nat) :
    let n := NodeIndex.nodeOf m u id x
    let written := Model.pathText a.path
    m.attributeView x.scope a ∈ n.attributes ∧
      ((m.attributeView x.scope a).isCalled (lastName d) = true ↔ lastName written = lastName d ∨ d = lastName d) ∧
      (n.hasAttribute (lastName d) = true ↔ (lastName written = lastName d ∨ d = lastName d) ∨
        ∃ b ∈ x.item.visibleAttrs, b ≠ a ∧ (m.attributeView x.scope b).isCalled (lastName d) = true) ∧
      ∀ last, a.path.names.getLast? = some last → last ∉ placeWords → ':' ∉ last.toList →
        (lastName written = lastName d ↔ ¬ m.Renames x.scope a.path) := by
  intro n written
  have attributes : n.attributes = x.item.visibleAttrs.map (m.attributeView x.scope) := rfl
  have called : (m.attributeView x.scope a).isCalled (lastName d) = true ↔
      lastName written = lastName d ∨ d = lastName d := AttributeView.isCalled_lastName_iff only
  refine ⟨attributes ▸ List.mem_map_of_mem visible, called, ?_, fun last ends name plain => ?_⟩
  · rw [hasAttribute, attributes, List.any_map, List.any_eq_true, ← called]
    constructor
    · rintro ⟨b, hb, isCalled⟩
      by_cases same : b = a
      · exact .inl (same ▸ isCalled)
      · exact .inr ⟨b, hb, same, isCalled⟩
    · rintro (isCalled | ⟨b, hb, -, isCalled⟩)
      · exact ⟨a, visible, isCalled⟩
      · exact ⟨b, hb, isCalled⟩
  · exact (not_iff_comm.mp (Model.renames_iff only ends name plain).symm).symm

/-- An attribute that is written as a path through a module that an import renames: the declaration is known by its
name. -/
theorem hasAttribute_lastName_iff_renamedModule :
    let text := "mod attrs \x7b\x7d\nuse attrs as known;\n#[known::generate_comment]\nstruct X;\n"
    ∃ m u, Model.ofText? text = some m ∧ m.program.units = [u] ∧
      ∃ x ∈ u.sightings, ∃ a ∈ x.item.visibleAttrs, a.path = ⟨false, ["known", "generate_comment"]⟩ ∧
        m.candidates x.scope a.path = ["crate::attrs::generate_comment"] ∧
        ∀ id, (NodeIndex.nodeOf m u id x).hasAttribute "generate_comment" = true := by
  intro text
  obtain ⟨m, u, built, units, computed⟩ : ∃ m u, Model.ofText? text = some m ∧ m.program.units = [u] ∧
      (u.sightings.any fun x => x.item.visibleAttrs.any fun a => a.path == ⟨false, ["known", "generate_comment"]⟩ &&
        m.candidates x.scope a.path == ["crate::attrs::generate_comment"]) = true :=
    Model.exists_of_ofText? (by decide +kernel)
  obtain ⟨x, hx, computed⟩ := List.any_eq_true.mp computed
  obtain ⟨a, ha, computed⟩ := List.any_eq_true.mp computed
  simp only [Bool.and_eq_true, beq_iff_eq] at computed
  obtain ⟨path, only⟩ := computed
  refine ⟨m, u, built, units, x, hx, a, ha, path, only, fun id => ?_⟩
  have last : lastName "crate::attrs::generate_comment" = "generate_comment" := by decide +kernel
  have ends : a.path.names.getLast? = some "generate_comment" := path ▸ rfl
  obtain ⟨-, -, known, renames⟩ := hasAttribute_lastName_iff (u := u) ha only id
  have renames := renames _ ends (by decide) (by decide)
  rw [last] at known renames
  refine known.mpr (.inl (.inl (renames.mpr ?_)))
  rintro ⟨-, name, single, -⟩
  rw [path] at single
  cases single

/-- An attribute that is written by the name that an import gives it: the declaration is not known by the name under
which the attribute is declared. -/
theorem not_hasAttribute_renamedImport :
    let text := "mod attrs \x7b\x7d\nuse attrs::generate_comment as gc;\n#[gc]\nstruct X;\n"
    ∃ m u, Model.ofText? text = some m ∧ m.program.units = [u] ∧
      ∃ x ∈ u.sightings, ∃ a ∈ x.item.visibleAttrs, a.path = ⟨false, ["gc"]⟩ ∧
        m.candidates x.scope a.path = ["crate::attrs::generate_comment"] ∧ m.Renames x.scope a.path ∧
        ∀ id, (NodeIndex.nodeOf m u id x).hasAttribute "generate_comment" = false := by
  intro text
  obtain ⟨m, u, built, units, computed⟩ : ∃ m u, Model.ofText? text = some m ∧ m.program.units = [u] ∧
      (u.sightings.any fun x => x.item.visibleAttrs.any fun a => a.path == ⟨false, ["gc"]⟩ &&
        m.candidates x.scope a.path == ["crate::attrs::generate_comment"] &&
        !(x.item.visibleAttrs.map (m.attributeView x.scope)).any (·.isCalled "generate_comment")) = true :=
    Model.exists_of_ofText? (by decide +kernel)
  obtain ⟨x, hx, computed⟩ := List.any_eq_true.mp computed
  obtain ⟨a, ha, computed⟩ := List.any_eq_true.mp computed
  simp only [Bool.and_eq_true, beq_iff_eq, Bool.not_eq_true'] at computed
  obtain ⟨⟨path, only⟩, unknown⟩ := computed
  refine ⟨m, u, built, units, x, hx, a, ha, path, only, ?_, fun _ => unknown⟩
  have written : a.path.names.getLast? = some "gc" := path ▸ rfl
  rw [Model.renames_iff only written (by decide) (by decide), path]
  decide +kernel

end NodeView

end SourceGen
