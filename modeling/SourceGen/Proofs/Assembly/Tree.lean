import Mathlib.Data.List.Nodup
import Mathlib.Data.List.Perm.Basic
import Mathlib.Data.String.Basic
import SourceGen.Assembly.Module
import SourceGen.Proofs.Syntax.Equality

/-!
# The tree of modules

Fragments are inserted by their paths, and the tree is read by several recursions: the labels, the paths of the
offering modules, the items. What a module holds is named by its path instead (`ModuleTree.contentAt`). It is the
content of exactly the fragments of that path, in their order (`contentAt_ofFragments`), and the recursions come
down to it on trees whose modules are in the order of their names, which insertion keeps.
-/

namespace SourceGen

namespace ModuleContent

variable {α : Type} [BEq α] [LawfulBEq α]

lemma mem_addNew {values : List α} {value x : α} : x ∈ addNew values value ↔ x ∈ values ∨ x = value := by
  unfold addNew
  split
  case isTrue there =>
    have there : value ∈ values := List.contains_iff_mem.mp there
    exact ⟨.inl, fun h => h.elim id fun eq => eq ▸ there⟩
  case isFalse => rw [List.mem_append, List.mem_singleton]

lemma mem_addAllNew {values more : List α} {x : α} : x ∈ addAllNew values more ↔ x ∈ values ∨ x ∈ more := by
  induction more generalizing values with
  | nil => exact ⟨.inl, fun h => h.elim id fun h => absurd h List.not_mem_nil⟩
  | cons v more ih =>
    change x ∈ addAllNew (addNew values v) more ↔ _
    rw [ih, mem_addNew, List.mem_cons, or_assoc]

omit [LawfulBEq α] in
/-- Values of another kind are left as they were. -/
lemma filter_addAllNew {p : α → Bool} {values more : List α} (other : ∀ x ∈ more, p x = false) :
    (addAllNew values more).filter p = values.filter p := by
  induction more generalizing values with
  | nil => rfl
  | cons v more ih =>
    have first : (addNew values v).filter p = values.filter p := by
      unfold addNew
      split
      case isTrue => rfl
      case isFalse =>
        have left_out : ¬ p v = true := Bool.eq_false_iff.mp (other v List.mem_cons_self)
        rw [List.filter_append, List.filter_cons_of_neg left_out, List.filter_nil, List.append_nil]
    exact (ih fun x hx => other x (List.mem_cons_of_mem v hx)).trans first

lemma nodup_filter_addAllNew {p : α → Bool} {values more : List α} (once : (values.filter p).Nodup) :
    ((addAllNew values more).filter p).Nodup := by
  induction more generalizing values with
  | nil => exact once
  | cons v more ih =>
    refine ih ?_
    unfold addNew
    split
    case isTrue => exact once
    case isFalse new =>
      have new : v ∉ values := fun there => new (List.contains_iff_mem.mpr there)
      rw [List.filter_append]
      refine once.append (List.Nodup.filter p (List.nodup_singleton v)) ?_
      intro x there last
      have eq : x = v := List.mem_singleton.mp (List.mem_filter.mp last).1
      exact new (eq ▸ (List.mem_filter.mp there).1)

lemma nodup_addAllNew {values more : List α} (once : values.Nodup) : (addAllNew values more).Nodup := by
  have all : ((addAllNew values more).filter fun _ => true).Nodup := nodup_filter_addAllNew (once.filter _)
  rw [List.filter_true] at all
  exact all

section Fragments

variable {c : ModuleContent} {fs : List Fragment}

/-- The content of fragments that are added in a row. -/
def addAll (c : ModuleContent) (fs : List Fragment) : ModuleContent := fs.foldl add c

/-- Fragments offer their types in their order. -/
lemma offers_addAll (c : ModuleContent) (fs : List Fragment) :
    (c.addAll fs).offers = c.offers ++ (fs.filter (·.isCandidate)).map fun f => ⟨f.name, f.path⟩ := by
  induction fs generalizing c with
  | nil => exact (List.append_nil _).symm
  | cons f fs ih =>
    refine (ih (c.add f)).trans ?_
    rw [List.filter_cons]
    cases candidate : f.isCandidate with
    | true => simp only [add, candidate, if_true, List.append_assoc, List.map_cons, List.singleton_append]
    | false => simp only [add, candidate, Bool.false_eq_true, if_false]

/-- Fragments bring along their declarations and implementations. -/
lemma mem_items_addAll {i : Item} :
    i ∈ (c.addAll fs).items ↔ i ∈ c.items ∨ ∃ f ∈ fs, i = f.declaration ∨ i ∈ f.impls := by
  induction fs generalizing c with
  | nil => simp only [addAll, List.foldl_nil, List.not_mem_nil, false_and, exists_false, or_false]
  | cons f fs ih =>
    refine (ih (c := c.add f)).trans ?_
    simp only [add, mem_addAllNew, List.mem_append, List.mem_singleton, List.exists_mem_cons_iff, or_assoc]

lemma mem_imports_addAll {i : Item} :
    i ∈ (c.addAll fs).imports ↔ i ∈ c.imports ∨ ∃ f ∈ fs, i ∈ f.imports := by
  induction fs generalizing c with
  | nil => simp only [addAll, List.foldl_nil, List.not_mem_nil, false_and, exists_false, or_false]
  | cons f fs ih =>
    refine (ih (c := c.add f)).trans ?_
    simp only [add, mem_addAllNew, List.exists_mem_cons_iff, or_assoc]

lemma mem_innerAttrs_addAll {a : Attr} :
    a ∈ (c.addAll fs).innerAttrs ↔ a ∈ c.innerAttrs ∨ ∃ f ∈ fs, a ∈ f.innerAttrs := by
  induction fs generalizing c with
  | nil => simp only [addAll, List.foldl_nil, List.not_mem_nil, false_and, exists_false, or_false]
  | cons f fs ih =>
    refine (ih (c := c.add f)).trans ?_
    simp only [add, mem_addAllNew, List.exists_mem_cons_iff, or_assoc]

lemma nodup_innerAttrs_addAll (once : c.innerAttrs.Nodup) : (c.addAll fs).innerAttrs.Nodup := by
  induction fs generalizing c with
  | nil => exact once
  | cons f fs ih =>
    apply ih (c := c.add f)
    exact nodup_addAllNew once

/-- The items of a kind that declarations are and implementations are not are the declarations, in their order. -/
lemma filter_declarations_addAll {p : Item → Bool} (declarations : ∀ f ∈ fs, p f.declaration = true)
    (impls : ∀ f ∈ fs, ∀ i ∈ f.impls, p i = false) :
    (c.addAll fs).items.filter p = c.items.filter p ++ fs.map (·.declaration) := by
  induction fs generalizing c with
  | nil => exact (List.append_nil _).symm
  | cons f fs ih =>
    have rest := ih (c := c.add f) (fun g hg => declarations g (List.mem_cons_of_mem f hg))
      (fun g hg => impls g (List.mem_cons_of_mem f hg))
    have first : (c.add f).items.filter p = c.items.filter p ++ [f.declaration] := by
      have kept : (addAllNew (c.items ++ [f.declaration]) f.impls).filter p = (c.items ++ [f.declaration]).filter p :=
        filter_addAllNew (impls f List.mem_cons_self)
      rw [List.filter_append, List.filter_cons_of_pos (declarations f List.mem_cons_self)] at kept
      exact kept
    refine rest.trans ?_
    rw [first, List.append_assoc, List.map_cons, List.singleton_append]

/-- The items of a kind that no declaration is of are there once. -/
lemma nodup_filter_addAll {p : Item → Bool} (declarations : ∀ f ∈ fs, p f.declaration = false)
    (once : (c.items.filter p).Nodup) : ((c.addAll fs).items.filter p).Nodup := by
  induction fs generalizing c with
  | nil => exact once
  | cons f fs ih =>
    refine ih (c := c.add f) (fun g hg => declarations g (List.mem_cons_of_mem f hg)) ?_
    refine nodup_filter_addAllNew ?_
    have left_out : ¬ p f.declaration = true := Bool.eq_false_iff.mp (declarations f List.mem_cons_self)
    rw [List.filter_append, List.filter_cons_of_neg left_out, List.filter_nil, List.append_nil]
    exact once

end Fragments

end ModuleContent

namespace ModuleTree

/-! ### Modules by their names -/

/-- The module of a given name. -/
def child? (name : String) (ms : List ModuleTree) : Option ModuleTree := ms.find? (·.name = name)

/-- Whether modules come in the order of their names. -/
def Sorted (ms : List ModuleTree) : Prop := ms.Pairwise fun m m' => m.name < m'.name

/-- Modules behind a name are not of that name. -/
lemma child?_eq_none {name : String} {ms : List ModuleTree} (behind : ∀ m ∈ ms, name < m.name) :
    child? name ms = none := by
  refine List.find?_eq_none.mpr fun m hm => ?_
  simpa using (behind m hm).ne'

lemma child?_of_mem {ms : List ModuleTree} (sorted : Sorted ms) {m : ModuleTree} (hm : m ∈ ms) :
    child? m.name ms = some m := by
  induction sorted with
  | nil => exact absurd hm List.not_mem_nil
  | @cons m' ms before _ ih =>
    cases List.mem_cons.mp hm with
    | inl eq =>
      subst eq
      exact List.find?_cons_of_pos (by simp)
    | inr hm =>
      have other : m'.name ≠ m.name := (before m hm).ne
      rw [child?, List.find?_cons_of_neg (by simpa using other)]
      exact ih hm

variable {name : String} {f : ModuleTree → ModuleTree} (keeps : ∀ t, (f t).name = t.name)

include keeps

lemma mem_update {ms : List ModuleTree} {m : ModuleTree} (hm : m ∈ update name f ms) :
    m ∈ ms ∨ m.name = name ∧ ∃ t, m = f t ∧ (t ∈ ms ∨ t = empty name) := by
  induction ms with
  | nil =>
    obtain rfl := List.mem_singleton.mp hm
    exact .inr ⟨keeps _, _, rfl, .inr rfl⟩
  | cons m' ms ih =>
    rw [update] at hm
    split at hm
    case isTrue same =>
      cases List.mem_cons.mp hm with
      | inl eq => exact .inr ⟨by rw [eq, keeps, same], m', eq, .inl List.mem_cons_self⟩
      | inr there => exact .inl (List.mem_cons_of_mem _ there)
    case isFalse =>
      split at hm
      case isTrue =>
        cases List.mem_cons.mp hm with
        | inl eq => exact .inr ⟨by rw [eq, keeps]; rfl, _, eq, .inr rfl⟩
        | inr there => exact .inl there
      case isFalse =>
        cases List.mem_cons.mp hm with
        | inl eq => exact .inl (eq ▸ List.mem_cons_self)
        | inr there =>
          refine (ih there).imp (List.mem_cons_of_mem _) fun ⟨named, t, eq, origin⟩ => ?_
          exact ⟨named, t, eq, origin.imp (List.mem_cons_of_mem _) id⟩

lemma sorted_update {ms : List ModuleTree} (sorted : Sorted ms) : Sorted (update name f ms) := by
  induction sorted with
  | nil => exact List.pairwise_singleton _ _
  | @cons m ms before sorted ih =>
    rw [update]
    split
    case isTrue same => exact .cons (fun m' hm' => by rw [keeps]; exact before m' hm') sorted
    case isFalse other =>
      split
      case isTrue less =>
        refine .cons ?_ (.cons before sorted)
        intro m' hm'
        rw [keeps]
        cases List.mem_cons.mp hm' with
        | inl eq => exact eq ▸ less
        | inr hm' => exact less.trans (before m' hm')
      case isFalse not_less =>
        refine .cons ?_ ih
        intro m' hm'
        cases mem_update keeps hm' with
        | inl there => exact before m' there
        | inr new => exact new.1 ▸ lt_of_le_of_ne (not_lt.mp not_less) (Ne.symm other)

/-- The changed module is found under its name, and the others are found as they were. -/
lemma child?_update {ms : List ModuleTree} (sorted : Sorted ms) (wanted : String) :
    child? wanted (update name f ms) =
      if wanted = name then some (f ((child? name ms).getD (empty name))) else child? wanted ms := by
  induction sorted with
  | nil =>
    have named : (f (empty name)).name = name := keeps _
    by_cases eq : wanted = name
    · subst eq
      simp [child?, update, named]
    · simp [child?, update, named, eq, Ne.symm eq]
  | @cons m ms before sorted ih =>
    rw [update]
    split
    case isTrue same =>
      by_cases eq : wanted = name
      · simp [child?, keeps, eq, same]
      · have other : m.name ≠ wanted := fun h => eq (h.symm.trans same.symm)
        simp [child?, keeps, eq, other]
    case isFalse other =>
      split
      case isTrue less =>
        -- all names from here on are greater, so the module is new
        have missing : child? name (m :: ms) = none := by
          refine child?_eq_none fun m' hm' => ?_
          cases List.mem_cons.mp hm' with
          | inl eq => exact eq ▸ less
          | inr hm' => exact less.trans (before m' hm')
        have named : (f (empty name)).name = name := keeps _
        by_cases eq : wanted = name
        · subst eq
          rw [missing, if_pos rfl, child?, List.find?_cons_of_pos (by simp [named])]
          rfl
        · rw [if_neg eq, child?, List.find?_cons_of_neg (by simpa [named] using Ne.symm eq)]
          rfl
      case isFalse =>
        by_cases here : m.name = wanted
        · have eq : wanted ≠ name := fun h => other (h.symm.trans here.symm)
          simp [child?, here, eq]
        · have skip : child? wanted (m :: update name f ms) = child? wanted (update name f ms) :=
            List.find?_cons_of_neg (by simpa using here)
          have skip' : child? wanted (m :: ms) = child? wanted ms :=
            List.find?_cons_of_neg (by simpa using here)
          have skip_name : child? name (m :: ms) = child? name ms :=
            List.find?_cons_of_neg (by simpa using Ne.symm other)
          rw [skip, skip', skip_name, ih]

omit keeps

/-! ### Modules by their paths -/

/-- Whether modules come in the order of their names, at every depth. -/
inductive Ordered : ModuleTree → Prop
  | mk {name : String} {content : ModuleContent} {children : List ModuleTree} (sorted : Sorted children)
      (below : ∀ m ∈ children, Ordered m) : Ordered (.mk name content children)

/-- The module at a path. -/
def at? : List String → ModuleTree → Option ModuleTree
  | [], t => some t
  | step :: path, t => (child? step t.children).bind (at? path)

/-- What the module at a path holds of its own; a missing module holds nothing. -/
def contentAt (path : List String) (t : ModuleTree) : ModuleContent :=
  ((t.at? path).map content).getD .empty

lemma at?_of_mem {content : ModuleContent} {children : List ModuleTree} (sorted : Sorted children)
    {m : ModuleTree} (hm : m ∈ children) (path : List String) :
    (ModuleTree.mk name content children).at? (m.name :: path) = m.at? path := by
  rw [at?, ModuleTree.children, child?_of_mem sorted hm, Option.bind_some]

lemma contentAt_empty (name : String) (path : List String) : (empty name).contentAt path = .empty := by
  cases path with
  | nil => rfl
  | cons step path => rfl

lemma ordered_empty (name : String) : (empty name).Ordered :=
  .mk .nil fun _ there => absurd there List.not_mem_nil

/-- What is at a path below a module is at the rest of the path below the next one. -/
lemma contentAt_cons (step : String) (path : List String) (t : ModuleTree) :
    t.contentAt (step :: path) = ((child? step t.children).getD (empty step)).contentAt path := by
  cases found : child? step t.children with
  | some m => simp only [contentAt, at?, found, Option.bind_some, Option.getD_some]
  | none =>
    rw [Option.getD_none, contentAt_empty]
    simp only [contentAt, at?, found, Option.bind_none, Option.map_none, Option.getD_none]

lemma name_insert (f : Fragment) (path : List String) (t : ModuleTree) : (insert f path t).name = t.name := by
  obtain ⟨_, _, _⟩ := t
  cases path with
  | nil => rfl
  | cons => rfl

lemma Ordered.insert {t : ModuleTree} (ordered : t.Ordered) (f : Fragment) (path : List String) :
    (insert f path t).Ordered := by
  induction path generalizing t with
  | nil =>
    obtain ⟨sorted, below⟩ := ordered
    exact ⟨sorted, below⟩
  | cons step path ih =>
    obtain ⟨sorted, below⟩ := ordered
    refine ⟨sorted_update (name_insert f path) sorted, fun m hm => ?_⟩
    cases mem_update (name_insert f path) hm with
    | inl there => exact below m there
    | inr new =>
      obtain ⟨-, t, rfl, there | rfl⟩ := new
      · exact ih (below t there)
      · exact ih (ordered_empty step)

/-- A fragment is added at its path and nowhere else. -/
lemma contentAt_insert {t : ModuleTree} (ordered : t.Ordered) (f : Fragment) (path wanted : List String) :
    (insert f path t).contentAt wanted =
      if wanted = path then (t.contentAt wanted).add f else t.contentAt wanted := by
  induction path generalizing t wanted with
  | nil =>
    obtain ⟨_, _, _⟩ := t
    cases wanted with
    | nil => rfl
    | cons step wanted => rfl
  | cons step path ih =>
    obtain @⟨_, _, children, sorted, below⟩ := ordered
    cases wanted with
    | nil => rfl
    | cons step' wanted =>
      rw [contentAt_cons, contentAt_cons]
      have found : child? step' (update step (ModuleTree.insert f path) children) =
          if step' = step then some ((ModuleTree.insert f path) ((child? step children).getD (empty step)))
          else child? step' children := child?_update (name_insert f path) sorted step'
      change ((child? step' (update step (ModuleTree.insert f path) children)).getD _).contentAt wanted = _
      rw [found]
      by_cases eq : step' = step
      · subst eq
        rw [if_pos rfl, Option.getD_some]
        -- the module of the step, old or new, is in order, so the rest of the path is a case of the induction
        have ordered : ((child? step' children).getD (empty step')).Ordered := by
          cases there : child? step' children with
          | some m => exact below m (List.mem_of_find?_eq_some there)
          | none => exact ordered_empty step'
        rw [ih ordered wanted]
        simp only [List.cons.injEq, true_and]
        rfl
      · rw [if_neg eq, if_neg fun h => eq (List.cons.inj h).1]
        rfl

variable {fs : List Fragment}

/-- The modules of fragments come in the order of their names. -/
lemma ordered_ofFragments (fs : List Fragment) : (ofFragments fs).Ordered := by
  have all (t : ModuleTree) (ordered : t.Ordered) :
      (fs.foldl (fun t f => t.insert f f.modulePath) t).Ordered := by
    induction fs generalizing t with
    | nil => exact ordered
    | cons f fs ih => exact ih _ (ordered.insert f f.modulePath)
  exact all (empty "") (ordered_empty "")

/-- A module holds what the fragments of its path bring along. -/
lemma contentAt_ofFragments (fs : List Fragment) (path : List String) :
    (ofFragments fs).contentAt path = ModuleContent.empty.addAll (fs.filter (·.modulePath = path)) := by
  have all (t : ModuleTree) (ordered : t.Ordered) :
      (fs.foldl (fun t f => t.insert f f.modulePath) t).contentAt path =
        (t.contentAt path).addAll (fs.filter (·.modulePath = path)) := by
    induction fs generalizing t with
    | nil => rfl
    | cons f fs ih =>
      refine (ih _ (ordered.insert f f.modulePath)).trans ?_
      rw [contentAt_insert ordered f f.modulePath path, List.filter_cons]
      by_cases here : path = f.modulePath
      · simp only [here, if_true, decide_true]
        rfl
      · simp only [here, Ne.symm here, if_false, decide_false, Bool.false_eq_true]
  refine (all (empty "") (ordered_empty "")).trans ?_
  rw [contentAt_empty]

lemma isSome_at?_empty {name : String} {path : List String} : ((empty name).at? path).isSome = true ↔ path = [] := by
  cases path with
  | nil => exact iff_of_true rfl rfl
  | cons step path => exact iff_of_false nofun (List.cons_ne_nil step path)

/-- A fragment makes the modules at its path and around it. -/
lemma isSome_at?_insert {t : ModuleTree} (ordered : t.Ordered) (f : Fragment) (path wanted : List String) :
    ((insert f path t).at? wanted).isSome = true ↔ (t.at? wanted).isSome = true ∨ wanted <+: path := by
  induction path generalizing t wanted with
  | nil =>
    obtain ⟨name, content, children⟩ := t
    cases wanted with
    | nil => exact iff_of_true rfl (.inl rfl)
    | cons step wanted => exact (or_iff_left (by simp)).symm
  | cons step path ih =>
    obtain @⟨name, content, children, sorted, below⟩ := ordered
    cases wanted with
    | nil => exact iff_of_true rfl (.inl rfl)
    | cons step' wanted =>
      have found : child? step' (update step (ModuleTree.insert f path) children) =
          if step' = step then some ((ModuleTree.insert f path) ((child? step children).getD (empty step)))
          else child? step' children := child?_update (name_insert f path) sorted step'
      change ((child? step' (update step (ModuleTree.insert f path) children)).bind (at? wanted)).isSome = true ↔
        ((child? step' children).bind (at? wanted)).isSome = true ∨ _
      rw [found, List.cons_prefix_cons]
      by_cases same : step' = step
      · subst same
        rw [if_pos rfl, Option.bind_some]
        cases there : child? step' children with
        | some m =>
          rw [Option.getD_some, ih (below m (List.mem_of_find?_eq_some there)), Option.bind_some]
          simp only [true_and]
        | none =>
          rw [Option.getD_none, ih (ordered_empty step'), isSome_at?_empty]
          simp only [Option.bind_none, Option.isSome_none, Bool.false_eq_true, false_or, true_and]
          exact or_iff_right_of_imp fun eq => eq ▸ List.nil_prefix
      · rw [if_neg same]
        simp only [same, false_and, or_false]

/-- The modules of fragments are those at their paths and around them. -/
lemma isSome_at?_ofFragments (fs : List Fragment) (path : List String) :
    ((ofFragments fs).at? path).isSome = true ↔ path = [] ∨ ∃ f ∈ fs, path <+: f.modulePath := by
  have all (t : ModuleTree) (ordered : t.Ordered) :
      ((fs.foldl (fun t f => t.insert f f.modulePath) t).at? path).isSome = true ↔
        (t.at? path).isSome = true ∨ ∃ f ∈ fs, path <+: f.modulePath := by
    induction fs generalizing t with
    | nil => exact (or_iff_left (by simp)).symm
    | cons f fs ih =>
      refine (ih _ (ordered.insert f f.modulePath)).trans ?_
      rw [isSome_at?_insert ordered, List.exists_mem_cons_iff, or_assoc]
  exact (all (empty "") (ordered_empty "")).trans (or_congr_left isSome_at?_empty)

/-! ### What is offered -/

lemma labelsAll_eq (ms : List ModuleTree) : labelsAll ms = ms.flatMap labels := by
  induction ms with
  | nil => rfl
  | cons m ms ih => rw [labelsAll, ih, List.flatMap_cons]

lemma offeringAll_eq (path : List String) (ms : List ModuleTree) :
    offeringAll path ms = ms.flatMap fun m => m.offering (path ++ [m.name]) := by
  induction ms with
  | nil => rfl
  | cons m ms ih => rw [offeringAll, ih, List.flatMap_cons]

/-- Offering modules are found alike from everywhere. -/
lemma offering_path {t : ModuleTree} (ordered : t.Ordered) (path : List String) :
    t.offering path = (t.offering []).map (path ++ ·) := by
  induction ordered generalizing path with
  | @mk name content children _ _ ih =>
    have below (m : ModuleTree) (hm : m ∈ children) :
        m.offering (path ++ [m.name]) = (m.offering ([] ++ [m.name])).map (path ++ ·) := by
      rw [ih m hm (path ++ [m.name]), ih m hm ([] ++ [m.name]), List.map_map]
      exact List.map_congr_left fun q _ => List.append_assoc path [m.name] q
    rw [offering, offering, offeringAll_eq, offeringAll_eq, List.map_append, List.map_flatMap]
    congr 1
    · split
      case isTrue => rfl
      case isFalse => rw [List.map_cons, List.append_nil, List.map_nil]
    · exact List.flatMap_congr below

/-- The offering modules of a module: itself, and those of the modules below it. -/
lemma offering_mk {content : ModuleContent} {children : List ModuleTree}
    (below : ∀ m ∈ children, m.Ordered) :
    (ModuleTree.mk name content children).offering [] =
      (if content.offers.isEmpty then [] else [[]]) ++
        children.flatMap fun m => (m.offering []).map (m.name :: ·) := by
  rw [offering, offeringAll_eq]
  congr 1
  exact List.flatMap_congr fun m hm => offering_path (below m hm) [m.name]

/-- A module offers types exactly if its path is that of an offering module. -/
lemma mem_offering {t : ModuleTree} (ordered : t.Ordered) (path : List String) :
    path ∈ t.offering [] ↔ (t.contentAt path).offers ≠ [] := by
  induction ordered generalizing path with
  | @mk name content children sorted below ih =>
    rw [offering_mk below]
    cases path with
    | nil =>
      have apart : [] ∉ children.flatMap fun m => (m.offering []).map (m.name :: ·) := by
        intro there
        obtain ⟨m, -, there⟩ := List.mem_flatMap.mp there
        obtain ⟨q, -, eq⟩ := List.mem_map.mp there
        cases eq
      have here : (ModuleTree.mk name content children).contentAt [] = content := rfl
      rw [here, List.mem_append, or_iff_left apart]
      cases content.offers with
      | nil => simp
      | cons => simp
    | cons step path =>
      have root : step :: path ∉ if content.offers.isEmpty then [] else [([] : List String)] := by
        split <;> simp
      rw [List.mem_append, or_iff_right root, contentAt_cons]
      constructor
      · intro there
        obtain ⟨m, hm, there⟩ := List.mem_flatMap.mp there
        obtain ⟨q, hq, eq⟩ := List.mem_map.mp there
        cases eq
        change (((child? m.name children).getD _).contentAt path).offers ≠ []
        rw [child?_of_mem sorted hm]
        exact (ih m hm path).mp hq
      · intro offers
        change (((child? step children).getD _).contentAt path).offers ≠ [] at offers
        cases found : child? step children with
        | none =>
          rw [found, Option.getD_none, contentAt_empty] at offers
          exact absurd rfl offers
        | some m =>
          rw [found] at offers
          have hm := List.mem_of_find?_eq_some found
          have named : m.name = step := by simpa using List.find?_some found
          refine List.mem_flatMap.mpr ⟨m, hm, List.mem_map.mpr ⟨path, (ih m hm path).mpr offers, ?_⟩⟩
          rw [named]

lemma nodup_offering {t : ModuleTree} (ordered : t.Ordered) : (t.offering []).Nodup := by
  induction ordered with
  | @mk name content children sorted below ih =>
    rw [offering_mk below]
    refine List.Nodup.append ?_ (List.nodup_flatMap.mpr ⟨?_, ?_⟩) ?_
    · split <;> simp
    · exact fun m hm => (ih m hm).map fun p q eq => (List.cons.inj eq).2
    · refine sorted.imp fun {m m'} before => ?_
      intro path there there'
      obtain ⟨q, -, rfl⟩ := List.mem_map.mp there
      obtain ⟨q', -, eq⟩ := List.mem_map.mp there'
      exact before.ne (List.cons.inj eq).1.symm
    · intro path root there
      obtain ⟨m, -, there⟩ := List.mem_flatMap.mp there
      obtain ⟨q, -, rfl⟩ := List.mem_map.mp there
      split at root
      case isTrue => exact absurd root List.not_mem_nil
      case isFalse => exact absurd (List.mem_singleton.mp root) (List.cons_ne_nil _ _)

/-- The labels of a tree are those of its offering modules, in their order. -/
lemma labels_eq {t : ModuleTree} (ordered : t.Ordered) :
    t.labels = (t.offering []).flatMap fun path => (t.contentAt path).offers.map (·.label) := by
  induction ordered with
  | @mk name content children sorted below ih =>
    rw [labels, labelsAll_eq, offering_mk below, List.flatMap_append, List.flatMap_assoc]
    congr 1
    · split
      case isTrue none_offered => rw [List.isEmpty_iff.mp none_offered]; rfl
      case isFalse => exact (List.flatMap_singleton _ _).symm
    · refine List.flatMap_congr fun m hm => ?_
      rw [ih m hm, List.flatMap_map]
      refine List.flatMap_congr fun path _ => ?_
      rw [contentAt_cons]
      change _ = (((child? m.name children).getD _).contentAt path).offers.map _
      rw [child?_of_mem sorted hm]
      rfl

/-- The labels of several modules after one of them was changed by adding labels. -/
lemma labelsAll_update {g : ModuleTree → ModuleTree} {added : List String}
    (adds : ∀ t, (g t).labels.Perm (t.labels ++ added)) (ms : List ModuleTree) :
    (labelsAll (update name g ms)).Perm (labelsAll ms ++ added) := by
  have new : (g (empty name)).labels.Perm added := adds (empty name)
  induction ms with
  | nil =>
    rw [update, labelsAll, labelsAll, labelsAll, List.append_nil]
    exact new
  | cons m ms ih =>
    have swap (xs : List String) : (xs ++ added).Perm (added ++ xs) := List.perm_append_comm
    rw [update]
    split
    case isTrue =>
      have first := (adds m).append_right (labelsAll ms)
      rw [List.append_assoc] at first
      rw [labelsAll, labelsAll, List.append_assoc]
      exact first.trans ((swap (labelsAll ms)).symm.append_left m.labels)
    case isFalse =>
      split
      case isTrue =>
        rw [labelsAll]
        exact (new.append_right _).trans (swap _).symm
      case isFalse =>
        rw [labelsAll, labelsAll, List.append_assoc]
        exact ih.append_left _

lemma labels_insert (f : Fragment) (path : List String) (t : ModuleTree) :
    (insert f path t).labels.Perm (t.labels ++ if f.isCandidate then [f.path] else []) := by
  induction path generalizing t with
  | nil =>
    obtain ⟨name, content, children⟩ := t
    rw [insert, labels, labels, List.append_assoc]
    cases candidate : f.isCandidate with
    | true =>
      simp only [ModuleContent.add, candidate, if_true, List.map_append, List.append_assoc]
      exact List.perm_append_comm.append_left _
    | false => simp [ModuleContent.add, candidate]
  | cons step path ih =>
    obtain ⟨name, content, children⟩ := t
    rw [insert, labels, labels, List.append_assoc]
    exact (labelsAll_update ih children).append_left _

/-- The labels of a tree are the paths of the candidates among its fragments, in the order of the modules. -/
lemma labels_ofFragments (fs : List Fragment) :
    (ofFragments fs).labels.Perm ((fs.filter (·.isCandidate)).map (·.path)) := by
  have all (t : ModuleTree) : (fs.foldl (fun t f => t.insert f f.modulePath) t).labels.Perm
      (t.labels ++ (fs.filter (·.isCandidate)).map (·.path)) := by
    induction fs generalizing t with
    | nil => exact .of_eq (List.append_nil _).symm
    | cons f fs ih =>
      refine (ih (t.insert f f.modulePath)).trans (((labels_insert f f.modulePath t).append_right _).trans ?_)
      rw [List.filter_cons]
      cases f.isCandidate with
      | true => exact .of_eq (List.append_assoc _ [f.path] _)
      | false => exact .of_eq (by simp)
  exact all (empty "")

/-! ### The names of modules -/

lemma namesBelowAll_eq (ms : List ModuleTree) : namesBelowAll ms = ms.flatMap fun m => m.name :: m.namesBelow := by
  induction ms with
  | nil => rfl
  | cons m ms ih => rw [namesBelowAll, ih, List.flatMap_cons]

lemma mem_namesBelow_insert {f : Fragment} {path : List String} {t : ModuleTree} {n : String}
    (hn : n ∈ (insert f path t).namesBelow) : n ∈ path ∨ n ∈ t.namesBelow := by
  induction path generalizing t with
  | nil =>
    obtain ⟨name, content, children⟩ := t
    exact .inr hn
  | cons step path ih =>
    obtain ⟨name, content, children⟩ := t
    rw [insert, namesBelow, namesBelowAll_eq] at hn
    rw [namesBelow, namesBelowAll_eq]
    obtain ⟨m, hm, hn⟩ := List.mem_flatMap.mp hn
    cases mem_update (name_insert f path) hm with
    | inl there => exact .inr (List.mem_flatMap.mpr ⟨m, there, hn⟩)
    | inr new =>
      obtain ⟨named, t, rfl, origin⟩ := new
      cases List.mem_cons.mp hn with
      | inl eq => exact .inl (by rw [eq, named]; exact List.mem_cons_self)
      | inr hn =>
        refine (ih hn).imp (List.mem_cons_of_mem step) fun hn => ?_
        obtain there | rfl := origin
        · exact List.mem_flatMap.mpr ⟨t, there, List.mem_cons_of_mem _ hn⟩
        · exact absurd hn List.not_mem_nil

/-- The names of the modules of fragments are those of their paths. -/
lemma mem_namesBelow_ofFragments {fs : List Fragment} {n : String} (hn : n ∈ (ofFragments fs).namesBelow) :
    ∃ f ∈ fs, n ∈ f.modulePath := by
  have all (fs : List Fragment) (t : ModuleTree)
      (hn : n ∈ (fs.foldl (fun t f => t.insert f f.modulePath) t).namesBelow) :
      (∃ f ∈ fs, n ∈ f.modulePath) ∨ n ∈ t.namesBelow := by
    induction fs generalizing t with
    | nil => exact .inr hn
    | cons f fs ih =>
      obtain ⟨f', hf', hn⟩ | hn := ih _ hn
      · exact .inl ⟨f', List.mem_cons_of_mem f hf', hn⟩
      · exact (mem_namesBelow_insert hn).imp (fun hn => ⟨f, List.mem_cons_self, hn⟩) id
  exact (all fs (empty "") hn).resolve_right List.not_mem_nil

lemma mem_namesBelowAll_update {name : String} {f : ModuleTree → ModuleTree} {n : String}
    (grows : ∀ t : ModuleTree, n ∈ t.name :: t.namesBelow → n ∈ (f t).name :: (f t).namesBelow) {ms : List ModuleTree}
    (hn : n ∈ namesBelowAll ms) : n ∈ namesBelowAll (update name f ms) := by
  induction ms with
  | nil => exact absurd hn List.not_mem_nil
  | cons m ms ih =>
    rw [update]
    split
    case isTrue =>
      obtain own | rest := List.mem_append.mp hn
      · exact List.mem_append_left _ (grows m own)
      · exact List.mem_append_right _ rest
    case isFalse =>
      split
      case isTrue => exact List.mem_append_right _ hn
      case isFalse =>
        obtain own | rest := List.mem_append.mp hn
        · exact List.mem_append_left _ own
        · exact List.mem_append_right _ (ih rest)

lemma mem_namesBelowAll_of_changed {name : String} {f : ModuleTree → ModuleTree} {n : String}
    (there : ∀ t : ModuleTree, t.name = name → n ∈ (f t).name :: (f t).namesBelow) (ms : List ModuleTree) :
    n ∈ namesBelowAll (update name f ms) := by
  induction ms with
  | nil => exact List.mem_append_left _ (there (empty name) rfl)
  | cons m ms ih =>
    rw [update]
    split
    case isTrue same => exact List.mem_append_left _ (there m same.symm)
    case isFalse =>
      split
      case isTrue => exact List.mem_append_left _ (there (empty name) rfl)
      case isFalse => exact List.mem_append_right _ ih

lemma namesBelow_insert_of_mem {f : Fragment} {path : List String} {t : ModuleTree} {n : String}
    (hn : n ∈ t.namesBelow) : n ∈ (insert f path t).namesBelow := by
  induction path generalizing t with
  | nil =>
    obtain ⟨name, content, children⟩ := t
    exact hn
  | cons step path ih =>
    obtain ⟨name, content, children⟩ := t
    refine mem_namesBelowAll_update (fun t there => ?_) hn
    rw [name_insert]
    obtain rfl | below := List.mem_cons.mp there
    · exact List.mem_cons_self
    · exact List.mem_cons_of_mem _ (ih below)

lemma namesBelow_insert_of_mem_path {f : Fragment} {path : List String} {n : String} (hn : n ∈ path)
    (t : ModuleTree) : n ∈ (insert f path t).namesBelow := by
  induction path generalizing t with
  | nil => exact absurd hn List.not_mem_nil
  | cons step path ih =>
    obtain ⟨name, content, children⟩ := t
    refine mem_namesBelowAll_of_changed (fun t named => ?_) children
    rw [name_insert, named]
    obtain rfl | below := List.mem_cons.mp hn
    · exact List.mem_cons_self
    · exact List.mem_cons_of_mem _ (ih below t)

/-- The modules of fragments have the names of their paths. -/
lemma mem_namesBelow_ofFragments_iff {fs : List Fragment} {n : String} :
    n ∈ (ofFragments fs).namesBelow ↔ ∃ f ∈ fs, n ∈ f.modulePath := by
  refine ⟨mem_namesBelow_ofFragments, ?_⟩
  rintro ⟨f, hf, hn⟩
  have all (fs : List Fragment) (t : ModuleTree) (there : f ∈ fs ∨ n ∈ t.namesBelow) :
      n ∈ (fs.foldl (fun t f => t.insert f f.modulePath) t).namesBelow := by
    induction fs generalizing t with
    | nil => exact there.resolve_left List.not_mem_nil
    | cons g fs ih =>
      refine ih _ ?_
      obtain there | below := there
      · obtain rfl | there := List.mem_cons.mp there
        · exact .inr (namesBelow_insert_of_mem_path hn t)
        · exact .inl there
      · exact .inr (namesBelow_insert_of_mem below)
  exact all fs (empty "") (.inl hf)

end ModuleTree

end SourceGen
