import Mathlib.Data.List.Nodup
import SourceGen.Proofs.Assembly.Tree
import SourceGen.Proofs.Program.Modules
import SourceGen.Resolution.Model

/-!
# Paths from a place in the program

A path in an attribute stands for itself, or for what an import writes in place of its first name (`Scope.Spells`). The
candidates are the canonical forms of all that it may stand for (`Model.mem_candidates_iff`). A path that starts with
`self` or with some `super` is taken from the module that it is written in, or from one around it. This is so as long
as there are no `super` behind the `self`: these stay in the candidate (`Model.candidates_relative`,
`Model.not_candidates_superBehindSelf`).
-/

namespace SourceGen

open SourceGen.Text

/-- Words for a place in the program, at which a path can start. -/
def placeWords : List String := ["crate", "self", "super"]

/-- A path from a module: `self`, if it is there, and then as many `super` as it leaves modules. -/
def relativePath (fromSelf : Bool) (supers : Nat) (rest : List String) : List String :=
  (if fromSelf then ["self"] else []) ++ List.replicate supers "super" ++ rest

/-- What follows the words that a path starts with, or its first name. -/
def behindStart (path : List String) : List String :=
  if path.head? = some "super" then path.dropWhile (· == "super") else path.tail

namespace Scope

/-- The imports that bind a name. -/
def named (s : Scope) (name : String) : List Binding := s.bindings.filter fun b => !b.glob && b.name == name

/-- The imports of all names of a module. -/
def globs (s : Scope) : List Binding := s.bindings.filter (·.glob)

/-- What a path may stand for in a scope: for itself, or for what an import writes in place of its first name, or for
one of all names of a module. -/
inductive Spells (s : Scope) : List String → List String → Prop
  | itself {first : String} {rest : List String} (free : first ∈ placeWords ∨ s.named first = []) :
      Spells s (first :: rest) (first :: rest)
  | imported {first : String} {rest : List String} {b : Binding} (name : first ∉ placeWords) (bound : b ∈ s.named first) :
      Spells s (first :: rest) (b.target ++ rest)
  | among {first : String} {rest : List String} {b : Binding} (name : first ∉ placeWords) (free : s.named first = [])
      (there : b ∈ s.bindings) (all : b.glob = true) : Spells s (first :: rest) (b.target ++ first :: rest)

variable {s : Scope} {first : String} {rest path : List String}

lemma Spells.eq_of_placeWord (spells : s.Spells (first :: rest) path) (place : first ∈ placeWords) :
    path = first :: rest := by
  cases spells with
  | itself => rfl
  | imported name => exact absurd place name
  | among name => exact absurd place name

lemma Spells.eq_of_named {b : Binding} (spells : s.Spells (first :: rest) path) (name : first ∉ placeWords)
    (bound : s.named first = [b]) : path = b.target ++ rest := by
  cases spells with
  | itself free =>
    cases free with
    | inl place => exact absurd place name
    | inr free =>
      rw [bound] at free
      cases free
  | imported _ hb =>
    rw [bound] at hb
    rw [List.mem_singleton.mp hb]
  | among _ free =>
    rw [bound] at free
    cases free

end Scope

namespace Model

/-- The names of the canonical form of a path. -/
def canonicalNames (m : Model) (modulePath path : List String) : List String :=
  match path with
  | [] => ["crate"]
  | first :: rest =>
    if first = "crate" then path
    else if first = "self" then "crate" :: (modulePath ++ rest)
    else if first = "super" then
      let supers := (path.takeWhile (· == "super")).length
      "crate" :: (modulePath.take (modulePath.length - supers) ++ path.dropWhile (· == "super"))
    else if m.isExternCrate first then path
    else "crate" :: (modulePath ++ path)

variable {m : Model}

/-! ### Texts of paths -/

lemma joinPath_cons_cons (n n' : String) (ns : List String) :
    joinPath (n :: n' :: ns) = n ++ "::" ++ joinPath (n' :: ns) :=
  String.intercalate_cons_cons

lemma fromRoot_eq (names : List String) : fromRoot names = joinPath ("crate" :: names) := by
  cases names with
  | nil => rfl
  | cons n ns =>
    rw [joinPath_cons_cons]
    rfl

lemma toList_joinPath (n : String) (ns : List String) :
    (joinPath (n :: ns)).toList = n.toList ++ ns.flatMap fun n' => ':' :: ':' :: n'.toList := by
  induction ns generalizing n with
  | nil => exact (List.append_nil _).symm
  | cons n' ns ih =>
    rw [joinPath_cons_cons, String.toList_append, String.toList_append, ih, List.flatMap_cons, List.append_assoc]
    rfl

/-- Of two paths with the same names, the one with more of them has the longer text. -/
lemma fromRoot_ne {names more names' : List String} (longer : more ≠ []) :
    fromRoot (names ++ more ++ names') ≠ fromRoot (names ++ names') := by
  intro same
  obtain ⟨n, ns, rfl⟩ := List.exists_cons_of_ne_nil longer
  rw [fromRoot_eq, fromRoot_eq, ← String.toList_inj, toList_joinPath, toList_joinPath, List.append_cancel_left_eq] at same
  have lengths := congrArg List.length same
  simp only [List.flatMap_append, List.flatMap_cons, List.length_append, List.length_cons] at lengths
  omega

lemma fromRoot_ne_joinPath (names : List String) (n : String) (ns : List String) :
    joinPath (n :: ns) ≠ fromRoot (names ++ n :: ns) := by
  intro same
  rw [fromRoot_eq, ← String.toList_inj, toList_joinPath, toList_joinPath] at same
  have lengths := congrArg List.length same
  simp only [List.flatMap_append, List.flatMap_cons, List.length_append, List.length_cons] at lengths
  omega

lemma joinPath_singleton_ne (n n' : String) (ns : List String) : joinPath [n] ≠ joinPath (n :: n' :: ns) := by
  intro same
  rw [← String.toList_inj, toList_joinPath, toList_joinPath] at same
  have lengths := congrArg List.length same
  simp only [List.flatMap_nil, List.flatMap_cons, List.length_append, List.length_cons, List.length_nil] at lengths
  omega

/-- The first name of a path is what its text has before the first colon. -/
lemma takeWhile_joinPath {n : String} (plain : ':' ∉ n.toList) (ns : List String) :
    (joinPath (n :: ns)).toList.takeWhile (· ≠ ':') = n.toList := by
  have all : ∀ c ∈ n.toList, decide (c ≠ ':') = true := fun c hc =>
    decide_eq_true fun colon => plain (colon ▸ hc)
  have stop : (ns.flatMap fun n' => ':' :: ':' :: n'.toList).takeWhile (· ≠ ':') = [] := by
    cases ns with
    | nil => rfl
    | cons n' ns => rfl
  rw [toList_joinPath, List.takeWhile_append_of_pos all, stop, List.append_nil]

/-- Names without colons are read off the text of their path. -/
lemma eq_of_joinPath {n n' : String} {ns ns' : List String} (plain : ∀ x ∈ n :: ns, ':' ∉ x.toList)
    (plain' : ∀ x ∈ n' :: ns', ':' ∉ x.toList) (same : joinPath (n :: ns) = joinPath (n' :: ns')) :
    n :: ns = n' :: ns' := by
  induction ns generalizing n n' ns' with
  | nil =>
    obtain rfl : n = n' := by
      rw [← String.toList_inj, ← takeWhile_joinPath (plain n List.mem_cons_self) [], same,
        takeWhile_joinPath (plain' n' List.mem_cons_self)]
    cases ns' with
    | nil => rfl
    | cons b bs => exact absurd same (joinPath_singleton_ne n b bs)
  | cons a as ih =>
    obtain rfl : n = n' := by
      rw [← String.toList_inj, ← takeWhile_joinPath (plain n List.mem_cons_self) (a :: as), same,
        takeWhile_joinPath (plain' n' List.mem_cons_self)]
    cases ns' with
    | nil => exact absurd same.symm (joinPath_singleton_ne n a as)
    | cons b bs =>
      rw [joinPath_cons_cons, joinPath_cons_cons, String.append_right_inj] at same
      rw [ih (fun x hx => plain x (List.mem_cons_of_mem _ hx)) (fun x hx => plain' x (List.mem_cons_of_mem _ hx)) same]

/-! ### Canonical forms -/

lemma canonical_eq (modulePath path : List String) :
    m.canonical modulePath path = joinPath (m.canonicalNames modulePath path) := by
  cases path with
  | nil => rfl
  | cons first rest =>
    rw [canonical, canonicalNames]
    split
    case isTrue crate =>
      rw [fromRoot_eq, crate]
    case isFalse =>
      split
      case isTrue => exact fromRoot_eq _
      case isFalse =>
        split
        case isTrue => exact fromRoot_eq _
        case isFalse =>
          split
          case isTrue => rfl
          case isFalse => exact fromRoot_eq _

/-- A path that starts with a name is one of another crate, or one below its module. -/
lemma canonicalNames_of_name {first : String} (name : first ∉ placeWords) (modulePath rest : List String) :
    m.canonicalNames modulePath (first :: rest) =
      if m.isExternCrate first then first :: rest else "crate" :: (modulePath ++ first :: rest) := by
  have crate : first ≠ "crate" := fun eq => name (eq ▸ by decide)
  have self : first ≠ "self" := fun eq => name (eq ▸ by decide)
  have super : first ≠ "super" := fun eq => name (eq ▸ by decide)
  simp only [canonicalNames, crate, self, super, if_false]

lemma canonicalNames_super (modulePath : List String) (supers : Nat) {rest : List String}
    (plain : ∀ n ∈ rest, n ∉ placeWords) :
    m.canonicalNames modulePath (relativePath false (supers + 1) rest) =
      "crate" :: (modulePath.take (modulePath.length - (supers + 1)) ++ rest) := by
  have start : relativePath false (supers + 1) rest = "super" :: (List.replicate supers "super" ++ rest) := rfl
  -- the words at the start are all there are
  have stop : rest.takeWhile (· == "super") = [] ∧ rest.dropWhile (· == "super") = rest := by
    cases rest with
    | nil => exact ⟨rfl, rfl⟩
    | cons n ns =>
      have other : ¬ (n == "super") = true := by
        intro eq
        apply plain n List.mem_cons_self
        rw [eq_of_beq eq]
        decide
      exact ⟨List.takeWhile_cons_of_neg other, List.dropWhile_cons_of_neg other⟩
  have words : (relativePath false (supers + 1) rest).takeWhile (· == "super") = List.replicate (supers + 1) "super" := by
    change (List.replicate (supers + 1) "super" ++ rest).takeWhile _ = _
    rw [List.takeWhile_append_of_pos fun n hn => by rw [List.eq_of_mem_replicate hn]; rfl, stop.1, List.append_nil]
  have behind : (relativePath false (supers + 1) rest).dropWhile (· == "super") = rest := by
    change (List.replicate (supers + 1) "super" ++ rest).dropWhile _ = _
    rw [List.dropWhile_append_of_pos fun n hn => by rw [List.eq_of_mem_replicate hn]; rfl, stop.2]
  have unfolded : m.canonicalNames modulePath (relativePath false (supers + 1) rest) =
      "crate" :: (modulePath.take (modulePath.length -
        ((relativePath false (supers + 1) rest).takeWhile (· == "super")).length) ++
          (relativePath false (supers + 1) rest).dropWhile (· == "super")) := by
    rw [start]
    rfl
  rw [unfolded, words, behind, List.length_replicate]

lemma canonical_super (modulePath : List String) (supers : Nat) {rest : List String}
    (plain : ∀ n ∈ rest, n ∉ placeWords) :
    m.canonical modulePath (relativePath false (supers + 1) rest) =
      fromRoot (modulePath.take (modulePath.length - (supers + 1)) ++ rest) := by
  rw [canonical_eq, canonicalNames_super _ _ plain, ← fromRoot_eq]

lemma canonical_self (modulePath : List String) (supers : Nat) (rest : List String) :
    m.canonical modulePath (relativePath true supers rest) =
      fromRoot (modulePath ++ List.replicate supers "super" ++ rest) := by
  rw [List.append_assoc]
  rfl

/-- Behind `self`, a `super` does not leave a module: the modules that are left and the words for that are too much. -/
lemma canonical_self_eq_iff (modulePath : List String) (supers : Nat) (rest : List String) :
    m.canonical modulePath (relativePath true supers rest) =
      fromRoot (modulePath.take (modulePath.length - supers) ++ rest) ↔ supers = 0 := by
  rw [canonical_self]
  constructor
  · intro same
    by_contra left
    have split := List.take_append_drop (modulePath.length - supers) modulePath
    rw [← split, List.append_assoc _ (List.drop _ _), split] at same
    apply fromRoot_ne _ same
    apply List.append_ne_nil_of_right_ne_nil
    rw [ne_eq, List.replicate_eq_nil_iff]
    exact left
  · rintro rfl
    rw [List.replicate_zero, List.append_nil, Nat.sub_zero, List.take_length]

/-- A path that starts with a name is taken from its module, unless this is the name of another crate. -/
lemma canonical_eq_fromRoot_iff {first : String} (name : first ∉ placeWords) (modulePath rest : List String) :
    m.canonical modulePath (first :: rest) = fromRoot (modulePath ++ first :: rest) ↔ m.isExternCrate first = false := by
  rw [canonical_eq, canonicalNames_of_name name]
  cases m.isExternCrate first with
  | true =>
    apply iff_of_false
    · rw [if_pos rfl]
      exact fromRoot_ne_joinPath _ first rest
    · exact nofun
  | false =>
    apply iff_of_true
    · rw [if_neg Bool.false_ne_true, fromRoot_eq]
    · rfl

/-- The words for a place that are left in a canonical form are those that the path has behind its start. -/
lemma canonicalNames_plain_iff {modulePath : List String} (plain : ∀ n ∈ modulePath, n ∉ placeWords)
    (path : List String) :
    (∀ n ∈ (m.canonicalNames modulePath path).tail, n ∉ placeWords) ↔ ∀ n ∈ behindStart path, n ∉ placeWords := by
  cases path with
  | nil => exact iff_of_true nofun nofun
  | cons first rest =>
    by_cases super : first = "super"
    · subst super
      change (∀ n ∈ modulePath.take _ ++ ("super" :: rest).dropWhile (· == "super"), n ∉ placeWords) ↔
        ∀ n ∈ ("super" :: rest).dropWhile (· == "super"), n ∉ placeWords
      rw [List.forall_mem_append]
      apply and_iff_right
      intro n hn
      exact plain n (List.mem_of_mem_take hn)
    · have behind : behindStart (first :: rest) = rest := if_neg fun eq => super (Option.some.inj eq)
      rw [behind]
      by_cases crate : first = "crate"
      · subst crate
        rfl
      · by_cases self : first = "self"
        · subst self
          change (∀ n ∈ modulePath ++ rest, n ∉ placeWords) ↔ _
          rw [List.forall_mem_append]
          exact and_iff_right plain
        · have name : first ∉ placeWords := by
            simp only [placeWords, List.mem_cons, List.not_mem_nil, or_false, not_or]
            exact ⟨crate, self, super⟩
          rw [canonicalNames_of_name name]
          split
          case isTrue => rfl
          case isFalse =>
            rw [List.tail_cons, List.forall_mem_append, List.forall_mem_cons]
            exact (and_iff_right plain).trans (and_iff_right name)

/-! ### Candidates -/

lemma mem_distinct {c : String} {cs : List String} : c ∈ distinct cs ↔ c ∈ cs :=
  ModuleContent.mem_addAllNew.trans (or_iff_right List.not_mem_nil)

lemma nodup_distinct (cs : List String) : (distinct cs).Nodup :=
  ModuleContent.nodup_addAllNew List.nodup_nil

variable {s : Scope}

lemma nodup_candidates (m : Model) (s : Scope) (names : List String) : (m.candidates s ⟨false, names⟩).Nodup := by
  cases names with
  | nil => exact List.nodup_nil
  | cons first rest =>
    change (if placeWords.contains first then _ else
      if (m.boundCandidates s first rest).isEmpty then _ else m.boundCandidates s first rest).Nodup
    split
    case isTrue => exact List.nodup_singleton _
    case isFalse =>
      split
      case isTrue => exact nodup_distinct _
      case isFalse => exact nodup_distinct _

lemma mem_boundCandidates {first c : String} {rest : List String} :
    c ∈ m.boundCandidates s first rest ↔ ∃ b ∈ s.named first, c = m.canonical s.modulePath (b.target ++ rest) := by
  rw [boundCandidates, mem_distinct, List.mem_map]
  simp only [Scope.named, eq_comm]

lemma isEmpty_boundCandidates {first : String} {rest : List String} :
    (m.boundCandidates s first rest).isEmpty = true ↔ s.named first = [] := by
  rw [List.isEmpty_iff]
  constructor
  · intro none_there
    apply List.eq_nil_iff_forall_not_mem.mpr
    intro b hb
    have there : m.canonical s.modulePath (b.target ++ rest) ∈ m.boundCandidates s first rest :=
      mem_boundCandidates.mpr ⟨b, hb, rfl⟩
    rw [none_there] at there
    exact List.not_mem_nil there
  · intro unbound
    apply List.eq_nil_iff_forall_not_mem.mpr
    intro c hc
    obtain ⟨b, hb, -⟩ := mem_boundCandidates.mp hc
    rw [unbound] at hb
    exact List.not_mem_nil hb

lemma candidates_of_placeWord {first : String} {rest : List String} (word : first ∈ placeWords) :
    m.candidates s ⟨false, first :: rest⟩ = [m.canonical s.modulePath (first :: rest)] := by
  change (if placeWords.contains first then _ else _) = _
  rw [if_pos (List.contains_iff_mem.mpr word)]

lemma candidates_of_bound {first : String} {rest : List String} (name : first ∉ placeWords) (bound : s.named first ≠ []) :
    m.candidates s ⟨false, first :: rest⟩ =
      distinct ((s.named first).map fun b => m.canonical s.modulePath (b.target ++ rest)) := by
  change (if placeWords.contains first then _ else if (m.boundCandidates s first rest).isEmpty then _ else _) = _
  rw [if_neg fun there => name (List.contains_iff_mem.mp there), if_neg fun none => bound (isEmpty_boundCandidates.mp none)]
  rfl

lemma candidates_of_free {first : String} {rest : List String} (name : first ∉ placeWords) (free : s.named first = []) :
    m.candidates s ⟨false, first :: rest⟩ =
      distinct ((if m.isExternCrate first then [joinPath (first :: rest)] else []) ++
        s.globs.map (fun b => m.canonical s.modulePath (b.target ++ first :: rest)) ++
          [m.canonical s.modulePath (first :: rest)]) := by
  change (if placeWords.contains first then _ else if (m.boundCandidates s first rest).isEmpty then _ else _) = _
  rw [if_neg fun there => name (List.contains_iff_mem.mp there), if_pos (isEmpty_boundCandidates.mpr free)]
  rfl

lemma mem_freeCandidates {first c : String} {rest : List String} (name : first ∉ placeWords) :
    c ∈ m.freeCandidates s first (first :: rest) ↔ c = m.canonical s.modulePath (first :: rest) ∨
      ∃ b ∈ s.bindings, b.glob = true ∧ c = m.canonical s.modulePath (b.target ++ first :: rest) := by
  have outside : c ∈ (if m.isExternCrate first then [joinPath (first :: rest)] else []) →
      c = m.canonical s.modulePath (first :: rest) := by
    intro there
    rw [canonical_eq, canonicalNames_of_name name]
    split at there
    case isTrue crate =>
      rw [if_pos crate]
      exact List.mem_singleton.mp there
    case isFalse => exact absurd there List.not_mem_nil
  rw [freeCandidates, mem_distinct, List.mem_append, List.mem_append, List.mem_singleton, List.mem_map]
  simp only [List.mem_filter, and_assoc]
  constructor
  · rintro ((there | ⟨b, hb, all, rfl⟩) | own)
    · exact .inl (outside there)
    · exact .inr ⟨b, hb, all, rfl⟩
    · exact .inl own
  · rintro (own | ⟨b, hb, all, rfl⟩)
    · exact .inr own
    · exact .inl (.inr ⟨b, hb, all, rfl⟩)

/-- The candidates of a path are the canonical forms of what it may stand for. -/
lemma mem_candidates_iff {names : List String} {c : String} :
    c ∈ m.candidates s ⟨false, names⟩ ↔ ∃ path, s.Spells names path ∧ c = m.canonical s.modulePath path := by
  cases names with
  | nil => exact iff_of_false List.not_mem_nil fun ⟨_, spells, _⟩ => nomatch spells
  | cons first rest =>
    change c ∈ (if placeWords.contains first then _ else _) ↔ _
    split
    case isTrue place =>
      rw [List.mem_singleton]
      constructor
      · intro eq
        exact ⟨_, .itself (.inl (List.contains_iff_mem.mp place)), eq⟩
      · rintro ⟨path, spells, rfl⟩
        rw [spells.eq_of_placeWord (List.contains_iff_mem.mp place)]
    case isFalse name =>
      have name : first ∉ placeWords := fun there => name (List.contains_iff_mem.mpr there)
      change c ∈ (if (m.boundCandidates s first rest).isEmpty then _ else _) ↔ _
      split
      case isTrue unbound =>
        have unbound := isEmpty_boundCandidates.mp unbound
        rw [mem_freeCandidates name]
        constructor
        · rintro (rfl | ⟨b, hb, all, rfl⟩)
          · exact ⟨_, .itself (.inr unbound), rfl⟩
          · exact ⟨_, .among name unbound hb all, rfl⟩
        · rintro ⟨path, spells, rfl⟩
          cases spells with
          | itself => exact .inl rfl
          | imported _ bound =>
            rw [unbound] at bound
            exact absurd bound List.not_mem_nil
          | among _ _ there all => exact .inr ⟨_, there, all, rfl⟩
      case isFalse bound =>
        have bound : s.named first ≠ [] := fun unbound => bound (isEmpty_boundCandidates.mpr unbound)
        rw [mem_boundCandidates]
        constructor
        · rintro ⟨b, hb, rfl⟩
          exact ⟨_, .imported name hb, rfl⟩
        · rintro ⟨path, spells, rfl⟩
          cases spells with
          | itself free => exact absurd free (not_or_intro name bound)
          | imported _ hb => exact ⟨_, hb, rfl⟩
          | among _ free => exact absurd free bound

/-- If there is one thing only that a path may stand for, then there is one candidate. -/
lemma candidates_eq_singleton {names path : List String} (spells : s.Spells names path)
    (only : ∀ path', s.Spells names path' → path' = path) :
    m.candidates s ⟨false, names⟩ = [m.canonical s.modulePath path] := by
  have all : ∀ c ∈ m.candidates s ⟨false, names⟩, c = m.canonical s.modulePath path := by
    intro c hc
    obtain ⟨path', spells', rfl⟩ := mem_candidates_iff.mp hc
    rw [only path' spells']
  have there : m.canonical s.modulePath path ∈ m.candidates s ⟨false, names⟩ := mem_candidates_iff.mpr ⟨path, spells, rfl⟩
  have repeated := List.eq_replicate_of_mem all
  have once : (m.candidates s ⟨false, names⟩).length ≤ 1 := by
    have nodup := nodup_candidates m s names
    rw [repeated, List.nodup_replicate] at nodup
    exact nodup
  have some_there : 0 < (m.candidates s ⟨false, names⟩).length := List.length_pos_of_mem there
  have one : (m.candidates s ⟨false, names⟩).length = 1 := by omega
  rw [repeated, one]
  rfl

/-- A path that starts with `self` or with `super`, as written or as an import writes it, has the candidate that it
leads to, unless there are `super` behind a `self`: then these stay. (A path without such a start leads to its module,
unless it starts at another crate.) In general, a candidate has a word for a place behind its first name exactly if the
path has one behind its start. -/
theorem candidates_relative {names rest : List String} {fromSelf : Bool} {supers : Nat}
    (spells : s.Spells names (relativePath fromSelf supers rest)) (written : relativePath fromSelf supers rest ≠ [])
    (plain : ∀ n ∈ rest, n ∉ placeWords) :
    let path := relativePath fromSelf supers rest
    let wanted := fromRoot (s.modulePath.take (s.modulePath.length - supers) ++ rest)
    (∀ c, c ∈ m.candidates s ⟨false, names⟩ ↔ ∃ path', s.Spells names path' ∧ c = m.canonical s.modulePath path') ∧
      ((∀ path', s.Spells names path' → path' = path) →
        m.candidates s ⟨false, names⟩ = [m.canonical s.modulePath path]) ∧
      (m.canonical s.modulePath path = wanted ↔ (fromSelf = true → supers = 0) ∧
        (fromSelf = false → supers = 0 → ∀ n ∈ rest.head?, m.isExternCrate n = false)) ∧
      (fromSelf = true →
        m.canonical s.modulePath path = fromRoot (s.modulePath ++ List.replicate supers "super" ++ rest)) ∧
      ∀ path', s.Spells names path' →
        m.canonical s.modulePath path' = joinPath (m.canonicalNames s.modulePath path') ∧
          ((∀ n ∈ s.modulePath, n ∉ placeWords) →
            ((∀ n ∈ (m.canonicalNames s.modulePath path').tail, n ∉ placeWords) ↔
              ∀ n ∈ behindStart path', n ∉ placeWords)) := by
  intro path wanted
  refine ⟨fun c => mem_candidates_iff, candidates_eq_singleton spells, ?_, ?_, ?_⟩
  · cases fromSelf with
    | true => exact (canonical_self_eq_iff s.modulePath supers rest).trans ⟨fun none => ⟨fun _ => none, nofun⟩, (·.1 rfl)⟩
    | false =>
      cases supers with
      | succ supers =>
        apply iff_of_true
        · exact canonical_super _ _ plain
        · exact ⟨nofun, fun _ none => absurd none (Nat.succ_ne_zero supers)⟩
      | zero =>
        obtain ⟨n, ns, rfl⟩ : ∃ n ns, rest = n :: ns := List.exists_cons_of_ne_nil written
        change m.canonical s.modulePath (n :: ns) = fromRoot (s.modulePath.take s.modulePath.length ++ n :: ns) ↔ _
        rw [List.take_length, canonical_eq_fromRoot_iff (plain n List.mem_cons_self)]
        constructor
        · exact fun own => ⟨nofun, fun _ _ n' first => Option.some.inj first ▸ own⟩
        · exact fun own => own.2 rfl rfl n rfl
  · rintro rfl
    exact canonical_self _ _ _
  · intro path' _
    exact ⟨canonical_eq _ _, fun modules => canonicalNames_plain_iff modules path'⟩

/-- An import from the module around the own one, in a module of a module. -/
theorem candidates_relative_moduleAround :
    let text := "mod a \x7b\nmod b \x7b\nuse super::helpers::tag;\n\x7d\n\x7d\n"
    ∃ m u inner, Model.ofText? text = some m ∧ m.program.units = [u] ∧
      (Scope.ofUnit u).descend? u.parsed.file.items ["a", "b"] = some inner ∧
      inner.1.Spells ["tag"] (relativePath false 1 ["helpers", "tag"]) ∧ (∀ n ∈ ["helpers", "tag"], n ∉ placeWords) ∧
      m.candidates inner.1 ⟨false, ["tag"]⟩ = ["crate::a::helpers::tag"] := by
  intro text
  obtain ⟨m, u, built, units, computed⟩ : ∃ m u, Model.ofText? text = some m ∧ m.program.units = [u] ∧
      ((Scope.ofUnit u).descend? u.parsed.file.items ["a", "b"]).any (fun inner =>
        inner.1.modulePath == ["a", "b"] && inner.1.named "tag" == [⟨"tag", ["super", "helpers", "tag"], false⟩]) = true :=
    Model.exists_of_ofText? (by decide +kernel)
  obtain ⟨inner, entered, computed⟩ := (Option.any_eq_true _ _).mp computed
  simp only [Bool.and_eq_true, beq_iff_eq] at computed
  obtain ⟨modulePath, bound⟩ := computed
  have name : "tag" ∉ placeWords := by decide
  have spells : inner.1.Spells ["tag"] (relativePath false 1 ["helpers", "tag"]) :=
    .imported name (bound ▸ List.mem_singleton_self _)
  have plain : ∀ n ∈ ["helpers", "tag"], n ∉ placeWords := by decide
  obtain ⟨-, one, leads, -, -⟩ := candidates_relative (m := m) spells (List.cons_ne_nil _ _) plain
  refine ⟨m, u, inner, built, units, entered, spells, plain, ?_⟩
  rw [one fun path spells' => spells'.eq_of_named name bound, leads.mpr ⟨nofun, nofun⟩, modulePath]
  rfl

/-- The same import with `self` before it leads nowhere. -/
theorem not_candidates_superBehindSelf :
    let text := "mod a \x7b\nmod b \x7b\nuse self::super::helpers::tag;\n\x7d\n\x7d\n"
    ∃ m u inner, Model.ofText? text = some m ∧ m.program.units = [u] ∧
      (Scope.ofUnit u).descend? u.parsed.file.items ["a", "b"] = some inner ∧ inner.1.modulePath = ["a", "b"] ∧
      inner.1.Spells ["tag"] (relativePath true 1 ["helpers", "tag"]) ∧
      m.candidates inner.1 ⟨false, ["tag"]⟩ = ["crate::a::b::super::helpers::tag"] := by
  intro text
  obtain ⟨m, u, built, units, computed⟩ : ∃ m u, Model.ofText? text = some m ∧ m.program.units = [u] ∧
      ((Scope.ofUnit u).descend? u.parsed.file.items ["a", "b"]).any (fun inner => inner.1.modulePath == ["a", "b"] &&
        inner.1.named "tag" == [⟨"tag", ["self", "super", "helpers", "tag"], false⟩] &&
        m.candidates inner.1 ⟨false, ["tag"]⟩ == ["crate::a::b::super::helpers::tag"]) = true :=
    Model.exists_of_ofText? (by decide +kernel)
  obtain ⟨inner, entered, computed⟩ := (Option.any_eq_true _ _).mp computed
  simp only [Bool.and_eq_true, beq_iff_eq] at computed
  obtain ⟨⟨modulePath, bound⟩, found⟩ := computed
  have spells : inner.1.Spells ["tag"] (relativePath true 1 ["helpers", "tag"]) :=
    .imported (by decide) (bound ▸ List.mem_singleton_self _)
  exact ⟨m, u, inner, built, units, entered, modulePath, spells, found⟩

end Model

end SourceGen
