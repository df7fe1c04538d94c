import Mathlib.Data.List.Forall2
import Mathlib.Data.List.Nodup
import SourceGen.Proofs.Program.Paths

/-!
# What paths lead to

The order of entries is of no matter to a path: on a disk whose directories list their entries in another order it leads
to the same (`Disk.Reordered.find`), through links, too. Below the path of a directory that is a tree, names lead to what
the tree holds under them (`Disk.IsTree.find_foldl_join`).
-/

namespace SourceGen

namespace Disk

open SourcePath

variable {d d' : Disk} {entries entries' : List (String × DiskEntry)}

/-! ### The order of entries -/

/-- Whether directories differ only in the order of entries, their own and those of directories in them. Entries of one
name stay in their order. -/
inductive Reordered : List (String × DiskEntry) → List (String × DiskEntry) → Prop
  | nil : Reordered [] []
  | cons {entries entries' : List (String × DiskEntry)} (e : String × DiskEntry) :
    Reordered entries entries' → Reordered (e :: entries) (e :: entries')
  | inside {below below' entries entries' : List (String × DiskEntry)} (name : String) :
    Reordered below below' → Reordered entries entries' →
      Reordered ((name, .directory below) :: entries) ((name, .directory below') :: entries')
  | swap {e f : String × DiskEntry} (entries : List (String × DiskEntry)) :
    e.1 ≠ f.1 → Reordered (e :: f :: entries) (f :: e :: entries)
  | trans {entries entries' entries'' : List (String × DiskEntry)} :
    Reordered entries entries' → Reordered entries' entries'' → Reordered entries entries''

lemma Reordered.refl (entries : List (String × DiskEntry)) : Reordered entries entries := by
  induction entries with
  | nil => exact .nil
  | cons e entries ih => exact .cons e ih

/-- Entries of different names can come in any order. -/
lemma Reordered.of_perm (distinct : (entries.map (·.1)).Nodup) (perm : entries.Perm entries') :
    Reordered entries entries' := by
  induction perm with
  | nil => exact .nil
  | cons e _ ih => exact .cons e (ih (List.nodup_cons.mp distinct).2)
  | swap e f entries =>
    refine .swap entries fun eq => ?_
    simp [eq] at distinct
  | trans perm _ ih ih' => exact .trans (ih distinct) (ih' ((perm.map _).nodup_iff.mp distinct))

/-- Whether entries are the same but for the order of entries below them. -/
inductive SameEntry : DiskEntry → DiskEntry → Prop
  | refl (e : DiskEntry) : SameEntry e e
  | directory {below below' : List (String × DiskEntry)} :
    Reordered below below' → SameEntry (.directory below) (.directory below')

lemma SameEntry.trans {e e' e'' : DiskEntry} (h : SameEntry e e') (h' : SameEntry e' e'') : SameEntry e e'' := by
  cases h with
  | refl => exact h'
  | directory below =>
    cases h' with
    | refl => exact .directory below
    | directory below' => exact .directory (below.trans below')

/-- Whether paths lead to the same but for the order of entries. -/
inductive SameFound : Except SystemError DiskNode → Except SystemError DiskNode → Prop
  | error (e : SystemError) : SameFound (.error e) (.error e)
  | file (content : List UInt8) : SameFound (.ok (.file content)) (.ok (.file content))
  | directory {entries entries' : List (String × DiskEntry)} :
    Reordered entries entries' → SameFound (.ok (.directory entries)) (.ok (.directory entries'))

lemma entry?_cons (e : String × DiskEntry) (name : String) :
    entry? (e :: entries) name = if e.1 = name then some e.2 else entry? entries name := by
  by_cases here : e.1 = name <;> simp [here, entry?]

namespace Reordered

/-- A name stands for the same entry in any order. -/
lemma lookup (h : Reordered entries entries') (name : String) :
    Option.Rel SameEntry ( entry? entries name) ( entry? entries' name) := by
  induction h with
  | nil => exact .none
  | cons e _ ih =>
    rw [entry?_cons, entry?_cons]
    split
    case isTrue => exact .some (.refl _)
    case isFalse => exact ih
  | inside name' below _ _ ih =>
    rw [entry?_cons, entry?_cons]
    split
    case isTrue => exact .some (.directory below)
    case isFalse => exact ih
  | @swap e f entries ne =>
    have same : entry? (e :: f :: entries) name = entry? (f :: e :: entries) name := by
      simp only [entry?_cons]
      by_cases here : e.1 = name
      · have other : f.1 ≠ name := fun eq => ne (here.trans eq.symm)
        rw [if_pos here, if_neg other, if_pos here]
      · rw [if_neg here, if_neg here]
    rw [same]
    cases entry? (f :: e :: entries) name with
    | none => exact .none
    | some found => exact .some (.refl found)
  | @trans entries entries' entries'' _ _ ih ih' =>
    generalize entry? entries name = first at ih
    generalize entry? entries' name = second at ih ih'
    generalize entry? entries'' name = third at ih'
    cases ih with
    | none => exact ih'
    | some same =>
      cases ih' with
      | some same' => exact .some (same.trans same')

lemma entry?_eq_none (h : Reordered entries entries') {name : String} (absent : entry? entries name = none) :
    entry? entries' name = none := by
  have same := h.lookup name
  rw [absent] at same
  generalize entry? entries' name = found at same
  cases same
  rfl

lemma entry?_eq_some (h : Reordered entries entries') {name : String} {e : DiskEntry}
    (there : entry? entries name = some e) : ∃ e', entry? entries' name = some e' ∧ SameEntry e e' := by
  have same := h.lookup name
  rw [there] at same
  generalize entry? entries' name = found at same
  cases same with
  | some same => exact ⟨_, rfl, same⟩

lemma map_name (h : Reordered entries entries') : (entries.map (·.1)).Perm (entries'.map (·.1)) := by
  induction h with
  | nil => exact .nil
  | cons _ _ ih => exact .cons _ ih
  | inside name _ _ _ ih => exact .cons name ih
  | swap entries _ => exact .swap _ _ _
  | trans _ _ ih ih' => exact ih.trans ih'

lemma sizeAll (h : Reordered entries entries') : DiskEntry.sizeAll entries = DiskEntry.sizeAll entries' := by
  induction h with
  | nil => rfl
  | cons _ _ ih => rw [DiskEntry.sizeAll, DiskEntry.sizeAll, ih]
  | inside _ _ _ ih ih' => simp only [DiskEntry.sizeAll, DiskEntry.size, ih, ih']
  | swap entries _ => simp only [DiskEntry.sizeAll]; omega
  | trans _ _ ih ih' => exact ih.trans ih'

/-- A path leads to the same, whatever the order of entries. -/
lemma follow (h : Reordered d d') (links : Nat) (current : List (String × DiskEntry))
    (outer : List (List (String × DiskEntry))) (path : List PathPart) {current' : List (String × DiskEntry)}
    {outer' : List (List (String × DiskEntry))} (hc : Reordered current current')
    (ho : List.Forall₂ Reordered outer outer') :
    SameFound (Disk.follow d links current outer path) (Disk.follow d' links current' outer' path) := by
  -- one case for each step of the lookup; the order could only count where a name is looked up
  fun_induction Disk.follow d links current outer path generalizing current' outer' with
  | case1 links current outer =>
    rw [Disk.follow]
    exact .directory hc
  | case2 links current outer rest ih =>
    rw [Disk.follow]
    exact ih h .nil
  | case3 links current outer rest ih =>
    rw [Disk.follow]
    exact ih hc ho
  | case4 links current rest ih =>
    cases ho
    rw [Disk.follow]
    exact ih hc .nil
  | case5 links current rest parent outer ih =>
    cases ho with
    | cons hp ho =>
      rw [Disk.follow]
      exact ih hp ho
  | case6 links current outer name rest absent =>
    rw [Disk.follow, hc.entry?_eq_none absent]
    exact .error _
  | case7 links current outer name rest below there ih =>
    obtain ⟨e', there', same⟩ := hc.entry?_eq_some there
    rw [Disk.follow, there']
    cases same with
    | refl => exact ih (.refl below) (.cons hc ho)
    | directory reordered => exact ih reordered (.cons hc ho)
  | case8 links current outer name rest content there last =>
    obtain ⟨e', there', same⟩ := hc.entry?_eq_some there
    cases same
    rw [Disk.follow, there']
    dsimp only
    rw [if_pos last]
    exact .file content
  | case9 links current outer name rest content there more =>
    obtain ⟨e', there', same⟩ := hc.entry?_eq_some there
    cases same
    rw [Disk.follow, there']
    dsimp only
    rw [if_neg more]
    exact .error _
  | case10 links current outer name rest target there few ih =>
    obtain ⟨e', there', same⟩ := hc.entry?_eq_some there
    cases same
    rw [Disk.follow, there']
    dsimp only
    rw [if_pos few]
    exact ih hc ho
  | case11 links current outer name rest target there many =>
    obtain ⟨e', there', same⟩ := hc.entry?_eq_some there
    cases same
    rw [Disk.follow, there']
    dsimp only
    rw [if_neg many]
    exact .error _

/-- What stands at a path is the same, whatever the order of entries. -/
lemma find (h : Reordered d d') (path : String) : SameFound (d.find path) (d'.find path) := by
  have same := h.follow 0 d [] (parts path) h .nil
  rw [Disk.find, Disk.find]
  split
  case isTrue => exact .error _
  case isFalse =>
    split
    case isTrue => exact .error _
    case isFalse =>
      split
      case isTrue => exact .error _
      case isFalse =>
        generalize Disk.follow d 0 d [] (parts path) = found at same ⊢
        generalize Disk.follow d' 0 d' [] (parts path) = found' at same ⊢
        cases same with
        | error e => exact .error e
        | directory reordered => exact .directory reordered
        | file content =>
          dsimp only
          split
          case isTrue => exact .error _
          case isFalse => exact .file content

lemma isDirectory_eq (h : Reordered d d') (path : String) : d.isDirectory path = d'.isDirectory path := by
  have same := h.find path
  rw [isDirectory, isDirectory]
  generalize d.find path = found at same ⊢
  generalize d'.find path = found' at same ⊢
  cases same <;> rfl

lemma isFile_eq (h : Reordered d d') (path : String) : d.isFile path = d'.isFile path := by
  have same := h.find path
  rw [isFile, isFile]
  generalize d.find path = found at same ⊢
  generalize d'.find path = found' at same ⊢
  cases same <;> rfl

lemma readText_eq (h : Reordered d d') (path : String) : d.readText path = d'.readText path := by
  have same := h.find path
  rw [readText, readText, read, read]
  generalize d.find path = found at same ⊢
  generalize d'.find path = found' at same ⊢
  cases same <;> rfl

/-- The names in a directory are the same ones. -/
lemma names_perm (h : Reordered d d') {path : String} {names : List String} (there : d.names path = .ok names) :
    ∃ names', d'.names path = .ok names' ∧ names.Perm names' := by
  have same := h.find path
  rw [Disk.names] at there ⊢
  generalize d.find path = found at same there
  generalize d'.find path = found' at same ⊢
  cases same with
  | error => cases there
  | file => cases there
  | directory reordered =>
    cases there
    exact ⟨_, rfl, reordered.map_name⟩

end Reordered

/-! ### Names behind paths -/

/-- What is behind a path that leads to a directory is looked for in the directory. -/
lemma follow_append {links : Nat} {current : List (String × DiskEntry)} {outer : List (List (String × DiskEntry))}
    {path : List PathPart} (there : follow d links current outer path = .ok (.directory entries)) :
    ∃ links' outer', ∀ rest,
      follow d links current outer (path ++ rest) = follow d links' entries outer' rest := by
  fun_induction follow d links current outer path with
  | case1 links current outer =>
    cases there
    exact ⟨links, outer, fun rest => rfl⟩
  | case2 links current outer path ih =>
    obtain ⟨links', outer', behind⟩ := ih there
    refine ⟨links', outer', fun rest => ?_⟩
    rw [List.cons_append, follow, behind]
  | case3 links current outer path ih =>
    obtain ⟨links', outer', behind⟩ := ih there
    refine ⟨links', outer', fun rest => ?_⟩
    rw [List.cons_append, follow, behind]
  | case4 links current path ih =>
    obtain ⟨links', outer', behind⟩ := ih there
    refine ⟨links', outer', fun rest => ?_⟩
    rw [List.cons_append, follow, behind]
  | case5 links current path parent outer ih =>
    obtain ⟨links', outer', behind⟩ := ih there
    refine ⟨links', outer', fun rest => ?_⟩
    rw [List.cons_append, follow, behind]
  | case6 => cases there
  | case7 links current outer name path below found ih =>
    obtain ⟨links', outer', behind⟩ := ih there
    refine ⟨links', outer', fun rest => ?_⟩
    rw [List.cons_append, follow, found]
    exact behind rest
  | case8 => cases there
  | case9 => cases there
  | case10 links current outer name path target found few ih =>
    -- the target of a link stands before what is behind the path
    obtain ⟨links', outer', behind⟩ := ih there
    refine ⟨links', outer', fun rest => ?_⟩
    rw [List.cons_append, follow, found]
    dsimp only
    rw [if_pos few, ← List.append_assoc, behind]
  | case11 => cases there

/-- A path stays among the directories that have a property of the disk and of directories in directories. -/
lemma of_follow {P : List (String × DiskEntry) → Prop} (whole : P d)
    (below : ∀ entries name es, P entries → entry? entries name = some (.directory es) → P es)
    {links : Nat} {current : List (String × DiskEntry)} {outer : List (List (String × DiskEntry))}
    {path : List PathPart} (hc : P current) (ho : ∀ o ∈ outer, P o)
    (there : follow d links current outer path = .ok (.directory entries)) : P entries := by
  fun_induction follow d links current outer path with
  | case1 =>
    cases there
    exact hc
  | case2 _ _ _ _ ih => exact ih whole (List.forall_mem_nil P) there
  | case3 _ _ _ _ ih => exact ih hc ho there
  | case4 _ _ _ ih => exact ih hc ho there
  | case5 _ _ _ _ _ ih =>
    obtain ⟨hp, ho⟩ := List.forall_mem_cons.mp ho
    exact ih hp ho there
  | case6 => cases there
  | case7 _ current _ name _ es found ih =>
    exact ih (below current name es hc found) (List.forall_mem_cons.mpr ⟨hc, ho⟩) there
  | case8 => cases there
  | case9 => cases there
  | case10 _ _ _ _ _ _ _ _ ih => exact ih hc ho there
  | case11 => cases there

lemma mem_of_entry {name : String} {e : DiskEntry} (there : entry? entries name = some e) : (name, e) ∈ entries := by
  obtain ⟨f, found, rfl⟩ := Option.map_eq_some_iff.mp there
  obtain rfl : f.1 = name := by simpa using List.find?_some found
  exact List.mem_of_find?_eq_some found

lemma size_le_of_mem {e : String × DiskEntry} (there : e ∈ entries) : e.2.size ≤ DiskEntry.sizeAll entries := by
  induction entries with
  | nil => cases there
  | cons f entries ih =>
    rw [DiskEntry.sizeAll]
    cases List.mem_cons.mp there with
    | inl eq => rw [eq]; omega
    | inr there =>
      have := ih there
      omega

lemma sizeAll_lt_of_mem {name : String} {es : List (String × DiskEntry)} (there : (name, .directory es) ∈ entries) :
    DiskEntry.sizeAll es < DiskEntry.sizeAll entries := by
  have whole := size_le_of_mem there
  rw [DiskEntry.size] at whole
  omega

/-- A path that leads to a directory can be followed, and holds no null character. -/
lemma follow_of_find {path : String} (there : d.find path = .ok (.directory entries)) :
    '\x00' ∉ path.toList ∧ follow d 0 d [] (parts path) = .ok (.directory entries) := by
  rw [find] at there
  split at there
  case isTrue => cases there
  case isFalse noNul =>
    split at there
    case isTrue => cases there
    case isFalse =>
      split at there
      case isTrue => cases there
      case isFalse =>
        refine ⟨by simpa using noNul, ?_⟩
        split at there
        case h_1 =>
          split at there
          case isTrue => cases there
          case isFalse => cases there
        case h_2 => exact there

/-- A directory on a disk is not larger than the disk. -/
lemma sizeAll_le_of_find {path : String} (there : d.find path = .ok (.directory entries)) :
    DiskEntry.sizeAll entries ≤ DiskEntry.sizeAll d := by
  refine of_follow (P := fun entries => DiskEntry.sizeAll entries ≤ DiskEntry.sizeAll d) le_rfl ?_ le_rfl
    (List.forall_mem_nil _) (follow_of_find there).2
  intro entries name es le found
  have lt := sizeAll_lt_of_mem (mem_of_entry found)
  omega

/-- A name behind the path of a directory is looked for in the directory. -/
lemma find_join {directory name : String} (there : d.find directory = .ok (.directory entries))
    (inName : EndsInName directory) (hn : IsFileName name)
    (fits : SystemError.exceedsPath (join directory name) = false) :
    ∃ links outer, d.find (join directory name) = follow d links entries outer [.name name] := by
  obtain ⟨noNul, followed⟩ := follow_of_find there
  obtain ⟨links, outer, behind⟩ := follow_append followed
  refine ⟨links, outer, ?_⟩
  have noNul' : (join directory name).toList.contains '\x00' = false := by
    rw [join_eq inName hn.toIsComponent]
    have := hn.noNul
    simp [noNul, this]
  have nonempty : join directory name ≠ "" := (endsInName_join directory hn.toIsComponent).ne_empty
  rw [find, noNul', fits, if_neg nonempty, parts_join inName hn.toIsComponent, behind,
    endsOpen_join inName hn.toIsComponent]
  generalize follow d links entries outer [.name name] = found
  cases found with
  | error e => rfl
  | ok node => cases node <;> rfl

/-! ### Trees -/

/-- Directories without links whose entries have different names, each one that a file can have. -/
inductive IsTree : List (String × DiskEntry) → Prop
  | intro {entries : List (String × DiskEntry)} (distinct : (entries.map (·.1)).Nodup)
    (names : ∀ e ∈ entries, IsFileName e.1) (noLinks : ∀ name target, (name, .link target) ∉ entries)
    (below : ∀ name es, (name, .directory es) ∈ entries → IsTree es) : IsTree entries

/-- Whether names lead from a directory to an entry. -/
inductive Holds : List (String × DiskEntry) → List String → DiskEntry → Prop
  | here {entries : List (String × DiskEntry)} {name : String} {e : DiskEntry} :
    (name, e) ∈ entries → Holds entries [name] e
  | inside {entries es : List (String × DiskEntry)} {name : String} {names : List String} {e : DiskEntry} :
    (name, .directory es) ∈ entries → Holds es names e → Holds entries (name :: names) e

/-- Whether the system takes the paths of all that is below the directory at a path. -/
def Fits (directory : String) (entries : List (String × DiskEntry)) : Prop :=
  ∀ names e, Holds entries names e → SystemError.exceedsPath (names.foldl join directory) = false

lemma entry?_eq_some_iff (distinct : (entries.map (·.1)).Nodup) {name : String} {e : DiskEntry} :
    entry? entries name = some e ↔ (name, e) ∈ entries := by
  refine ⟨mem_of_entry, fun there => ?_⟩
  induction entries with
  | nil => cases there
  | cons f entries ih =>
    obtain ⟨absent, distinct⟩ := List.nodup_cons.mp distinct
    rw [entry?_cons]
    cases List.mem_cons.mp there with
    | inl eq => rw [← eq, if_pos rfl]
    | inr there =>
      have ne : f.1 ≠ name := fun eq => absent (List.mem_map.mpr ⟨_, there, eq.symm⟩)
      rw [if_neg ne, ih distinct there]

lemma Holds.ne_nil {names : List String} {e : DiskEntry} (holds : Holds entries names e) : names ≠ [] := by
  cases holds <;> exact List.cons_ne_nil _ _

lemma Fits.below {directory name : String} {es : List (String × DiskEntry)} (fits : Fits directory entries)
    (there : (name, .directory es) ∈ entries) : Fits (join directory name) es :=
  fun names e holds => fits (name :: names) e (.inside there holds)

namespace IsTree

/-- A directory of files is a tree. -/
lemma of_files (distinct : (entries.map (·.1)).Nodup)
    (files : ∀ e ∈ entries, IsFileName e.1 ∧ ∃ content, e.2 = .file content) : IsTree entries := by
  refine .intro distinct (fun e member => (files e member).1) (fun name target member => ?_) fun name es member => ?_
  · obtain ⟨-, content, eq⟩ := files _ member
    cases eq
  · obtain ⟨-, content, eq⟩ := files _ member
    cases eq

variable {directory name : String} {es : List (String × DiskEntry)} {content : List UInt8}

lemma find_join_directory (tree : IsTree entries) (there : d.find directory = .ok (.directory entries))
    (inName : EndsInName directory) (fits : Fits directory entries) (member : (name, .directory es) ∈ entries) :
    d.find (join directory name) = .ok (.directory es) := by
  obtain ⟨distinct, names, -, -⟩ := tree
  obtain ⟨links, outer, found⟩ := find_join there inName (names _ member) (fits [name] _ (.here member))
  rw [found, follow, (entry?_eq_some_iff distinct).mpr member]
  dsimp only
  rw [follow]

lemma find_join_file (tree : IsTree entries) (there : d.find directory = .ok (.directory entries))
    (inName : EndsInName directory) (fits : Fits directory entries) (member : (name, .file content) ∈ entries) :
    d.find (join directory name) = .ok (.file content) := by
  obtain ⟨distinct, names, -, -⟩ := tree
  obtain ⟨links, outer, found⟩ := find_join there inName (names _ member) (fits [name] _ (.here member))
  rw [found, follow, (entry?_eq_some_iff distinct).mpr member]
  rfl

/-- A name behind the path of a directory leads to a file exactly if the directory has a file of that name. -/
lemma isFile_join_iff (tree : IsTree entries) (there : d.find directory = .ok (.directory entries))
    (inName : EndsInName directory) (fits : Fits directory entries) (hn : IsFileName name) :
    d.isFile (join directory name) = true ↔ ∃ content, (name, .file content) ∈ entries := by
  constructor
  · intro file
    cases long : SystemError.exceedsPath (join directory name) with
    | true =>
      have refused : ∃ e, d.find (join directory name) = .error e := by
        rw [find, long]
        split
        case isTrue => exact ⟨_, rfl⟩
        case isFalse => exact ⟨_, rfl⟩
      obtain ⟨e, refused⟩ := refused
      rw [isFile, refused] at file
      cases file
    | false =>
      obtain ⟨distinct, -, noLinks, -⟩ := tree
      obtain ⟨links, outer, found⟩ := find_join there inName hn long
      rw [isFile, found, follow] at file
      cases entry : entry? entries name with
      | none => simp [entry] at file
      | some e =>
        have member := mem_of_entry entry
        cases e with
        | file content => exact ⟨content, member⟩
        | link target => exact absurd member (noLinks name target)
        | directory es => simp [entry, follow] at file
  · rintro ⟨content, member⟩
    rw [isFile, tree.find_join_file there inName fits member]

/-- Names below the path of a directory lead to the files of the directory. -/
lemma find_foldl_join {names : List String} {e : DiskEntry} (holds : Holds entries names e) (file : e = .file content)
    (tree : IsTree entries) (there : d.find directory = .ok (.directory entries))
    (inName : EndsInName directory) (fits : Fits directory entries) :
    d.find (names.foldl join directory) = .ok (.file content) := by
  induction holds generalizing directory with
  | here member =>
    subst file
    exact tree.find_join_file there inName fits member
  | @inside entries es name names e member holds ih =>
    have there' := tree.find_join_directory there inName fits member
    obtain ⟨-, fileNames, -, below⟩ := tree
    exact ih file (below name es member) there' (endsInName_join directory (fileNames _ member).toIsComponent)
      (fits.below member)

lemma isFileName_of_holds {names : List String} {e : DiskEntry} (holds : Holds entries names e)
    (tree : IsTree entries) : ∀ s ∈ names, IsFileName s := by
  induction holds with
  | here member =>
    obtain ⟨-, fileNames, -, -⟩ := tree
    exact List.forall_mem_singleton.mpr (fileNames _ member)
  | inside member holds ih =>
    obtain ⟨-, fileNames, -, below⟩ := tree
    exact List.forall_mem_cons.mpr ⟨fileNames _ member, ih (below _ _ member)⟩

end IsTree

end Disk

end SourceGen
