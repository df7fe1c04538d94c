import Mathlib.Data.List.TakeWhile
import Mathlib.Data.String.Basic
import SourceGen.Disk
import SourceGen.Proofs.Program.Files

/-!
# Paths in directories

A name is put behind the path of a directory with a slash between them (`SourcePath.join_eq`), so it is the last
component of the path (`SourcePath.parts_join`). A file is a source file if its name is `.rs` behind something
(`SourcePath.extension?_eq_rs_iff`).
-/

namespace SourceGen

open SourceGen.Text

namespace SourcePath

/-- A name that a file can have. -/
structure IsFileName (s : String) : Prop extends IsComponent s where
  noNul : '\x00' ∉ s.toList

instance : DecidablePred IsFileName := fun s =>
  decidable_of_iff ((s ≠ "" ∧ s ≠ "." ∧ s ≠ ".." ∧ '/' ∉ s.toList) ∧ '\x00' ∉ s.toList)
    ⟨fun ⟨⟨nonempty, notHere, notUp, noSeparator⟩, noNul⟩ => ⟨⟨nonempty, notHere, notUp, noSeparator⟩, noNul⟩,
      fun ⟨⟨nonempty, notHere, notUp, noSeparator⟩, noNul⟩ => ⟨⟨nonempty, notHere, notUp, noSeparator⟩, noNul⟩⟩

/-- Whether a path ends in something else than a slash. -/
def EndsInName (path : String) : Prop := ∃ front c, path.toList = front ++ [c] ∧ c ≠ '/'

lemma IsComponent.endsInName_append {s : String} (h : IsComponent s) (front : String) : EndsInName (front ++ s) := by
  have some_there : s.toList ≠ [] := mt String.toList_eq_nil_iff.mp h.nonempty
  refine ⟨front.toList ++ s.toList.dropLast, s.toList.getLast some_there, ?_, fun eq => ?_⟩
  · rw [String.toList_append, List.append_assoc, List.dropLast_concat_getLast]
  · exact h.noSeparator (eq ▸ List.getLast_mem some_there)

lemma EndsInName.ne_empty {path : String} (h : EndsInName path) : path ≠ "" := by
  rintro rfl
  obtain ⟨front, c, eq, -⟩ := h
  simp at eq

lemma EndsInName.endsWith_eq_false {path : String} (h : EndsInName path) : path.endsWith "/" = false := by
  obtain ⟨front, c, eq, ne⟩ := h
  rw [← String.endsWith_toSlice, String.Slice.endsWith_string_eq_false_iff, String.copy_toSlice, eq]
  rintro ⟨before, slash⟩
  exact ne (List.append_singleton_inj.mp slash).2.symm

lemma IsComponent.startsWith_eq_false {s : String} (h : IsComponent s) : s.startsWith "/" = false := by
  rw [String.startsWith_string_eq_false_iff]
  exact fun slash => h.noSeparator (slash.subset (by decide))

/-- A name is put behind the path of a directory with a slash between them. -/
lemma join_eq {directory name : String} (h : EndsInName directory) (hn : IsComponent name) :
    join directory name = directory ++ "/" ++ name := by
  simp [join, hn.startsWith_eq_false, h.ne_empty, h.endsWith_eq_false]

/-- A path that ends with a name ends in something else than a slash. -/
lemma endsInName_join (directory : String) {name : String} (hn : IsComponent name) :
    EndsInName (join directory name) := by
  rw [join, hn.startsWith_eq_false]
  split
  case isTrue eq => cases eq
  case isFalse =>
    split
    case isTrue => exact hn.endsInName_append _
    case isFalse => exact hn.endsInName_append _

lemma splitText_slash {directory name : String} (hn : IsComponent name) :
    splitText '/' (directory ++ "/" ++ name) = splitText '/' directory ++ [name] := by
  have chars : (directory ++ "/" ++ name).toList = directory.toList ++ '/' :: name.toList := by simp
  rw [splitText, splitText, chars, split_eq_splitOn, split_eq_splitOn, List.splitOn_append_cons_self,
    List.splitOn_eq_singleton hn.noSeparator]
  simp

/-- What a path starts with is told by its first segment, and by whether another one follows. -/
lemma parts_eq {path s : String} {rest : List String} (segments : splitText '/' path = s :: rest) :
    parts path = (if s = "" then (if rest = [] then [] else [.root]) else if s = "." then [.here]
      else (part? s).toList) ++ rest.filterMap part? := by
  rw [parts, segments]
  split
  case h_1 eq =>
    obtain ⟨rfl, rfl⟩ := List.cons.inj eq
    simp
  case h_2 eq =>
    obtain ⟨rfl, rfl⟩ := List.cons.inj eq
    simp
  case h_3 notEmpty notHere =>
    rw [if_neg fun eq => notEmpty rest (by rw [eq]), if_neg fun eq => notHere rest (by rw [eq])]
    cases part : part? s <;> simp [part]

/-- A name that is put behind the path of a directory is a component behind those of the path. -/
lemma parts_join {directory name : String} (h : EndsInName directory) (hn : IsComponent name) :
    parts (join directory name) = parts directory ++ [.name name] := by
  have some_there : splitText '/' directory ≠ [] := by
    rw [splitText, split_eq_splitOn]
    exact mt List.map_eq_nil_iff.mp (List.splitOn_ne_nil _ _)
  obtain ⟨s, rest, segments⟩ := List.exists_cons_of_ne_nil some_there
  -- a single empty segment would be the empty path
  have more : s = "" → rest ≠ [] := by
    rintro rfl rfl
    rw [splitText, split_eq_splitOn, List.map_eq_singleton_iff] at segments
    obtain ⟨cs, single, empty⟩ := segments
    obtain rfl : cs = [] := String.ofList_injective empty
    have joined : ['/'].intercalate (directory.toList.splitOn '/') = directory.toList := List.intercalate_splitOn '/'
    rw [single] at joined
    exact h.ne_empty (String.toList_eq_nil_iff.mp joined.symm)
  have segments' : splitText '/' (join directory name) = s :: (rest ++ [name]) := by
    rw [join_eq h hn, splitText_slash hn, segments, List.cons_append]
  rw [parts_eq segments, parts_eq segments', List.filterMap_append, ← List.append_assoc]
  have last : [name].filterMap part? = [.name name] := by simp [hn.part?]
  rw [last]
  by_cases empty : s = ""
  · simp [empty, more empty]
  · simp [empty]

/-- A path below a directory leads to what its last name says. -/
lemma endsOpen_join {directory name : String} (h : EndsInName directory) (hn : IsComponent name) :
    Disk.endsOpen (join directory name) = false := by
  rw [join_eq h hn, Disk.endsOpen, splitText_slash hn, List.reverse_append]
  cases (splitText '/' directory).reverse with
  | nil => rfl
  | cons s rest => simp [hn.nonempty, hn.notHere]

/-- Names that are put behind a path one by one make a relative path. -/
lemma foldl_join {first : String} (h : EndsInName first) {names : List String}
    (components : ∀ s ∈ names, IsComponent s) : names.foldl join first = relative (first :: names) := by
  induction names generalizing first with
  | nil => rfl
  | cons name names ih =>
    obtain ⟨component, components⟩ := List.forall_mem_cons.mp components
    rw [List.foldl_cons, ih (endsInName_join first component) components, join_eq h component]
    rfl

/-- A name is taken apart at its last point. -/
lemma splitExtension_eq_some_iff {cs stem extension : List Char} :
    splitExtension cs = some (stem, extension) ↔ cs = stem ++ '.' :: extension ∧ '.' ∉ extension := by
  constructor
  · intro h
    have join := List.takeWhile_append_dropWhile (p := (· ≠ '.')) (l := cs.reverse)
    have point := List.head?_dropWhile_not (· ≠ '.') cs.reverse
    rw [splitExtension] at h
    split at h
    case h_1 => cases h
    case h_2 c rest behind =>
      cases h
      rw [behind] at join point
      obtain rfl : c = '.' := by simpa using point
      refine ⟨?_, fun there => ?_⟩
      · generalize cs.reverse.takeWhile (· ≠ '.') = front at join ⊢
        rw [← List.reverse_inj, ← join]
        simp
      · have notPoint := List.mem_takeWhile_imp (List.mem_reverse.mp there)
        exact of_decide_eq_true notPoint rfl
  · rintro ⟨rfl, free⟩
    have notPoint : ∀ c ∈ extension.reverse, (decide (c ≠ '.')) = true := fun c there =>
      decide_eq_true fun eq => free (eq ▸ List.mem_reverse.mp there)
    simp only [splitExtension, List.reverse_append, List.reverse_cons, List.append_assoc, List.singleton_append,
      List.dropWhile_append_of_pos notPoint, List.takeWhile_append_of_pos notPoint]
    simp

/-- A source file has a name that is `.rs` behind something. -/
lemma extension?_eq_rs_iff {name : String} (hn : IsComponent name) :
    extension? name = some "rs" ↔ ∃ stem, stem ≠ "" ∧ name = stem ++ ".rs" := by
  have alone : parts name = [.name name] := parts_relative (List.cons_ne_nil name []) (List.forall_mem_singleton.mpr hn)
  have last : fileName? name = some name := by rw [fileName?, alone]; rfl
  rw [extension?, last, Option.bind_some]
  constructor
  · intro h
    split at h
    case h_1 stem extension apart =>
      obtain ⟨chars, -⟩ := splitExtension_eq_some_iff.mp apart
      split at h
      case isTrue => cases h
      case isFalse some_there =>
        have rs : extension = "rs".toList := by rw [← Option.some.inj h, String.toList_ofList]
        refine ⟨String.ofList stem, fun empty => some_there ?_, String.toList_inj.mp ?_⟩
        · rw [String.ofList_eq_empty_iff.mp empty]
          rfl
        · rw [chars, String.toList_append, String.toList_ofList, rs]
          rfl
    case h_2 => cases h
  · rintro ⟨stem, some_there, rfl⟩
    have apart : splitExtension (stem ++ ".rs").toList = some (stem.toList, "rs".toList) :=
      splitExtension_eq_some_iff.mpr ⟨String.toList_append, by decide⟩
    have nonempty : stem.toList.isEmpty = false :=
      List.isEmpty_eq_false_iff.mpr (mt String.toList_eq_nil_iff.mp some_there)
    rw [apart]
    dsimp only
    rw [nonempty]
    rfl

end SourcePath

end SourceGen
