import SourceGen.Proofs.Program.Edits

/-!
# The modules of a program

The modules of a program are its files and the inline modules that are reached from them through inline modules. What a
fragment takes along is a matter of the one module that declares it: the path, the imports and the carried attributes of
that module (`Fragment.exists_mem_ofModel_iff`). Modules around it have no say.
-/

namespace SourceGen

/-- A file, or an inline module. -/
structure SourceModule where
  /-- The path from the root of the crate. -/
  path : List String
  /-- The attributes, outer ones of an inline module among them. -/
  attrs : List Attr
  items : List Item

mutual

/-- An item as a module, and the modules in it, if the item stands in the module at a path. -/
def Item.modules (path : List String) : Item → List SourceModule
  | .mk attrs _ (.module _ name (some items)) =>
    ⟨path ++ [name], attrs, items⟩ :: Item.modulesAll (path ++ [name]) items
  | _other => []

/-- The modules in items of the module at a path. -/
def Item.modulesAll (path : List String) : List Item → List SourceModule
  | [] => []
  | i :: is => i.modules path ++ Item.modulesAll path is

end

/-- A file and the modules in it, if the file defines the module at a path. -/
def SourceFile.modules (f : SourceFile) (path : List String) : List SourceModule :=
  ⟨path, f.attrs, f.items⟩ :: Item.modulesAll path f.items

/-- The modules of a unit. -/
def SourceUnit.modules (u : SourceUnit) : List SourceModule := u.parsed.file.modules u.modulePath

/-- The modules of a program. -/
def Program.modules (p : Program) : List SourceModule := p.units.flatMap SourceUnit.modules

/-- The model of a program of one unit, unless the text cannot be parsed or its markers are unknown. -/
def Model.ofText? (text : String) : Option Model :=
  (((ProgramBuilder.new "host" "/sdk").unit "src/lib.rs" text).build.toOption).bind fun p =>
    (Model.ofProgram p).toOption

/-- What is computed of a model of one unit. -/
lemma Model.exists_of_any {model : Option Model} {holds : Model → SourceUnit → Bool}
    (computed : model.any (fun m => m.program.units.length = 1 && m.program.units.all (holds m)) = true) :
    ∃ m u, model = some m ∧ m.program.units = [u] ∧ holds m u = true := by
  obtain ⟨m, built, computed⟩ := (Option.any_eq_true _ _).mp computed
  rw [Bool.and_eq_true, decide_eq_true_eq] at computed
  obtain ⟨u, units⟩ := List.length_eq_one_iff.mp computed.1
  exact ⟨m, u, built, units, List.all_eq_true.mp computed.2 u (units ▸ List.mem_singleton_self u)⟩

/-- What is computed of the one unit of a text. -/
lemma Model.exists_of_ofText? {text : String} {holds : Model → SourceUnit → Bool}
    (computed : (Model.ofText? text).any
      (fun m => m.program.units.length = 1 && m.program.units.all (holds m)) = true) :
    ∃ m u, Model.ofText? text = some m ∧ m.program.units = [u] ∧ holds m u = true :=
  exists_of_any computed

lemma Model.ofProgram_of_toOption {program : Option Program} {m : Model}
    (built : (program.bind fun p => (Model.ofProgram p).toOption) = some m) :
    Model.ofProgram m.program = .ok m := by
  obtain ⟨p, -, ofProgram⟩ := Option.bind_eq_some_iff.mp built
  have ofProgram := ok_of_toOption ofProgram
  rwa [Model.program_of_ofProgram ofProgram]

lemma Model.ofProgram_of_ofText? {text : String} {m : Model} (built : Model.ofText? text = some m) :
    Model.ofProgram m.program = .ok m :=
  ofProgram_of_toOption built

lemma Model.build_of_ofText? {text : String} {m : Model} (built : Model.ofText? text = some m) :
    ((ProgramBuilder.new "host" "/sdk").unit "src/lib.rs" text).build = .ok m.program := by
  obtain ⟨p, parsed, ofProgram⟩ := Option.bind_eq_some_iff.mp built
  rw [ok_of_toOption parsed, Model.program_of_ofProgram (ok_of_toOption ofProgram)]

namespace SourceModule

/-- The imports of a module. -/
def imports (M : SourceModule) : List Item := (M.items.map Item.printed).filter Item.isImport

/-- The attributes of a module that its fragments carry along. -/
def carried (M : SourceModule) : List Attr := carriedAttributes M.path.isEmpty (M.attrs.map Attr.printed)

/-- Whether a type is marked that the module declares itself. -/
def hasMarked (M : SourceModule) (m : Model) : Bool := M.items.any (m.isMarked M.path M.items)

/-- The fragments that a module declares itself. -/
def fragments (M : SourceModule) (m : Model) (unit : Nat) (unitPath : String) : List Fragment :=
  M.items.filterMap fun i =>
    Fragment.ofItem? m unit unitPath (.ofItems M.path (M.items.map Item.printed) M.carried) (M.items.map Item.printed)
      i.printed

/-- Whether a module is another one or around it. -/
def Encloses (M N : SourceModule) : Prop := N = M ∨ N ∈ Item.modulesAll M.path M.items

end SourceModule

/-! ### Paths of modules -/

/-- A module in another one has a longer path. -/
lemma Item.path_of_mem_modulesAll : ∀ (path : List String) (is : List Item), ∀ N ∈ Item.modulesAll path is,
    ∃ step rest, N.path = path ++ step :: rest := by
  refine Item.modulesAll.induct (fun path i => ∀ N ∈ i.modules path, ∃ step rest, N.path = path ++ step :: rest) _
    ?_ ?_ ?_ ?_
  case refine_1 =>
    intro path attrs vis isUnsafe name items ih N there
    rw [Item.modules] at there
    cases List.mem_cons.mp there with
    | inl eq => exact ⟨name, [], by rw [eq]⟩
    | inr inner =>
      obtain ⟨step, rest, eq⟩ := ih N inner
      exact ⟨name, step :: rest, by rw [eq, List.append_assoc, List.singleton_append]⟩
  case refine_2 =>
    intro i path other N there
    rw [Item.modules.eq_2 _ _ other] at there
    exact absurd there List.not_mem_nil
  case refine_3 => exact fun _ _ there => absurd there List.not_mem_nil
  case refine_4 =>
    intro path i is ih ihs N there
    rw [Item.modulesAll] at there
    exact (List.mem_append.mp there).elim (ih N) (ihs N)

namespace SourceModule

lemma Encloses.path {M N : SourceModule} (around : M.Encloses N) : M.path <+: N.path := by
  cases around with
  | inl eq => exact eq ▸ List.prefix_refl _
  | inr inside =>
    obtain ⟨step, rest, eq⟩ := Item.path_of_mem_modulesAll _ _ _ inside
    exact eq ▸ List.prefix_append _ _

end SourceModule

/-- Only a file can be the root of a crate. -/
lemma SourceUnit.eq_of_path_nil {u : SourceUnit} {M : SourceModule} (there : M ∈ u.modules) (root : M.path = []) :
    u.modulePath = [] ∧ M = ⟨[], u.parsed.file.attrs, u.parsed.file.items⟩ := by
  cases List.mem_cons.mp there with
  | inl eq =>
    subst eq
    change u.modulePath = [] at root
    exact ⟨root, by rw [root]⟩
  | inr inside =>
    obtain ⟨step, rest, eq⟩ := Item.path_of_mem_modulesAll _ _ _ inside
    rw [root] at eq
    exact absurd eq.symm (List.append_ne_nil_of_right_ne_nil _ (List.cons_ne_nil step rest))

namespace Fragment

variable {m : Model} {unit : Nat} {unitPath : String}

/-! ### Fragments by modules -/

/-- The fragments of items in a row are those of the items themselves and those of the modules in them. -/
lemma belowAll_perm : ∀ (path : List String) (is items siblings : List Item) (innerAttrs : List Attr),
    (belowAll m unit unitPath (.ofItems path (items.map Item.printed) innerAttrs) siblings (is.map Item.printed)).Perm
      ((is.filterMap fun i => ofItem? m unit unitPath (.ofItems path (items.map Item.printed) innerAttrs) siblings
        i.printed) ++ (Item.modulesAll path is).flatMap fun M => M.fragments m unit unitPath) := by
  refine Item.modulesAll.induct
    (fun path i => ∀ (items siblings : List Item) (innerAttrs : List Attr),
      (below m unit unitPath (.ofItems path (items.map Item.printed) innerAttrs) siblings i.printed).Perm
        ((ofItem? m unit unitPath (.ofItems path (items.map Item.printed) innerAttrs) siblings i.printed).toList ++
          (i.modules path).flatMap fun M => M.fragments m unit unitPath))
    _ ?_ ?_ ?_ ?_
  case refine_1 =>
    -- a module is no type; its fragments are those of its own items and those of the modules in it
    intro path attrs vis isUnsafe name inner ih items siblings innerAttrs
    let M : SourceModule := ⟨path ++ [name], attrs, inner⟩
    have carried : M.carried = carriedAttributes false (attrs.map Attr.printed) := by
      rw [SourceModule.carried, List.isEmpty_eq_false_iff.mpr (List.append_ne_nil_of_right_ne_nil _ (by simp))]
    have notType : ofItem? m unit unitPath (.ofItems path (items.map Item.printed) innerAttrs) siblings
        (Item.mk attrs vis (.module isUnsafe name (some inner))).printed = none := rfl
    rw [notType, Item.printed, Decl.printed, below_module, ofItems, Item.printedEach_eq_map, Attr.printedEach_eq_map,
      Item.modules, List.flatMap_cons, SourceModule.fragments, carried]
    exact ih _ _ _
  case refine_2 =>
    intro i path other items siblings innerAttrs
    rw [below_of_not_module other, Item.modules.eq_2 _ _ other, List.flatMap_nil, List.append_nil]
  case refine_3 => exact fun _ _ _ _ => .nil
  case refine_4 =>
    intro path i is ih ihs items siblings innerAttrs
    rw [List.map_cons, belowAll, Item.modulesAll, List.filterMap_eq_flatMap_toList, List.flatMap_cons,
      List.flatMap_append, List.append_assoc]
    refine ((ih _ _ _).append (ihs _ _ _)).trans ?_
    rw [List.append_assoc, List.filterMap_eq_flatMap_toList]
    exact (List.perm_append_comm_assoc _ _ _).append_left _

/-- The fragments of a unit are those of its modules. -/
lemma ofUnit_perm (m : Model) (unit : Nat) (u : SourceUnit) :
    (ofUnit m unit u).Perm (u.modules.flatMap fun M => M.fragments m unit u.path) := by
  rw [ofUnit_eq, ofItems, SourceUnit.modules, SourceFile.modules, List.flatMap_cons]
  exact belowAll_perm _ _ _ _ _

lemma mem_ofUnit_iff {u : SourceUnit} {f : Fragment} :
    f ∈ ofUnit m unit u ↔ ∃ M ∈ u.modules, f ∈ M.fragments m unit u.path := by
  rw [(ofUnit_perm m unit u).mem_iff, List.mem_flatMap]

/-- What a fragment takes along is what its module has. -/
lemma spec_of_mem_fragments {M : SourceModule} {f : Fragment} (there : f ∈ M.fragments m unit unitPath) :
    M.hasMarked m = true ∧ f.modulePath = M.path ∧ f.imports = M.imports ∧ f.innerAttrs = M.carried := by
  obtain ⟨i, hi, taken⟩ := List.mem_filterMap.mp there
  refine ⟨List.any_eq_true.mpr ⟨i, hi, (isMarked_of_ofItem? taken).1⟩, ?_⟩
  obtain ⟨_, _, _, _, _, -, -, rfl⟩ := exists_of_ofItem? taken
  exact ⟨rfl, rfl, rfl⟩

lemma exists_mem_fragments {M : SourceModule} (marked : M.hasMarked m = true) :
    ∃ f, f ∈ M.fragments m unit unitPath := by
  obtain ⟨i, hi, marked⟩ := List.any_eq_true.mp marked
  obtain ⟨f, taken⟩ := Option.isSome_iff_exists.mp (isSome_ofItem?_iff.mpr marked)
  exact ⟨f, List.mem_filterMap.mpr ⟨i, hi, taken⟩⟩

/-- What the fragments of a program take along is what the modules with a marked type of their own have. -/
lemma exists_mem_ofModel_iff (P : List String → List Item → List Attr → Prop) :
    (∃ f ∈ ofModel m, P f.modulePath f.imports f.innerAttrs) ↔
      ∃ M ∈ m.program.modules, M.hasMarked m = true ∧ P M.path M.imports M.carried := by
  constructor
  · rintro ⟨f, hf, holds⟩
    obtain ⟨⟨u, index⟩, hu, hf⟩ := List.mem_flatMap.mp hf
    obtain ⟨M, hM, hf⟩ := mem_ofUnit_iff.mp hf
    obtain ⟨marked, path, imports, attrs⟩ := spec_of_mem_fragments hf
    rw [path, imports, attrs] at holds
    exact ⟨M, List.mem_flatMap.mpr ⟨u, List.fst_mem_of_mem_zipIdx hu, hM⟩, marked, holds⟩
  · rintro ⟨M, hM, marked, holds⟩
    obtain ⟨u, hu, hM⟩ := List.mem_flatMap.mp hM
    obtain ⟨index, there⟩ := List.mem_iff_getElem?.mp hu
    obtain ⟨f, hf⟩ := exists_mem_fragments (m := m) marked
    obtain ⟨-, path, imports, attrs⟩ := spec_of_mem_fragments hf
    rw [← path, ← imports, ← attrs] at holds
    refine ⟨f, List.mem_flatMap.mpr ⟨(u, index), List.mem_zipIdx_iff_getElem?.mpr there, ?_⟩, holds⟩
    exact mem_ofUnit_iff.mpr ⟨M, hM, hf⟩

end Fragment

end SourceGen
