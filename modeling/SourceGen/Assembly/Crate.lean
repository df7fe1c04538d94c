import SourceGen.Assembly.Module
import SourceGen.GlobalImports
import SourceGen.Layout.File
import SourceGen.Syntax.Build

/-!
# Generated crates

A generated crate rebuilds the modules that its fragments come from, so that declarations keep the relative
paths they were written with. Every module sees the global imports through a context module. A module with
offered types has a function that offers them; the entry point of the crate calls these functions in turn.
-/

namespace SourceGen

/-- Why a crate cannot be assembled. -/
inductive AssemblyFault
  | /-- A module cannot be declared under its name. -/
    moduleName (name : String)
  | /-- Some syntax that was kept as tokens has no layout. -/
    unformatted
deriving DecidableEq, Repr

/-- A generated crate. -/
structure AssembledCrate where
  /-- The formatted text. -/
  source : String
  /-- The paths of the offered types, in the order in which they are offered. -/
  probes : List String
deriving DecidableEq, Repr

namespace Assembly

open SourceGen.Text

/-- The module that holds the global imports. -/
def contextModule : String := "__microgen_context"

/-- The function that offers the types of a module. -/
def offerFunction : String := "__microgen_offer"

/-- The entry point that describes the crate. -/
def manifestEntryPoint : String := "microgen_module_manifest"

/-- The entry point that offers all types. -/
def discoverEntryPoint : String := "microgen_module_discover"

/-- The path of a name in the registry that generated crates talk to. -/
def registry (names : List String) : List String := [sdkCrate, "registry"] ++ names

/-- Words that cannot be written as identifiers, with a mark or without. -/
def neverNames : List String := ["_", "crate", "self", "super", "Self"]

/-- Whether a module can be declared under a name. A mark makes keywords into names. -/
def isModuleName (name : String) : Bool :=
  match name.toList with
  | 'r' :: '#' :: cs => isIdentifier (.ofList cs) && !neverNames.contains (.ofList cs)
  | _ => isIdentifier name && (name = "try" || !Look.keywords.contains name)

/-- An attribute on what the crate adds of its own. -/
def hidden : Attr := Attr.ofNames false "doc" ["hidden"]

/-- The attribute that admits imports without use. -/
def unusedImports : Attr := Attr.ofNames false "allow" ["unused_imports"]

/-- The import of the global imports into a module. -/
def contextImport : Item :=
  .mk [unusedImports] .inherited (.useDecl false (.ofSteps ["crate", contextModule] .glob))

/-- The statement that offers a type. -/
def offerStatement (o : Offer) : Node :=
  let probe := Node.form .path <|
    .op "::" :: (Node.names (registry [])) ++
      [.op "::", .form .segment
        [.word "Probe",
          .form .angled [.op "::", .op "<", Node.path [o.typeName], .op ">"]],
        .op "::", .word "new"]
  let value := Node.call probe [Node.stringLiteral o.label]
  let described := Node.inParens (.reference (.reference (.reference value)))
  .statement (.methodCall (.path ["discovery"]) "offer" [.methodCall described "describe" []])

/-- The imports that make an offer describe the best of what a type is. -/
def offerImports : Item :=
  .mk [unusedImports] .inherited <| .useDecl true <| .ofSteps (registry []) <|
    .group [.rename "ViaAnyType" "_", .rename "ViaConstructible" "_", .rename "ViaGenerator" "_"] false

/-- The function that offers types. -/
def offerItem (offers : List Offer) : Item :=
  .mk [hidden] (.restricted false ⟨false, ["crate"]⟩) <|
    .function none offerFunction
      [("discovery", .form .refType
        [.op "&", .absent, .word "mut", Node.rootedPath (registry ["Discovery"])])]
      none (.item offerImports :: offers.map offerStatement)

/-- What a module holds of its own, as items. -/
def contentItems (c : ModuleContent) : List Item :=
  contextImport :: c.imports ++ c.items ++ (if c.offers.isEmpty then [] else [offerItem c.offers])

mutual

/-- The items of a module. -/
def items : ModuleTree → List Item
  | .mk _ content children => contentItems content ++ moduleItems children

/-- Modules as items. -/
def moduleItems : List ModuleTree → List Item
  | [] => []
  | m :: ms =>
    .mk m.content.innerAttrs .pub (.module false m.name (some (items m))) :: moduleItems ms

end

/-- The module of the global imports. -/
def contextItem (g : GlobalImports) : Item :=
  .mk [hidden] .pub (.module false contextModule (some g.imports))

/-- An attribute on entry points. -/
def unmangled : Attr := Attr.ofNames false "no_mangle" []

/-- The entry point that describes the crate. -/
def manifestItem : Item :=
  .mk [hidden, unmangled] .pub <|
    .function (some "C") manifestEntryPoint [] (some (Node.rootedPath (registry ["ModuleManifest"])))
      [.result (.call (.rootedPath (registry ["ModuleManifest", "current"])) [])]

/-- The call of the offering function of a module. -/
def offerCall (path : List String) : Node :=
  .statement <|
    .call (.path (["crate"] ++ path ++ [offerFunction])) [.mutableReference (.path ["discovery"])]

/-- The entry point that offers all types. -/
def discoverItem (offering : List (List String)) : Item :=
  let discovery := Node.form .letStmt
    [.form .attrs [], .word "let", .binder true "discovery",
      .form .initial [.op "=", .call (.rootedPath (registry ["Discovery", "new"])) [], .absent],
      .op ";"]
  let boxed := Node.call (.rootedPath ["std", "boxed", "Box", "into_raw"])
    [.call (.rootedPath ["std", "boxed", "Box", "new"]) [.path ["discovery"]]]
  .mk [hidden, unmangled, Attr.ofNames false "allow" ["improper_ctypes_definitions"]] .pub <|
    .function (some "C") discoverEntryPoint []
      (some (.form .pointer [.op "*", .word "mut", .rootedPath (registry ["Discovery"])]))
      (discovery :: offering.map offerCall ++ [.result boxed])

/-- The lints that a generated crate admits; it comes last, so that it overrides carried attributes. -/
def admittedLints : Attr :=
  Attr.ofNames true "allow"
    ["unused_imports", "dead_code", "non_snake_case", "non_camel_case_types", "unused_attributes"]

/-- The file of a generated crate. -/
def file (t : ModuleTree) (g : GlobalImports) : SourceFile where
  attrs := t.content.innerAttrs ++ [admittedLints]
  items := items t ++ [contextItem g, manifestItem, discoverItem (t.offering [])]

end Assembly

open Assembly in
/-- Assembles the crate of fragments and global imports. -/
def assemble (fs : List Fragment) (g : GlobalImports) : Except AssemblyFault AssembledCrate :=
  let tree := ModuleTree.ofFragments fs
  match tree.namesBelow.find? (!isModuleName ·) with
  | some name => .error (.moduleName name)
  | none =>
    match (file tree g).formatted? with
    | some source => .ok ⟨source, tree.labels⟩
    | none => .error .unformatted

end SourceGen
