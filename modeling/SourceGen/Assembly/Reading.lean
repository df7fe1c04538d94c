import SourceGen.Assembly.Crate
import SourceGen.Text.Unquoted

/-!
# Reading a generated crate

What the items of a generated crate say when the crate runs: the items of a module are found by its path, the entry
point calls functions by theirs, and the functions that it calls offer labels.
-/

namespace SourceGen

namespace Item

/-- The name of a module with a body, and the items of the body. -/
def moduleBody? (i : Item) : Option (String × List Item) :=
  match i.decl with
  | .module _ name (some items) => some (name, items)
  | _ => none

/-- The items at a path; a module that is declared more than once has the items of all its bodies. -/
def itemsAt : List String → List Item → List Item
  | [], items => items
  | step :: path, items =>
    (items.filterMap moduleBody?).flatMap fun m => if m.1 = step then itemsAt path m.2 else []

/-- Whether an item declares a type or a trait. -/
def declaresType (i : Item) : Bool := i.nominal?.isSome

/-- Whether an item is an implementation. -/
def isImpl (i : Item) : Bool :=
  match i.decl with
  | .impl _ _ _ _ => true
  | _ => false

/-- The statements of the function of a given name. -/
def bodyOf? (name : String) (i : Item) : Option (List Node) :=
  match i.decl with
  | .plain .fn (some n) parts =>
    match parts.getLast? with
    | some (.group .brace body) => if n = name then some body else none
    | _ => none
  | _ => none

end Item

namespace Node

/-- The names of a path. -/
def namesOf? : List Node → Option (List String)
  | [.leaf (.word n)] => some [n]
  | .leaf (.word n) :: .leaf (.op "::") :: rest => (namesOf? rest).map (n :: ·)
  | _ => none

/-- The function that a statement calls by its path from the root of the crate: its module and its name. -/
def crateCall? : Node → Option (List String × String)
  | .form .exprStmt
      [.form .call [.form .path (.leaf (.word "crate") :: .leaf (.op "::") :: rest), _], _] =>
    (namesOf? rest).bind fun names => names.getLast?.map (names.dropLast, ·)
  | _ => none

/-- The label that a statement offers: `discovery.offer((&&&Probe::<T>::new("label")).describe());` -/
def offeredLabel? : Node → Option String
  | .form .exprStmt
      [.form .methodCall
        [.form .path [.leaf (.word "discovery")], _, .leaf (.word "offer"), _,
          .group .paren
            [.form .methodCall
              (.form .paren
                [.group .paren
                  [.form .reference
                    [_, _, .form .reference
                      [_, _, .form .reference
                        [_, _, .form .call [_, .group .paren [.leaf (.literal label)]]]]]]] :: _)]], _] =>
    Text.unquoted? label
  | _ => none

end Node

namespace Assembly

/-- The bodies of the functions of a given name in the module at a path. -/
def bodiesAt (items : List Item) (path : List String) (name : String) : List (List Node) :=
  (Item.itemsAt path items).filterMap (Item.bodyOf? name)

/-- The functions that the entry point calls, in their order. -/
def calls (items : List Item) : List (List String × String) :=
  (bodiesAt items [] discoverEntryPoint).flatMap (·.filterMap Node.crateCall?)

/-- The labels that these functions offer, in the order of the calls. -/
def offered (items : List Item) : List String :=
  (calls items).flatMap fun f => (bodiesAt items f.1 f.2).flatMap (·.filterMap Node.offeredLabel?)

end Assembly

end SourceGen
