import SourceGen.Generator.Basic
import SourceGen.Text.Template

/-!
# Scripted generators

A small language for the behaviour of a generator: how each call ends, which nodes are accepted, and what is
produced for them. Texts of sources may have holes, which name what the generator was told.
-/

namespace SourceGen

open SourceGen.Text

/-- How a step of a script ends. -/
inductive Outcome
  | ok
  | fail (e : GeneratorError)
  | panic (p : Panic)
deriving DecidableEq, Repr

namespace Outcome

/-- The code that ends this way, with `a` if all is well. -/
def code {α : Type} (o : Outcome) (a : α) : Code α :=
  match o with
  | .ok => .value a
  | .fail e => .fail e
  | .panic p => .panic p

/-- The code that ends this way, or goes on with other code. -/
def andThen {α : Type} (o : Outcome) (next : Code α) : Code α :=
  match o with
  | .ok => next
  | .fail e => .fail e
  | .panic p => .panic p

end Outcome

/-- What a script may ask about a node. -/
inductive Condition
  | kindIn (names : List String)
  | declaresType (b : Bool)
  | name (declared : Option String)
  | attribute (path : String)
  | module (path : String)
  | hasSymbol (b : Bool)
  | findsType (path : String)
  | crate (called : String)
  | never
deriving DecidableEq, Repr

namespace Condition

/-- Whether a condition holds of a node. -/
def holds (c : Context) (n : NodeView) : Condition → Bool
  | .kindIn names => names.contains n.kind.name
  | .declaresType b => n.kind.declaresType == b
  | .name declared => n.name == declared
  | .attribute path => n.hasAttribute path
  | .module path => joinPath n.modulePath == path
  | .hasSymbol b => (c.symbolFor? n).isSome == b
  | .findsType path => (c.findType? path).isSome
  | .crate called => c.crateName == called
  | .never => false

end Condition

/-- What a rule answers. -/
inductive Verdict
  | accept
  | refuse
  | panic (p : Panic)
deriving DecidableEq, Repr

/-- A rule that answers for the nodes of which all its conditions hold. -/
structure Rule where
  conditions : List Condition
  verdict : Verdict
deriving DecidableEq, Repr

/-- A step of a production. -/
structure Action where
  conditions : List Condition
  outcome : Outcome
  /-- The name and the text of a source to offer. -/
  source : Option (String × String)
  /-- Whether the production goes on after a refused offer. -/
  ignoresRefusal : Bool
deriving DecidableEq, Repr

/-- The behaviour of a generator. -/
structure Script where
  prepare : Outcome
  /-- A type that has to exist. -/
  requiredType : Option String
  /-- The rules for nodes, of which the first that fits decides; without rules all nodes are accepted. -/
  rules : Option (List Rule)
  actions : List Action
deriving DecidableEq, Repr

/-- A generator that follows a script. -/
structure ScriptedGenerator where
  script : Script
  /-- How often it was asked about a node. -/
  calls : Nat
  /-- What it remembers of the program it was prepared for. -/
  memory : String
deriving DecidableEq, Repr

namespace ScriptedGenerator

/-- A generator that has not been called. -/
def ofScript (s : Script) : ScriptedGenerator := ⟨s, 0, "uninitialized"⟩

/-- What a hole stands for. -/
def holeValue? (g : ScriptedGenerator) (c : Context) (n : NodeView) (key : String) : Option String :=
  match key with
  | "name" => some (n.name.getD "")
  | "kind" => some n.kind.name
  | "keyword" => some (n.kind.keyword.getD "-")
  | "id" => some (nodeLabel n.id)
  | "qname" => some (n.qualifiedName.getD "-")
  | "module" => some (joinPath n.modulePath)
  | "crate" => some c.crateName
  | "location" => some n.location.text
  | "source" => some n.source
  | "symbol" => some (((c.symbolFor? n).map (·.path)).getD "-")
  | "symbols" => some (toString c.symbols.length)
  | "calls" => some (toString g.calls)
  | "init" => some g.memory
  | _ =>
    let path := withoutStart "types:" key
    if path = key then none
    else some (",".intercalate ((c.typesWithAttribute path).map (·.path)))

/-- A text with its holes filled, where `value` knows what holes stand for. A brace that opens no known hole
stays. -/
def fillKnown (value : String → Option String) (s : List Char) : List Char :=
  match s with
  | [] => []
  | c :: rest =>
    if c = '{' then
      match _closed : cutAt? '}' rest with
      | none => c :: fillKnown value rest
      | some (key, after) =>
        match value (String.ofList key) with
        | some text => text.toList ++ fillKnown value after
        | none => c :: fillKnown value rest
    else c :: fillKnown value rest
termination_by s.length
decreasing_by
  · simp
  · have h := congrArg List.length (cutAt?_eq_some _closed)
    simp at h
    simp
    omega
  · simp
  · simp

/-- A text of the script with its holes filled. -/
def fill (g : ScriptedGenerator) (c : Context) (n : NodeView) (text : String) : String :=
  String.ofList (fillKnown (g.holeValue? c n) text.toList)

/-- Prepares for a program. -/
def prepare (g : ScriptedGenerator) (c : Context) : Code ScriptedGenerator :=
  let prepared := { g with memory := c.crateName ++ "/" ++ toString c.symbols.length }
  g.script.prepare.andThen <|
    match g.script.requiredType with
    | none => .value prepared
    | some path =>
      if (c.findType? path).isSome then .value prepared
      else .fail (.message ("missing type " ++ path))

/-- Decides about a node. -/
def decide (g : ScriptedGenerator) (c : Context) (n : NodeView) : Code Bool :=
  match g.script.rules with
  | none => .value true
  | some rules =>
    match rules.find? fun r => r.conditions.all (·.holds c n) with
    | none => .value false
    | some r =>
      match r.verdict with
      | .accept => .value true
      | .refuse => .value false
      | .panic p => .panic p

/-- Goes through the steps of a production. -/
def produceWith (g : ScriptedGenerator) (c : Context) (n : NodeView) : List Action → Production
  | [] => .done
  | a :: rest =>
    if a.conditions.all (·.holds c n) then
      match (a.outcome.code ()).result with
      | .error f => .fault f
      | .ok () =>
        match a.source with
        | none => produceWith g c n rest
        | some (name, text) =>
          .offer (g.fill c n name) (g.fill c n text) fun
            | .ok () => produceWith g c n rest
            | .error e => if a.ignoresRefusal then produceWith g c n rest else .fault (.ofError e)
    else produceWith g c n rest

instance : Generator ScriptedGenerator where
  prepare g c := (g.prepare c).result
  accept g c n :=
    let asked := { g with calls := g.calls + 1 }
    ((asked.decide c n).result, asked)
  produce g c n := g.produceWith c n g.script.actions

end ScriptedGenerator

namespace Script

/-- Offers one source for every declared type. -/
def describeTypes : Script where
  prepare := .ok
  requiredType := none
  rules := some [⟨[.declaresType true], .accept⟩]
  actions := [⟨[], .ok, some ("\x7bname\x7d.c.rs", "\x7bid\x7d"), false⟩]

end Script

end SourceGen
