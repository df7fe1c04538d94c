import SourceGen.Proofs.Token.Spacing
import SourceGen.Syntax.Parser.Statement
import SourceGen.Syntax.Spacing

/-!
# Syntax up to spacing

Values are alike if they differ in the spacing of kept tokens only. Constructors of syntax keep values alike,
and so does every question that the grammar asks about a part, since none of them looks at spacing. The
rules are instances, which puts them together along the definitions that use them.
-/

namespace SourceGen

/-- Values that may hold kept tokens. -/
class Spaced (α : Type) where
  /-- The value without the spacing that a parser takes no notice of. -/
  unspaced : α → α

/-- Values that differ in spacing only. -/
class Like {α : Type} [Spaced α] (a b : α) : Prop where
  eq : Spaced.unspaced a = Spaced.unspaced b

/-- Two values that differ in spacing only. -/
structure Twins (α : Type) [Spaced α] where
  left : α
  right : α
  like : Like left right

/-- Types of values without kept tokens. -/
class Plain (α : Type) [Spaced α] : Prop where
  eq_of_like : ∀ {a b : α}, Like a b → a = b

section Values

variable {α β : Type} [Spaced α] [Spaced β]

-- names, flags and imports hold no kept tokens
instance Spaced.unit : Spaced Unit := ⟨id⟩
instance Spaced.bool : Spaced Bool := ⟨id⟩
instance Spaced.nat : Spaced Nat := ⟨id⟩
instance Spaced.string : Spaced String := ⟨id⟩
instance Spaced.namePath : Spaced NamePath := ⟨id⟩
instance Spaced.visibility : Spaced Visibility := ⟨id⟩
instance Spaced.useTree : Spaced UseTree := ⟨id⟩
instance Spaced.macroStart : Spaced Parser.MacroStart := ⟨id⟩
instance Spaced.tokenTree : Spaced TokenTree := ⟨TokenTree.unspaced⟩
instance Spaced.node : Spaced Node := ⟨Node.unspaced⟩
instance Spaced.attr : Spaced Attr := ⟨Attr.unspaced⟩
instance Spaced.item : Spaced Item := ⟨Item.unspaced⟩
instance Spaced.decl : Spaced Decl := ⟨Decl.unspaced⟩
instance Spaced.sourceFile : Spaced SourceFile := ⟨SourceFile.unspaced⟩
instance Spaced.list : Spaced (List α) := ⟨List.map unspaced⟩
instance Spaced.option : Spaced (Option α) := ⟨Option.map unspaced⟩
instance Spaced.prod : Spaced (α × β) := ⟨Prod.map unspaced unspaced⟩

-- and so those that are alike are equal
instance Plain.unit : Plain Unit := ⟨fun h => h.eq⟩
instance Plain.bool : Plain Bool := ⟨fun h => h.eq⟩
instance Plain.nat : Plain Nat := ⟨fun h => h.eq⟩
instance Plain.string : Plain String := ⟨fun h => h.eq⟩
instance Plain.namePath : Plain NamePath := ⟨fun h => h.eq⟩
instance Plain.visibility : Plain Visibility := ⟨fun h => h.eq⟩
instance Plain.useTree : Plain UseTree := ⟨fun h => h.eq⟩
instance Plain.macroStart : Plain Parser.MacroStart := ⟨fun h => h.eq⟩

namespace Like

/-- Like values of a plain type are equal. -/
lemma same [Plain α] {a b : α} (h : Like a b) : a = b := Plain.eq_of_like h

/-- A function that spacing goes through takes like values to like values. -/
lemma map {f : α → β} (commutes : ∀ a, f (Spaced.unspaced a) = Spaced.unspaced (f a)) {a b : α}
    (h : Like a b) : Like (f a) (f b) :=
  ⟨by rw [← commutes a, ← commutes b, h.eq]⟩

/-- A value is like itself, which settles every part that two parses share. -/
instance refl (a : α) : Like a a := ⟨rfl⟩

/-- The values of a pair of twins are alike, by the proof that the pair carries. -/
instance twins (r : Twins α) : Like r.left r.right := r.like

-- the constructors and the operations that the parsers apply to what they have read
instance nil : Like ([] : List α) [] := ⟨rfl⟩

instance cons {a b : α} {as bs : List α} [h : Like a b] [hs : Like as bs] : Like (a :: as) (b :: bs) :=
  ⟨congrArg₂ List.cons h.eq hs.eq⟩

/-- Rows that are alike in both halves are alike. -/
instance append {as bs as' bs' : List α} [h : Like as bs] [h' : Like as' bs'] :
    Like (as ++ as') (bs ++ bs') where
  eq := by
    simp only [Spaced.unspaced, List.map_append]
    exact congrArg₂ (· ++ ·) h.eq h'.eq

/-- Rows of rows that are alike are alike when put behind each other. -/
instance flatten {as bs : List (List α)} [h : Like as bs] : Like as.flatten bs.flatten where
  eq := by
    simp only [Spaced.unspaced, List.map_flatten]
    exact congrArg List.flatten h.eq

/-- Rows that are alike are both empty, or neither is. -/
instance isEmpty {as bs : List α} [h : Like as bs] : Like as.isEmpty bs.isEmpty :=
  map (fun as => by cases as <;> rfl) h

instance some {a b : α} [h : Like a b] : Like (Option.some a) (Option.some b) := ⟨congrArg Option.some h.eq⟩

instance pair {a b : α} {a' b' : β} [h : Like a b] [h' : Like a' b'] : Like (a, a') (b, b') :=
  ⟨congrArg₂ Prod.mk h.eq h'.eq⟩

instance fst {x y : α × β} [h : Like x y] : Like x.1 y.1 := ⟨congrArg Prod.fst h.eq⟩

instance snd {x y : α × β} [h : Like x y] : Like x.2 y.2 := ⟨congrArg Prod.snd h.eq⟩

instance and {a b c d : Bool} [h : Like a b] [h' : Like c d] : Like (a && c) (b && d) :=
  ⟨congrArg₂ Bool.and h.eq h'.eq⟩

instance or {a b c d : Bool} [h : Like a b] [h' : Like c d] : Like (a || c) (b || d) :=
  ⟨congrArg₂ Bool.or h.eq h'.eq⟩

instance not {a b : Bool} [h : Like a b] : Like (!a) (!b) := ⟨congrArg Bool.not h.eq⟩

instance add {k l m n : Nat} [h : Like k l] [h' : Like m n] : Like (k + m) (l + n) :=
  ⟨congrArg₂ Nat.add h.eq h'.eq⟩

/-- A choice is alike if its condition is the same and both its branches are alike. -/
instance ite {a b : Bool} {x y x' y' : α} [h : Like a b] [hx : Like x y] [hx' : Like x' y'] :
    Like (if a = true then x else x') (if b = true then y else y') := by
  cases h.same
  cases a with
  | true => exact hx
  | false => exact hx'

/-- Rows that are alike have one length. -/
inductive Rows : List α → List α → Prop
  | nil : Rows [] []
  | cons {a b : α} {as bs : List α} (first : Like a b) (others : Like as bs) : Rows (a :: as) (b :: bs)

/-- Like rows can be taken apart into like elements. -/
lemma rows {as bs : List α} (h : Like as bs) : Rows as bs := by
  cases as with
  | nil =>
    cases bs with
    | nil => exact .nil
    | cons b bs => cases h.eq
  | cons a as =>
    cases bs with
    | nil => cases h.eq
    | cons b bs => exact .cons ⟨(List.cons.inj h.eq).1⟩ ⟨(List.cons.inj h.eq).2⟩

/-- Optional values that are alike are both there or both missing. -/
inductive Options : Option α → Option α → Prop
  | none : Options Option.none Option.none
  | some {a b : α} (value : Like a b) : Options (Option.some a) (Option.some b)

/-- Like optional values can be taken apart into like values. -/
lemma options {a b : Option α} (h : Like a b) : Options a b := by
  cases a with
  | none =>
    cases b with
    | none => exact .none
    | some b => cases h.eq
  | some a =>
    cases b with
    | none => cases h.eq
    | some b => exact .some ⟨Option.some.inj h.eq⟩

end Like

/-- Optional values without kept tokens are equal if alike. -/
instance Plain.option [Plain α] : Plain (Option α) where
  eq_of_like := fun h => by
    cases h.options with
    | none => rfl
    | some value => exact congrArg some value.same

/-- Rows of values without kept tokens are equal if alike. -/
instance Plain.list [Plain α] : Plain (List α) where
  eq_of_like := fun {as bs} h => by
    induction as generalizing bs with
    | nil =>
      cases h.rows
      rfl
    | cons a as ih =>
      cases h.rows with
      | cons first others => exact congrArg₂ List.cons first.same (ih others)

/-- Pairs of values without kept tokens are equal if alike. -/
instance Plain.prod [Plain α] [Plain β] : Plain (α × β) where
  eq_of_like := fun {_ _} _ => Prod.ext (Like.same Like.fst) (Like.same Like.snd)

end Values

/-! ### Constructors -/

namespace Node

/-- Spacing is forgotten part by part. -/
lemma unspacedAll_eq_map (ns : List Node) : unspacedAll ns = ns.map unspaced := by
  induction ns with
  | nil => rfl
  | cons n ns ih => exact congrArg (n.unspaced :: ·) ih

/-- Spacing is forgotten in each of two rows. -/
lemma unspacedAll_append (ns ms : List Node) :
    unspacedAll (ns ++ ms) = unspacedAll ns ++ unspacedAll ms := by
  simp only [unspacedAll_eq_map, List.map_append]

/-- Attributes as parts of syntax lose their spacing as attributes. -/
lemma unspacedAll_map_attr (as : List Attr) : unspacedAll (as.map attr) = as.map (attr ∘ Attr.unspaced) := by
  rw [unspacedAll_eq_map, List.map_map]
  rfl

variable {n m : Node} {ns ms : List Node}

/-- Parts that are alike are the same without spacing. -/
lemma unspacedAll_eq (h : Like ns ms) : unspacedAll ns = unspacedAll ms := by
  rw [unspacedAll_eq_map, unspacedAll_eq_map]
  exact h.eq

/-- A form is alike if its parts are. -/
instance like_form {f : Form} [h : Like ns ms] : Like (form f ns) (form f ms) :=
  ⟨congrArg (form f) (unspacedAll_eq h)⟩

/-- Brackets are alike if what stands between them is. -/
instance like_group {d : Delimiter} [h : Like ns ms] : Like (group d ns) (group d ms) :=
  ⟨congrArg (group d) (unspacedAll_eq h)⟩

/-- Kept tokens are alike if they are the same without spacing. -/
instance like_raw {ts us : List TokenTree} [h : Like ts us] : Like (raw ts) (raw us) where
  eq := by
    change raw (TokenTree.unspacedAll ts) = raw (TokenTree.unspacedAll us)
    rw [TokenTree.unspacedAll_eq_map, TokenTree.unspacedAll_eq_map]
    exact congrArg raw h.eq

/-- Attributes that are alike are alike as parts of syntax. -/
instance like_attr {a b : Attr} [h : Like a b] : Like (attr a) (attr b) := ⟨congrArg attr h.eq⟩

/-- Items that are alike are alike as parts of syntax. -/
instance like_item {i j : Item} [h : Like i j] : Like (item i) (item j) := ⟨congrArg item h.eq⟩

/-- Attributes in a row are alike as parts of syntax. -/
instance like_mapAttr {as bs : List Attr} [h : Like as bs] : Like (as.map attr) (bs.map attr) where
  eq := by
    have eq := congrArg (List.map attr) h.eq
    simp only [Spaced.unspaced, List.map_map] at eq ⊢
    exact eq

end Node

/-- Names are kept as they are, so paths differ in no way. -/
instance NamePath.like_mk {a b : Bool} {names : List String} [h : Like a b] :
    Like (NamePath.mk a names) (NamePath.mk b names) :=
  ⟨congrArg (NamePath.mk · names) h.eq⟩

namespace Attr

/-- Spacing is forgotten attribute by attribute. -/
lemma unspacedAll_eq_map (as : List Attr) : unspacedAll as = as.map unspaced := by
  induction as with
  | nil => rfl
  | cons a as ih => exact congrArg (a.unspaced :: ·) ih

/-- An attribute is alike if its arguments are: its path is never kept as tokens. -/
instance like_mk {inner : Bool} {path : NamePath} {ns ms : List Node} [h : Like ns ms] :
    Like (mk inner path ns) (mk inner path ms) :=
  ⟨congrArg (mk inner path) (Node.unspacedAll_eq h)⟩

end Attr

namespace Item

/-- Spacing is forgotten item by item. -/
lemma unspacedAll_eq_map (is : List Item) : unspacedAll is = is.map unspaced := by
  induction is with
  | nil => rfl
  | cons i is ih => exact congrArg (i.unspaced :: ·) ih

/-- An item is alike if its attributes and its declaration are. -/
instance like_mk {as bs : List Attr} {v w : Visibility} {d e : Decl} [h : Like as bs] [same : Like v w]
    [h' : Like d e] : Like (mk as v d) (mk bs w e) where
  eq := by
    change mk (Attr.unspacedAll as) v d.unspaced = mk (Attr.unspacedAll bs) w e.unspaced
    rw [Attr.unspacedAll_eq_map, Attr.unspacedAll_eq_map, same.same]
    exact congrArg₂ (mk · w ·) h.eq h'.eq

end Item

namespace Decl

variable {n m n' m' n'' m'' : Node} {ns ms ns' ms' : List Node} {name : String}

/-- Imports hold no kept tokens: those that are alike are the same. -/
instance like_useDecl {a b : Bool} {t : Option UseTree} [h : Like a b] :
    Like (t.map (useDecl a)) (t.map (useDecl b)) := by
  rw [h.same]
  infer_instance

/-- A module in a file of its own has a name and no tokens. -/
instance like_moduleFile {a b : Bool} [h : Like a b] : Like (module a name none) (module b name none) := by
  rw [h.same]
  infer_instance

/-- An inline module is alike if its items are. -/
instance like_module {a b : Bool} {is js : List Item} [h : Like a b] [h' : Like is js] :
    Like (module a name (some is)) (module b name (some js)) where
  eq := by
    change module a name (some (Item.unspacedAll is)) = module b name (some (Item.unspacedAll js))
    rw [Item.unspacedAll_eq_map, Item.unspacedAll_eq_map, h.same]
    exact congrArg (module b name <| some ·) h'.eq

/-- A struct, an enum or a union is alike if its generics and its body are. -/
instance like_data {kind : DataKind} [h : Like n m] [h' : Like ns ms] :
    Like (data kind name n ns) (data kind name m ms) :=
  ⟨congrArg₂ (data kind name) h.eq (Node.unspacedAll_eq h')⟩

/-- A trait is alike if its five parts are. -/
instance like_trait [q : Like ns ms] [g : Like n m] [s : Like n' m'] [w : Like n'' m''] [b : Like ns' ms'] :
    Like (trait ns name n n' n'' ns') (trait ms name m m' m'' ms') where
  eq := by
    have g : n.unspaced = m.unspaced := g.eq
    have s : n'.unspaced = m'.unspaced := s.eq
    have w : n''.unspaced = m''.unspaced := w.eq
    simp only [Spaced.unspaced, Decl.unspaced, Node.unspacedAll_eq q, Node.unspacedAll_eq b, g, s, w]

/-- An impl is alike if its four parts are. -/
instance like_impl [h : Like ns ms] [s : Like n m] [w : Like n' m'] [b : Like ns' ms'] :
    Like (impl ns n n' ns') (impl ms m m' ms') where
  eq := by
    have s : n.unspaced = m.unspaced := s.eq
    have w : n'.unspaced = m'.unspaced := w.eq
    simp only [Spaced.unspaced, Decl.unspaced, Node.unspacedAll_eq h, Node.unspacedAll_eq b, s, w]

/-- Any other declaration is alike if its parts are. -/
instance like_plain {kind : PlainKind} {name : Option String} [h : Like ns ms] :
    Like (plain kind name ns) (plain kind name ms) :=
  ⟨congrArg (plain kind name) (Node.unspacedAll_eq h)⟩

/-- A declaration that is kept as written is alike if its tokens are. -/
instance like_verbatim {ts us : List TokenTree} [h : Like ts us] : Like (verbatim ts) (verbatim us) where
  eq := by
    change verbatim (TokenTree.unspacedAll ts) = verbatim (TokenTree.unspacedAll us)
    rw [TokenTree.unspacedAll_eq_map, TokenTree.unspacedAll_eq_map]
    exact congrArg verbatim h.eq

end Decl

/-- A file is alike if its attributes and its items are. -/
instance SourceFile.like_mk {as bs : List Attr} {is js : List Item} [h : Like as bs] [h' : Like is js] :
    Like (SourceFile.mk as is) (SourceFile.mk bs js) where
  eq := by
    simp only [Spaced.unspaced, SourceFile.unspaced, Attr.unspacedAll_eq_map, Item.unspacedAll_eq_map]
    exact congrArg₂ SourceFile.mk h.eq h'.eq

/-- Pieces of syntax that are alike are of one kind. -/
inductive Node.Heads : Node → Node → Prop
  | leaf (l : Leaf) : Heads (.leaf l) (.leaf l)
  | raw {ts us : List TokenTree} (tokens : Like ts us) : Heads (.raw ts) (.raw us)
  | group (d : Delimiter) {ns ms : List Node} (parts : Like ns ms) : Heads (.group d ns) (.group d ms)
  | form (f : Form) {ns ms : List Node} (parts : Like ns ms) : Heads (.form f ns) (.form f ms)
  | attr {a b : Attr} (attr : Like a b) : Heads (.attr a) (.attr b)
  | item {i j : Item} (item : Like i j) : Heads (.item i) (.item j)

/-- Like pieces of syntax can be taken apart into like parts. -/
lemma Like.heads {n m : Node} (h : Like n m) : Node.Heads n m := by
  have eq : n.unspaced = m.unspaced := h.eq
  cases n with
  | leaf l => cases m <;> cases eq; exact .leaf l
  | raw ts =>
    cases m with
    | raw us =>
      have tokens := Node.raw.inj eq
      rw [TokenTree.unspacedAll_eq_map, TokenTree.unspacedAll_eq_map] at tokens
      exact .raw ⟨tokens⟩
    | _ => cases eq
  | group d ns =>
    cases m with
    | group e ms =>
      obtain ⟨rfl, parts⟩ := Node.group.inj eq
      rw [Node.unspacedAll_eq_map, Node.unspacedAll_eq_map] at parts
      exact .group d ⟨parts⟩
    | _ => cases eq
  | form f ns =>
    cases m with
    | form g ms =>
      obtain ⟨rfl, parts⟩ := Node.form.inj eq
      rw [Node.unspacedAll_eq_map, Node.unspacedAll_eq_map] at parts
      exact .form f ⟨parts⟩
    | _ => cases eq
  | attr a =>
    cases m with
    | attr b => exact .attr ⟨Node.attr.inj eq⟩
    | _ => cases eq
  | item i =>
    cases m with
    | item j => exact .item ⟨Node.item.inj eq⟩
    | _ => cases eq

/-! ### Questions about a part -/

namespace Node

/-- Spacing does not tell whether a part is missing. -/
lemma isAbsent_unspaced : ∀ n : Node, n.unspaced.isAbsent = n.isAbsent
  | .form f _ => by cases f <;> rfl
  | .leaf _ | .raw _ | .group _ _ | .attr _ | .item _ => rfl

/-- Spacing does not change which operator a part is. -/
lemma isOp_unspaced (s : String) (n : Node) : n.unspaced.isOp s = n.isOp s := by
  cases n <;> rfl

/-- Spacing does not change how strongly an operator binds. -/
lemma operatorPrecedence_unspaced (n : Node) : n.unspaced.operatorPrecedence = n.operatorPrecedence := by
  cases n <;> rfl

/-- Spacing does not change the brackets around kept tokens. -/
lemma rawDelimiter?_unspaced : ∀ n : Node, n.unspaced.rawDelimiter? = n.rawDelimiter?
  | .raw [] => rfl
  | .raw (t :: ts) => by cases t <;> cases ts <;> rfl
  | .leaf _ | .form _ _ | .group _ _ | .attr _ | .item _ => rfl

/-- Spacing does not tell whether a macro is called with braces. -/
lemma isBraceMacro_unspaced : ∀ n : Node, n.unspaced.isBraceMacro = n.isBraceMacro
  | .form f [] | .form f [_] | .form f [_, _] | .form f (_ :: _ :: _ :: _ :: _) => by cases f <;> rfl
  | .form f [_, _, args] => by
    cases f with
    | macroCall => exact congrArg (· == some Delimiter.brace) (rawDelimiter?_unspaced args)
    | _ => rfl
  | .leaf _ | .raw _ | .group _ _ | .attr _ | .item _ => rfl

/-- An expression is freed of attributes and marks with its spacing or without. -/
lemma bare_unspaced (n : Node) : n.unspaced.bare = n.bare.unspaced := by
  fun_induction bare n with
  | case1 attrs e ih => exact ih
  | case2 n ih => exact ih
  | case3 n notAttributed notPhantom =>
    cases n with
    | form f ps =>
      cases f with
      | attributed =>
        match ps with
        | [] | [_] | _ :: _ :: _ :: _ => rfl
        | [attrs, e] => exact (notAttributed attrs e rfl).elim
      | phantom =>
        match ps with
        | [] | _ :: _ :: _ => rfl
        | [n] => exact (notPhantom n rfl).elim
      | _ => rfl
    | _ => rfl

/-- Spacing does not tell whether an arm needs a comma. -/
lemma needsComma_unspaced (n : Node) : n.unspaced.needsComma = n.needsComma := by
  unfold needsComma
  rw [bare_unspaced]
  cases n.bare with
  | form f ps => cases f <;> rfl
  | _ => rfl

/-- Spacing does not tell whether a statement needs a semicolon. -/
lemma needsSemicolon_unspaced (n : Node) : n.unspaced.needsSemicolon = n.needsSemicolon := by
  unfold needsSemicolon
  rw [bare_unspaced, needsComma_unspaced, isBraceMacro_unspaced]
  cases n.bare with
  | form f ps => cases f <;> rfl
  | _ => rfl

/-- Spacing does not tell whether kept tokens end with braces. -/
lemma endsWithBraces_unspacedAll (ts : List TokenTree) :
    endsWithBraces (TokenTree.unspacedAll ts) = endsWithBraces ts := by
  unfold endsWithBraces
  rw [TokenTree.unspacedAll_eq_map, List.getLast?_map]
  cases ts.getLast? with
  | none => rfl
  | some t =>
    cases t with
    | group d _ => cases d <;> rfl
    | _ => rfl

mutual

/-- Spacing does not tell whether an expression or a type ends with a brace. -/
lemma endsWithBrace_unspaced : ∀ n : Node, n.unspaced.endsWithBrace = n.endsWithBrace
  | .form f ps => by
    cases f with
    | macroCall =>
      match ps with
      | [] | [_] | [_, _] => rfl
      | _ :: _ :: args :: _ :: _ => cases args <;> rfl
      | [_, _, args] =>
        cases args with
        | raw ts => exact endsWithBraces_unspacedAll ts
        | _ => rfl
    | parenBound =>
      match ps with
      | [] => rfl
      | b :: _ :: _ => cases b <;> rfl
      | [b] =>
        cases b with
        | group d ps => exact lastEndsWithBrace_unspacedAll ps
        | _ => rfl
    | _ => first | rfl | exact lastEndsWithBrace_unspacedAll ps
  | .raw ts => endsWithBraces_unspacedAll ts
  | .leaf _ | .group _ _ | .attr _ | .item _ => rfl

/-- Spacing does not tell whether the last of several parts ends with a brace. -/
lemma lastEndsWithBrace_unspacedAll : ∀ ns : List Node,
    lastEndsWithBrace (unspacedAll ns) = lastEndsWithBrace ns
  | [] => rfl
  | [n] => endsWithBrace_unspaced n
  | _ :: n :: ns => lastEndsWithBrace_unspacedAll (n :: ns)

end

end Node

mutual

/-- Syntax has the same number of lexemes without spacing. -/
lemma Node.size_unspaced : ∀ n : Node, n.unspaced.size = n.size
  | .form f ps => by cases f <;> first | rfl | exact Node.sizeAll_unspacedAll ps
  | .raw ts => TokenTree.sizeAll_unspacedAll ts
  | .leaf _ => rfl
  | .group _ ps => congrArg (2 + ·) (Node.sizeAll_unspacedAll ps)
  | .attr a => Attr.size_unspaced a
  | .item i => Item.size_unspaced i

/-- Parts in a row have the same number of lexemes without spacing. -/
lemma Node.sizeAll_unspacedAll : ∀ ns : List Node, Node.sizeAll (Node.unspacedAll ns) = Node.sizeAll ns
  | [] => rfl
  | n :: ns => congrArg₂ (· + ·) (Node.size_unspaced n) (Node.sizeAll_unspacedAll ns)

/-- An attribute has the same number of lexemes without spacing. -/
lemma Attr.size_unspaced : ∀ a : Attr, a.unspaced.size = a.size
  | .mk _ _ args => congrArg (_ + ·) (Node.sizeAll_unspacedAll args)

/-- The attributes on one side of an item have the same number of lexemes without spacing. -/
lemma Attr.sizeAll_unspacedAll (inner : Bool) :
    ∀ as : List Attr, Attr.sizeAll inner (Attr.unspacedAll as) = Attr.sizeAll inner as
  | [] => rfl
  | .mk isInner path args :: as =>
    congrArg₂ (fun m n => (if isInner == inner then m else 0) + n) (Attr.size_unspaced (.mk isInner path args))
      (Attr.sizeAll_unspacedAll inner as)

/-- An item has the same number of lexemes without spacing. -/
lemma Item.size_unspaced : ∀ i : Item, i.unspaced.size = i.size
  | .mk attrs _ decl => by
    simp only [Item.unspaced, Item.size, Attr.sizeAll_unspacedAll, Decl.size_unspaced decl]

/-- Items in a row have the same number of lexemes without spacing. -/
lemma Item.sizeAll_unspacedAll : ∀ is : List Item, Item.sizeAll (Item.unspacedAll is) = Item.sizeAll is
  | [] => rfl
  | i :: is => congrArg₂ (· + ·) (Item.size_unspaced i) (Item.sizeAll_unspacedAll is)

/-- A declaration has the same number of lexemes without spacing. -/
lemma Decl.size_unspaced : ∀ d : Decl, d.unspaced.size = d.size
  | .useDecl _ _ | .externCrate _ _ | .module _ _ none => rfl
  | .module _ _ (some is) => congrArg (fun n => _ + (2 + n)) (Item.sizeAll_unspacedAll is)
  | .data _ _ generics body =>
    congrArg₂ (2 + · + ·) (Node.size_unspaced generics) (Node.sizeAll_unspacedAll body)
  | .trait qualifiers _ generics supertraits whereClause members => by
    simp only [Decl.unspaced, Decl.size, Node.sizeAll_unspacedAll, Node.size_unspaced]
  | .impl header selfType whereClause members => by
    simp only [Decl.unspaced, Decl.size, Node.sizeAll_unspacedAll, Node.size_unspaced]
  | .plain _ _ parts => Node.sizeAll_unspacedAll parts
  | .verbatim tokens => TokenTree.sizeAll_unspacedAll tokens

end

namespace Node

variable {n m : Node}

-- the same answers, in the form in which the parsers of two inputs are compared
instance like_isAbsent [h : Like n m] : Like n.isAbsent m.isAbsent := .map isAbsent_unspaced h

instance like_isOp {s : String} [h : Like n m] : Like (n.isOp s) (m.isOp s) := .map (isOp_unspaced s) h

instance like_rawDelimiter? [h : Like n m] : Like (n.rawDelimiter? == some .brace) (m.rawDelimiter? == some .brace) :=
  .map (f := fun n => n.rawDelimiter? == some .brace)
    (fun n => congrArg (· == some Delimiter.brace) (rawDelimiter?_unspaced n)) h

instance like_isBraceMacro [h : Like n m] : Like n.isBraceMacro m.isBraceMacro := .map isBraceMacro_unspaced h

instance like_needsComma [h : Like n m] : Like n.needsComma m.needsComma := .map needsComma_unspaced h

instance like_endsWithBrace [h : Like n m] : Like n.endsWithBrace m.endsWithBrace :=
  .map endsWithBrace_unspaced h

instance like_size [h : Like n m] : Like n.size m.size := .map size_unspaced h

end Node

end SourceGen
