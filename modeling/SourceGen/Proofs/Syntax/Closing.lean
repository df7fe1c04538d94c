import SourceGen.Proofs.Syntax.Lexemes

/-!
# How types end

The `=` between a type and what it is set to does not belong to the type. So the syntax before the braces of a
declaration, which ends in a name, a type, a bound or a bracket, never ends in `=`.
-/

namespace SourceGen

open LexemeKind

/-- A row of lexemes does not end in `=`; `.` is the same kind. -/
def LexemeKind.Closed (ks : List LexemeKind) : Prop := ks.getLast? ≠ some (.mark '.')

namespace LexemeKind

variable {ks js : List LexemeKind}

@[simp] lemma closed_nil : Closed [] := nofun

@[simp] lemma closed_concat {k : LexemeKind} : Closed (ks ++ [k]) ↔ k ≠ .mark '.' := by simp [Closed]

@[simp] lemma closed_singleton {k : LexemeKind} : Closed [k] ↔ k ≠ .mark '.' := by simp [Closed]

@[simp] lemma closed_cons_concat {k j : LexemeKind} : Closed (k :: (ks ++ [j])) ↔ j ≠ .mark '.' :=
  @closed_concat (k :: ks) j

@[simp] lemma closed_cons_cons {k j : LexemeKind} : Closed (k :: j :: ks) ↔ Closed (j :: ks) := by simp [Closed]

lemma closed_cons {k : LexemeKind} (h : k ≠ .mark '.') : Closed (k :: ks) ↔ Closed ks := by
  cases ks with
  | nil => simpa
  | cons j ks => rw [closed_cons_cons]

@[simp] lemma closed_append_cons {k : LexemeKind} : Closed (ks ++ k :: js) ↔ Closed (k :: js) := by
  simp [Closed, List.getLast?_append]

lemma Closed.append (left : Closed ks) (right : Closed js) : Closed (ks ++ js) := by
  rcases js.eq_nil_or_concat with rfl | ⟨js, j, rfl⟩
  · rwa [List.append_nil]
  · rw [List.concat_eq_append] at right ⊢
    rwa [← List.append_assoc, closed_concat, ← closed_concat]

lemma ofLiteral_ne_mark {s : String} {c : Char} : ofLiteral s ≠ .mark c := by
  rw [ofLiteral]
  split <;> nofun

end LexemeKind

namespace Node

/-- Operators of types, and brackets that are not printed. -/
def typeOps : List String := ["::", "<", ">", "->", "+", "?", ",", ":", "&", "*", "!", ";", "(", ")"]

end Node

namespace Form

/-- Forms of types and of what they consist of, those in angle brackets apart. -/
@[simp] abbrev isTypePart : Form → Bool
  | .absent | .silent | .kept | .path | .qualifiedPath | .asTrait | .segment | .parenArgs | .arrayType | .sliceType
  | .fnType | .pointer | .refType | .never | .implTrait | .traitObject | .infer | .returns | .bounds | .traitBound
  | .parenBound | .abi | .bounded | .whereClause | .wherePredicate | .macroCall | .paren | .tuple => true
  | _ => false

/-- Forms that end in an angle bracket. -/
@[simp] abbrev isAngled : Form → Bool
  | .generics | .angled | .forLifetimes | .preciseCapture => true
  | _ => false

end Form

namespace Node

/-- The parts of a form in angle brackets. -/
def InAngles (parts : List Node) : Prop :=
  ∃ lead params, parts = lead ++ .op "<" :: params ++ [.op ">"] ∧ ∀ n ∈ lead, n.isOp "<" = false

mutual

/-- No part of a type that could be its end is an operator that ends in `=`. -/
def Closes : Node → Prop
  | .leaf (.op s) => s ∈ typeOps
  | .leaf _ => True
  | .raw ts => Closed (TokenTree.lexemesAll ts)
  | .group _ _ => True
  | .form f parts => if f.isAngled then InAngles parts else f.isTypePart ∧ ClosesAll parts
  | .attr _ => False
  | .item _ => False

/-- All parts close. -/
def ClosesAll : List Node → Prop
  | [] => True
  | n :: ns => n.Closes ∧ ClosesAll ns

end

@[simp] lemma closesAll_nil : ClosesAll [] := trivial

@[simp] lemma closesAll_cons {n : Node} {ns : List Node} : ClosesAll (n :: ns) ↔ n.Closes ∧ ClosesAll ns := Iff.rfl

lemma closesAll_iff {ns : List Node} : ClosesAll ns ↔ ∀ n ∈ ns, n.Closes := by
  induction ns with
  | nil => simp
  | cons n ns ih => simp [ih]

@[simp] lemma closesAll_append {ns ms : List Node} : ClosesAll (ns ++ ms) ↔ ClosesAll ns ∧ ClosesAll ms := by
  simp [closesAll_iff, or_imp, forall_and]

@[simp] lemma closes_op {s : String} : (op s).Closes ↔ s ∈ typeOps := Iff.rfl

@[simp] lemma closes_word {s : String} : (word s).Closes := trivial

@[simp] lemma closes_raw {ts : List TokenTree} : (raw ts).Closes ↔ Closed (TokenTree.lexemesAll ts) := Iff.rfl

@[simp] lemma closes_group {d : Delimiter} {ns : List Node} : (group d ns).Closes := trivial

lemma closes_rawGroup {d : Delimiter} {ts : List TokenTree} : (raw [.group d ts]).Closes := by
  rw [Closes, TokenTree.lexemesAll, TokenTree.lexemesAll, List.append_nil]
  exact closed_concat.mpr nofun

@[simp] lemma closes_absent : absent.Closes := ⟨rfl, trivial⟩

@[simp] lemma closes_form {f : Form} {ns : List Node} (h : f.isTypePart = true) :
    (form f ns).Closes ↔ ClosesAll ns := by
  have plain : f.isAngled = false := by cases f <;> first | rfl | cases h
  rw [Closes, if_neg (by rw [plain]; decide), h]
  exact ⟨And.right, And.intro rfl⟩

@[simp] lemma closes_angled {f : Form} {ns : List Node} (h : f.isAngled = true) : (form f ns).Closes ↔ InAngles ns := by
  rw [Closes, if_pos h]

@[simp] lemma inAngles_open {ns : List Node} : InAngles (op "<" :: (ns ++ [op ">"])) := ⟨[], ns, rfl, nofun⟩

@[simp] lemma inAngles_word {s : String} {ns : List Node} : InAngles (word s :: op "<" :: (ns ++ [op ">"])) :=
  ⟨[word s], ns, rfl, by simp [word, isOp]⟩

@[simp] lemma inAngles_colons {ns : List Node} : InAngles (op "::" :: op "<" :: (ns ++ [op ">"])) :=
  ⟨[op "::"], ns, rfl, by simp [op, isOp]⟩

/-- What the lexemes of a node in a list of forms without phantoms are. -/
lemma lexemes_form {f : Form} {parts : List Node} (h : f ≠ .phantom) : (form f parts).lexemes = lexemesAll parts := by
  cases f with
  | phantom => exact absurd rfl h
  | _ => rfl

mutual

/-- The lexemes of a type do not end in `=`. -/
lemma Closes.closed : ∀ {n : Node}, n.Closes → Closed n.lexemes
  | .leaf (.op s), h => by
    have all : ∀ s ∈ typeOps, (ofOp s).getLast? ≠ some (.mark '.') := by decide
    exact all s h
  | .leaf (.word _), _ | .leaf (.lifetime _), _ => by simp [lexemes, Leaf.lexemes]
  | .leaf (.literal s), _ => by
    rw [lexemes, Leaf.lexemes]
    split
    · simp
    · split
      · rw [closed_cons_cons, closed_singleton]
        exact ofLiteral_ne_mark
      · rw [closed_singleton]
        exact ofLiteral_ne_mark
  | .raw _, h => h
  | .group _ _, _ => closed_concat.mpr nofun
  | .form f parts, h => by
    by_cases angled : f.isAngled = true
    · rw [closes_angled angled] at h
      obtain ⟨lead, params, rfl, -⟩ := h
      rw [lexemes_form (by rintro rfl; cases angled), lexemesAll_append]
      exact closed_concat.mpr (by decide)
    · rw [Closes, if_neg angled] at h
      rw [lexemes_form (by rintro rfl; cases h.1)]
      exact ClosesAll.closed h.2

lemma ClosesAll.closed : ∀ {ns : List Node}, ClosesAll ns → Closed (lexemesAll ns)
  | [], _ => closed_nil
  | _ :: _, ⟨first, rest⟩ => .append (Closes.closed first) (ClosesAll.closed rest)

end

end Node

/-! ### Ends of declarations -/

/-- Lexemes that end in `;`. -/
def LexemeKind.EndsInSemi (ks : List LexemeKind) : Prop := ks.getLast? = some (.mark ';')

lemma LexemeKind.ofOp_semi : ofOp ";" = [.mark ';'] := rfl

/-- Lexemes that end in braces behind what does not end in `=`. -/
def LexemeKind.EndsInBraces (ks : List LexemeKind) : Prop :=
  ∃ head ts, ks = head ++ .opening .brace :: (TokenTree.lexemesAll ts ++ [.closing .brace]) ∧ Closed head

lemma LexemeKind.EndsInBraces.append {ks js : List LexemeKind} (closed : Closed ks) (h : EndsInBraces js) :
    EndsInBraces (ks ++ js) := by
  obtain ⟨head, ts, rfl, closed'⟩ := h
  exact ⟨ks ++ head, ts, by simp, closed.append closed'⟩

lemma Visibility.closed (v : Visibility) : Closed v.lexemes := by
  cases v with
  | inherited | pub => simp [Visibility.lexemes]
  | restricted within path => exact closed_concat.mpr LexemeKind.noConfusion

/-- Parts that end in `;`, or in braces behind what closes. -/
inductive Node.Ends : List Node → Prop
  | semi (init : List Node) : Ends (init ++ [op ";"])
  | braces (init content : List Node) (closes : ClosesAll init) : Ends (init ++ [group .brace content])
  | rawBraces (init : List Node) (content : List TokenTree) (closes : ClosesAll init) :
    Ends (init ++ [raw [.group .brace content]])
  | absent (parts : List Node) (ends : Ends parts) : Ends (parts ++ [.absent])

lemma Node.ends_cons {n : Node} {ns : List Node} (first : n.Closes) (rest : Node.Ends ns) : Node.Ends (n :: ns) := by
  induction rest with
  | semi init => exact .semi (n :: init)
  | braces init content closes => exact .braces (n :: init) content ⟨first, closes⟩
  | rawBraces init content closes => exact .rawBraces (n :: init) content ⟨first, closes⟩
  | absent parts _ ih => exact .absent (n :: parts) ih

@[simp] lemma Node.ends_braces {content : List Node} : Node.Ends [group .brace content] := .braces [] content trivial

@[simp] lemma Node.ends_braces_absent {content : List Node} :
    Node.Ends [group .brace content, Node.absent, Node.absent] := .absent [_, _] (.absent [_] ends_braces)

@[simp] lemma Node.ends_cons_semi {n : Node} {init : List Node} : Node.Ends (n :: (init ++ [op ";"])) :=
  .semi (n :: init)

@[simp] lemma Node.ends_cons_braces {n : Node} {init content : List Node} (closes : ClosesAll (n :: init)) :
    Node.Ends (n :: (init ++ [group .brace content])) := .braces (n :: init) content closes

lemma Node.ends_of_getLast {parts : List Node} (h : parts.getLast? = some (op ";")) : Node.Ends parts := by
  obtain ⟨init, rfl⟩ := List.getLast?_eq_some_iff.mp h
  exact .semi init

lemma Node.ends_macro {p name : Node} {ts : List TokenTree} (closes : ClosesAll [p, name]) :
    Node.Ends [p, op "!", name, raw [.group .brace ts], .absent] :=
  .absent _ (.rawBraces [p, op "!", name] ts ⟨closes.1, by simp [typeOps], closes.2⟩)

lemma Node.getLast?_lexemesAll {ns : List Node} (h : ns.getLast? = some (op ";")) :
    (lexemesAll ns).getLast? = some (.mark ';') := by
  obtain ⟨init, rfl⟩ := List.getLast?_eq_some_iff.mp h
  simp [lexemesAll, lexemes, Leaf.lexemes, op, ofOp_semi]

/-- Declarations whose text ends in `;`, or in braces behind a name, a type, a bound or a bracket. -/
def Decl.Ends : Decl → Prop
  | .useDecl _ _ | .externCrate _ _ | .module _ _ _ => True
  | .data _ _ generics body => generics.Closes ∧ Node.Ends body
  | .trait _ _ generics supertraits whereClause _ => Node.ClosesAll [generics, supertraits, whereClause]
  | .impl header selfType whereClause _ => Node.ClosesAll (header ++ [selfType, whereClause])
  | .plain _ _ parts => Node.Ends parts
  | .verbatim tokens => EndsInSemi (TokenTree.lexemesAll tokens) ∨ EndsInBraces (TokenTree.lexemesAll tokens)

lemma Node.Ends.lexemes_ne_nil {parts : List Node} (h : Node.Ends parts) : Node.lexemesAll parts ≠ [] := by
  induction h with
  | semi | braces | rawBraces =>
    simp [Node.lexemesAll, Node.lexemes, TokenTree.lexemesAll, TokenTree.lexemes, ofOp]
  | absent _ _ ih => simpa [Node.lexemesAll] using ih

lemma Decl.Ends.lexemes_ne_nil {d : Decl} (h : d.Ends) (inner : List LexemeKind) : d.lexemes inner ≠ [] := by
  cases d with
  | plain kind name parts => simp [Decl.lexemes, Node.Ends.lexemes_ne_nil h]
  | verbatim tokens =>
    have tokens : TokenTree.lexemesAll tokens ≠ [] := by
      intro none
      rw [Decl.Ends, none] at h
      rcases h with semi | ⟨_, _, eq, -⟩
      · cases semi
      · simp at eq
    simp [Decl.lexemes, tokens]
  | module _ _ items => cases items <;> simp [Decl.lexemes]
  | _ => simp [Decl.lexemes]

/-- Items whose declaration ends as it should. -/
def Item.Ends : Item → Prop
  | .mk _ _ decl => decl.Ends

/-! ### Attributes of items -/

lemma Attr.closed_lexemes (attrs : List Attr) : Closed (attrs.flatMap Attr.lexemes) := by
  induction attrs with
  | nil => simp
  | cons a as ih =>
    refine .append ?_ ih
    obtain ⟨inner, path, args⟩ := a
    rw [Attr.lexemes]
    exact closed_concat.mpr nofun

lemma Attr.lexemesAll_eq {inner : Bool} {attrs : List Attr} (h : ∀ a ∈ attrs, a.inner = inner) :
    Attr.lexemesAll inner attrs = attrs.flatMap Attr.lexemes ∧ Attr.lexemesAll (!inner) attrs = [] := by
  induction attrs with
  | nil => exact ⟨rfl, rfl⟩
  | cons a as ih =>
    obtain ⟨same, rest⟩ := List.forall_mem_cons.mp h
    obtain ⟨there, nothing⟩ := ih rest
    cases inner <;> simp_all [Attr.lexemesAll]

lemma Attr.lexemesAll_append (inner : Bool) (as bs : List Attr) :
    Attr.lexemesAll inner (as ++ bs) = Attr.lexemesAll inner as ++ Attr.lexemesAll inner bs := by
  induction as with
  | nil => rfl
  | cons a as ih => simp [Attr.lexemesAll, ih]

/-- The lexemes of an item with attributes before it and in its body. -/
lemma Item.lexemes_eq {outer inner : List Attr} {v : Visibility} {d : Decl} (before : ∀ a ∈ outer, a.inner = false)
    (within : ∀ a ∈ inner, a.inner = true) (ends : d.Ends) :
    (Item.mk (outer ++ inner) v d).lexemes =
      outer.flatMap Attr.lexemes ++ v.lexemes ++ d.lexemes (inner.flatMap Attr.lexemes) := by
  have outers := Attr.lexemesAll_eq before
  have inners := Attr.lexemesAll_eq within
  have all : Attr.lexemesAll false (outer ++ inner) = outer.flatMap Attr.lexemes ∧
      Attr.lexemesAll true (outer ++ inner) = inner.flatMap Attr.lexemes := by
    rw [Attr.lexemesAll_append, Attr.lexemesAll_append, outers.1, inners.1]
    exact ⟨by rw [show Attr.lexemesAll false inner = [] from inners.2, List.append_nil],
      by rw [show Attr.lexemesAll true outer = [] from outers.2, List.nil_append]⟩
  rw [Item.lexemes, all.1, all.2, present, if_neg]
  simp [ends.lexemes_ne_nil]

lemma Item.lexemes_outer {outer : List Attr} {v : Visibility} {d : Decl} (before : ∀ a ∈ outer, a.inner = false)
    (ends : d.Ends) :
    (Item.mk outer v d).lexemes = outer.flatMap Attr.lexemes ++ v.lexemes ++ d.lexemes [] := by
  simpa using Item.lexemes_eq (v := v) before (List.forall_mem_nil _) ends

end SourceGen
