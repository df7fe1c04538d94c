import Mathlib.Data.List.Forall2
import SourceGen.Proofs.Syntax.Closing
import SourceGen.Syntax.Parser.Grammar

/-!
# What parsers read

A parser that succeeds has read the lexemes of its result, in order and all of them, unless something is left
over inside brackets. The rules are instances, so that for a parser of the grammar they are put together along its
definition. What they leave to be shown is that the lexemes of the parts, in the order in which they were read, are
the lexemes of the whole.
-/

namespace SourceGen

open LexemeKind

/-! ### Inputs -/

instance : Inhabited Input := ⟨⟨[], 0, none⟩⟩

namespace Input

variable {o s t : Input} {ks js : List LexemeKind}

/-- What is read on the way from one input to a later one. -/
def Took (s : Input) (ks : List LexemeKind) (t : Input) : Prop :=
  ∃ ts, s.rest = ts ++ t.rest ∧ TokenTree.lexemesAll ts = ks

/-- Every lexeme of the input has a place. -/
def Placed (s : Input) : Prop := LexemeKind.Placed (TokenTree.lexemesAll s.rest)

lemma took_self (s : Input) : s.Took [] s := ⟨[], rfl, rfl⟩

lemma Took.trans (first : o.Took ks s) (second : s.Took js t) : o.Took (ks ++ js) t := by
  obtain ⟨ts, rest, rfl⟩ := first
  obtain ⟨us, rest', rfl⟩ := second
  refine ⟨ts ++ us, ?_, TokenTree.lexemesAll_append ts us⟩
  rw [rest, rest', List.append_assoc]

lemma Took.placed (took : o.Took ks s) (placed : o.Placed) : LexemeKind.Placed ks ∧ s.Placed := by
  obtain ⟨ts, rest, rfl⟩ := took
  rwa [Placed, rest, TokenTree.lexemesAll_append, placed_append] at placed

lemma took_cons {t : TokenTree} {ts : List TokenTree} (rest : s.rest = t :: ts) (i : Nat) (left : Option Nat) :
    s.Took t.lexemes ⟨ts, i, left⟩ :=
  ⟨[t], rest, by rw [TokenTree.lexemesAll, TokenTree.lexemesAll, List.append_nil]⟩

/-- What is read of the content of brackets. -/
def Nested (ks : List LexemeKind) : Prop := ∃ ts, TokenTree.lexemesAll ts = ks

/-- What was taken between two inputs that are reached from a third one. -/
lemma Took.between (first : o.Took ks s) (second : o.Took js t) (later : ks <+: js) :
    ∃ ts, s.rest = ts ++ t.rest ∧ ks ++ TokenTree.lexemesAll ts = js := by
  obtain ⟨us, rest, rfl⟩ := first
  obtain ⟨vs, rest', rfl⟩ := second
  rw [rest] at rest'
  rcases List.append_eq_append_iff.mp rest' with ⟨ws, rfl, tail⟩ | ⟨ws, rfl, tail⟩
  · exact ⟨ws, tail, (TokenTree.lexemesAll_append us ws).symm⟩
  · -- the second input cannot be before the first one, since no token is without lexemes
    have lengths := later.length_le
    rw [TokenTree.lexemesAll_append, List.length_append] at lengths
    cases ws with
    | nil => exact ⟨[], tail.symm, by simp [TokenTree.lexemesAll]⟩
    | cons w ws =>
      have pos := List.length_pos_iff.mpr w.lexemes_ne_nil
      rw [TokenTree.lexemesAll, List.length_append] at lengths
      omega

end Input

/-! ### Spelling -/

/-- How results of a kind are spelled. -/
class Spelled (α : Type) where
  lexemes : α → List LexemeKind
  /-- What else is known of a result. -/
  Sound : α → Prop

/-- What is known of a type. -/
@[simp] abbrev Node.IsType (n : Node) : Prop := (n.isAbsent = true → n.lexemes = []) ∧ n.Closes

instance : Spelled Node := ⟨Node.lexemes, fun n => n.isAbsent = true → n.lexemes = []⟩

instance : Spelled (List Node) := ⟨Node.lexemesAll, fun _ => True⟩

@[simp] lemma spelled_node : (Spelled.lexemes : Node → _) = Node.lexemes := rfl

@[simp] lemma sound_node (n : Node) : Spelled.Sound n ↔ (n.isAbsent = true → n.lexemes = []) := Iff.rfl

@[simp] lemma spelled_nodes : (Spelled.lexemes : List Node → _) = Node.lexemesAll := rfl

@[simp] lemma sound_nodes (ns : List Node) : Spelled.Sound ns ↔ True := Iff.rfl

namespace Parser

variable {α β : Type}

/-- The spelling of a result. -/
@[simp] abbrev Spells [Spelled α] (a : α) (ks : List LexemeKind) : Prop := ks = Spelled.lexemes a ∧ Spelled.Sound a

/-- The spelling of a type. -/
@[simp] abbrev SpellsType (n : Node) (ks : List LexemeKind) : Prop := ks = n.lexemes ∧ n.IsType

/-- The spelling of an item. -/
@[simp] abbrev SpellsItem (i : Item) (ks : List LexemeKind) : Prop := ks = i.lexemes ∧ i.Ends

/-- A parser that does not forget what is left over. -/
class Clean (p : Parser α) : Prop where
  clean : ∀ {s t : Input} {a : α}, p s = .ok (a, t) → t.leftover = none → s.leftover = none

/-- A parser that reads its results, as `R` tells, if `P` holds. -/
class Reads (p : Parser α) (R : outParam (α → List LexemeKind → Prop)) (P : outParam Prop) : Prop extends Clean p where
  run : P → ∀ {s t : Input} {a : α}, p s = .ok (a, t) → t.leftover = none → s.Placed →
    ∃ ks, s.Took ks t ∧ R a ks

/-- A parser that continues what was begun at `o`, where `ks` has been read since: the result is spelled by all that
has been read then. -/
class Step (o : Input) (ks : List LexemeKind) (R : α → List LexemeKind → Prop) (p : Parser α) (P : outParam Prop) :
    Prop where
  clean : ∀ {s t : Input} {a : α}, p s = .ok (a, t) → t.leftover = none → s.leftover = none
  run : P → ∀ {s t : Input} {a : α}, p s = .ok (a, t) → t.leftover = none → o.Placed → o.Took ks s →
    ∃ js, o.Took js t ∧ R a js

/-- An input that is reached when `ks` has been read. -/
class Begun (o : Input) (ks : outParam (List LexemeKind)) (s : Input) : Prop where
  took : o.Took ks s

/-- The rule for a parser from the rules along its definition. -/
lemma reads_of_step {p : Parser α} {R : α → List LexemeKind → Prop} {P : Prop} {Q : Input → Prop}
    [step : ∀ o, Step o [] R p (Q o)] (h : P → ∀ o, Q o) : Reads p R P where
  clean := (step default).clean
  run := fun hP {s _ _} ok clean placed => (step s).run (h hP s) ok clean placed s.took_self

lemma Reads.of_step {p : Parser α} {R : α → List LexemeKind → Prop} {P : Prop} {Q : Input → Prop}
    (_ : ∀ o, Step o [] R p (Q o)) (h : P → ∀ o, Q o) : Reads p R P := reads_of_step h

section Rules

variable {o : Input} {ks : List LexemeKind} {R : β → List LexemeKind → Prop}

lemma Step.weaken {p : Parser β} {P Q : Prop} (step : Step o ks R p P) (h : Q → P) : Step o ks R p Q :=
  ⟨step.clean, fun hQ => step.run (h hQ)⟩

lemma bind_eq_ok {p : Parser α} {f : α → Parser β} {s u : Input} {b : β} :
    (p >>= f) s = .ok (b, u) ↔ ∃ a t, p s = .ok (a, t) ∧ f a t = .ok (b, u) := by
  change (p s >>= fun r => f r.1 r.2) = _ ↔ _
  cases p s with
  | error e => exact ⟨nofun, nofun⟩
  | ok r =>
    refine ⟨fun h => ⟨r.1, r.2, rfl, h⟩, fun ⟨_, _, h, h'⟩ => ?_⟩
    cases h
    exact h'

instance Step.pure {b : β} : Step o ks R (pure b : Parser β) (R b ks) where
  clean := fun ok clean => by
    cases ok
    exact clean
  run := fun h {s t a} ok _ _ took => by
    cases ok
    exact ⟨ks, took, h⟩

instance Step.bind_pure {a : α} {f : α → Parser β} {P : Prop} [step : Step o ks R (f a) P] :
    Step o ks R (Pure.pure a >>= f) P := ⟨step.clean, step.run⟩

instance (priority := low) Step.last {p : Parser β} {R' : β → List LexemeKind → Prop} {P : Prop}
    [reads : Reads p R' P] : Step o ks R p (P ∧ ∀ b js, R' b js → R b (ks ++ js)) where
  clean := reads.clean
  run := fun h {s t a} ok clean placed took => by
    obtain ⟨js, took', result⟩ := reads.run h.1 ok clean (took.placed placed).2
    exact ⟨ks ++ js, took.trans took', h.2 a js result⟩

instance (priority := low) Step.bind {p : Parser α} {f : α → Parser β} {R' : α → List LexemeKind → Prop} {P : Prop}
    {Q : α → List LexemeKind → Prop} [first : Reads p R' P] [next : ∀ a js, Step o (ks ++ js) R (f a) (Q a js)] :
    Step o ks R (p >>= f) (P ∧ ∀ a js, R' a js → Q a js) where
  clean := fun ok clean => by
    obtain ⟨a, t, ok, ok'⟩ := bind_eq_ok.mp ok
    exact first.clean ok ((next a []).clean ok' clean)
  run := fun h {s u b} ok clean placed took => by
    obtain ⟨a, t, ok, ok'⟩ := bind_eq_ok.mp ok
    have clean' := (next a []).clean ok' clean
    obtain ⟨js, took', result⟩ := first.run h.1 ok clean' (took.placed placed).2
    exact (next a js).run (h.2 a js result) ok' clean placed (took.trans took')

lemma Step.seq {p : Parser α} {f : α → Parser β} {R' : α → List LexemeKind → Prop} {P : Prop}
    {Q : α → List LexemeKind → Prop} (_ : Reads p R' P) (_ : ∀ a js, Step o (ks ++ js) R (f a) (Q a js)) :
    Step o ks R (p >>= f) (P ∧ ∀ a js, R' a js → Q a js) := inferInstance

/-- After a parser that may have no result, the two cases are read each for itself. -/
instance Step.bind_option {p : Parser (Option α)} {f : Option α → Parser β} {R' : Option α → List LexemeKind → Prop}
    {P : Prop} {Q : α → List LexemeKind → Prop} {Q' : List LexemeKind → Prop} [first : Reads p R' P]
    [some : ∀ a js, Step o (ks ++ js) R (f (some a)) (Q a js)] [none : ∀ js, Step o (ks ++ js) R (f none) (Q' js)] :
    Step o ks R (p >>= f) (P ∧ (∀ a js, R' (.some a) js → Q a js) ∧ ∀ js, R' .none js → Q' js) :=
  have (a : Option α) (js : List LexemeKind) : Step o (ks ++ js) R (f a) (a.elim (Q' js) (Q · js)) := by
    cases a with
    | none => exact none js
    | some a => exact some a js
  have bind : Step o ks R (p >>= f) _ := .bind
  ⟨bind.clean, fun h => bind.run ⟨h.1, fun a js result => by
    cases a with
    | none => exact h.2.2 js result
    | some a => exact h.2.1 a js result⟩⟩

instance Step.bind_pair {γ : Type} {p : Parser (α × γ)} {f : α × γ → Parser β} {R' : α × γ → List LexemeKind → Prop}
    {P : Prop} {Q : α → γ → List LexemeKind → Prop} [first : Reads p R' P]
    [next : ∀ a c js, Step o (ks ++ js) R (f (a, c)) (Q a c js)] :
    Step o ks R (p >>= f) (P ∧ ∀ a c js, R' (a, c) js → Q a c js) :=
  have (r : α × γ) (js : List LexemeKind) : Step o (ks ++ js) R (f r) (Q r.1 r.2 js) := next r.1 r.2 js
  have bind : Step o ks R (p >>= f) _ := .bind
  ⟨bind.clean, fun h => bind.run ⟨h.1, fun r js result => h.2 r.1 r.2 js result⟩⟩

instance (priority := high) Step.bind_triple {γ δ : Type} {p : Parser (α × γ × δ)} {f : α × γ × δ → Parser β}
    {R' : α × γ × δ → List LexemeKind → Prop} {P : Prop} {Q : α → γ → δ → List LexemeKind → Prop}
    [first : Reads p R' P] [next : ∀ a c d js, Step o (ks ++ js) R (f (a, c, d)) (Q a c d js)] :
    Step o ks R (p >>= f) (P ∧ ∀ a c d js, R' (a, c, d) js → Q a c d js) :=
  have (r : α × γ × δ) (js : List LexemeKind) : Step o (ks ++ js) R (f r) (Q r.1 r.2.1 r.2.2 js) := next r.1 r.2.1 r.2.2 js
  have bind : Step o ks R (p >>= f) _ := .bind
  ⟨bind.clean, fun h => bind.run ⟨h.1, fun r js result => h.2 r.1 r.2.1 r.2.2 js result⟩⟩

instance Step.ite {c : Prop} [Decidable c] {p q : Parser β} {P Q : Prop} [yes : Step o ks R p P]
    [no : Step o ks R q Q] : Step o ks R (if c then p else q) ((c → P) ∧ (¬c → Q)) where
  clean := by
    split
    · exact yes.clean
    · exact no.clean
  run := fun h => by
    split
    · exact yes.run (h.1 ‹_›)
    · exact no.run (h.2 ‹_›)

/-- What comes after a parser that is put together itself has to be right after each way through it. -/
lemma Step.andThen {p : Parser α} {f : α → Parser β} {Q : α → List LexemeKind → Prop} {P : Prop}
    [next : ∀ a js, Step o js R (f a) (Q a js)] [first : Step o ks Q p P] : Step o ks R (p >>= f) P where
  clean := fun ok clean => by
    obtain ⟨a, t, ok, ok'⟩ := bind_eq_ok.mp ok
    exact first.clean ok ((next a []).clean ok' clean)
  run := fun h {s u b} ok clean placed took => by
    obtain ⟨a, t, ok, ok'⟩ := bind_eq_ok.mp ok
    obtain ⟨js, took', result⟩ := first.run h ok ((next a []).clean ok' clean) placed took
    exact (next a js).run result ok' clean placed took'

instance (priority := low) Step.bind_ite {c : Prop} [Decidable c] {p q : Parser α} {f : α → Parser β}
    {Q : α → List LexemeKind → Prop} {P : Prop} [∀ a js, Step o js R (f a) (Q a js)]
    [Step o ks Q (if c then p else q) P] : Step o ks R ((if c then p else q) >>= f) P := .andThen

instance (priority := low) Step.bind_bind {γ : Type} {p : Parser γ} {f : γ → Parser α} {g : α → Parser β}
    {Q : α → List LexemeKind → Prop} {P : Prop} [∀ a js, Step o js R (g a) (Q a js)]
    [Step o ks Q (p >>= f) P] : Step o ks R ((p >>= f) >>= g) P := .andThen

/-- What has been read before a state is asked for is what has been read before that state. -/
instance Step.bind_get {f : Input → Parser β} {P : {s // o.Took ks s} → Prop}
    [clean : ∀ s, Clean (f s)] [next : ∀ s : {s // o.Took ks s}, Step o ks R (f s) (P s)] :
    Step o ks R (get >>= f) (∀ s, P s) where
  clean := fun {s _ _} ok => (clean s).clean ok
  run := fun h {s _ _} ok clean placed took => (next ⟨s, took⟩).run (h ⟨s, took⟩) ok clean placed took

instance {s : {s // o.Took ks s}} : Begun o ks s := ⟨s.2⟩

/-- Tokens that are kept as written have been read. -/
instance Step.bind_since {f : List TokenTree → Parser β} {start : Input} {js : List LexemeKind}
    {P : List TokenTree → Prop} [begun : Begun o js start]
    [next : ∀ ts, Step o (js ++ TokenTree.lexemesAll ts) R (f ts) (P ts)] :
    Step o ks R (since start >>= f) (js <+: ks ∧ ∀ ts, js ++ TokenTree.lexemesAll ts = ks → P ts) where
  clean := fun {s u b} ok clean => (next _).clean ok clean
  run := fun h {s u b} ok clean placed took => by
    obtain ⟨ts, rest, eq⟩ := begun.took.between took h.1
    have taken : start.rest.take (start.rest.length - s.rest.length) = ts := by
      rw [rest, List.length_append, Nat.add_sub_cancel, List.take_left]
    change f (start.rest.take (start.rest.length - s.rest.length)) s = _ at ok
    rw [taken] at ok
    exact (next ts).run (h.2 ts eq) ok clean placed (eq ▸ took)

lemma insideThen_eq_ok {d : Delimiter} {p : Parser α} {f : α → Parser β} {s u : Input} {b : β}
    (ok : insideThen d p f s = .ok (b, u)) : ∃ inner rest a t v,
      s.rest = .group d inner :: rest ∧ p ⟨inner, s.index + 1, s.leftover⟩ = .ok (a, t) ∧
      f a ⟨rest, s.index + 2 + TokenTree.sizeAll inner, t.leftover⟩ = .ok (b, v) ∧ u.rest = v.rest ∧
      (u.leftover = none → v.leftover = none ∧ t.rest = []) := by
  unfold insideThen at ok
  split at ok
  · next e inner rest rest_eq =>
    split at ok
    · next same =>
      subst same
      split at ok
      · next a t content =>
        dsimp only at ok
        split at ok
        · next b' v after =>
          obtain ⟨rfl, rfl⟩ := Prod.mk.inj (Except.ok.inj ok)
          refine ⟨inner, rest, a, t, v, rest_eq, content, after, ?_, ?_⟩
          · split <;> rfl
          · intro clean
            split at clean
            · cases clean
            · next none_left => simpa [clean] using none_left
        · cases ok
      · cases ok
    · cases ok
  · cases ok

/-- The content of brackets is read for itself; the brackets around it are read too. -/
instance Step.insideThen {d : Delimiter} {p : Parser α} {f : α → Parser β} {Q : α → List LexemeKind → Prop}
    {P : Input → Prop} [next : ∀ a js, Step o js R (f a) (Q a js)]
    [content : ∀ o', Step o' [] (fun a js => Input.Nested js → Q a (ks ++ .opening d :: js ++ [.closing d])) p (P o')] :
    Step o ks R (insideThen d p f) (∀ o', P o') where
  clean := fun {s u b} ok clean => by
    obtain ⟨inner, rest, a, t, v, -, ok, ok', -, left⟩ := insideThen_eq_ok ok
    have clean' := (next a []).clean ok' (left clean).1
    have := (content default).clean ok clean'
    exact this
  run := fun h {s u b} ok clean placed took => by
    obtain ⟨inner, rest, a, t, v, rest_eq, ok, ok', tail, left⟩ := insideThen_eq_ok ok
    obtain ⟨clean, empty⟩ := left clean
    have clean' := (next a []).clean ok' clean
    have bracket := Input.took_cons rest_eq (s.index + 2 + TokenTree.sizeAll inner) t.leftover
    have placed' : LexemeKind.Placed (TokenTree.group d inner).lexemes := (bracket.placed (took.placed placed).2).1
    rw [TokenTree.lexemes, placed_append, placed_cons] at placed'
    obtain ⟨js, ⟨ts, inner_eq, rfl⟩, result⟩ := (content _).run (h _) ok clean'
      (show Input.Placed ⟨inner, _, _⟩ from placed'.1.2) (Input.took_self _)
    rw [empty, List.append_nil] at inner_eq
    dsimp only at inner_eq
    subst inner_eq
    obtain ⟨js, took', result'⟩ := (next a _).run (result ⟨inner, rfl⟩) ok' clean placed
      (by simpa only [TokenTree.lexemes, List.append_assoc] using took.trans bracket)
    exact ⟨js, by rwa [Input.Took, tail], result'⟩

instance Step.inside {d : Delimiter} {p : Parser β} {P : Input → Prop}
    [∀ o', Step o' [] (fun b js => Input.Nested js → R b (ks ++ .opening d :: js ++ [.closing d])) p (P o')] :
    Step o ks R (inside d p) (∀ o', P o') := by
  unfold Parser.inside
  infer_instance

instance Step.bind_inside {d : Delimiter} {p : Parser α} {f : α → Parser β} {Q : α → List LexemeKind → Prop} {P : Prop}
    [∀ a js, Step o js R (f a) (Q a js)] [Step o ks Q (Parser.inside d p) P] :
    Step o ks R (Parser.inside d p >>= f) P := .andThen

instance (priority := high) Step.bind_inside_option {d : Delimiter} {p : Parser (Option α)} {f : Option α → Parser β}
    {Q : α → List LexemeKind → Prop} {Q' : List LexemeKind → Prop} {P : Prop}
    [some : ∀ a js, Step o js R (f (some a)) (Q a js)] [none : ∀ js, Step o js R (f none) (Q' js)]
    [Step o ks (fun a js => a.elim (Q' js) (Q · js)) (Parser.inside d p) P] :
    Step o ks R (Parser.inside d p >>= f) P :=
  have (a : Option α) (js : List LexemeKind) : Step o js R (f a) (a.elim (Q' js) (Q · js)) := by
    cases a with
    | none => exact none js
    | some a => exact some a js
  .andThen

end Rules

/-! ### Elementary parsers -/

instance Clean.pure {a : α} : Clean (pure a : Parser α) where
  clean := fun ok clean => by
    cases ok
    exact clean

instance Clean.bind {p : Parser α} {f : α → Parser β} [first : Clean p] [next : ∀ a, Clean (f a)] : Clean (p >>= f) where
  clean := fun ok clean => by
    obtain ⟨a, t, ok, ok'⟩ := bind_eq_ok.mp ok
    exact first.clean ok ((next a).clean ok' clean)

instance Clean.bind_option {p : Parser (Option α)} {f : Option α → Parser β} [first : Clean p]
    [some : ∀ a, Clean (f (some a))] [none : Clean (f none)] : Clean (p >>= f) :=
  have (a : Option α) : Clean (f a) := by
    cases a with
    | none => exact none
    | some a => exact some a
  .bind

instance Clean.bind_pair {γ : Type} {p : Parser (α × γ)} {f : α × γ → Parser β} [first : Clean p]
    [next : ∀ a c, Clean (f (a, c))] : Clean (p >>= f) :=
  have (r : α × γ) : Clean (f r) := next r.1 r.2
  .bind

instance Clean.bind_triple {γ δ : Type} {p : Parser (α × γ × δ)} {f : α × γ × δ → Parser β} [first : Clean p]
    [next : ∀ a c d, Clean (f (a, c, d))] : Clean (p >>= f) :=
  have (r : α × γ × δ) : Clean (f r) := next r.1 r.2.1 r.2.2
  .bind

instance Clean.ite {c : Prop} [Decidable c] {p q : Parser α} [yes : Clean p] [no : Clean q] :
    Clean (if c then p else q) := by
  split
  · exact yes
  · exact no

instance Clean.insideThen {d : Delimiter} {p : Parser α} {f : α → Parser β} [first : Clean p] [next : ∀ a, Clean (f a)] :
    Clean (insideThen d p f) where
  clean := fun ok clean => by
    obtain ⟨inner, rest, a, t, v, -, ok, ok', -, left⟩ := insideThen_eq_ok ok
    have clean' := (next a).clean ok' (left clean).1
    have := first.clean ok clean'
    exact this

instance Clean.inside {d : Delimiter} {p : Parser α} [Clean p] : Clean (inside d p) := by
  unfold Parser.inside
  infer_instance

instance Clean.get : Clean (get : Parser Input) where
  clean := fun ok clean => by
    cases ok
    exact clean

instance Clean.since {start : Input} : Clean (since start) where
  clean := fun ok clean => by
    cases ok
    exact clean

/-- A parser that leaves its input as it is. -/
lemma reads_nothing {p : Parser α} (same : ∀ {s t : Input} {a : α}, p s = .ok (a, t) → t = s) :
    Reads p (fun _ ks => ks = []) True where
  clean := fun ok clean => same ok ▸ clean
  run := fun _ {s t a} ok _ _ => by
    obtain rfl := same ok
    exact ⟨[], t.took_self, rfl⟩

instance reads_fail : Reads (fail : Parser α) (fun _ _ => False) True where
  clean := nofun
  run := fun _ => nofun

instance reads_failAt {i : Nat} : Reads (failAt i : Parser α) (fun _ _ => False) True where
  clean := nofun
  run := fun _ => nofun

instance reads_index : Reads index (fun _ ks => ks = []) True := reads_nothing fun ok => by cases ok; rfl

instance reads_get : Reads (get : Parser Input) (fun _ ks => ks = []) True := reads_nothing fun ok => by cases ok; rfl

instance reads_sees {l : Look} : Reads (sees l) (fun _ ks => ks = []) True := reads_nothing fun ok => by cases ok; rfl

instance reads_atEnd : Reads atEnd (fun _ ks => ks = []) True := reads_nothing fun ok => by cases ok; rfl

instance reads_succeeds {p : Parser α} : Reads (succeeds p) (fun _ ks => ks = []) True :=
  reads_nothing fun {s _ _} ok => by
    rw [succeeds] at ok
    split at ok <;> cases ok <;> rfl

instance reads_ahead {p : Parser α} : Reads (ahead p) (fun _ ks => ks = []) True :=
  reads_nothing fun {s _ _} ok => by
    rw [ahead] at ok
    split at ok <;> cases ok
    rfl

instance reads_attempt {p : Parser α} {R : α → List LexemeKind → Prop} {P : Prop} [reads : Reads p R P] :
    Reads (attempt p) (fun a ks => a.elim (ks = []) (R · ks)) P where
  clean := fun {s t a} ok clean => by
    rw [attempt] at ok
    split at ok
    · next success =>
      cases ok
      exact reads.clean success clean
    · cases ok
      exact clean
  run := fun h {s t a} ok clean placed => by
    rw [attempt] at ok
    split at ok
    · next success =>
      cases ok
      exact reads.run h success clean placed
    · cases ok
      exact ⟨[], s.took_self, rfl⟩

/-- A parser whose results are told by the tokens that it takes. -/
lemma reads_tokens {p : Parser α} {R : α → List LexemeKind → Prop}
    (tokens : ∀ {s u : Input} {a : α}, p s = .ok (a, u) → u.leftover = s.leftover ∧ ∃ ts, s.rest = ts ++ u.rest ∧
      (LexemeKind.Placed (TokenTree.lexemesAll ts) → R a (TokenTree.lexemesAll ts))) : Reads p R True where
  clean := fun ok clean => (tokens ok).1 ▸ clean
  run := fun _ {s u a} ok _ placed => by
    obtain ⟨-, ts, rest, result⟩ := tokens ok
    have took : s.Took (TokenTree.lexemesAll ts) u := ⟨ts, rest, rfl⟩
    exact ⟨_, took, result (took.placed placed).1⟩

lemma reads_one {p : Parser α} {R : α → List LexemeKind → Prop}
    (one : ∀ {s u : Input} {a : α}, p s = .ok (a, u) → u.leftover = s.leftover ∧ ∃ t, s.rest = t :: u.rest ∧
      (LexemeKind.Placed t.lexemes → R a t.lexemes)) : Reads p R True :=
  reads_tokens fun ok => by
    obtain ⟨left, t, rest, result⟩ := one ok
    refine ⟨left, [t], rest, ?_⟩
    rwa [TokenTree.lexemesAll, TokenTree.lexemesAll, List.append_nil]

instance reads_next : Reads next (fun t ks => ks = t.lexemes) True :=
  reads_one fun {s _ _} ok => by
    obtain ⟨ts, i, left⟩ := s
    cases ts <;> cases ok
    exact ⟨rfl, _, rfl, fun _ => rfl⟩

instance reads_skip {n : Nat} : Reads (skip n) (fun _ _ => True) True where
  clean := fun ok clean => by
    cases ok
    exact clean
  run := fun _ {s _ _} ok _ _ => by
    cases ok
    exact ⟨_, ⟨s.rest.take n, (List.take_append_drop n s.rest).symm, rfl⟩, trivial⟩

/-- A parser that looks at what comes before it begins. -/
lemma Reads.of_get {f : Input → Parser α} {R : α → List LexemeKind → Prop} {P : Prop} (next : ∀ s, Reads (f s) R P) :
    Reads (get >>= f) R P where
  clean := fun {s _ _} ok => (next s).clean ok
  run := fun h {s _ _} ok => (next s).run h ok

/-! ### Words and operators -/

lemma of_opChars : ∀ {cs : List Char} {ts : List TokenTree}, Look.opChars cs ts = true →
    cs.length ≤ ts.length ∧ TokenTree.lexemesAll (ts.take cs.length) = cs.map ofChar
  | [c], .punct d joint :: ts, h => by
    obtain rfl : c = d := by simpa [Look.opChars] using h
    exact ⟨by simp, rfl⟩
  | c :: c' :: cs, .punct d true :: ts, h => by
    obtain ⟨rfl, more⟩ : c = d ∧ Look.opChars (c' :: cs) ts = true := by simpa [Look.opChars] using h
    obtain ⟨le, eq⟩ := of_opChars more
    exact ⟨Nat.succ_le_succ le, congrArg (ofChar c :: ·) eq⟩

/-- A parser that makes sure of what it skips. -/
lemma reads_of_look {l : Look} {n : Nat} {a : α} {ks : List LexemeKind}
    (look : ∀ {ts}, l ts = true → n ≤ ts.length ∧ TokenTree.lexemesAll (ts.take n) = ks) :
    Reads (do if ← sees l then skip n; return a else fail) (fun b js => b = a ∧ js = ks) True where
  clean := fun {s t b} ok clean => by
    change (if l s.rest then (do skip n; Pure.pure a : Parser α) else fail) s = _ at ok
    split at ok <;> cases ok
    exact clean
  run := fun _ {s t b} ok _ _ => by
    change (if l s.rest then (do skip n; Pure.pure a : Parser α) else fail) s = _ at ok
    split at ok
    · next seen =>
      cases ok
      exact ⟨ks, ⟨s.rest.take n, (List.take_append_drop n s.rest).symm, (look seen).2⟩, rfl, rfl⟩
    · cases ok

instance reads_op {s : String} : Reads (op s) (fun n ks => n = .op s ∧ ks = ofOp s) True := by
  unfold op
  refine reads_of_look fun seen => ?_
  rw [← String.length_toList]
  exact of_opChars seen

instance reads_word {s : String} : Reads (word s) (fun n ks => n = .word s ∧ ks = [.word s]) True := by
  unfold word
  refine reads_of_look fun {ts} seen => ?_
  cases ts with
  | nil => cases seen
  | cons t ts =>
    cases t with
    | word w =>
      obtain rfl : s = w := by simpa [Look.word] using seen
      exact ⟨by simp, rfl⟩
    | _ => cases seen

instance reads_anyWord : Reads anyWord (fun w ks => ks = [.word w]) True :=
  reads_one fun {s _ _} ok => by
    obtain ⟨ts, i, left⟩ := s
    cases ts with
    | nil => cases ok
    | cons t ts =>
      cases t with
      | word w =>
        cases ok
        exact ⟨rfl, _, rfl, fun _ => rfl⟩
      | _ => cases ok

instance reads_ident : Reads ident (fun w ks => ks = [.word w]) True := by
  unfold ident
  exact reads_of_step (by simp)

instance reads_lifetime : Reads lifetime SpellsType True :=
  reads_one fun {s _ _} ok => by
    obtain ⟨ts, i, left⟩ := s
    cases ts with
    | nil => cases ok
    | cons t ts =>
      cases t with
      | lifetime l =>
        cases ok
        exact ⟨rfl, _, rfl, fun _ => ⟨rfl, nofun, trivial⟩⟩
      | _ => cases ok

/-! ### Literals -/

lemma lexemes_literal {s : String} (placed : LexemeKind.Placed (TokenTree.literal s).lexemes) :
    (TokenTree.literal s).lexemes = (Leaf.literal s).lexemes := by
  rw [TokenTree.lexemes] at placed ⊢
  split at placed
  · simp at placed
  · rw [if_neg ‹_›]

/-- The lexeme of a number, which has no sign and is no truth value. -/
lemma lexemes_number {s : String} {ts : List TokenTree} (h : Look.number (.literal s :: ts) = true) :
    (Leaf.literal s).lexemes = [ofLiteral s] ∧ (Leaf.literal ("-" ++ s)).lexemes = [ofChar '-', ofLiteral s] := by
  rw [Look.number] at h
  constructor
  · rw [Leaf.lexemes, if_neg]
    · split
      · next signed =>
        rw [signed] at h
        cases h
      · rfl
    · rintro (rfl | rfl) <;> cases h
  · rw [Leaf.lexemes, if_neg]
    · simp [String.toList_append]
    · rintro (eq | eq) <;> simpa using congrArg (String.toList · |>.head?) eq

instance reads_literal : Reads literal SpellsType True :=
  reads_tokens fun {s u n} ok => by
    obtain ⟨ts, i, left⟩ := s
    obtain ⟨_, _, same, ok⟩ := bind_eq_ok.mp ok
    cases same
    dsimp only at ok
    split at ok
    · next =>
      cases ok
      refine ⟨rfl, [_], rfl, fun placed => ⟨?_, nofun, trivial⟩⟩
      rw [TokenTree.lexemesAll, TokenTree.lexemesAll, List.append_nil] at placed ⊢
      exact lexemes_literal placed
    · next =>
      split at ok
      · next truth =>
        cases ok
        refine ⟨rfl, [_], rfl, fun _ => ⟨?_, nofun, trivial⟩⟩
        change [LexemeKind.word _] = (Leaf.literal _).lexemes
        rw [Leaf.lexemes, if_pos (by simpa using truth)]
      · cases ok
    · next =>
      split at ok
      · next number =>
        cases ok
        refine ⟨rfl, [_, _], rfl, fun placed => ⟨?_, nofun, trivial⟩⟩
        simp only [TokenTree.lexemesAll, List.append_nil, placed_append] at placed ⊢
        rw [lexemes_literal placed.2, (lexemes_number number).1]
        exact (lexemes_number number).2.symm
      · cases ok
    · cases ok

section Results

variable {f : α → List LexemeKind} {W : α → Prop} {P : Prop}

/-- A parser whose results have one spelling each. -/
class Spelt (p : Parser α) (f : outParam (α → List LexemeKind)) (W : outParam (α → Prop)) (P : outParam Prop) : Prop where
  reads : Reads p (fun a ks => ks = f a ∧ W a) P

instance (priority := high) Spelt.of_reads {p : Parser α} [reads : Reads p (fun a ks => ks = f a ∧ W a) P] :
    Spelt p f W P := ⟨reads⟩

instance (priority := low) Spelt.of_step [Spelled α] {p : Parser α} {P : Input → Prop}
    [∀ o, Step o [] Spells p (P o)] : Spelt p Spelled.lexemes Spelled.Sound (∀ o, P o) := ⟨reads_of_step id⟩

instance reads_whenSees {l : Look} {p : Parser Node} {f : Node → List LexemeKind} {W : Node → Prop}
    [Reads p (fun n ks => ks = f n ∧ W n) P] :
    Reads (whenSees l p) (fun n ks => ks = f n ∧ W n) (P ∧ f .absent = [] ∧ W .absent) := by
  unfold whenSees
  refine reads_of_step ?_
  simp +contextual

instance Clean.whenSees {l : Look} {p : Parser Node} [clean : Clean p] : Clean (Parser.whenSees l p) where
  clean := fun {s t n} ok => by
    change (if l s.rest then p else Pure.pure .absent : Parser Node) s = _ at ok
    split at ok
    · exact clean.clean ok
    · exact Clean.pure.clean ok

instance Step.whenSees {o : Input} {ks : List LexemeKind} {R : Node → List LexemeKind → Prop} {l : Look} {p : Parser Node}
    {P : Prop} [step : Step o ks R p P] : Step o ks R (Parser.whenSees l p) (P ∧ R .absent ks) where
  clean := fun {s t n} ok clean => by
    change (if l s.rest then p else Pure.pure .absent : Parser Node) s = _ at ok
    split at ok
    · exact step.clean ok clean
    · exact Clean.pure.clean ok clean
  run := fun h {s t n} ok clean placed took => by
    change (if l s.rest then p else Pure.pure .absent : Parser Node) s = _ at ok
    split at ok
    · exact step.run h.1 ok clean placed took
    · exact Step.pure.run h.2 ok clean placed took

instance (priority := 50) Step.bind_whenSees {β : Type} {o : Input} {ks : List LexemeKind}
    {R : β → List LexemeKind → Prop} {l : Look} {p : Parser Node} {f : Node → Parser β} {Q : Node → List LexemeKind → Prop}
    {P : Prop} [∀ n js, Step o js R (f n) (Q n js)] [Step o ks Q (Parser.whenSees l p) P] :
    Step o ks R (Parser.whenSees l p >>= f) P := .andThen

instance reads_op? {s : String} : Reads (op? s) (fun n ks => ks = n.lexemes ∧ (n = .absent ∨ n = .op s)) True := by
  unfold op?
  refine reads_of_step ?_
  simp

instance reads_word? {s : String} : Reads (word? s)
    (fun n ks => ks = n.lexemes ∧ n.IsType ∧ (n.isAbsent = false → n.lexemes = [.word s])) True := by
  unfold word?
  refine reads_of_step ?_
  simp

instance reads_lifetime? : Reads lifetime? SpellsType True := by
  unfold lifetime?
  refine reads_of_step ?_
  simp +contextual

instance reads_group {d : Delimiter} {p : Parser (List Node)} {f : List Node → List LexemeKind} {W : List Node → Prop}
    [spelt : Spelt p f W P] : Reads (group d p) (fun n ks => ks = n.lexemes ∧ n.IsType ∧ ∃ ns, n = .group d ns ∧ W ns)
      (P ∧ ∀ ns, f ns = Node.lexemesAll ns) := by
  have := spelt.reads
  unfold group
  refine reads_of_step ?_
  simp +contextual [Node.lexemes, Node.isAbsent]

instance reads_rawGroup :
    Reads rawGroup (fun n ks => ks = n.lexemes ∧ n.IsType ∧ ∃ d ts, n = .raw [.group d ts]) True :=
  reads_one fun {s u n} ok => by
    obtain ⟨ts, i, left⟩ := s
    match ts, ok with
    | .group d inner :: ts, ok =>
      cases ok
      exact ⟨rfl, _, rfl, fun _ => ⟨(List.append_nil _).symm, ⟨nofun, Node.closes_rawGroup⟩, d, inner, rfl⟩⟩

instance reads_rawBraces :
    Reads rawBraces (fun n ks => ks = n.lexemes ∧ ∃ ts, n = .raw [.group .brace ts]) True :=
  reads_one fun {s u n} ok => by
    obtain ⟨ts, i, left⟩ := s
    match ts, ok with
    | .group .brace inner :: ts, ok =>
      cases ok
      exact ⟨rfl, _, rfl, fun _ => ⟨(List.append_nil _).symm, inner, rfl⟩⟩

/-- Repeated steps are spelled one after the other. -/
lemma reads_repeatFor {R : α → List LexemeKind → Prop} {p : Parser (Option α)}
    [step : Reads p (fun a ks => (∀ b, a = some b → R b ks) ∧ (a = none → ks = [])) P] (n : Nat) :
    Reads (repeatFor p n) (fun as ks => ∃ kss, List.Forall₂ R as kss ∧ ks = kss.flatten) P := by
  induction n with
  | zero =>
    unfold repeatFor
    exact reads_of_step (by simp)
  | succ n ih =>
    unfold repeatFor
    refine reads_of_step fun h _ => ?_
    refine ⟨h, fun a js first => ⟨h, ?_⟩, fun js nothing => ⟨[], .nil, nothing.2 rfl⟩⟩
    rintro as _ ⟨kss, rest, rfl⟩
    exact ⟨js :: kss, .cons (first.1 a rfl) rest, rfl⟩

lemma forall₂_flatten {as : List α} {kss : List (List LexemeKind)}
    (h : List.Forall₂ (fun a ks => ks = f a ∧ W a) as kss) : kss.flatten = as.flatMap f ∧ ∀ a ∈ as, W a := by
  induction h with
  | nil => simp
  | cons first _ ih => simpa [first, ih.1] using ih.2

lemma reads_many {p : Parser (Option α)}
    [step : Reads p (fun a ks => (∀ b, a = some b → ks = f b ∧ W b) ∧ (a = none → ks = [])) P] :
    Reads (many p) (fun as ks => ks = as.flatMap f ∧ ∀ a ∈ as, W a) P where
  clean := fun {s _ _} ok => (reads_repeatFor (s.rest.length + 1)).clean ok
  run := fun h {s _ _} ok clean placed => by
    obtain ⟨ks, took, kss, each, rfl⟩ := (reads_repeatFor (s.rest.length + 1)).run h ok clean placed
    exact ⟨_, took, forall₂_flatten each⟩

instance reads_manyWhile {l : Look} {p : Parser α} [spelt : Spelt p f W P] :
    Reads (manyWhile l p) (fun as ks => ks = as.flatMap f ∧ ∀ a ∈ as, W a) P := by
  have := spelt.reads
  unfold manyWhile
  have : Reads (do if ← sees l then return some (← p) else return none)
      (fun a ks => (∀ b, a = some b → ks = f b ∧ W b) ∧ (a = none → ks = [])) P :=
    reads_of_step (by simp +contextual)
  exact reads_many

instance reads_manyToEnd {p : Parser α} [spelt : Spelt p f W P] :
    Reads (manyToEnd p) (fun as ks => ks = as.flatMap f ∧ ∀ a ∈ as, W a) P := by
  have := spelt.reads
  unfold manyToEnd
  have : Reads (do if ← atEnd then return none else return some (← p))
      (fun a ks => (∀ b, a = some b → ks = f b ∧ W b) ∧ (a = none → ks = [])) P :=
    reads_of_step (by simp +contextual)
  exact reads_many

end Results

section Lists

variable {sep : String} {stop : Parser Bool} {p : Parser Node} {f : Node → List LexemeKind} {W : Node → Prop} {P : Prop}

/-- Elements and the separators between them are spelled one after the other. -/
lemma reads_separatedFor [Reads stop (fun _ ks => ks = []) True] [spelt : Spelt p f W P] (n : Nat) :
    Reads (separatedFor sep stop p n) (fun ns ks => ks = Node.lexemesAll ns ∧ ∀ n ∈ ns, n = .op sep ∨ W n)
      (P ∧ ∀ n, f n = n.lexemes) := by
  have := spelt.reads
  induction n with
  | zero =>
    unfold separatedFor
    exact reads_of_step (by simp [Node.lexemesAll])
  | succ n ih =>
    unfold separatedFor
    refine reads_of_step ?_
    simp +contextual [Node.lexemesAll]

instance reads_separated [Reads stop (fun _ ks => ks = []) True] [spelt : Spelt p f W P] :
    Reads (separated sep stop p) (fun ns ks => ks = Node.lexemesAll ns ∧ ∀ n ∈ ns, n = .op sep ∨ W n)
      (P ∧ ∀ n, f n = n.lexemes) where
  clean := fun {s _ _} ok => (reads_separatedFor (s.rest.length + 1)).clean ok
  run := fun h {s _ _} ok => (reads_separatedFor (s.rest.length + 1)).run h ok

instance reads_commaList [Spelt p f W P] :
    Reads (commaList p) (fun ns ks => ks = Node.lexemesAll ns ∧ ∀ n ∈ ns, n = .op "," ∨ W n)
      (P ∧ ∀ n, f n = n.lexemes) := by
  unfold commaList
  infer_instance

lemma reads_plusFor {stop : Look} [spelt : Spelt p f W P] (n : Nat) :
    Reads (plusFor stop p n) (fun ns ks => ks = Node.lexemesAll ns ∧ ∀ n ∈ ns, n = .op "+" ∨ W n)
      (P ∧ ∀ n, f n = n.lexemes) := by
  have := spelt.reads
  induction n with
  | zero =>
    unfold plusFor
    exact reads_of_step (by simp [Node.lexemesAll])
  | succ n ih =>
    unfold plusFor
    refine reads_of_step ?_
    simp +contextual [Node.lexemesAll]

instance reads_plusList {stop : Look} [spelt : Spelt p f W P] :
    Reads (plusList stop p) (fun ns ks => ks = Node.lexemesAll ns ∧ ∀ n ∈ ns, n = .op "+" ∨ W n)
      (P ∧ ∀ n, f n = n.lexemes) where
  clean := fun {s _ _} ok => (reads_plusFor (s.rest.length + 1)).clean ok
  run := fun h {s _ _} ok => (reads_plusFor (s.rest.length + 1)).run h ok

end Lists

end Parser

end SourceGen
