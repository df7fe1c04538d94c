import Mathlib.Tactic.Lemma
import SourceGen.Proofs.Text.Quoted
import SourceGen.Token.Text

/-!
# Where tokens start in a token text

A blank of a token text is between two tokens, or a token holds it: a text literal, which has a quote behind the
blank, or a pair of brackets, which has its end there. So what stands behind a blank without a quote or the end of
brackets is not the end of a longer token (`Row.of_blank`), and neither is a string (`Row.of_quoted`). This tells which
braces of a token text can end like a line of a dependency table (`eq_of_path`).
-/

namespace SourceGen

open SourceGen.Text

/-- The characters that end what can hold a blank. -/
def closers : List Char := ['"', '\'', ')', ']', '\x7d']

/-- What all tokens of a token text, pairs of brackets included, have in common. -/
structure IsToken (t : List Char) : Prop where
  last : ∀ c ∈ t.getLast?, c ∉ [' ', '\\', '\x7b']
  /-- A blank inside has its end behind it. -/
  blank : ∀ a b, t = a ++ ' ' :: b → ∃ c ∈ b, c ∈ closers
  /-- A quote at the end has its partner, and what is between them holds quotes only behind backslashes. -/
  string : ∀ a, t = a ++ ['"'] → ∃ front body, a = front ++ '"' :: body ∧ guarded '"' body = true ∧
    ∀ c ∈ front.getLast?, c ∉ [' ', '\\']

namespace IsToken

/-- What has no blank, no quote, no backslash and no brace is a token. -/
lemma of_plain {t : List Char} (plain : ∀ c ∈ t, c ∉ [' ', '\\', '\x7b', '"']) : IsToken t where
  last := by
    intro c last
    have := plain c (List.mem_of_getLast? last)
    simp_all
  blank := by
    rintro a b rfl
    exact absurd List.mem_cons_self (plain ' ' (by simp))
  string := by
    rintro a rfl
    exact absurd (by simp) (plain '"' (by simp))

@[simp] lemma of_all {t : List Char} (plain : (t.all fun c => c ∉ [' ', '\\', '\x7b', '"']) = true) : IsToken t :=
  .of_plain fun c hc => of_decide_eq_true (List.all_eq_true.mp plain c hc)

/-- What ends in a bracket is a token. -/
lemma of_bracket {t : List Char} {c : Char} (h : c ∈ [')', ']', '\x7d']) : IsToken (t ++ [c]) where
  last := by
    intro d last
    rw [List.getLast?_concat, Option.mem_some_iff] at last
    subst last
    rcases (by simpa using h : c = ')' ∨ c = ']' ∨ c = '\x7d') with rfl | rfl | rfl <;> decide
  blank := by
    intro a b eq
    have closes : c ∈ closers := List.mem_cons_of_mem _ (List.mem_cons_of_mem _ h)
    rcases b.eq_nil_or_concat with rfl | ⟨b, d, rfl⟩
    · cases (List.append_inj' eq rfl).2
      simp at h
    · rw [List.concat_eq_append, ← List.cons_append, ← List.append_assoc] at eq
      cases (List.append_inj' eq rfl).2
      exact ⟨c, by simp, closes⟩
  string := by
    intro a eq
    cases (List.append_inj' eq rfl).2
    simp at h

end IsToken

lemma getLast?_of_guarded {last : Char} {x y : List Char} (h : guarded last (x ++ '"' :: y) = true) :
    (last :: x).getLast? = some '\\' := by
  induction x generalizing last with
  | nil => simp_all [guarded]
  | cons c x ih =>
    rw [List.getLast?_cons_cons]
    exact ih (Bool.and_eq_true_iff.mp h).2

/-- A text from `G` on: blanks and tokens, one behind the other. -/
inductive Row (G : List Char) : List Char → Prop
  | start : Row G G
  | blank {xs : List Char} (row : Row G xs) : Row G (xs ++ [' '])
  | token {xs t : List Char} (row : Row G xs) (token : IsToken t) : Row G (xs ++ t)

namespace Row

variable {H xs a w : List Char}

/-- What does not end in a blank ends in a token, or it is the start. -/
lemma of_concat {G : List Char} {c : Char} (row : Row G (a ++ [c])) (visible : c ≠ ' ') :
    G = a ++ [c] ∨ ∃ ys t, Row G ys ∧ IsToken (t ++ [c]) ∧ a = ys ++ t := by
  generalize eq : a ++ [c] = xs at row
  induction row with
  | start => exact .inl rfl
  | blank => exact absurd (List.append_inj' eq rfl).2 (by simpa using visible)
  | @token ys t row token ih =>
    rcases t.eq_nil_or_concat with rfl | ⟨t, d, rfl⟩
    · rw [List.append_nil] at eq ⊢
      exact ih eq
    · rw [List.concat_eq_append] at token eq
      rw [← List.append_assoc] at eq
      obtain ⟨rfl, ⟨⟩⟩ := List.append_inj' eq rfl
      exact .inr ⟨ys, t, row, token, rfl⟩

/-- What ends in a blank has a row before it, or it is the start. -/
lemma of_concat_blank {G : List Char} (row : Row G (a ++ [' '])) : G = a ++ [' '] ∨ Row G a := by
  generalize eq : a ++ [' '] = xs at row
  induction row with
  | start => exact .inl rfl
  | blank row =>
    obtain ⟨rfl, -⟩ := List.append_inj' eq rfl
    exact .inr row
  | @token ys t row token ih =>
    rcases t.eq_nil_or_concat with rfl | ⟨t, d, rfl⟩
    · rw [List.append_nil] at eq ⊢
      exact ih eq
    · rw [List.concat_eq_append] at token eq
      rw [← List.append_assoc] at eq
      obtain ⟨-, ⟨⟩⟩ := List.append_inj' eq rfl
      exact absurd (List.mem_cons_self) (token.last ' ' (by simp))

/-- No backslash is before a token. -/
lemma last_ne_backslash (row : Row (H ++ [' ']) xs) : ∀ c ∈ xs.getLast?, c ≠ '\\' := by
  induction row with
  | start => simp
  | blank => simp
  | @token ys t row token ih =>
    intro c last
    rcases t.eq_nil_or_concat with rfl | ⟨t, d, rfl⟩
    · exact ih c (by simpa using last)
    · have := token.last c (by simpa using last)
      simp_all

/-- Behind a blank stand whole tokens, if there is no quote and no end of brackets. -/
lemma of_blank (row : Row (H ++ [' ']) (a ++ ' ' :: w)) (plain : ∀ c ∈ w, c ≠ ' ' ∧ c ∉ closers) :
    H = a ∨ Row (H ++ [' ']) a := by
  induction len : w.length using Nat.strongRecOn generalizing w with
  | ind n ih =>
    rcases w.eq_nil_or_concat with rfl | ⟨w, c, rfl⟩
    · exact (of_concat_blank row).imp_left fun eq => (List.append_inj' eq rfl).1
    · rw [List.concat_eq_append] at row plain len
      obtain ⟨visible, open_⟩ := plain c (by simp)
      have row' : Row (H ++ [' ']) ((a ++ ' ' :: w) ++ [c]) := by simpa using row
      rcases of_concat row' visible with start | ⟨ys, t, before, token, eq⟩
      · obtain ⟨-, ⟨⟩⟩ := List.append_inj' start rfl
        exact absurd rfl visible
      -- the last token stands behind the blank, since a blank in it had its end there
      have inside (b : List Char) (here : t = b ++ ' ' :: w) : False := by
        obtain ⟨d, there, closes⟩ := token.blank b (w ++ [c]) (by simp [here])
        exact (plain d there).2 closes
      rcases List.append_eq_append_iff.mp eq with ⟨x, rfl, here⟩ | ⟨x, rfl, here⟩
      · cases x with
        | nil => exact (inside [] here.symm).elim
        | cons d x =>
          obtain ⟨rfl, rfl⟩ := List.cons.inj here
          refine ih x.length ?_ before (fun e he => plain e (by simp [he])) rfl
          rw [← len]
          simp
      · exact (inside x here).elim

/-- Behind a blank a string is a token. -/
lemma of_quoted {s : String} (row : Row (H ++ [' ']) (a ++ ' ' :: (quoted s).toList)) :
    Row (H ++ [' ']) (a ++ [' ']) := by
  rw [toList_quoted] at row
  have row : Row (H ++ [' ']) ((a ++ ' ' :: '"' :: s.toList.flatMap escapeChar) ++ ['"']) := by simpa using row
  rcases of_concat row (by decide) with start | ⟨ys, t, before, token, eq⟩
  · cases (List.append_inj' start rfl).2
  obtain ⟨front, body, rfl, guard, last⟩ := token.string t rfl
  have eq : (a ++ [' ']) ++ '"' :: s.toList.flatMap escapeChar = (ys ++ front) ++ '"' :: body := by simpa using eq
  have front_ends : ∀ c ∈ (ys ++ front).getLast?, c ≠ '\\' := by
    rcases front.eq_nil_or_concat with rfl | ⟨front, d, rfl⟩
    · simpa using last_ne_backslash before
    · have := last d (by simp)
      simp_all
  -- the string starts where the token has its first quote, since both guard the quotes behind it
  have same : a ++ [' '] = ys ++ front := by
    rcases List.append_eq_append_iff.mp eq with ⟨x, whole, behind⟩ | ⟨x, whole, behind⟩
    · cases x with
      | nil => simp [whole]
      | cons d x =>
        obtain ⟨rfl, inside⟩ := List.cons.inj behind
        have escaped := getLast?_of_guarded (inside ▸ guarded_escapeAll s.toList '"')
        exact absurd rfl (front_ends '\\' (by simp [whole, List.getLast?_append, escaped]))
    · cases x with
      | nil => simp [whole]
      | cons d x =>
        obtain ⟨rfl, inside⟩ := List.cons.inj behind
        have escaped := getLast?_of_guarded (inside ▸ guard)
        have blank := congrArg List.getLast? whole
        rw [List.getLast?_concat, List.getLast?_append, escaped] at blank
        cases blank
  rcases front.eq_nil_or_concat with rfl | ⟨front, d, rfl⟩
  · rw [List.append_nil] at same
    exact same ▸ before
  · rw [List.concat_eq_append, ← List.append_assoc] at same
    obtain ⟨-, ⟨⟩⟩ := List.append_inj' same rfl
    exact absurd (by simp) (last ' ' (by simp))

end Row

/-! ### Printed tokens -/

namespace Piece

lemma joinFrom_append (touch : Bool) (ps qs : List Piece) :
    joinFrom touch (ps ++ qs) = joinFrom touch ps ++ joinFrom ((ps.getLast?.map joint).getD touch) qs := by
  induction ps generalizing touch with
  | nil => simp [joinFrom]
  | cons p ps ih =>
    rw [List.cons_append, joinFrom, joinFrom, ih, String.append_assoc]
    cases ps <;> rfl

/-- A printed token, after which no blank is left out unless it has a text. -/
structure IsSound (p : Piece) : Prop where
  token : IsToken p.text.toList
  joint : p.joint = true → p.text ≠ ""

/-- Whether printed tokens are tokens. -/
def AllSound (ps : List Piece) : Prop := ∀ p ∈ ps, p.IsSound

variable {s : String} {ps qs : List Piece}

@[simp] lemma allSound_nil : AllSound [] := List.forall_mem_nil _

@[simp] lemma allSound_cons {p : Piece} : AllSound (p :: ps) ↔ p.IsSound ∧ AllSound ps := List.forall_mem_cons

@[simp] lemma allSound_append : AllSound (ps ++ qs) ↔ AllSound ps ∧ AllSound qs := List.forall_mem_append

lemma allSound_flatMap {α : Type} {xs : List (α × List Piece)} (h : ∀ x ∈ xs, AllSound x.2) :
    AllSound (xs.flatMap (·.2)) := by
  intro p hp
  obtain ⟨x, hx, hp⟩ := List.mem_flatMap.mp hp
  exact h x hx p hp

@[simp] lemma isSound_alone : (alone s).IsSound ↔ IsToken s.toList := ⟨IsSound.token, fun h => ⟨h, nofun⟩⟩

@[simp] lemma isSound_enclose (d : Delimiter) (content : List Piece) : (d.enclose content).IsSound := by
  cases d with
  | paren =>
    rw [Delimiter.enclose, isSound_alone, String.toList_append]
    exact .of_bracket (by decide)
  | bracket =>
    rw [Delimiter.enclose, isSound_alone, String.toList_append]
    exact .of_bracket (by decide)
  | brace =>
    rw [Delimiter.enclose, isSound_alone, String.toList_append]
    split
    · exact .of_bracket (by decide)
    · rw [show " \x7d".toList = [' '] ++ ['\x7d'] from rfl, ← List.append_assoc]
      exact .of_bracket (by decide)

lemma row_joinFrom {G xs : List Char} (row : Row G xs) (touch : Bool) (sound : AllSound ps) :
    Row G (xs ++ (joinFrom touch ps).toList) := by
  induction ps generalizing xs touch with
  | nil => simpa [joinFrom]
  | cons p ps ih =>
    obtain ⟨first, rest⟩ := allSound_cons.mp sound
    rw [joinFrom, String.toList_append, ← List.append_assoc]
    refine ih ?_ p.joint rest
    cases touch with
    | true => exact .token row first.token
    | false =>
      have apart := Row.token (.blank row) first.token
      simpa [String.toList_append] using apart

end Piece

/-- Braces that end like those of a path in a dependency table have ` = ` before them. -/
lemma eq_of_path {head front : List Char} {content : List Piece} {s : String} (sound : Piece.AllSound content)
    (eq : head ++ "\x7b ".toList ++ (Piece.join content).toList =
      front ++ " = \x7b path = ".toList ++ (quoted s).toList) :
    head = front ++ " = ".toList := by
  have row : Row (head ++ ['\x7b'] ++ [' ']) (front ++ " = \x7b path =".toList ++ ' ' :: (quoted s).toList) := by
    have whole := Piece.row_joinFrom (.start (G := head ++ "\x7b ".toList)) true sound
    rw [show Piece.joinFrom true content = Piece.join content from rfl, eq] at whole
    simpa using whole
  rcases Row.of_blank (w := []) row.of_quoted (List.forall_mem_nil _) with start | row
  · cases (List.append_inj' (start.trans (by simp : _ = (front ++ " = \x7b path ".toList) ++ ['='])) rfl).2
  have row : Row (head ++ ['\x7b'] ++ [' ']) (front ++ " = \x7b path".toList ++ ' ' :: "=".toList) := by simpa using row
  rcases row.of_blank (by simp [closers]) with start | row
  · cases (List.append_inj' (start.trans (by simp : _ = (front ++ " = \x7b pat".toList) ++ ['h'])) rfl).2
  have row : Row (head ++ ['\x7b'] ++ [' ']) (front ++ " = \x7b".toList ++ ' ' :: "path".toList) := by simpa using row
  rcases row.of_blank (by simp [closers]) with start | row
  · exact (List.append_inj' (start.trans (by simp : _ = (front ++ " = ".toList) ++ ['\x7b'])) rfl).1
  have row : Row (head ++ ['\x7b'] ++ [' ']) (front ++ " = ".toList ++ ['\x7b']) := by simpa using row
  rcases row.of_concat (by decide) with start | ⟨_, t, -, token, -⟩
  · cases (List.append_inj' start rfl).2
  · exact absurd (by simp) (token.last '\x7b' (by simp))

namespace Piece

/-! ### Ends of token texts -/

/-- A text that does not end in `=`, nor does what it is put behind then. -/
def Closed (ps : List Piece) : Prop := ∀ touch, (joinFrom touch ps).toList.getLast? ≠ some '='

variable {ps qs : List Piece} {p : Piece}

@[simp] lemma closed_nil : Closed [] := fun _ => nofun

lemma Closed.append (left : Closed ps) (right : Closed qs) : Closed (ps ++ qs) := by
  intro touch
  rw [joinFrom_append, String.toList_append, List.getLast?_append]
  have right := right ((ps.getLast?.map joint).getD touch)
  cases last : (joinFrom ((ps.getLast?.map joint).getD touch) qs).toList.getLast? with
  | none => exact left touch
  | some c => rwa [last] at right

lemma closed_singleton (h : p.text.toList.getLast? ≠ some '=') : Closed [p] := by
  intro touch
  cases touch with
  | true => simpa [joinFrom] using h
  | false =>
    rw [joinFrom, joinFrom, String.append_empty, if_neg (by decide), String.toList_append, List.getLast?_append]
    cases last : p.text.toList.getLast? with
    | none => decide
    | some c => rwa [last] at h

lemma Closed.cons (first : p.text.toList.getLast? ≠ some '=') (rest : Closed ps) : Closed (p :: ps) :=
  (closed_singleton first).append rest

/-- The last text decides, unless it is empty. -/
lemma getLast?_joinFrom_concat (touch : Bool) (ps : List Piece) {c : Char} (h : p.text.toList.getLast? = some c) :
    (joinFrom touch (ps ++ [p])).toList.getLast? = some c := by
  rw [joinFrom_append, String.toList_append, List.getLast?_append, joinFrom, joinFrom, String.append_empty]
  split
  · rw [h, Option.some_or]
  · rw [String.toList_append, List.getLast?_append, h, Option.some_or, Option.some_or]

lemma closed_concat (ps : List Piece) {c : Char} (h : p.text.toList.getLast? = some c) (other : c ≠ '=') :
    Closed (ps ++ [p]) := by
  intro touch
  rw [getLast?_joinFrom_concat touch ps h]
  exact fun eq => other (Option.some.inj eq)

@[simp] lemma getLast?_enclose (d : Delimiter) (content : List Piece) :
    (d.enclose content).text.toList.getLast? = d.closing.toList.getLast? := by
  cases d with
  | paren | bracket =>
    rw [Delimiter.enclose, alone, String.toList_append, List.getLast?_append]
    rfl
  | brace =>
    rw [Delimiter.enclose, alone, String.toList_append, List.getLast?_append]
    split <;> rfl

lemma closed_enclose (d : Delimiter) (content : List Piece) : Closed [d.enclose content] := by
  apply closed_singleton
  rw [getLast?_enclose]
  cases d <;> decide

/-- A text ends in `;`, in a square bracket, or in braces behind what does not end in `=`. -/
def Finished (ps : List Piece) : Prop :=
  ∃ init p, ps = init ++ [p] ∧ (p.text.toList.getLast? = some ';' ∨ p.text.toList.getLast? = some ']' ∨
    ∃ content, p = Delimiter.brace.enclose content ∧ Closed init ∧ AllSound content)

lemma join_concat (ps : List Piece) (p : Piece) : (join (ps ++ [p])).toList =
    (join ps).toList ++ (if (ps.getLast?.map joint).getD true then [] else [' ']) ++ p.text.toList := by
  rw [join, joinFrom_append, joinFrom, joinFrom, String.append_empty, String.toList_append]
  split <;> simp [join, *]

lemma toList_brace {content : List Piece} (some_there : content ≠ []) : (Delimiter.brace.enclose content).text.toList =
    "\x7b ".toList ++ (join content).toList ++ " \x7d".toList := by
  rw [Delimiter.enclose, alone, String.toList_append, String.toList_append, if_neg (by simpa using some_there)]

/-- What is before braces does not end in `=` and a blank. -/
lemma Closed.ne_equals (closed : Closed ps) (sound : AllSound ps) (front : List Char) :
    (join ps).toList ++ (if (ps.getLast?.map joint).getD true then [] else [' ']) ≠ front ++ " = ".toList := by
  have blank : " = ".toList = [' ', '='] ++ [' '] := rfl
  intro eq
  rw [blank, ← List.append_assoc] at eq
  split at eq
  · next touches =>
    rcases ps.eq_nil_or_concat with rfl | ⟨ps, p, rfl⟩
    · simp [join, joinFrom] at eq
    · rw [List.concat_eq_append] at touches eq sound
      obtain ⟨token, joint⟩ := (allSound_append.mp sound).2 p List.mem_cons_self
      have touches : p.joint = true := by simpa using touches
      have some_there : p.text.toList ≠ [] := by simpa using joint touches
      have last := List.getLast?_eq_some_getLast some_there
      have ends := congrArg List.getLast? eq
      rw [List.append_nil, join, getLast?_joinFrom_concat true ps last, List.getLast?_concat] at ends
      exact absurd (by simp) (token.last ' ' (last.trans ends))
  · refine closed true ?_
    rw [show joinFrom true ps = join ps from rfl, (List.append_inj' eq rfl).1]
    simp [List.getLast?_append]

namespace Finished

/-- Behind what does not end in `=`, a text ends as before. -/
lemma append (finished : Finished qs) (closed : Closed ps) : Finished (ps ++ qs) := by
  obtain ⟨init, p, rfl, ends⟩ := finished
  refine ⟨ps ++ init, p, (List.append_assoc _ _ _).symm, ends.imp_right (Or.imp_right ?_)⟩
  rintro ⟨content, rfl, closed', sound⟩
  exact ⟨content, rfl, closed.append closed', sound⟩

lemma getLast?_join (finished : Finished ps) (touch : Bool) :
    ∃ c ∈ [';', ']', '\x7d'], (joinFrom touch ps).toList.getLast? = some c := by
  obtain ⟨init, p, rfl, semi | bracket | ⟨content, rfl, -, -⟩⟩ := finished
  · exact ⟨';', by simp, getLast?_joinFrom_concat touch init semi⟩
  · exact ⟨']', by simp, getLast?_joinFrom_concat touch init bracket⟩
  · exact ⟨'\x7d', by simp, getLast?_joinFrom_concat touch init (getLast?_enclose .brace content)⟩

lemma closed (finished : Finished ps) : Closed ps := by
  intro touch
  obtain ⟨c, closing, last⟩ := finished.getLast?_join touch
  rw [last]
  rintro ⟨⟩
  simp at closing

/-- No text that ends so is the line of a path in a dependency table. -/
lemma ne_path (finished : Finished ps) (sound : AllSound ps) (front : List Char) (s : String) :
    (join ps).toList ≠ front ++ " = \x7b path = ".toList ++ (quoted s).toList ++ " \x7d".toList := by
  obtain ⟨init, p, rfl, ends⟩ := finished
  have last (c : Char) (h : p.text.toList.getLast? = some c) (eq : (join (init ++ [p])).toList =
      front ++ " = \x7b path = ".toList ++ (quoted s).toList ++ " \x7d".toList) : c = '\x7d' := by
    have here := congrArg List.getLast? eq
    rw [join, getLast?_joinFrom_concat true init h, List.getLast?_append] at here
    exact Option.some.inj here
  rcases ends with semi | bracket | ⟨content, rfl, closed, inside⟩
  · exact fun eq => absurd (last _ semi eq) (by decide)
  · exact fun eq => absurd (last _ bracket eq) (by decide)
  · intro eq
    rw [join_concat] at eq
    by_cases empty : content = []
    · subst empty
      have braces : (Delimiter.brace.enclose []).text.toList = ['\x7b', ' ', '\x7d'] := by
        simp [Delimiter.enclose, join, joinFrom, alone]
      have string : (quoted s).toList ++ " \x7d".toList = ('"' :: s.toList.flatMap escapeChar) ++ ['"', ' ', '\x7d'] := by
        simp [toList_quoted]
      rw [braces, List.append_assoc _ (quoted s).toList, string, ← List.append_assoc _ ('"' :: _)] at eq
      cases (List.append_inj' eq rfl).2
    · rw [toList_brace empty, ← List.append_assoc, ← List.append_assoc] at eq
      exact closed.ne_equals (allSound_append.mp sound).1 front (eq_of_path inside (List.append_cancel_right eq))

end Finished

end Piece

end SourceGen
