import Mathlib.Logic.Basic
import Mathlib.Tactic.Lemma
import SourceGen.Syntax.Parser.Pattern
import SourceGen.Token.Spacing

/-!
# What tests see of spacing

Relaxing tokens keeps their number, their sizes and their texts. A test of the grammar looks at spacing
inside operators only, so it gives the same answer on relaxed tokens (`Look.Blind`).
-/

namespace SourceGen

namespace TokenTree

mutual

/-- Forgetting layout before all spacing makes no difference. -/
lemma unspaced_relaxBefore (after : List TokenTree) :
    ∀ t : TokenTree, (t.relaxBefore after).unspaced = t.unspaced
  | .word _ | .lifetime _ | .literal _ | .punct _ _ => rfl
  | .group d inner => congrArg (TokenTree.group d) (unspacedAll_relax inner)

/-- Forgetting layout before all spacing makes no difference for trees in a row. -/
lemma unspacedAll_relax : ∀ ts : List TokenTree, unspacedAll (relax ts) = unspacedAll ts
  | [] => rfl
  | t :: ts => congrArg₂ List.cons (unspaced_relaxBefore ts t) (unspacedAll_relax ts)

end

mutual

/-- Forgetting layout keeps the size of a tree. -/
lemma size_relaxBefore (after : List TokenTree) : ∀ t : TokenTree, (t.relaxBefore after).size = t.size
  | .word _ | .lifetime _ | .literal _ | .punct _ _ => rfl
  | .group _ inner => congrArg (2 + ·) (sizeAll_relax inner)

/-- Forgetting layout keeps the size of trees in a row, so the parser's bound on depth is the same. -/
lemma sizeAll_relax : ∀ ts : List TokenTree, sizeAll (relax ts) = sizeAll ts
  | [] => rfl
  | t :: ts => congrArg₂ (· + ·) (size_relaxBefore ts t) (sizeAll_relax ts)

end

mutual

/-- Forgetting all spacing keeps the size of a tree. -/
lemma size_unspaced : ∀ t : TokenTree, t.unspaced.size = t.size
  | .word _ | .lifetime _ | .literal _ | .punct _ _ => rfl
  | .group _ inner => congrArg (2 + ·) (sizeAll_unspacedAll inner)

/-- Forgetting all spacing keeps the size of trees in a row. -/
lemma sizeAll_unspacedAll : ∀ ts : List TokenTree, sizeAll (unspacedAll ts) = sizeAll ts
  | [] => rfl
  | t :: ts => congrArg₂ (· + ·) (size_unspaced t) (sizeAll_unspacedAll ts)

end

/-- Forgetting layout keeps the number of trees. -/
lemma length_relax (ts : List TokenTree) : (relax ts).length = ts.length := by
  induction ts with
  | nil => rfl
  | cons t ts ih => exact congrArg (· + 1) ih

/-- What a tree keeps depends on the next one only, so trees can be left out before relaxing or after. -/
lemma relax_drop (n : Nat) (ts : List TokenTree) : relax (ts.drop n) = (relax ts).drop n := by
  induction n generalizing ts with
  | zero => rfl
  | succ n ih =>
    cases ts with
    | nil => rfl
    | cons t ts => exact ih ts

/-- Error positions count the trees in front, whose size layout does not change. -/
lemma sizeAll_take_relax (n : Nat) (ts : List TokenTree) :
    sizeAll ((relax ts).take n) = sizeAll (ts.take n) := by
  induction n generalizing ts with
  | zero => rfl
  | succ n ih =>
    cases ts with
    | nil => rfl
    | cons t ts => exact congrArg₂ (· + ·) (size_relaxBefore ts t) (ih ts)

/-- Spacing is forgotten tree by tree. -/
lemma unspacedAll_eq_map (ts : List TokenTree) : unspacedAll ts = ts.map unspaced := by
  induction ts with
  | nil => rfl
  | cons t ts ih => exact congrArg (t.unspaced :: ·) ih

end TokenTree

namespace Look

open TokenTree

/-- A test that takes no notice of layout. -/
class Blind (l : Look) : Prop where
  eq : ∀ ts, l (relax ts) = l ts

/-- A test of the first token that does not ask for its spacing. -/
lemma Blind.ofHead {l : Look} (head : ∀ t ts, l (relax (t :: ts)) = l (t :: ts)) : Blind l where
  eq := fun ts => by
    cases ts with
    | nil => rfl
    | cons t ts => exact head t ts

/-- Characters each of which is the neighbour of the next one in an operator. -/
def areCoupled : List Char → Bool
  | c :: d :: cs => couples c d && areCoupled (d :: cs)
  | _ => true

/-- Texts whose characters are neighbours in an operator. -/
class Operator (s : String) : Prop where
  coupled : areCoupled s.toList = true

section Operators

-- the operators that the grammar names; those of its table of binary operators come with that table
instance : Operator "!" := ⟨by decide⟩
instance : Operator "!=" := ⟨by decide⟩
instance : Operator "#" := ⟨by decide⟩
instance : Operator "%" := ⟨by decide⟩
instance : Operator "&" := ⟨by decide⟩
instance : Operator "&=" := ⟨by decide⟩
instance : Operator "*" := ⟨by decide⟩
instance : Operator "*=" := ⟨by decide⟩
instance : Operator "+" := ⟨by decide⟩
instance : Operator "," := ⟨by decide⟩
instance : Operator "-" := ⟨by decide⟩
instance : Operator "-=" := ⟨by decide⟩
instance : Operator "->" := ⟨by decide⟩
instance : Operator "." := ⟨by decide⟩
instance : Operator ".." := ⟨by decide⟩
instance : Operator "..." := ⟨by decide⟩
instance : Operator "..=" := ⟨by decide⟩
instance : Operator "/" := ⟨by decide⟩
instance : Operator ":" := ⟨by decide⟩
instance : Operator "::" := ⟨by decide⟩
instance : Operator ";" := ⟨by decide⟩
instance : Operator "<" := ⟨by decide⟩
instance : Operator "<<=" := ⟨by decide⟩
instance : Operator "<=" := ⟨by decide⟩
instance : Operator "=" := ⟨by decide⟩
instance : Operator "=>" := ⟨by decide⟩
instance : Operator ">" := ⟨by decide⟩
instance : Operator "?" := ⟨by decide⟩
instance : Operator "@" := ⟨by decide⟩
instance : Operator "^" := ⟨by decide⟩
instance : Operator "|" := ⟨by decide⟩
instance : Operator "|=" := ⟨by decide⟩
instance : Operator "||" := ⟨by decide⟩

end Operators

/-- A test for characters that goes on to the next one needs that next one. -/
lemma couplesNext_of_opChars {c d : Char} {cs : List Char} {ts : List TokenTree}
    (coupled : couples c d = true) (holds : opChars (d :: cs) ts = true) : couplesNext c ts = true := by
  cases ts with
  | nil => cases cs <;> cases holds
  | cons t ts =>
    cases t with
    | punct e joint =>
      have eq : d = e := by
        cases cs with
        | nil => simpa [opChars] using holds
        | cons c' cs =>
          cases joint with
          | false => cases holds
          | true => exact (by simpa [opChars] using holds : d = e ∧ _).1
      rw [← eq]
      exact coupled
    | _ => cases cs <;> cases holds

/-- Inside an operator spacing is kept, and elsewhere the test does not look at it. -/
lemma opChars_relax (cs : List Char) (coupled : areCoupled cs = true) (ts : List TokenTree) :
    opChars cs (relax ts) = opChars cs ts := by
  induction cs generalizing ts with
  | nil => rfl
  | cons c cs ih =>
    cases ts with
    | nil => rfl
    | cons t ts =>
      cases cs with
      | nil => cases t <;> rfl
      | cons d cs =>
        obtain ⟨first, others⟩ := Bool.and_eq_true_iff.mp coupled
        cases t with
        | punct e joint =>
          cases joint with
          | false => rfl
          | true =>
            rw [show opChars (c :: d :: cs) (.punct e true :: ts) = (c == e && opChars (d :: cs) ts) from rfl,
              ← ih others ts]
            cases goesOn : couplesNext e ts with
            | true => simp only [relax, relaxBefore, goesOn, Bool.and_self, opChars]
            | false =>
              -- a test that holds would find a neighbour next
              have fails : ¬ (c == e && opChars (d :: cs) (relax ts)) = true := by
                intro holds
                obtain ⟨same, next⟩ := Bool.and_eq_true_iff.mp holds
                rw [ih others ts] at next
                rw [← eq_of_beq same, couplesNext_of_opChars first next] at goesOn
                cases goesOn
              rw [Bool.eq_false_iff.mpr fails]
              simp only [relax, relaxBefore, goesOn, Bool.and_false, opChars]
        | _ => rfl

/-- An operator is found as its own spacing says, and what surrounds it does not count. -/
instance blind_op (s : String) [h : Operator s] : Blind (op s) := ⟨opChars_relax s.toList h.coupled⟩

-- the tests from here to `blind_anyGroup` look at the first token, and not at its spacing
instance blind_word (s : String) : Blind (word s) := .ofHead fun t _ => by cases t <;> rfl

instance blind_anyWord : Blind anyWord := .ofHead fun t _ => by cases t <;> rfl

instance blind_ident : Blind ident := .ofHead fun t _ => by cases t <;> rfl

instance blind_lifetime : Blind lifetime := .ofHead fun t _ => by cases t <;> rfl

instance blind_number : Blind number := .ofHead fun t _ => by cases t <;> rfl

instance blind_whole : Blind whole := .ofHead fun t _ => by cases t <;> rfl

instance blind_float : Blind float := .ofHead fun t _ => by cases t <;> rfl

instance blind_stringLiteral : Blind stringLiteral := .ofHead fun t _ => by cases t <;> rfl

instance blind_group (d : Delimiter) : Blind (group d) := .ofHead fun t _ => by cases t <;> rfl

instance blind_parens : Blind parens := blind_group .paren

instance blind_brackets : Blind brackets := blind_group .bracket

instance blind_braces : Blind braces := blind_group .brace

instance blind_anyGroup : Blind anyGroup := .ofHead fun t _ => by cases t <;> rfl

/-- A signed number is a minus and a number, and the spacing of the minus does not count. -/
instance blind_literal : Blind literal := .ofHead fun t ts => by
  cases t with
  | punct c joint =>
    by_cases minus : c = '-'
    · subst minus
      exact (blind_number).eq ts
    · simp [literal, relax, relaxBefore, minus]
  | _ => rfl

/-- A test for one of several words looks at the first token only. -/
instance blind_words (ss : List String) : Blind (words ss) where
  eq := fun ts => by simp only [words, (blind_word _).eq]

variable {l l' : Look}

/-- Tokens may be left out in front of a test, since that commutes with relaxing. -/
instance blind_drop (n : Nat) [h : Blind l] : Blind fun ts => l (ts.drop n) where
  eq := fun ts => by simpa only [relax_drop] using h.eq (ts.drop n)

/-- A test on the tokens after the first one takes no notice of layout if it does on all tokens. -/
instance blind_second [Blind l] : Blind (second l) := blind_drop 1

/-- A test on the tokens after the first two takes no notice of layout if it does on all tokens. -/
instance blind_third [Blind l] : Blind (third l) := blind_drop 2

/-- An answer that is fixed takes no notice of anything. -/
instance blind_const (b : Bool) : Blind fun _ => b := ⟨fun _ => rfl⟩

/-- Layout does not tell whether tokens are left. -/
instance blind_isEmpty : Blind fun ts => ts.isEmpty := .ofHead fun _ _ => rfl

/-- Both of two tests take no notice of layout if each does not. -/
instance blind_and [h : Blind l] [h' : Blind l'] : Blind fun ts => l ts && l' ts :=
  ⟨fun ts => congrArg₂ and (h.eq ts) (h'.eq ts)⟩

/-- Either of two tests takes no notice of layout if each does not. -/
instance blind_or [h : Blind l] [h' : Blind l'] : Blind fun ts => l ts || l' ts :=
  ⟨fun ts => congrArg₂ or (h.eq ts) (h'.eq ts)⟩

/-- The opposite of a test takes no notice of layout if the test does not. -/
instance blind_not [h : Blind l] : Blind fun ts => !l ts := ⟨fun ts => congrArg not (h.eq ts)⟩

end Look

end SourceGen
