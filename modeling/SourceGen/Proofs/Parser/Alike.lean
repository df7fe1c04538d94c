import SourceGen.Proofs.Parser.Parts

/-!
# Parsers that take no notice of layout

Two parsers are alike if they do the same on inputs that differ in layout only: both fail at one lexeme, or
both succeed, with results that differ in the spacing of kept tokens only. Each combinator keeps parsers
alike. The rules are instances, so that for a parser of the grammar they are put together along its
definition.
-/

namespace SourceGen

instance Spaced.input : Spaced Input := ⟨fun s => { s with rest := TokenTree.relax s.rest }⟩

/-! ### Inputs -/

namespace Input

variable {s t : Input}

lemma relax_eq (h : Like s t) : TokenTree.relax s.rest = TokenTree.relax t.rest := congrArg Input.rest h.eq

lemma index_eq (h : Like s t) : s.index = t.index := by
  simpa only [Spaced.unspaced] using congrArg Input.index h.eq

lemma leftover_eq (h : Like s t) : s.leftover = t.leftover := by
  simpa only [Spaced.unspaced] using congrArg Input.leftover h.eq

lemma like_of_eq (rest : TokenTree.relax s.rest = TokenTree.relax t.rest) (index : s.index = t.index)
    (leftover : s.leftover = t.leftover) : Like s t :=
  ⟨by simp only [Spaced.unspaced, rest, index, leftover]⟩

instance like_length [h : Like s t] : Like s.rest.length t.rest.length where
  eq := by
    rw [← TokenTree.length_relax s.rest, ← TokenTree.length_relax t.rest, relax_eq h]

instance like_sizeAll [h : Like s t] : Like (TokenTree.sizeAll s.rest) (TokenTree.sizeAll t.rest) where
  eq := by
    rw [← TokenTree.sizeAll_relax s.rest, ← TokenTree.sizeAll_relax t.rest, relax_eq h]

instance like_index [h : Like s t] : Like s.index t.index := ⟨index_eq h⟩

/-- A test that takes no notice of layout answers like inputs alike. -/
lemma look_eq (l : Look) [blind : l.Blind] (h : Like s t) : l s.rest = l t.rest := by
  rw [← blind.eq s.rest, ← blind.eq t.rest, relax_eq h]

instance like_look {l : Look} [l.Blind] [h : Like s t] : Like (l s.rest) (l t.rest) := ⟨look_eq l h⟩

end Input

namespace TokenTree

/-- How two inputs begin that differ in layout only. -/
inductive Heads : List TokenTree → List TokenTree → Prop
  | nil : Heads [] []
  | word (w : String) {ts us : List TokenTree} (rest : relax ts = relax us) :
    Heads (.word w :: ts) (.word w :: us)
  | lifetime (l : String) {ts us : List TokenTree} (rest : relax ts = relax us) :
    Heads (.lifetime l :: ts) (.lifetime l :: us)
  | literal (l : String) {ts us : List TokenTree} (rest : relax ts = relax us) :
    Heads (.literal l :: ts) (.literal l :: us)
  | punct (c : Char) (joint joint' : Bool) {ts us : List TokenTree} (rest : relax ts = relax us) :
    Heads (.punct c joint :: ts) (.punct c joint' :: us)
  | group (d : Delimiter) {xs ys ts us : List TokenTree} (inner : relax xs = relax ys)
    (rest : relax ts = relax us) : Heads (.group d xs :: ts) (.group d ys :: us)

lemma heads_of_relax_eq {ts us : List TokenTree} (eq : relax ts = relax us) : Heads ts us := by
  cases ts with
  | nil =>
    cases us with
    | nil => exact .nil
    | cons u us => cases eq
  | cons t ts =>
    cases us with
    | nil => cases eq
    | cons u us =>
      obtain ⟨head, rest⟩ := List.cons.inj eq
      cases t with
      | word w => cases u <;> cases head; exact .word w rest
      | lifetime l => cases u <;> cases head; exact .lifetime l rest
      | literal l => cases u <;> cases head; exact .literal l rest
      | punct c joint =>
        cases u with
        | punct d joint' =>
          obtain rfl := (TokenTree.punct.inj head).1
          exact .punct c joint joint' rest
        | _ => cases head
      | group d xs =>
        cases u with
        | group e ys =>
          obtain ⟨rfl, inner⟩ := TokenTree.group.inj head
          exact .group d inner rest
        | _ => cases head

end TokenTree

lemma Twins.heads (r : Twins Input) : TokenTree.Heads r.left.rest r.right.rest :=
  TokenTree.heads_of_relax_eq (Input.relax_eq r.like)

/-! ### Parsers -/

namespace Parser

variable {α β : Type} [Spaced α] [Spaced β]

/-- What parsers that are alike come to: results that differ in spacing only, or a failure at one place. -/
inductive Outcomes : Except Nat (α × Input) → Except Nat (α × Input) → Prop
  | ok {a b : α} {s t : Input} (result : Like a b) (rest : Like s t) : Outcomes (.ok (a, s)) (.ok (b, t))
  | error (i : Nat) : Outcomes (.error i) (.error i)

/-- Parsers that do the same on inputs that differ in layout only. -/
class Alike (p q : Parser α) : Prop where
  run : ∀ {s t : Input}, Like s t → Outcomes (p s) (q t)

section Rules

variable {p q p' q' : Parser α}

instance Alike.pure {a b : α} [h : Like a b] : Alike (pure a) (pure b) := ⟨fun rest => .ok h rest⟩

instance Alike.bind {f f' : α → Parser β} [first : Alike p q]
    [next : ∀ r : Twins α, Alike (f r.left) (f' r.right)] : Alike (p >>= f) (q >>= f') where
  run := fun {s t} h => by
    change Outcomes (p s >>= fun r => f r.1 r.2) (q t >>= fun r => f' r.1 r.2)
    have outcomes := first.run h
    generalize p s = x, q t = y at outcomes
    cases outcomes with
    | ok result rest => exact (next ⟨_, _, result⟩).run rest
    | error i => exact .error i

/-- After a parser whose results have no kept tokens both sides go on with one result. -/
instance (priority := high) Alike.bind_plain [Plain α] {f f' : α → Parser β} [Alike p q]
    [next : ∀ a, Alike (f a) (f' a)] : Alike (p >>= f) (q >>= f') :=
  have (r : Twins α) : Alike (f r.left) (f' r.right) := by
    rw [r.like.same]
    exact next r.right
  inferInstance

/-- After a parser that may have no result both sides go on with one, or both without. -/
instance (priority := high) Alike.bind_option {p q : Parser (Option α)} {f f' : Option α → Parser β}
    [Alike p q] [some : ∀ r : Twins α, Alike (f (some r.left)) (f' (some r.right))]
    [none : Alike (f none) (f' none)] : Alike (p >>= f) (q >>= f') :=
  have (r : Twins (Option α)) : Alike (f r.left) (f' r.right) := by
    obtain ⟨_, _, like⟩ := r
    cases like.options with
    | none => exact none
    | some value => exact some ⟨_, _, value⟩
  inferInstance

/-- After a parser of pairs whose first parts have no kept tokens both sides go on with one first part. -/
instance (priority := high) Alike.bind_pair {γ : Type} [Spaced γ] [Plain γ] {p q : Parser (γ × α)}
    {f f' : γ × α → Parser β} [Alike p q]
    [next : ∀ c, ∀ r : Twins α, Alike (f (c, r.left)) (f' (c, r.right))] :
    Alike (p >>= f) (q >>= f') :=
  have (r : Twins (γ × α)) : Alike (f r.left) (f' r.right) := by
    obtain ⟨⟨c, a⟩, ⟨_, b⟩, like⟩ := r
    obtain rfl : c = _ := (Like.fst (h := like)).same
    exact next c ⟨a, b, Like.snd (h := like)⟩
  inferInstance

lemma Alike.andThen {f f' : α → Parser β} (_ : Alike p q)
    (_ : ∀ r : Twins α, Alike (f r.left) (f' r.right)) : Alike (p >>= f) (q >>= f') := inferInstance

lemma Alike.andThenSame [Plain α] {f f' : α → Parser β} (_ : Alike p q) (_ : ∀ a, Alike (f a) (f' a)) :
    Alike (p >>= f) (q >>= f') := inferInstance

instance Alike.ite {c : Prop} [Decidable c] [yes : Alike p q] [no : Alike p' q'] :
    Alike (if c then p else p') (if c then q else q') := by
  by_cases h : c
  · rw [if_pos h, if_pos h]
    exact yes
  · rw [if_neg h, if_neg h]
    exact no

lemma Alike.branch {c : Prop} [Decidable c] (_ : Alike p q) (_ : Alike p' q') :
    Alike (if c then p else p') (if c then q else q') := inferInstance

instance Alike.ite_bool {a b : Bool} [h : Like a b] [Alike p q] [Alike p' q'] :
    Alike (if a = true then p else p') (if b = true then q else q') := by
  cases h.same
  infer_instance

lemma Alike.choose {a b : Bool} (_ : Like a b) (_ : Alike p q) (_ : Alike p' q') :
    Alike (if a = true then p else p') (if b = true then q else q') := inferInstance

instance Alike.fail : Alike (fail : Parser α) fail where
  run := fun h => by
    rw [Parser.fail, Parser.fail, Input.index_eq h]
    exact .error _

instance Alike.failAt {i j : Nat} [h : Like i j] : Alike (failAt i : Parser α) (failAt j) where
  run := fun _ => by
    cases h.same
    exact .error i

instance Alike.succeeds [both : Alike p q] : Alike (succeeds p) (succeeds q) where
  run := fun {s t} h => by
    have outcomes := both.run h
    rw [Parser.succeeds, Parser.succeeds]
    generalize p s = x, q t = y at outcomes
    cases outcomes with
    | ok _ _ => exact .ok (.refl true) h
    | error _ => exact .ok (.refl false) h

instance Alike.ahead [both : Alike p q] : Alike (ahead p) (ahead q) where
  run := fun {s t} h => by
    have outcomes := both.run h
    rw [Parser.ahead, Parser.ahead]
    generalize p s = x, q t = y at outcomes
    cases outcomes with
    | ok result _ => exact .ok result h
    | error i => exact .error i

instance Alike.attempt [both : Alike p q] : Alike (attempt p) (attempt q) where
  run := fun {s t} h => by
    have outcomes := both.run h
    rw [Parser.attempt, Parser.attempt]
    generalize p s = x, q t = y at outcomes
    cases outcomes with
    | ok result rest => exact .ok (@Like.some _ _ _ _ result) rest
    | error _ => exact .ok (.refl none) h

end Rules

instance alike_index : Alike index index := ⟨fun h => .ok ⟨Input.index_eq h⟩ h⟩

instance alike_sees (l : Look) [l.Blind] : Alike (sees l) (sees l) := ⟨fun h => .ok ⟨Input.look_eq l h⟩ h⟩

instance alike_atEnd : Alike atEnd atEnd := alike_sees fun ts => ts.isEmpty

instance alike_get : Alike (get : Parser Input) get := ⟨fun h => .ok h h⟩

instance alike_skip (n : Nat) : Alike (skip n) (skip n) where
  run := fun {s t} h => by
    refine .ok (.refl ()) (Input.like_of_eq ?_ ?_ (Input.leftover_eq h :))
    · rw [TokenTree.relax_drop, TokenTree.relax_drop, Input.relax_eq h]
    · rw [← TokenTree.sizeAll_take_relax n s.rest, ← TokenTree.sizeAll_take_relax n t.rest,
        Input.relax_eq h, Input.index_eq h]

instance alike_next : Alike next next where
  run := fun {s t} h => by
    obtain ⟨ts, i, left⟩ := s
    obtain ⟨us, _, _⟩ := t
    obtain rfl : i = _ := Input.index_eq h
    obtain rfl : left = _ := Input.leftover_eq h
    have trees : TokenTree.relax ts = TokenTree.relax us := Input.relax_eq h
    cases ts with
    | nil =>
      cases us with
      | nil => exact .error i
      | cons u us => cases trees
    | cons t ts =>
      cases us with
      | nil => cases trees
      | cons u us =>
        obtain ⟨first, others⟩ := List.cons.inj trees
        -- the token itself is handed on with its spacing, which need not be the same
        have like : Like t u :=
          ⟨by
            have eq := congrArg TokenTree.unspaced first
            rwa [TokenTree.unspaced_relaxBefore, TokenTree.unspaced_relaxBefore] at eq⟩
        have sizes : t.size = u.size := by
          have eq := congrArg TokenTree.size first
          rwa [TokenTree.size_relaxBefore, TokenTree.size_relaxBefore] at eq
        exact .ok like (Input.like_of_eq others (congrArg (i + ·) sizes) rfl)

section Rules

variable {p q : Parser α}

instance Alike.insideThen {d : Delimiter} {f f' : α → Parser β} [inner : Alike p q]
    [after : ∀ r : Twins α, Alike (f r.left) (f' r.right)] : Alike (insideThen d p f) (insideThen d q f') where
  run := fun {s t} h => by
    obtain ⟨ts, i, left⟩ := s
    obtain ⟨us, _, _⟩ := t
    obtain rfl : i = _ := Input.index_eq h
    obtain rfl : left = _ := Input.leftover_eq h
    have heads := TokenTree.heads_of_relax_eq (Input.relax_eq h :)
    cases heads with
    | @group e xs ys ts us content others =>
      rw [Parser.insideThen, Parser.insideThen]
      by_cases same : d = e
      · simp only [if_pos same]
        have sizes : TokenTree.sizeAll xs = TokenTree.sizeAll ys := by
          rw [← TokenTree.sizeAll_relax xs, ← TokenTree.sizeAll_relax ys, content]
        -- the content is read for itself, and what follows it begins at one index on both sides
        have first := inner.run (Input.like_of_eq (s := ⟨xs, i + 1, left⟩) (t := ⟨ys, i + 1, left⟩)
          content rfl rfl)
        generalize p ⟨xs, i + 1, left⟩ = x, q ⟨ys, i + 1, left⟩ = y at first
        cases first with
        | error j => exact .error j
        | @ok a b s t result rest =>
          have start : Like (⟨ts, i + 2 + TokenTree.sizeAll xs, s.leftover⟩ : Input)
              ⟨us, i + 2 + TokenTree.sizeAll ys, t.leftover⟩ :=
            Input.like_of_eq others (congrArg (i + 2 + ·) sizes) (Input.leftover_eq rest :)
          have second := (after ⟨a, b, result⟩).run start
          simp only
          generalize f a _ = x, f' b _ = y at second
          cases second with
          | error j => exact .error j
          | @ok c d u v result' rest' =>
            have empty : s.rest.isEmpty = t.rest.isEmpty := Input.look_eq (fun ts => ts.isEmpty) rest
            simp only [Input.leftover_eq rest', empty, Input.index_eq rest]
            cases v.leftover.isNone && !t.rest.isEmpty with
            | false => exact .ok result' rest'
            | true => exact .ok result' (Input.like_of_eq (Input.relax_eq rest' :) (Input.index_eq rest' :) rfl)
      · simp only [if_neg same]
        exact .error i
    | _ => exact .error i

instance Alike.repeatFor {p q : Parser (Option α)} [Alike p q] (n : Nat) : Alike (repeatFor p n) (repeatFor q n) := by
  induction n with
  | zero =>
    unfold Parser.repeatFor
    infer_instance
  | succ n ih =>
    unfold Parser.repeatFor
    infer_instance

instance Alike.many {p q : Parser (Option α)} [Alike p q] : Alike (many p) (many q) where
  run := fun {s t} h => by
    have lengths : s.rest.length = t.rest.length := Like.same inferInstance
    rw [Parser.many, Parser.many, lengths]
    exact Alike.run h

instance Alike.manyWhile {l : Look} [l.Blind] [Alike p q] : Alike (manyWhile l p) (manyWhile l q) := by
  unfold Parser.manyWhile
  infer_instance

instance Alike.manyToEnd [Alike p q] : Alike (manyToEnd p) (manyToEnd q) := by
  unfold Parser.manyToEnd
  infer_instance

end Rules

section Nodes

variable {p q stop stop' : Parser Node}

instance Alike.whenSees {l : Look} [l.Blind] [Alike p q] : Alike (whenSees l p) (whenSees l q) := by
  unfold Parser.whenSees
  infer_instance

instance alike_op (s : String) [Look.Operator s] : Alike (op s) (op s) := by
  unfold op
  infer_instance

instance alike_op? (s : String) [Look.Operator s] : Alike (op? s) (op? s) := by
  unfold op?
  infer_instance

instance alike_word (s : String) : Alike (word s) (word s) := by
  unfold word
  infer_instance

instance alike_word? (s : String) : Alike (word? s) (word? s) := by
  unfold word?
  infer_instance

instance alike_anyWord : Alike anyWord anyWord := by
  unfold anyWord
  refine .andThen inferInstance fun r => ?_
  have heads := r.heads
  generalize r.left.rest = ts, r.right.rest = us at heads
  cases heads <;> infer_instance

instance alike_ident : Alike ident ident := by
  unfold ident
  infer_instance

instance alike_lifetime : Alike lifetime lifetime := by
  unfold lifetime
  refine .andThen inferInstance fun r => ?_
  have heads := r.heads
  generalize r.left.rest = ts, r.right.rest = us at heads
  cases heads <;> infer_instance

instance alike_lifetime? : Alike lifetime? lifetime? := by
  unfold lifetime?
  infer_instance

instance alike_literal : Alike literal literal := by
  unfold literal
  refine .andThen inferInstance fun r => ?_
  have heads := r.heads
  generalize r.left.rest = ts, r.right.rest = us at heads
  cases heads with
  | punct c joint joint' rest =>
    by_cases minus : c = '-'
    · subst minus
      cases TokenTree.heads_of_relax_eq rest with
      | literal l rest =>
        change Alike (if Look.number [.literal l] = true then _ else _) (if Look.number [.literal l] = true then _ else _)
        infer_instance
      | _ => exact Alike.fail
    · -- no other character begins a literal
      split
      case h_4 =>
        split
        case h_4 => infer_instance
        all_goals simp_all
      all_goals simp_all
  | _ => infer_instance

instance alike_rawGroup : Alike rawGroup rawGroup := by
  unfold rawGroup
  infer_instance

instance alike_rawBraces : Alike rawBraces rawBraces := by
  unfold rawBraces
  infer_instance

instance Alike.inside {d : Delimiter} {p q : Parser α} [Alike p q] : Alike (inside d p) (inside d q) := by
  unfold Parser.inside
  infer_instance

instance Alike.group {d : Delimiter} {p q : Parser (List Node)} [Alike p q] : Alike (group d p) (group d q) := by
  unfold Parser.group
  infer_instance

/-- The kept tokens of like inputs are alike. -/
instance Alike.since {start start' : Input} [h : Like start start'] : Alike (since start) (since start') where
  run := fun {s t} rest => by
    rw [Parser.since, Parser.since]
    -- as many tokens are kept on both sides, and they differ in spacing only
    have first : start.rest.length = start'.rest.length := Like.same inferInstance
    have last : s.rest.length = t.rest.length := Like.same inferInstance
    have trees : start.rest.map TokenTree.unspaced = start'.rest.map TokenTree.unspaced := by
      rw [← TokenTree.unspacedAll_eq_map, ← TokenTree.unspacedAll_eq_map,
        ← TokenTree.unspacedAll_relax start.rest, ← TokenTree.unspacedAll_relax start'.rest, Input.relax_eq h]
    refine .ok ⟨?_⟩ rest
    change List.map TokenTree.unspaced _ = List.map TokenTree.unspaced _
    rw [List.map_take, List.map_take, trees, first, last]

instance Alike.separatedFor {s : String} [Look.Operator s] {stop stop' : Parser Bool} [Alike stop stop'] [Alike p q]
    (n : Nat) : Alike (separatedFor s stop p n) (separatedFor s stop' q n) := by
  induction n with
  | zero =>
    unfold Parser.separatedFor
    infer_instance
  | succ n ih =>
    unfold Parser.separatedFor
    infer_instance

instance Alike.separated {s : String} [Look.Operator s] {stop stop' : Parser Bool} [Alike stop stop'] [Alike p q] :
    Alike (separated s stop p) (separated s stop' q) where
  run := fun {s t} h => by
    have lengths : s.rest.length = t.rest.length := Like.same inferInstance
    rw [Parser.separated, Parser.separated, lengths]
    exact Alike.run h

instance Alike.commaList [Alike p q] : Alike (commaList p) (commaList q) := by
  unfold Parser.commaList
  infer_instance

instance Alike.plusFor {l : Look} [l.Blind] [Alike p q]
    (n : Nat) : Alike (plusFor l p n) (plusFor l q n) := by
  induction n with
  | zero =>
    unfold Parser.plusFor
    infer_instance
  | succ n ih =>
    unfold Parser.plusFor
    infer_instance

instance Alike.plusList {l : Look} [l.Blind] [Alike p q] : Alike (plusList l p) (plusList l q) where
  run := fun {s t} h => by
    have lengths : s.rest.length = t.rest.length := Like.same inferInstance
    rw [Parser.plusList, Parser.plusList, lengths]
    exact Alike.run h

end Nodes

end Parser

end SourceGen
