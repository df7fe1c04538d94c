import Mathlib.Data.List.Basic
import Mathlib.Data.List.Induction
import Mathlib.Tactic.Lemma
import SourceGen.Diagnostic.Basic

/-!
# Filled templates

What a template should come to is said without scanning it: `Fills` replaces every text in braces that a notion of holes
takes for the place of an argument, copies the argument, and leaves every other character as written. Templates are to
be filled at every numeral in braces (`Numbered`). They are filled at those that do not stand behind an open brace, and a
numeral may have a plus sign (`Exposed`). Both come to the same for all arguments exactly if no hole is hidden by an open
brace and no hole has a sign (`fillTemplate_fills_iff`). A stray brace does hide a hole (`not_fills_strayBrace`), but the
messages of the catalogue have none (`fills_of_mem_catalogue`).
-/

namespace SourceGen.Text

/-! ### Numerals -/

/-- The decimal numerals of a number, those with zeros in front included. -/
inductive Numeral : List Char → Nat → Prop
  | digit {d : Nat} (small : d < 10) : Numeral [Nat.digitChar d] d
  | snoc {s : List Char} {n d : Nat} (front : Numeral s n) (small : d < 10) :
    Numeral (s ++ [Nat.digitChar d]) (10 * n + d)

/-- Whether a text is a numeral behind a plus sign. -/
def Signed (s : List Char) (n : Nat) : Prop := ∃ digits, s = '+' :: digits ∧ Numeral digits n

lemma digitChar_spec : ∀ d < 10, (Nat.digitChar d).isDigit = true ∧ digitValue (Nat.digitChar d) = d := by
  decide

lemma exists_digitChar {c : Char} (digit : c.isDigit = true) : ∃ d < 10, c = Nat.digitChar d := by
  obtain ⟨low, high⟩ : 48 ≤ c.toNat ∧ c.toNat ≤ 57 := by simpa [Char.isDigit, UInt32.le_iff_toNat_le] using digit
  refine ⟨c.toNat - 48, by omega, Char.toNat_inj.mp ?_⟩
  rw [Nat.toNat_digitChar_of_lt_ten (by omega)]
  omega

/-- The number of a numeral is that of its digits. -/
lemma numeral_iff {s : List Char} {n : Nat} :
    Numeral s n ↔ s ≠ [] ∧ s.all Char.isDigit = true ∧ s.foldl (fun n c => 10 * n + digitValue c) 0 = n := by
  constructor
  · intro numeral
    induction numeral with
    | @digit d small =>
      obtain ⟨digit, value⟩ := digitChar_spec d small
      simp [digit, value]
    | @snoc s n d front small ih =>
      obtain ⟨digit, value⟩ := digitChar_spec d small
      obtain ⟨-, all, total⟩ := ih
      simp [all, digit, total, value]
  · rintro ⟨some_there, all, rfl⟩
    induction s using List.reverseRecOn with
    | nil => exact absurd rfl some_there
    | append_singleton s c ih =>
      rw [List.all_append, Bool.and_eq_true] at all
      obtain ⟨d, small, rfl⟩ := exists_digitChar (by simpa using all.2)
      rw [List.foldl_append, List.foldl_cons, List.foldl_nil, (digitChar_spec d small).2]
      by_cases first : s = []
      · subst first
        simpa using Numeral.digit small
      · exact .snoc (ih first all.1) small

lemma ordinal?_eq_some_iff {s : List Char} {n : Nat} : ordinal? s = some n ↔ Numeral s n ∨ Signed s n := by
  have read (digits : List Char) :
      (if digits.isEmpty || !digits.all Char.isDigit then none
        else some (digits.foldl (fun n c => 10 * n + digitValue c) 0)) = some n ↔ Numeral digits n := by
    rw [numeral_iff]
    simp [and_assoc]
  by_cases sign : ∃ digits, s = '+' :: digits
  · obtain ⟨digits, rfl⟩ := sign
    have unsigned : ¬ Numeral ('+' :: digits) n := by
      rw [numeral_iff]
      simp
    have signed : Signed ('+' :: digits) n ↔ Numeral digits n := by simp [Signed]
    rw [signed, or_iff_right unsigned]
    exact read digits
  · have unsigned : ¬ Signed s n := by
      rintro ⟨digits, eq, -⟩
      exact sign ⟨digits, eq⟩
    have plain : ordinal? s = if s.isEmpty || !s.all Char.isDigit then none
        else some (s.foldl (fun n c => 10 * n + digitValue c) 0) := by
      unfold ordinal?
      split
      case h_1 digits => exact absurd ⟨digits, rfl⟩ sign
      case h_2 => rfl
    rw [plain, read, or_iff_left unsigned]

/-! ### Cuts -/

lemma cutAt?_append {c : Char} {before : List Char} (first : c ∉ before) (after : List Char) :
    cutAt? c (before ++ c :: after) = some (before, after) := by
  induction before with
  | nil => simp [cutAt?]
  | cons x xs ih =>
    rw [List.mem_cons, not_or] at first
    simp [cutAt?, Ne.symm first.1, ih first.2]

lemma cutAt?_eq_none_iff {c : Char} {s : List Char} : cutAt? c s = none ↔ c ∉ s := by
  induction s with
  | nil => simp [cutAt?]
  | cons x xs ih =>
    rw [cutAt?]
    split
    case isTrue eq => simp [eq]
    case isFalse ne => simp [ih, Ne.symm ne]

/-- A cut is made at the first place. -/
lemma notMem_of_cutAt? {c : Char} {s before after : List Char} (h : cutAt? c s = some (before, after)) :
    c ∉ before := by
  induction s generalizing before with
  | nil => cases h
  | cons x xs ih =>
    rw [cutAt?] at h
    split at h
    case isTrue => simp_all
    case isFalse ne =>
      obtain ⟨⟨b, a⟩, cut, eq⟩ := Option.map_eq_some_iff.mp h
      obtain ⟨rfl, rfl⟩ := Prod.mk.inj eq
      simp [Ne.symm ne, ih cut]

/-- Texts that are cut at their first `c` are cut at one place. -/
lemma append_cons_inj {c : Char} {a b x y : List Char} (ha : c ∉ a) (hb : c ∉ b)
    (eq : a ++ c :: x = b ++ c :: y) : a = b ∧ x = y := by
  have cut := (cutAt?_append ha x).symm.trans (eq ▸ cutAt?_append hb y)
  exact Prod.mk.inj (Option.some.inj cut)

/-! ### Holes -/

/-- Whether a text leaves a brace open. -/
def IsOpen (s : List Char) : Prop := ∃ before inside, s = before ++ '{' :: inside ∧ '}' ∉ inside

lemma isOpen_append_brace (before : List Char) {inside : List Char} (unclosed : '}' ∉ inside) :
    IsOpen (before ++ '{' :: inside) :=
  ⟨before, inside, rfl, unclosed⟩

lemma not_isOpen_nil : ¬ IsOpen [] := by
  rintro ⟨before, inside, eq, -⟩
  simp at eq

lemma not_isOpen_concat (s : List Char) : ¬ IsOpen (s ++ ['}']) := by
  rintro ⟨before, inside, eq, unclosed⟩
  obtain rfl | ⟨inside, c, rfl⟩ := List.eq_nil_or_concat' inside
  · exact absurd (List.append_singleton_inj.mp eq).2 (by decide)
  · rw [← List.cons_append, ← List.append_assoc, List.append_singleton_inj] at eq
    exact unclosed (eq.2 ▸ List.mem_append_right inside List.mem_cons_self)

/-- A text without an opening brace opens none. -/
lemma not_isOpen_append {s t : List Char} (closed : ¬ IsOpen s) (none : '{' ∉ t) : ¬ IsOpen (s ++ t) := by
  rintro ⟨before, inside, eq, unclosed⟩
  obtain ⟨front, rfl, rest⟩ | ⟨front, rfl, rest⟩ := List.append_eq_append_iff.mp eq
  · exact none (rest ▸ List.mem_append_right front List.mem_cons_self)
  · cases front with
    | nil => exact none (List.nil_append t ▸ rest ▸ List.mem_cons_self)
    | cons c front =>
      obtain ⟨rfl, rfl⟩ := List.cons.inj rest
      exact closed (isOpen_append_brace before fun there => unclosed (List.mem_append_left t there))

/-- The holes that a template has by right: numerals in braces, wherever they stand. -/
def Numbered (_before hole : List Char) (i : Nat) : Prop := Numeral hole i

/-- The holes that are filled: numerals, perhaps with a sign, that do not stand behind an open brace. -/
def Exposed (before hole : List Char) (i : Nat) : Prop := ¬ IsOpen before ∧ (Numeral hole i ∨ Signed hole i)

/-- Whether a text that stands behind another one begins with a hole for one of `n` arguments. -/
def BeginsWithHole (IsHole : List Char → List Char → Nat → Prop) (n : Nat) (before s : List Char) : Prop :=
  ∃ hole i rest, IsHole before hole i ∧ i < n ∧ s = '{' :: hole ++ '}' :: rest

variable {IsHole : List Char → List Char → Nat → Prop} {args : List String} {before : List Char}

/-- What a template comes to that stands behind a text: every hole that names an argument is replaced by the argument,
which is not looked at, and every other character is as written. -/
inductive Fills (IsHole : List Char → List Char → Nat → Prop) (args : List String) :
    List Char → List Char → List Char → Prop
  | nil {before : List Char} : Fills IsHole args before [] []
  | hole {before hole rest out : List Char} {i : Nat} {arg : String} (there : IsHole before hole i)
    (named : args[i]? = some arg) (more : Fills IsHole args (before ++ '{' :: hole ++ ['}']) rest out) :
    Fills IsHole args before ('{' :: hole ++ '}' :: rest) (arg.toList ++ out)
  | written {before rest out : List Char} {c : Char} (noHole : ¬ BeginsWithHole IsHole args.length before (c :: rest))
    (more : Fills IsHole args (before ++ [c]) rest out) : Fills IsHole args before (c :: rest) (c :: out)

/-- Text in which no hole begins is written. -/
lemma Fills.written_append {s t out : List Char}
    (noHole : ∀ front c back, s = front ++ c :: back →
      ¬ BeginsWithHole IsHole args.length (before ++ front) (c :: back ++ t))
    (more : Fills IsHole args (before ++ s) t out) : Fills IsHole args before (s ++ t) (s ++ out) := by
  induction s generalizing before with
  | nil => simpa using more
  | cons c s ih =>
    refine .written (by simpa using noHole [] c s rfl) (ih (fun front d back eq => ?_) (by simpa using more))
    have later := noHole (c :: front) d back (congrArg (c :: ·) eq)
    rwa [List.append_cons] at later

/-- A hole begins with a brace, and ends with another one. -/
lemma not_beginsWithHole {n : Nat} {s : List Char} {c : Char} (unclosed : c ≠ '{' ∨ '}' ∉ s) :
    ¬ BeginsWithHole IsHole n before (c :: s) := by
  rintro ⟨hole, i, rest, -, -, eq⟩
  obtain ⟨rfl, rfl⟩ := List.cons.inj eq
  simp at unclosed

/-- Text without an opening brace is written. -/
lemma Fills.append_of_notMem {s t out : List Char} (none : '{' ∉ s) (more : Fills IsHole args (before ++ s) t out) :
    Fills IsHole args before (s ++ t) (s ++ out) :=
  .written_append (fun front _ _ eq => not_beginsWithHole (.inl fun brace =>
    none (eq ▸ brace ▸ List.mem_append_right front List.mem_cons_self))) more

/-- A brace that is never closed is written, and so is what comes after it. -/
lemma Fills.unclosed {s : List Char} (none : '}' ∉ s) : Fills IsHole args before ('{' :: s) ('{' :: s) := by
  have fills : Fills IsHole args before ('{' :: s ++ []) ('{' :: s ++ []) := by
    refine .written_append (fun front c back eq => ?_) .nil
    rw [List.append_nil]
    refine not_beginsWithHole (.inr fun there => ?_)
    cases front with
    | nil => exact none ((List.cons.inj eq).2 ▸ there)
    | cons d front =>
      exact none ((List.cons.inj eq).2 ▸ List.mem_append_right front (List.mem_cons_of_mem c there))
  simpa using fills

/-! ### Numbers in holes -/

lemma Numeral.isDigit {s : List Char} {n : Nat} (numeral : Numeral s n) : ∀ c ∈ s, c.isDigit = true :=
  List.all_eq_true.mp (numeral_iff.mp numeral).2.1

lemma Numeral.not_signed {s : List Char} {n m : Nat} (numeral : Numeral s n) : ¬ Signed s m := by
  rintro ⟨digits, rfl, -⟩
  exact absurd (numeral.isDigit '+' List.mem_cons_self) (by decide)

/-- A number holds no brace. -/
lemma notMem_of_number {s : List Char} {n : Nat} (number : Numeral s n ∨ Signed s n) : '{' ∉ s ∧ '}' ∉ s := by
  have plain {t : List Char} (numeral : Numeral t n) {c : Char} (other : c.isDigit = false) : c ∉ t :=
    fun there => absurd (numeral.isDigit c there) (by simp [other])
  obtain numeral | ⟨digits, rfl, numeral⟩ := number
  · exact ⟨plain numeral (by decide), plain numeral (by decide)⟩
  · rw [List.mem_cons, List.mem_cons, not_or, not_or]
    exact ⟨⟨by decide, plain numeral (by decide)⟩, by decide, plain numeral (by decide)⟩

/-! ### What templates are filled with -/

/-- Braces around what is no number of an argument are written, with all that stands between them. -/
lemma Fills.exposed_append {hole rest out : List Char} (closes : '}' ∉ hole)
    (number : ∀ i < args.length, ¬ (Numeral hole i ∨ Signed hole i))
    (more : Fills Exposed args (before ++ '{' :: hole ++ ['}']) rest out) :
    Fills Exposed args before ('{' :: hole ++ '}' :: rest) ('{' :: hole ++ '}' :: out) := by
  have fills : Fills Exposed args before (('{' :: hole ++ ['}']) ++ rest) (('{' :: hole ++ ['}']) ++ out) := by
    refine .written_append (fun front c back eq => ?_) (by simpa using more)
    rintro ⟨hole', i, rest', ⟨closed, number'⟩, small, eq'⟩
    cases front with
    | nil =>
      -- a hole at the brace itself ends at the same brace
      obtain ⟨rfl, rfl⟩ := List.cons.inj eq
      have ends : hole ++ '}' :: rest = hole' ++ '}' :: rest' := by simpa using eq'
      obtain ⟨rfl, -⟩ := append_cons_inj closes (notMem_of_number number').2 ends
      exact number i small number'
    | cons d front =>
      -- one that begins later stands behind the brace
      obtain ⟨rfl, tail⟩ := List.cons.inj eq
      obtain ⟨rfl, -⟩ := List.cons.inj eq'
      have later : hole ++ ['}'] = front ++ '{' :: back := tail
      have inside : '}' ∉ front := by
        obtain rfl | ⟨back, e, rfl⟩ := List.eq_nil_or_concat' back
        · exact absurd (List.append_singleton_inj.mp later).2 (by decide)
        · rw [← List.cons_append, ← List.append_assoc, List.append_singleton_inj] at later
          exact fun there => closes (later.1 ▸ List.mem_append_left _ there)
      exact closed (isOpen_append_brace before inside)
  simpa using fills

/-- Templates are filled at the holes that are exposed. -/
lemma fillHoles_exposed (args : List String) (s : List Char) {before : List Char} (closed : ¬ IsOpen before) :
    Fills Exposed args before s (fillHoles args s) := by
  fun_induction fillHoles args s generalizing before with
  | case1 s none =>
    have fills : Fills Exposed args before (s ++ []) (s ++ []) := .append_of_notMem (cutAt?_eq_none_iff.mp none) .nil
    simpa using fills
  | case2 s text after opened none =>
    obtain rfl := cutAt?_eq_some opened
    exact .append_of_notMem (notMem_of_cutAt? opened) (.unclosed (cutAt?_eq_none_iff.mp none))
  | case3 s text after opened hole rest closes ih =>
    obtain rfl := cutAt?_eq_some opened
    obtain rfl := cutAt?_eq_some closes
    have exposed : ¬ IsOpen (before ++ text) := not_isOpen_append closed (notMem_of_cutAt? opened)
    have more : Fills Exposed args (before ++ text ++ '{' :: hole ++ ['}']) rest (fillHoles args rest) :=
      ih (not_isOpen_concat _)
    rw [List.append_assoc]
    refine .append_of_notMem (notMem_of_cutAt? opened) ?_
    rw [holeText]
    cases named : (ordinal? hole).bind (args[·]?) with
    | some arg =>
      obtain ⟨i, number, here⟩ := Option.bind_eq_some_iff.mp named
      exact .hole ⟨exposed, ordinal?_eq_some_iff.mp number⟩ here more
    | none =>
      have number : ∀ i < args.length, ¬ (Numeral hole i ∨ Signed hole i) := by
        intro i small number
        rw [ordinal?_eq_some_iff.mpr number] at named
        exact Nat.not_lt_of_le (List.getElem?_eq_none_iff.mp named) small
      simpa using Fills.exposed_append (notMem_of_cutAt? closes) number more

/-! ### What the text of a filled template says -/

/-- A template that is not empty begins with a hole, or its first character is written. -/
lemma Fills.cons_cases {rest out : List Char} {c : Char} (filled : Fills IsHole args before (c :: rest) out) :
    (∃ hole i arg rest' out', c :: rest = '{' :: hole ++ '}' :: rest' ∧ out = arg.toList ++ out' ∧ IsHole before hole i ∧
      args[i]? = some arg ∧ Fills IsHole args (before ++ '{' :: hole ++ ['}']) rest' out') ∨
    ¬ BeginsWithHole IsHole args.length before (c :: rest) ∧
      ∃ out', out = c :: out' ∧ Fills IsHole args (before ++ [c]) rest out' := by
  generalize eq : c :: rest = s at filled
  cases filled with
  | nil => cases eq
  | @hole _ hole rest' out' i arg there named more =>
    exact .inl ⟨hole, i, arg, rest', out', rfl, rfl, there, named, more⟩
  | @written _ _ out' _ noHole more =>
    cases eq
    exact .inr ⟨noHole, out', rfl, more⟩

/-- A hole that is filled is one that the text begins with. -/
lemma beginsWithHole_of_named {hole rest : List Char} {i : Nat} {arg : String} (there : IsHole before hole i)
    (named : args[i]? = some arg) : BeginsWithHole IsHole args.length before ('{' :: hole ++ '}' :: rest) :=
  ⟨hole, i, rest, there, (List.getElem?_eq_some_iff.mp named).1, rfl⟩

lemma Numeral.unique {s : List Char} {n m : Nat} (numeral : Numeral s n) (numeral' : Numeral s m) : n = m :=
  (numeral_iff.mp numeral).2.2.symm.trans (numeral_iff.mp numeral').2.2

/-- What a template comes to is determined by the template and the arguments. -/
lemma Fills.unique {s out out' : List Char} (filled : Fills Numbered args before s out)
    (filled' : Fills Numbered args before s out') : out = out' := by
  induction filled generalizing out' with
  | nil => cases filled' with
    | nil => rfl
  | @hole before hole rest out i arg there named more ih =>
    obtain ⟨hole', j, arg', rest', out', eq, rfl, there', named', more'⟩ | ⟨noHole, -⟩ := filled'.cons_cases
    · have ends : hole ++ '}' :: rest = hole' ++ '}' :: rest' := by simpa using eq
      obtain ⟨rfl, rfl⟩ := append_cons_inj (notMem_of_number (.inl there)).2 (notMem_of_number (.inl there')).2 ends
      obtain rfl := Numeral.unique there there'
      rw [named, Option.some.injEq] at named'
      rw [named', ih more']
    · exact absurd (beginsWithHole_of_named there named) noHole
  | @written before rest out c noHole more ih =>
    obtain ⟨hole', j, arg', rest', out', eq, rfl, there', named', -⟩ | ⟨-, out', rfl, more'⟩ := filled'.cons_cases
    · exact absurd (eq ▸ beginsWithHole_of_named there' named') noHole
    · rw [ih more']

/-! ### Two notions of holes -/

/-- Whether two notions of holes mean the same places of a template that stands behind a text. -/
def Agree (P Q : List Char → List Char → Nat → Prop) (n : Nat) (before s : List Char) : Prop :=
  ∀ front hole rest i, s = front ++ '{' :: hole ++ '}' :: rest → i < n →
    (P (before ++ front) hole i ↔ Q (before ++ front) hole i)

namespace Agree

variable {P Q : List Char → List Char → Nat → Prop} {n : Nat} {s t : List Char}

lemma append (agree : Agree P Q n before (s ++ t)) : Agree P Q n (before ++ s) t := by
  intro front hole rest i eq small
  have there := agree (s ++ front) hole rest i (by simp [eq]) small
  rwa [← List.append_assoc] at there

lemma beginsWithHole_iff (agree : Agree P Q n before s) : BeginsWithHole P n before s ↔ BeginsWithHole Q n before s := by
  have same {hole rest : List Char} {i : Nat} (small : i < n) (eq : s = '{' :: hole ++ '}' :: rest) :
      P before hole i ↔ Q before hole i := by
    simpa using agree [] hole rest i eq small
  constructor
  · rintro ⟨hole, i, rest, there, small, eq⟩
    exact ⟨hole, i, rest, (same small eq).mp there, small, eq⟩
  · rintro ⟨hole, i, rest, there, small, eq⟩
    exact ⟨hole, i, rest, (same small eq).mpr there, small, eq⟩

/-- Notions that mean the same places fill a template in the same way. -/
lemma fills (agree : Agree P Q args.length before s) {out : List Char} (filled : Fills P args before s out) :
    Fills Q args before s out := by
  induction filled with
  | nil => exact .nil
  | @hole before hole rest out i arg there named more ih =>
    have here := (agree [] hole rest i rfl (List.getElem?_eq_some_iff.mp named).1).mp (by simpa using there)
    have agree' : Agree P Q args.length before (('{' :: hole ++ ['}']) ++ rest) := by simpa using agree
    exact .hole (by simpa using here) named (ih (by simpa using agree'.append))
  | @written before rest out c noHole more ih =>
    exact .written (mt agree.beginsWithHole_iff.mpr noHole) (ih (Agree.append (s := [c]) agree))

lemma cons {c : Char} (here : ∀ hole i rest, c :: s = '{' :: hole ++ '}' :: rest → i < n → (P before hole i ↔ Q before hole i))
    (agree : Agree P Q n (before ++ [c]) s) : Agree P Q n before (c :: s) := by
  intro front hole rest i eq small
  cases front with
  | nil =>
    rw [List.append_nil]
    exact here hole i rest eq small
  | cons d front =>
    obtain ⟨rfl, rfl⟩ := List.cons.inj eq
    simpa using agree front hole rest i rfl small

/-- No hole begins in text without an opening brace. -/
lemma append_of_notMem (none : '{' ∉ t) (agree : Agree P Q n (before ++ t) s) : Agree P Q n before (t ++ s) := by
  induction t generalizing before with
  | nil => simpa using agree
  | cons c t ih =>
    rw [List.mem_cons, not_or] at none
    refine cons (fun hole i rest eq _ => ?_) (ih none.2 (by simpa using agree))
    exact absurd (List.cons.inj eq).1.symm none.1

/-- The two notions of templates mean the same places in braces without others between them, and behind them. -/
lemma braces {hole : List Char} (opens : '{' ∉ hole) (closes : '}' ∉ hole)
    (here : ∀ i < n, Numbered before hole i ↔ Exposed before hole i)
    (agree : Agree Numbered Exposed n (before ++ '{' :: hole ++ ['}']) s) :
    Agree Numbered Exposed n before ('{' :: hole ++ '}' :: s) := by
  refine cons (fun hole' i rest eq small => ?_) ?_
  · by_cases closes' : '}' ∈ hole'
    · exact iff_of_false (fun there => (notMem_of_number (.inl there)).2 closes')
        (fun there => (notMem_of_number there.2).2 closes')
    · have ends : hole ++ '}' :: s = hole' ++ '}' :: rest := by simpa using eq
      obtain ⟨rfl, -⟩ := append_cons_inj closes closes' ends
      exact here i small
  · have none : '{' ∉ hole ++ ['}'] := by simpa using opens
    have rest : Agree Numbered Exposed n (before ++ ['{']) ((hole ++ ['}']) ++ s) :=
      append_of_notMem none (by simpa using agree)
    simpa using rest

/-- The two notions mean the same places of text with numerals in braces in it and no other brace that opens. -/
lemma of_segments {segments : List (List Char × List Char)} {last : List Char} (closed : ¬ IsOpen before)
    (plain : ∀ segment ∈ segments, '{' ∉ segment.1 ∧ ∃ i, Numeral segment.2 i) (none : '{' ∉ last) :
    Agree Numbered Exposed n before
      ((segments.flatMap fun (text, numeral) => text ++ '{' :: numeral ++ ['}']) ++ last) := by
  induction segments generalizing before with
  | nil =>
    have nothing : Agree Numbered Exposed n (before ++ last) [] := fun front hole rest i eq => by simp at eq
    simpa using append_of_notMem none nothing
  | cons segment segments ih =>
    obtain ⟨text, numeral⟩ := segment
    obtain ⟨⟨opens, i, number⟩, plain⟩ := List.forall_mem_cons.mp plain
    obtain ⟨none, closes⟩ := notMem_of_number (.inl number)
    have closed : ¬ IsOpen (before ++ text) := not_isOpen_append closed opens
    have here : ∀ j < n, Numbered (before ++ text) numeral j ↔ Exposed (before ++ text) numeral j := fun j _ =>
      ⟨fun number => ⟨closed, .inl number⟩, fun exposed => exposed.2.resolve_right number.not_signed⟩
    have rest := braces none closes here (ih (not_isOpen_concat _) plain)
    simpa using append_of_notMem opens rest

/-- Arguments that do not look like a brace show at which places a template was filled. -/
lemma of_fills {out : List Char} (marks : ∀ arg ∈ args, ∃ c rest, arg.toList = c :: rest ∧ c ≠ '{')
    (filled : Fills Numbered args before s out) (filled' : Fills Exposed args before s out) :
    Agree Numbered Exposed args.length before s := by
  have mark {i : Nat} {arg : String} {out out' : List Char} (named : args[i]? = some arg) :
      arg.toList ++ out ≠ '{' :: out' := by
    obtain ⟨c, rest, text, other⟩ := marks arg (List.mem_of_getElem? named)
    rw [text]
    exact fun eq => other (List.cons.inj eq).1
  induction filled with
  | nil =>
    intro front hole rest i eq
    simp at eq
  | @hole before hole rest out i arg there named more ih =>
    obtain ⟨hole', j, arg', rest', out', eq, texts, there', named', more'⟩ | ⟨-, out', texts, -⟩ := filled'.cons_cases
    · have ends : hole ++ '}' :: rest = hole' ++ '}' :: rest' := by simpa using eq
      obtain ⟨opens, closes⟩ := notMem_of_number (.inl there)
      obtain ⟨closed, number⟩ := there'
      obtain ⟨rfl, rfl⟩ := append_cons_inj closes (notMem_of_number number).2 ends
      have unsigned {k : Nat} : Numeral hole k ∨ Signed hole k ↔ Numeral hole k := or_iff_left there.not_signed
      obtain rfl := Numeral.unique there (unsigned.mp number)
      rw [named, Option.some.injEq] at named'
      obtain rfl := List.append_cancel_left (named' ▸ texts)
      refine braces opens closes (fun k _ => ?_) (ih more')
      exact ⟨fun numeral => ⟨closed, .inl numeral⟩, fun exposed => unsigned.mp exposed.2⟩
    · exact absurd texts (mark named)
  | @written before rest out c noHole more ih =>
    obtain ⟨hole', j, arg', rest', out', eq, texts, there', named', -⟩ | ⟨noHole', out', texts, more'⟩ := filled'.cons_cases
    · exact absurd ((List.cons.inj eq).1 ▸ texts.symm) (mark named')
    · obtain ⟨-, rfl⟩ := List.cons.inj texts
      refine cons (fun hole i rest eq small => ?_) (ih more')
      exact iff_of_false (fun there => noHole ⟨hole, i, rest, there, small, eq⟩)
        (fun there => noHole' ⟨hole, i, rest, there, small, eq⟩)

end Agree

/-- Whether a template has no hole behind an open brace, where it is not filled, and no number with a sign in braces that
are not behind an open one, where it is filled. -/
structure IsClear (n : Nat) (s : List Char) : Prop where
  shown : ∀ front hole rest i, s = front ++ '{' :: hole ++ '}' :: rest → i < n → Numeral hole i → ¬ IsOpen front
  unsigned : ∀ front hole rest i, s = front ++ '{' :: hole ++ '}' :: rest → i < n → Signed hole i → IsOpen front

lemma isClear_iff_agree {n : Nat} {s : List Char} : IsClear n s ↔ Agree Numbered Exposed n [] s := by
  constructor
  · rintro ⟨shown, unsigned⟩ front hole rest i eq small
    refine ⟨fun numeral => ⟨shown front hole rest i eq small numeral, .inl numeral⟩, ?_⟩
    rintro ⟨closed, numeral | signed⟩
    · exact numeral
    · exact absurd (unsigned front hole rest i eq small signed) closed
  · intro agree
    refine ⟨fun front hole rest i eq small numeral => ((agree front hole rest i eq small).mp numeral).1, ?_⟩
    intro front hole rest i eq small signed
    by_contra closed
    exact Numeral.not_signed ((agree front hole rest i eq small).mpr ⟨closed, .inr signed⟩) signed

lemma fillTemplate_exposed (args : List String) (template : String) :
    Fills Exposed args [] template.toList (fillTemplate args template).toList := by
  rw [fillTemplate, String.toList_ofList]
  exact fillHoles_exposed args template.toList not_isOpen_nil

lemma fillTemplate_numbered {template : String} (agree : Agree Numbered Exposed args.length [] template.toList) :
    Fills Numbered args [] template.toList (fillTemplate args template).toList := by
  have agree' : Agree Exposed Numbered args.length [] template.toList :=
    fun front hole rest i eq small => (agree front hole rest i eq small).symm
  exact agree'.fills (fillTemplate_exposed args template)

/-- A template is filled at the numerals in braces that do not stand behind an open brace, signs allowed, and nothing
else of it is changed, whatever the arguments are. For all arguments of a given number this fills every numeral in braces
that names one of them, and nothing else, exactly if no hole is hidden by an open brace and none that is not hidden has a
sign. -/
theorem fillTemplate_fills_iff (template : String) :
    (∀ args, Fills Exposed args [] template.toList (fillTemplate args template).toList) ∧
      ∀ n, (∀ args, args.length = n → Fills Numbered args [] template.toList (fillTemplate args template).toList) ↔
        IsClear n template.toList := by
  refine ⟨fun args => fillTemplate_exposed args template, fun n => ?_⟩
  rw [isClear_iff_agree]
  constructor
  · intro numbered
    have marks : ∀ arg ∈ List.replicate n "x", ∃ c rest, arg.toList = c :: rest ∧ c ≠ '{' := by
      intro arg there
      obtain rfl := List.eq_of_mem_replicate there
      exact ⟨'x', [], rfl, by decide⟩
    have length : (List.replicate n "x").length = n := List.length_replicate
    rw [← length]
    exact .of_fills marks (numbered _ length) (fillTemplate_exposed _ template)
  · rintro agree args rfl
    exact fillTemplate_numbered agree

/-- A stray brace hides the hole behind it. -/
theorem not_fills_strayBrace :
    fillTemplate ["A"] "a\x7bb\x7b0\x7dc" = "a\x7bb\x7b0\x7dc" ∧
      Fills Numbered ["A"] [] "a\x7bb\x7b0\x7dc".toList "a\x7bbAc".toList ∧
      ¬ Fills Numbered ["A"] [] "a\x7bb\x7b0\x7dc".toList (fillTemplate ["A"] "a\x7bb\x7b0\x7dc").toList := by
  have asWritten : fillTemplate ["A"] "a\x7bb\x7b0\x7dc" = "a\x7bb\x7b0\x7dc" := by decide +kernel
  have filled : Fills Numbered ["A"] [] ['a', '{', 'b', '{', '0', '}', 'c'] ['a', '{', 'b', 'A', 'c'] := by
    have letter {before s : List Char} {c : Char} (other : c ≠ '{') : ¬ BeginsWithHole Numbered 1 before (c :: s) :=
      not_beginsWithHole (.inl other)
    have stray : ¬ BeginsWithHole Numbered 1 ['a'] ['{', 'b', '{', '0', '}', 'c'] := by
      rintro ⟨hole, i, rest, there, -, eq⟩
      cases hole with
      | nil => exact absurd (List.cons.inj (List.cons.inj eq).2).1 (by decide)
      | cons d hole =>
        obtain rfl : 'b' = d := (List.cons.inj (List.cons.inj eq).2).1
        exact absurd (Numeral.isDigit there 'b' List.mem_cons_self) (by decide)
    have zero : Numbered ['a', '{', 'b'] ['0'] 0 := .digit (d := 0) (by decide)
    have named : ["A"][0]? = some "A" := rfl
    exact .written (letter (by decide)) (.written stray (.written (letter (by decide))
      (.hole zero named (.written (letter (by decide)) .nil))))
  refine ⟨asWritten, filled, fun wrong => ?_⟩
  rw [asWritten] at wrong
  exact absurd (wrong.unique filled) (by decide)

/-! ### The messages of diagnostics -/

lemma fills_failure (args : List String) (id title : String) {subject failed : String} (opens : '{' ∉ subject.toList)
    (opens' : '{' ∉ failed.toList) :
    let template := (Descriptor.failure id title subject failed).template
    Fills Numbered args [] template.toList (fillTemplate args template).toList := by
  intro template
  let segments := [(subject.toList ++ " '".toList, ['0']), ("' ".toList ++ failed.toList ++ " and ".toList, ['1']),
    (" was raised. Trace: ".toList, ['2']), (". Message: ".toList, ['3'])]
  have parts : template.toList = (segments.flatMap fun (text, numeral) => text ++ '{' :: numeral ++ ['}']) ++ ['.'] := by
    simp [template, Descriptor.failure, segments, String.toList_append]
  have digit (d : Nat) (small : d < 10) : ∃ i, Numeral [Nat.digitChar d] i := ⟨d, .digit small⟩
  have plain : ∀ segment ∈ segments, '{' ∉ segment.1 ∧ ∃ i, Numeral segment.2 i := by
    simp only [segments, List.forall_mem_cons, List.mem_append, not_or, List.not_mem_nil, false_implies, implies_true,
      and_true]
    exact ⟨⟨⟨opens, by decide⟩, digit 0 (by decide)⟩, ⟨⟨⟨by decide, opens'⟩, by decide⟩, digit 1 (by decide)⟩,
      ⟨by decide, digit 2 (by decide)⟩, by decide, digit 3 (by decide)⟩
  refine fillTemplate_numbered ?_
  rw [parts]
  exact .of_segments not_isOpen_nil plain (by decide)

/-- The message of a diagnostic of the catalogue is what its descriptor promises, whatever the arguments hold. -/
theorem fills_of_mem_catalogue {d : Descriptor} (there : d ∈ Descriptor.catalogue) (args : List String)
    (location : Option Location) :
    Fills Numbered args [] d.template.toList (Diagnostic.new d args location).message.toList := by
  simp only [Descriptor.catalogue, List.mem_cons, List.not_mem_nil, or_false] at there
  obtain rfl | rfl | rfl | rfl | rfl | rfl := there <;> exact fills_failure args _ _ (by decide) (by decide)

end SourceGen.Text
