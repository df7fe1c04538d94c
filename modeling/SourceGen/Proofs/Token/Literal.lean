import Mathlib.Data.List.TakeWhile
import SourceGen.Proofs.Token.Text
import SourceGen.Token.Literal

/-!
# What literals look like

A recogniser takes the literal from the start of the characters (`Literal.isWord_of_after`): letters, digits and
marks, or a text between quotes that has no other quotes but behind backslashes, or a longer mark at its end.
-/

namespace SourceGen

open SourceGen.Text

/-- A token that is no punctuation. -/
structure IsWord (t : List Char) : Prop extends IsToken t where
  ne_nil : t ≠ []
  closed : t.getLast? ≠ some '='

/-- Whether a character is of a word, and needs no other one to end or to escape. -/
def isSmooth (c : Char) : Bool := !([' ', '\\', '\x7b', '"', '='].contains c)

/-- A class of characters is smooth if the others are not in it. -/
lemma isSmooth_of {p : Char → Bool} (none : [' ', '\\', '\x7b', '"', '='].any p = false) {c : Char}
    (h : p c = true) : isSmooth c = true := by
  by_contra rough
  have rough : c ∈ [' ', '\\', '\x7b', '"', '='] :=
    List.contains_iff_mem.mp (by simpa only [isSmooth, Bool.not_eq_true, Bool.not_eq_false'] using rough)
  exact List.any_eq_false.mp none c rough h

/-- Characters that are all of a word. -/
def Smooth (t : List Char) : Prop := ∀ c ∈ t, isSmooth c = true

instance (t : List Char) : Decidable (Smooth t) := List.decidableBAll (isSmooth · = true) t

namespace Smooth

variable {s t : List Char} {c : Char}

@[simp] lemma nil : Smooth [] := List.forall_mem_nil _

@[simp] lemma cons : Smooth (c :: t) ↔ isSmooth c = true ∧ Smooth t := List.forall_mem_cons

@[simp] lemma append : Smooth (s ++ t) ↔ Smooth s ∧ Smooth t := List.forall_mem_append

lemma isWord (smooth : Smooth t) (ne_nil : t ≠ []) : IsWord t where
  ne_nil := ne_nil
  toIsToken := .of_plain fun c hc => by
    have := smooth c hc
    simp_all [isSmooth]
  closed last := by
    have := smooth '=' (List.mem_of_getLast? last)
    cases this

lemma takeWhile {p : Char → Bool} (none : [' ', '\\', '\x7b', '"', '='].any p = false) :
    Smooth (t.takeWhile p) :=
  fun _ hc => isSmooth_of none (List.mem_takeWhile_imp hc)

end Smooth

/-- What ends in a quote and a suffix is a word, if the quote at its end has a partner. -/
lemma isWord_of_quote {front tail : List Char} {c : Char} (quote : c = '"' ∨ c = '\'') (smooth : Smooth tail)
    (string : tail = [] → c = '"' → ∃ start body, front = start ++ '"' :: body ∧ guarded '"' body = true ∧
      ∀ c ∈ start.getLast?, c ∉ [' ', '\\']) : IsWord (front ++ c :: tail) := by
  have end_mem : ∀ d ∈ (front ++ c :: tail).getLast?, d ∈ c :: tail := by
    intro d last
    rw [List.getLast?_append, List.getLast?_cons] at last
    exact List.mem_of_getLast? (by simpa [List.getLast?_cons] using last)
  have ends : ∀ d ∈ c :: tail, d ∉ [' ', '\\', '\x7b', '='] := by
    intro d hd
    rcases List.mem_cons.mp hd with rfl | hd
    · rcases quote with rfl | rfl <;> decide
    · have := smooth d hd
      simp_all [isSmooth]
  exact {
    last := fun d hd => by
      have := ends d (end_mem d hd)
      simp_all
    blank := by
      intro a b eq
      rcases List.append_eq_append_iff.mp eq with ⟨x, rfl, behind⟩ | ⟨x, rfl, behind⟩
      · exact absurd (by simp) (ends ' ' (by simp [behind]))
      · cases x with
        | nil => exact absurd (by simp) (ends ' ' ((List.nil_append _ ▸ behind) ▸ List.mem_cons_self))
        | cons d x =>
          obtain ⟨-, rfl⟩ := List.cons.inj behind
          exact ⟨c, by simp, by rcases quote with rfl | rfl <;> decide⟩
    string := by
      intro a eq
      rcases tail.eq_nil_or_concat with rfl | ⟨tail, d, rfl⟩
      · obtain ⟨rfl, ⟨⟩⟩ := List.append_inj' eq rfl
        exact string rfl rfl
      · rw [List.concat_eq_append, ← List.cons_append, ← List.append_assoc] at eq
        cases (List.append_inj' eq rfl).2
        cases smooth '"' (by simp)
    ne_nil := List.append_ne_nil_of_right_ne_nil front (List.cons_ne_nil c tail)
    closed := fun last => by
      exact absurd (by simp) (ends '=' (end_mem '=' last)) }

namespace Literal

variable {cs rest : List Char}

/-- What is left of characters after smooth ones. -/
def Leaves (cs rest : List Char) : Prop := ∃ t, cs = t ++ rest ∧ Smooth t

lemma leaves_self (cs : List Char) : Leaves cs cs := ⟨[], rfl, .nil⟩

lemma Leaves.cons {c : Char} (h : Leaves cs rest) (smooth : isSmooth c = true) : Leaves (c :: cs) rest := by
  obtain ⟨t, rfl, smooth'⟩ := h
  exact ⟨c :: t, rfl, Smooth.cons.mpr ⟨smooth, smooth'⟩⟩

lemma Leaves.trans {middle : List Char} (first : Leaves cs middle) (second : Leaves middle rest) : Leaves cs rest := by
  obtain ⟨s, rfl, smooth⟩ := first
  obtain ⟨t, rfl, smooth'⟩ := second
  exact ⟨s ++ t, (List.append_assoc _ _ _).symm, Smooth.append.mpr ⟨smooth, smooth'⟩⟩

lemma leaves_dropWhile (cs : List Char) {p : Char → Bool}
    (none : [' ', '\\', '\x7b', '"', '='].any p = false) : Leaves cs (cs.dropWhile p) :=
  ⟨cs.takeWhile p, List.takeWhile_append_dropWhile.symm, .takeWhile none⟩

/-- What is left of characters after smooth ones, of which there are some. -/
def LeavesFewer (cs rest : List Char) : Prop := ∃ c cs', cs = c :: cs' ∧ isSmooth c = true ∧ Leaves cs' rest

lemma LeavesFewer.trans {middle : List Char} (first : LeavesFewer cs middle) (second : Leaves middle rest) :
    LeavesFewer cs rest := by
  obtain ⟨c, cs, rfl, smooth, leaves⟩ := first
  exact ⟨c, cs, rfl, smooth, leaves.trans second⟩

lemma LeavesFewer.exists_word (h : LeavesFewer cs rest) : ∃ t, cs = t ++ rest ∧ Smooth t ∧ t ≠ [] := by
  obtain ⟨c, cs, rfl, smooth, t, rfl, smooth'⟩ := h
  exact ⟨c :: t, rfl, Smooth.cons.mpr ⟨smooth, smooth'⟩, List.cons_ne_nil c t⟩

lemma leaves_afterIdentifier (h : afterIdentifier cs = some rest) : LeavesFewer cs rest := by
  cases cs with
  | nil => cases h
  | cons c cs =>
    rw [afterIdentifier] at h
    split_ifs at h with start
    cases h
    exact ⟨c, cs, rfl, isSmooth_of (by decide) start, leaves_dropWhile cs (by decide)⟩

lemma leaves_afterSuffix (cs : List Char) : Leaves cs (afterSuffix cs) := by
  rw [afterSuffix]
  cases suffix : afterIdentifier cs with
  | none => exact leaves_self cs
  | some rest =>
    obtain ⟨t, eq, smooth, -⟩ := (leaves_afterIdentifier suffix).exists_word
    exact ⟨t, eq, smooth⟩

/-! ### Texts -/

lemma isSmooth_of_isHexDigit {c : Char} (h : isHexDigit c = true) : isSmooth c = true := isSmooth_of (by decide) h

lemma ne_of_isSmooth {c : Char} (h : isSmooth c = true) : c ≠ '"' := by
  rintro rfl
  cases h

lemma quote_notMem_codePoint {digits value n v : Nat} (h : codePoint digits value cs = some (n, v)) :
    '"' ∉ cs.take n := by
  induction cs generalizing digits value n v with
  | nil => simp
  | cons c cs ih =>
    have behind {k l : Nat} {o : Option (Nat × Nat)} (none_quote : ∀ {k l}, o = some (k, l) → '"' ∉ cs.take k)
        (plain : c ≠ '"') (here : (o.map fun r => (r.1 + 1, r.2)) = some (k, l)) : '"' ∉ (c :: cs).take k := by
      obtain ⟨⟨k, l⟩, there, ⟨⟩⟩ := Option.map_eq_some_iff.mp here
      simpa [plain.symm] using none_quote there
    rw [codePoint] at h
    split_ifs at h with close _ line _ digit
    · cases h
      simp [close]
    · exact behind ih (by simp [line]) h
    · refine behind ih (ne_of_isSmooth (isSmooth_of_isHexDigit ?_)) h
      exact (Bool.and_eq_true_iff.mp digit).1

lemma quote_notMem_continuation {n : Nat} (h : continuation cs = some n) : '"' ∉ cs.take n := by
  fun_induction continuation cs generalizing n with
  | case1 | case3 => cases h
  | case2 cs ih =>
    obtain ⟨n, there, rfl⟩ := Option.map_eq_some_iff.mp h
    simpa using ih there
  | case4 c cs _ _ blank ih =>
    obtain ⟨n, there, rfl⟩ := Option.map_eq_some_iff.mp h
    have other : '"' ≠ c := by
      rintro rfl
      cases blank
    simpa [other] using ih there
  | case5 =>
    cases h
    simp

/-- An escape holds no quote but right behind its backslash. -/
lemma quote_notMem_escape {k : TextKind} {n : Nat} (h : escapeLength k cs = some n) : '"' ∉ (cs.take n).tail := by
  have point {cs : List Char} {v : Nat} (there : codePoint 0 0 cs = some (n - 2, v)) (two : 2 ≤ n) :
      '"' ∉ (('u' :: '\x7b' :: cs).take n).tail := by
    obtain ⟨n, rfl⟩ := Nat.exists_eq_add_of_le' two
    simpa using quote_notMem_codePoint there
  rw [escapeLength.eq_def] at h
  dsimp only at h
  split at h
  · next a b _ =>
    split_ifs at h with fits
    cases h
    have digit : a ≠ '"' ∧ b ≠ '"' := by
      have digit : isHexDigit '"' = false := by decide
      have octal : ¬ '0' ≤ '"' := by decide
      constructor <;> rintro rfl <;> cases k <;> simp [digit, octal] at fits
    simp [digit.1.symm, digit.2.symm]
  · split at h
    · next m v there =>
      cases k with
      | string =>
        cases h
        exact point there (Nat.le_add_left 2 m)
      | bytes => cases h
      | cString =>
        dsimp only at h
        split_ifs at h
        cases h
        exact point there (Nat.le_add_left 2 m)
    · cases h
  · split_ifs at h
    cases h
    simp
  · obtain ⟨m, there, rfl⟩ := Option.map_eq_some_iff.mp h
    simpa using quote_notMem_continuation there
  · obtain ⟨m, there, rfl⟩ := Option.map_eq_some_iff.mp h
    simpa using quote_notMem_continuation there
  · split_ifs at h
    cases h
    simp
  · cases h

/-- The body of a text with escapes holds quotes only behind backslashes. -/
lemma exists_of_afterCooked {k : TextKind} (h : afterCooked k cs = some rest) :
    ∃ body tail, cs = body ++ '"' :: tail ++ rest ∧ (∀ last, guarded last body = true) ∧ Smooth tail := by
  fun_induction afterCooked k cs with
  | case1 | case5 | case7 => cases h
  | case2 cs =>
    cases h
    obtain ⟨tail, eq, smooth⟩ := leaves_afterSuffix cs
    exact ⟨[], tail, by simpa using eq, fun _ => rfl, smooth⟩
  | case3 cs ih =>
    obtain ⟨body, tail, rfl, guard, smooth⟩ := ih h
    exact ⟨'\r' :: '\n' :: body, tail, rfl, fun _ => by simp [guarded, guard], smooth⟩
  | case4 cs n length ih =>
    obtain ⟨body, tail, eq, guard, smooth⟩ := ih h
    refine ⟨'\\' :: (cs.take n ++ body), tail, ?_, fun _ => ?_, smooth⟩
    · have whole := congrArg (cs.take n ++ ·) eq
      simpa [List.take_append_drop] using whole
    · have free := quote_notMem_escape length
      cases escape : cs.take n with
      | nil => simp [guarded, guard]
      | cons c escape' =>
        have free : '"' ∉ escape' := by simpa [escape] using free
        simp [guarded, guarded_append free guard]
  | case6 c cs quote _ escape _ ih =>
    obtain ⟨body, tail, rfl, guard, smooth⟩ := ih h
    exact ⟨c :: body, tail, rfl, fun _ => by simp [guarded, guard, show c ≠ '"' from quote], smooth⟩

/-- The body of a raw text without number signs holds no quote. -/
lemma exists_of_afterRawBody {k : TextKind} {hashes : List Char} (h : afterRawBody k hashes cs = some rest) :
    ∃ body tail, cs = body ++ '"' :: (hashes ++ tail) ++ rest ∧ (hashes = [] → '"' ∉ body) ∧ Smooth tail := by
  fun_induction afterRawBody k hashes cs with
  | case1 | case5 => cases h
  | case2 cs ih =>
    obtain ⟨body, tail, rfl, free, smooth⟩ := ih h
    exact ⟨'\r' :: '\n' :: body, tail, rfl, fun none => by simp [free none], smooth⟩
  | case3 c cs _ ends =>
    cases h
    obtain ⟨quote, hashes'⟩ := Bool.and_eq_true_iff.mp ends
    obtain ⟨behind, rfl⟩ := List.isPrefixOf_iff_prefix.mp hashes'
    obtain ⟨tail, eq, smooth⟩ := leaves_afterSuffix behind
    refine ⟨[], tail, ?_, by simp, smooth⟩
    rw [of_decide_eq_true quote, List.drop_left]
    simpa using eq
  | case4 c cs _ goesOn _ ih =>
    obtain ⟨body, tail, rfl, free, smooth⟩ := ih h
    refine ⟨c :: body, tail, rfl, ?_, smooth⟩
    rintro rfl
    have other : '"' ≠ c := by
      rintro rfl
      simp at goesOn
    simp [other, free]

lemma isWord_of_afterCooked {k : TextKind} (front : List Char) (h : afterCooked k cs = some rest)
    (smooth : Smooth front) : ∃ t, front ++ '"' :: cs = t ++ rest ∧ IsWord t := by
  obtain ⟨body, tail, rfl, guard, smooth'⟩ := exists_of_afterCooked h
  refine ⟨(front ++ '"' :: body) ++ '"' :: tail, by simp, isWord_of_quote (.inl rfl) smooth' fun _ _ => ?_⟩
  refine ⟨front, body, rfl, guard '"', fun c last => ?_⟩
  have := smooth c (List.mem_of_getLast? last)
  simp_all [isSmooth]

lemma isWord_of_afterRaw {k : TextKind} (front : List Char) (h : afterRaw k cs = some rest) (smooth : Smooth front) :
    ∃ t, front ++ cs = t ++ rest ∧ IsWord t := by
  rw [afterRaw] at h
  split at h
  · next content start =>
    split_ifs at h
    obtain ⟨body, tail, eq, free, smooth'⟩ := exists_of_afterRawBody h
    have hashes : Smooth (cs.takeWhile (· = '#')) := .takeWhile (by decide)
    have whole := List.takeWhile_append_dropWhile (p := (· = '#')) (l := cs)
    rw [start, eq] at whole
    generalize cs.takeWhile (· = '#') = hs at *
    refine ⟨((front ++ hs) ++ '"' :: body) ++ '"' :: (hs ++ tail), ?_,
      isWord_of_quote (.inl rfl) (by simp [hashes, smooth']) fun none _ => ?_⟩
    · simp [← whole]
    · refine ⟨front ++ hs, body, rfl, ?_, fun c last => ?_⟩
      · simpa using @guarded_append body [] (free (List.append_eq_nil_iff.mp none).1) (fun _ => rfl) '"'
      · have := Smooth.append.mpr ⟨smooth, hashes⟩ c (List.mem_of_getLast? last)
        simp_all [isSmooth]
  · cases h

/-- A text literal is a word. -/
lemma isWord_of_afterText (h : afterText cs = some rest) : ∃ t, cs = t ++ rest ∧ IsWord t := by
  rw [afterText.eq_def] at h
  split at h
  · exact isWord_of_afterCooked [] h .nil
  · exact isWord_of_afterRaw ['r'] h (by decide)
  · exact isWord_of_afterCooked ['b'] h (by decide)
  · exact isWord_of_afterRaw ['b', 'r'] h (by decide)
  · exact isWord_of_afterCooked ['c'] h (by decide)
  · exact isWord_of_afterRaw ['c', 'r'] h (by decide)
  · cases h

/-! ### Characters -/

lemma isWord_of_afterQuote (front : List Char) (h : afterQuote cs = some rest) :
    ∃ t, front ++ cs = t ++ rest ∧ IsWord t := by
  rw [afterQuote.eq_def] at h
  split at h
  · next cs =>
    cases h
    obtain ⟨tail, eq, smooth⟩ := leaves_afterSuffix cs
    exact ⟨front ++ '\'' :: tail, by simpa using eq, isWord_of_quote (.inr rfl) smooth fun _ => nofun⟩
  · cases h

/-- What a character literal has before its closing quote does not matter. -/
lemma isWord_of_afterCharBody {k : TextKind} (front : List Char) (h : afterCharBody k cs = some rest) :
    ∃ t, front ++ cs = t ++ rest ∧ IsWord t := by
  rw [afterCharBody.eq_def] at h
  split at h
  · cases h
  · next cs =>
    split at h
    · cases h
    · cases h
    · split at h
      · next n _ =>
        obtain ⟨t, eq, word⟩ := isWord_of_afterQuote (front ++ '\\' :: cs.take n) h
        exact ⟨t, by simpa using eq, word⟩
      · cases h
  · next c cs _ =>
    split_ifs at h
    obtain ⟨t, eq, word⟩ := isWord_of_afterQuote (front ++ [c]) h
    exact ⟨t, by simpa using eq, word⟩

/-- A character literal is a word. -/
lemma isWord_of_afterCharacter (h : afterCharacter cs = some rest) : ∃ t, cs = t ++ rest ∧ IsWord t := by
  rw [afterCharacter.eq_def] at h
  split at h
  · exact isWord_of_afterCharBody ['\''] h
  · exact isWord_of_afterCharBody ['b', '\''] h
  · cases h

/-! ### Numbers -/

lemma leaves_afterExponent {signed : Bool} (h : afterExponent signed cs = some rest) : Leaves cs rest := by
  induction cs generalizing signed with
  | nil => cases h
  | cons c cs ih =>
    rw [afterExponent] at h
    split_ifs at h with sign _ digit line
    · refine (ih h).cons ?_
      rcases (by simpa using sign : c = '+' ∨ c = '-') with rfl | rfl <;> decide
    · cases h
      exact (leaves_dropWhile cs (by decide)).cons (isSmooth_of (by decide) digit)
    · exact (ih h).cons (by rw [line]; decide)

lemma leaves_afterDigits {base : Nat} {empty : Bool} (h : afterDigits base empty cs = some rest) : Leaves cs rest := by
  induction cs generalizing empty with
  | nil =>
    rw [afterDigits] at h
    split_ifs at h
    cases h
    exact leaves_self []
  | cons c cs ih =>
    rw [afterDigits] at h
    split_ifs at h with digit _ hex line
    · exact (ih h).cons (isSmooth_of (by decide) digit)
    · exact (ih h).cons (isSmooth_of_isHexDigit (Bool.and_eq_true_iff.mp hex).1)
    · exact (ih h).cons (by rw [line]; decide)
    · cases h
      exact leaves_self _

/-- A whole number without a base mark starts with a digit. -/
lemma leaves_afterDecimalDigits (h : afterDigits 10 true cs = some rest) : LeavesFewer cs rest := by
  cases cs with
  | nil => cases h
  | cons c cs =>
    rw [afterDigits] at h
    split_ifs at h with digit _ hex line base begun
    · exact ⟨c, cs, rfl, isSmooth_of (by decide) digit, leaves_afterDigits h⟩
    · simp at hex
    · exact absurd rfl base
    · exact absurd rfl begun

lemma leaves_afterWholeDigits (h : afterWholeDigits cs = some rest) : LeavesFewer cs rest := by
  rw [afterWholeDigits.eq_def] at h
  split at h
  · exact ⟨_, _, rfl, by decide, (leaves_afterDigits h).cons (by decide)⟩
  · exact ⟨_, _, rfl, by decide, (leaves_afterDigits h).cons (by decide)⟩
  · exact ⟨_, _, rfl, by decide, (leaves_afterDigits h).cons (by decide)⟩
  · exact leaves_afterDecimalDigits h

lemma leaves_afterFloatDigits (h : afterFloatDigits cs = some rest) : LeavesFewer cs rest := by
  have letter {e : Char} (h : (decide (e = 'e') || decide (e = 'E')) = true) : isSmooth e = true := by
    rcases (by simpa using h : e = 'e' ∨ e = 'E') with rfl | rfl <;> decide
  cases cs with
  | nil => cases h
  | cons c cs =>
    rw [afterFloatDigits] at h
    split at h
    · cases h
    · next digit =>
      have whole : LeavesFewer (c :: cs) (cs.dropWhile isDigitOrLowLine) :=
        ⟨c, cs, rfl, isSmooth_of (by decide) (by simpa using digit : c.isDigit = true), leaves_dropWhile cs (by decide)⟩
      split at h
      · next fraction start =>
        rw [start] at whole
        split_ifs at h
        have fractional := whole.trans ((leaves_dropWhile fraction (p := isDigitOrLowLine) (by decide)).cons (by decide))
        dsimp only at h
        split at h
        · next e power more =>
          rw [more] at fractional
          split_ifs at h with exponent
          · cases h
            cases behind : afterExponent false power with
            | none => exact more.symm ▸ fractional
            | some rest => exact fractional.trans ((leaves_afterExponent behind).cons (letter exponent))
          · cases h
            exact more.symm ▸ fractional
        · next done =>
          cases h
          exact done ▸ fractional
      · next e power start =>
        rw [start] at whole
        split_ifs at h with exponent
        exact whole.trans ((leaves_afterExponent h).cons (letter exponent))
      · cases h

lemma leaves_afterNumber (h : afterNumber cs = some rest) : Leaves cs rest := by
  rw [afterNumber] at h
  split_ifs at h
  cases h
  exact leaves_afterSuffix cs

/-- A literal is a word. -/
lemma isWord_of_after (h : after cs = some rest) : ∃ t, cs = t ++ rest ∧ IsWord t := by
  have number {digits : List Char → Option (List Char)} (leaves : ∀ {rest}, digits cs = some rest → LeavesFewer cs rest)
      (h : (digits cs).bind afterNumber = some rest) : ∃ t, cs = t ++ rest ∧ IsWord t := by
    obtain ⟨middle, first, second⟩ := Option.bind_eq_some_iff.mp h
    obtain ⟨t, eq, smooth, ne_nil⟩ := ((leaves first).trans (leaves_afterNumber second)).exists_word
    exact ⟨t, eq, smooth.isWord ne_nil⟩
  rw [after] at h
  cases text : afterText cs with
  | some r => exact isWord_of_afterText (text.trans (by simpa [text] using h))
  | none =>
    cases character : afterCharacter cs with
    | some r => exact isWord_of_afterCharacter (character.trans (by simpa [text, character] using h))
    | none =>
      cases float : (afterFloatDigits cs).bind afterNumber with
      | some r => exact number leaves_afterFloatDigits (float.trans (by simpa [text, character, float] using h))
      | none => exact number leaves_afterWholeDigits (by simpa [text, character, float] using h)

end Literal

end SourceGen
