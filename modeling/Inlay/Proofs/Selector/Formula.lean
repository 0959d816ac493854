import Inlay.Proofs.Selector.Periodic
import Inlay.Proofs.Selector.Positions
import Inlay.Proofs.Text.Case

/-!
# Reading periodic positions

Which texts are read as `a*n + b`. `Spelling` says how the numbers are spelled, without white space;
`Written` lets white space stand at both ends of the text and around the sign of the second number.

* `parse?_eq_some_iff`: a text is read if it is a spelling once *all* white space is taken out of
  it;
* `written_iff`: so what is written in the notation is read as it stands, and every other text that
  is read has white space inside a number, a word, or before the `n` (`parse?_of_parted_digits`).
-/

namespace Inlay.Selector.Nth

variable {cs l r ds : List Char} {c : Char} {x : Int32} {a b z : Int} {s : String} {n : Nth}
  {k : Nat}

/-! ### The notation -/

/-- A sign, and the factor that it stands for. -/
inductive Sign : Char → Int → Prop where
  | plus : Sign '+' 1
  | minus : Sign '-' (-1)

/-- Decimal digits, at least one, and the number that they write. -/
structure Digits (ds : List Char) (k : Nat) : Prop where
  nonempty : ds ≠ []
  digits : ∀ c ∈ ds, c.isDigit = true
  value : k = Nat.ofDigitChars 10 ds 0

/-- A decimal number with or without a sign. -/
inductive Numeral : List Char → Int → Prop where
  | bare {ds : List Char} {k : Nat} (h : Digits ds k) : Numeral ds k
  | signed {c : Char} {σ : Int} {ds : List Char} {k : Nat} (hc : Sign c σ) (h : Digits ds k) :
    Numeral (c :: ds) (σ * k)

/-- What stands before the `n`: a number, of which the digits or all may be left out. -/
inductive Factor : List Char → Int → Prop where
  | empty : Factor [] 1
  | sign {c : Char} {σ : Int} (hc : Sign c σ) : Factor [c] σ
  | numeral {cs : List Char} {a : Int} (h : Numeral cs a) : Factor cs a

/-- What stands behind the `n`: nothing, or a number with a sign. -/
inductive Term : List Char → Int → Prop where
  | empty : Term [] 0
  | signed {c : Char} {σ : Int} {ds : List Char} {k : Nat} (hc : Sign c σ) (h : Digits ds k) :
    Term (c :: ds) (σ * k)

/-- The spellings of `a*n + b`, in lower case and without white space. -/
inductive Spelling : List Char → Int → Int → Prop where
  | odd : Spelling ['o', 'd', 'd'] 2 1
  | even : Spelling ['e', 'v', 'e', 'n'] 2 0
  | constant {cs : List Char} {b : Int} (h : Numeral cs b) : Spelling cs 0 b
  | sum {l r : List Char} {a b : Int} (hl : Factor l a) (hr : Term r b) :
      Spelling (l ++ 'n' :: r) a b

/-! ### Characters -/

theorem Sign.isSign {σ : Int} (h : Sign c σ) : IsSign c ∧ c ≠ 'n' := by
  cases h with
  | plus => exact ⟨.inr (.inr (.inl rfl)), by decide⟩
  | minus => exact ⟨.inr (.inl rfl), by decide⟩

theorem Digits.isSign (h : Digits ds k) : ∀ c ∈ ds, IsSign c ∧ c ≠ 'n' := by
  intro c hc
  have hdigit := h.digits c hc
  refine ⟨.inl hdigit, ?_⟩
  rintro rfl
  exact absurd hdigit (by decide)

theorem Term.isSign (h : Term r b) : ∀ c ∈ r, IsSign c ∧ c ≠ 'n' := by
  cases h with
  | empty => simp
  | signed hc h => exact List.forall_mem_cons.mpr ⟨hc.isSign, h.isSign⟩

theorem Numeral.isSign (h : Numeral cs z) : ∀ c ∈ cs, IsSign c ∧ c ≠ 'n' := by
  cases h with
  | bare h => exact h.isSign
  | signed hc h => exact List.forall_mem_cons.mpr ⟨hc.isSign, h.isSign⟩

theorem Factor.isSign (h : Factor l a) : ∀ c ∈ l, IsSign c ∧ c ≠ 'n' := by
  cases h with
  | empty => simp
  | sign hc => exact List.forall_mem_singleton.mpr hc.isSign
  | numeral h => exact h.isSign

/-- A digit is no sign: `c ≠ '-'` and `c ≠ '+'`. -/
theorem Digits.head_ne (h : Digits (c :: ds) k) : c ≠ '-' ∧ c ≠ '+' := by
  have hdigit := h.digits c List.mem_cons_self
  constructor <;> rintro rfl <;> exact absurd hdigit (by decide)

/-! ### Reading numbers -/

/-- A number is there if it fits into 32 bits: `x.toInt = z`. -/
theorem fit_eq_some_iff :
    (if isInt32 z = true then some (Int32.ofInt z) else none) = some x ↔ x.toInt = z := by
  constructor
  · intro h
    split at h
    · rename_i hz
      obtain ⟨hlow, hhigh⟩ := isInt32_iff.mp hz
      rw [← Option.some.inj h, Int32.toInt_ofInt_of_le hlow hhigh]
    · exact nomatch h
  · rintro rfl
    rw [if_pos (isInt32_iff.mpr ⟨Int32.le_toInt x, Int32.toInt_lt x⟩), Int32.ofInt_toInt]

/-- Digits behind a sign that is known already: `k` is what they stand for, and it must fit. -/
theorem readDigits_iff (negative : Bool) :
    (if (ds.isEmpty || !ds.all Char.isDigit) = true then none
      else
        let k := ds.foldl (fun n d => n * 10 + (d.toNat - '0'.toNat)) 0
        let z : Int := if negative = true then -(k : Int) else k
        if isInt32 z = true then some (Int32.ofInt z) else none) = some x ↔
      ∃ k : Nat, Digits ds k ∧ x.toInt = if negative = true then -(k : Int) else k := by
  have hvalue : ds.foldl (fun n d => n * 10 + (d.toNat - '0'.toNat)) 0 =
      Nat.ofDigitChars 10 ds 0 := by
    rw [Nat.ofDigitChars_eq_foldl]
    simp only [Nat.mul_comm]
  have hdigits : (ds.isEmpty || !ds.all Char.isDigit) = true ↔
      ¬ (ds ≠ [] ∧ ∀ c ∈ ds, c.isDigit = true) := by
    simp [← or_iff_not_imp_left]
  by_cases h : ds ≠ [] ∧ ∀ c ∈ ds, c.isDigit = true
  · rw [if_neg fun hbad => hdigits.mp hbad h]
    simp only [hvalue, fit_eq_some_iff]
    exact ⟨fun hx => ⟨_, ⟨h.1, h.2, rfl⟩, hx⟩, fun ⟨k, hk, hx⟩ => hk.value ▸ hx⟩
  · rw [if_pos (hdigits.mpr h)]
    exact ⟨nofun, fun ⟨k, hk, _⟩ => absurd ⟨hk.nonempty, hk.digits⟩ h⟩

theorem int32?_minus_iff :
    int32? ('-' :: ds) = some x ↔ ∃ k : Nat, Digits ds k ∧ x.toInt = -(k : Int) :=
  readDigits_iff true

theorem int32?_plus_iff : int32? ('+' :: ds) = some x ↔ ∃ k : Nat, Digits ds k ∧ x.toInt = k :=
  readDigits_iff false

/-- Without a sign the `Digits` are the number. -/
theorem int32?_bare_iff (hminus : ∀ rest, cs ≠ '-' :: rest) (hplus : ∀ rest, cs ≠ '+' :: rest) :
    int32? cs = some x ↔ ∃ k : Nat, Digits cs k ∧ x.toInt = k := by
  unfold int32?
  split
  rename_i negative digits hsign
  split at hsign
  · exact absurd rfl (hminus _)
  · exact absurd rfl (hplus _)
  · obtain ⟨rfl, rfl⟩ := Prod.mk.inj hsign
    exact readDigits_iff false

/-- What is read as a number is a numeral with that value, `x.toInt`. -/
theorem int32?_eq_some_iff : int32? cs = some x ↔ Numeral cs x.toInt := by
  -- Digits do not begin with a sign, so the first character says which numeral it can be.
  by_cases hminus : ∃ ds, cs = '-' :: ds
  · obtain ⟨ds, rfl⟩ := hminus
    rw [int32?_minus_iff]
    constructor
    · rintro ⟨k, hk, hx⟩
      rw [hx, ← Int.neg_one_mul]
      exact .signed .minus hk
    · generalize x.toInt = z
      rintro (hk | ⟨⟨⟩, hk⟩)
      · exact absurd rfl hk.head_ne.1
      · exact ⟨_, hk, Int.neg_one_mul _⟩
  by_cases hplus : ∃ ds, cs = '+' :: ds
  · obtain ⟨ds, rfl⟩ := hplus
    rw [int32?_plus_iff]
    constructor
    · rintro ⟨k, hk, hx⟩
      rw [hx, ← Int.one_mul (k : Int)]
      exact .signed .plus hk
    · generalize x.toInt = z
      rintro (hk | ⟨⟨⟩, hk⟩)
      · exact absurd rfl hk.head_ne.2
      · exact ⟨_, hk, Int.one_mul _⟩
  · rw [int32?_bare_iff (not_exists.mp hminus) (not_exists.mp hplus)]
    constructor
    · rintro ⟨k, hk, hx⟩
      exact hx ▸ .bare hk
    · generalize x.toInt = z
      rintro (hk | ⟨⟨⟩, hk⟩)
      · exact ⟨_, hk, rfl⟩
      · exact absurd ⟨_, rfl⟩ hplus
      · exact absurd ⟨_, rfl⟩ hminus

theorem some_eq_some_iff {y : Int32} : some y = some x ↔ x.toInt = y.toInt := by
  rw [Option.some.injEq, eq_comm, Int32.toInt_inj]

theorem not_numeral_nil : ¬ Numeral [] z := by
  rintro (hk | _)
  exact hk.nonempty rfl

theorem factor_nil_iff : Factor [] a ↔ a = 1 := by
  constructor
  · rintro (_ | _ | h)
    · rfl
    · exact absurd h not_numeral_nil
  · rintro rfl
    exact .empty

/-- A sign alone stands for `1` or `-1` before an `n`, and no number is read. -/
theorem factor_sign_iff {σ : Int} (hc : Sign c σ) : Factor [c] a ↔ a = σ := by
  constructor
  · rintro (_ | hc' | hk | ⟨-, hk⟩)
    · cases hc <;> cases hc' <;> rfl
    · cases hc with
      | plus => exact absurd rfl hk.head_ne.2
      | minus => exact absurd rfl hk.head_ne.1
    · exact absurd rfl hk.nonempty
  · rintro rfl
    exact .sign hc

/-- What is read before the `n` is a factor with that value. -/
theorem step?_eq_some_iff : step? l = some x ↔ Factor l x.toInt := by
  unfold step?
  split
  · rw [some_eq_some_iff, factor_nil_iff]
    rfl
  · rw [some_eq_some_iff, factor_sign_iff .plus]
    rfl
  · rw [some_eq_some_iff, factor_sign_iff .minus]
    rfl
  · rename_i hnil hplus hminus
    rw [int32?_eq_some_iff]
    constructor
    · exact .numeral
    · generalize x.toInt = z
      rintro (_ | ⟨⟨⟩⟩ | h)
      · exact absurd rfl hnil
      · exact absurd rfl hplus
      · exact absurd rfl hminus
      · exact h

theorem term_nil_iff : Term [] b ↔ b = 0 := by
  constructor
  · rintro ⟨⟩
    rfl
  · rintro rfl
    exact .empty

/-- What is read behind the `n` is a term with that value. -/
theorem offset?_eq_some_iff : offset? r = some x ↔ Term r x.toInt := by
  cases r with
  | nil =>
    rw [offset?, some_eq_some_iff, term_nil_iff]
    rfl
  | cons c ds =>
    simp only [offset?, List.head?_cons, Option.some.injEq]
    split
    · rename_i hc
      rw [int32?_eq_some_iff]
      generalize x.toInt = z
      constructor
      · rintro (hk | ⟨hc, hk⟩)
        · exact absurd hc (not_or.mpr hk.head_ne.symm)
        · exact .signed hc hk
      · rintro (_ | ⟨hc, hk⟩)
        exact .signed hc hk
    · rename_i hc
      refine ⟨fun h => absurd h.symm (Option.some_ne_none x), ?_⟩
      generalize x.toInt = z
      rintro (_ | ⟨⟨⟩, hk⟩)
      · exact absurd (.inl rfl) hc
      · exact absurd (.inr rfl) hc

/-! ### Reading the whole text -/

/-- A text in lower case without its white space. -/
def compact (cs : List Char) : List Char :=
  (cs.filter (!Text.isBlank ·)).map Char.toLower

theorem takeWhile_before (hl : 'n' ∉ l) : (l ++ 'n' :: r).takeWhile (· ≠ 'n') = l := by
  have hbefore : ∀ c ∈ l, decide (c ≠ 'n') = true := fun c hc =>
    decide_eq_true (ne_of_mem_of_not_mem hc hl)
  rw [List.takeWhile_append_of_pos hbefore]
  simp

theorem dropWhile_before (hl : 'n' ∉ l) : (l ++ 'n' :: r).dropWhile (· ≠ 'n') = 'n' :: r := by
  have hbefore : ∀ c ∈ l, decide (c ≠ 'n') = true := fun c hc =>
    decide_eq_true (ne_of_mem_of_not_mem hc hl)
  rw [List.dropWhile_append_of_pos hbefore]
  simp

/-- Without an `n` only a number is read, `odd` apart, and the step is `0`. -/
theorem parse?_without_n (hcs : compact s.toList = cs) (hodd : cs ≠ ['o', 'd', 'd'])
    (hn : 'n' ∉ cs) : parse? s = some n ↔ n.step.toInt = 0 ∧ Numeral cs n.offset.toInt := by
  have heven : cs ≠ ['e', 'v', 'e', 'n'] := by
    rintro rfl
    exact hn (by decide)
  have hdrop : cs.dropWhile (· ≠ 'n') = [] :=
    List.dropWhile_eq_nil_iff.mpr fun c hc => decide_eq_true (ne_of_mem_of_not_mem hc hn)
  have hread : parse? s = (int32? cs).map (⟨0, ·⟩) := by
    rw [← hcs, compact] at hodd heven hdrop
    simp only [parse?, if_neg hodd, if_neg heven, hdrop, ← hcs, compact]
  rw [hread, Option.map_eq_some_iff]
  obtain ⟨step, offset⟩ := n
  simp only [Nth.mk.injEq, int32?_eq_some_iff]
  constructor
  · rintro ⟨x, hx, rfl, rfl⟩
    exact ⟨rfl, hx⟩
  · rintro ⟨hstep, hoffset⟩
    exact ⟨offset, hoffset, Int32.toInt_inj.mp hstep.symm, rfl⟩

/-- With an `n`, `even` apart, what stands before the first one, `l`, is the step, and what stands
behind it, `r`, the offset. -/
theorem parse?_with_n (hcs : compact s.toList = l ++ 'n' :: r)
    (heven : l ++ 'n' :: r ≠ ['e', 'v', 'e', 'n']) (hl : 'n' ∉ l) :
    parse? s = some n ↔ Factor l n.step.toInt ∧ Term r n.offset.toInt := by
  have hodd : l ++ 'n' :: r ≠ ['o', 'd', 'd'] := by
    intro h
    have hn : 'n' ∈ ['o', 'd', 'd'] := h ▸ List.mem_append_right l List.mem_cons_self
    exact absurd hn (by decide)
  have hread : parse? s = (step? l).bind fun a => (offset? r).map (⟨a, ·⟩) := by
    have htake := takeWhile_before (r := r) hl
    have hdrop := dropWhile_before (r := r) hl
    rw [← hcs, compact] at hodd heven htake hdrop
    simp only [parse?, if_neg hodd, if_neg heven, htake, hdrop]
    cases step? l <;> cases offset? r <;> rfl
  rw [hread, ← step?_eq_some_iff, ← offset?_eq_some_iff]
  obtain ⟨step, offset⟩ := n
  cases step? l <;> cases offset? r <;> simp

/-- What has a letter other than the `n` is one of the two words, `odd` for `2n+1` and `even` for
`2n`. -/
theorem Spelling.word_or_signs (h : Spelling cs a b) :
    (cs = ['o', 'd', 'd'] ∧ a = 2 ∧ b = 1) ∨ (cs = ['e', 'v', 'e', 'n'] ∧ a = 2 ∧ b = 0) ∨
      ∀ c ∈ cs, IsSign c := by
  cases h with
  | odd => exact .inl ⟨rfl, rfl, rfl⟩
  | even => exact .inr (.inl ⟨rfl, rfl, rfl⟩)
  | constant h => exact .inr (.inr fun c hc => (h.isSign c hc).1)
  | sum hl hr =>
    refine .inr (.inr (List.forall_mem_append.mpr ⟨fun c hc => (hl.isSign c hc).1, ?_⟩))
    exact List.forall_mem_cons.mpr ⟨.inr (.inr (.inr rfl)), fun c hc => (hr.isSign c hc).1⟩

theorem not_isSign : ¬ IsSign 'o' ∧ ¬ IsSign 'e' := by
  simp [IsSign]

theorem spelling_odd_iff : Spelling ['o', 'd', 'd'] a b ↔ a = 2 ∧ b = 1 := by
  constructor
  · intro h
    rcases h.word_or_signs with ⟨-, h⟩ | ⟨heq, -⟩ | hsigns
    · exact h
    · exact absurd heq (by decide)
    · exact absurd (hsigns 'o' List.mem_cons_self) not_isSign.1
  · rintro ⟨rfl, rfl⟩
    exact .odd

theorem spelling_even_iff : Spelling ['e', 'v', 'e', 'n'] a b ↔ a = 2 ∧ b = 0 := by
  constructor
  · intro h
    rcases h.word_or_signs with ⟨heq, -⟩ | ⟨-, h⟩ | hsigns
    · exact absurd heq (by decide)
    · exact h
    · exact absurd (hsigns 'e' List.mem_cons_self) not_isSign.2
  · rintro ⟨rfl, rfl⟩
    exact .even

theorem spelling_without_n (hodd : cs ≠ ['o', 'd', 'd']) (hn : 'n' ∉ cs) :
    Spelling cs a b ↔ a = 0 ∧ Numeral cs b := by
  constructor
  · rintro (_ | _ | h | ⟨hl, hr⟩)
    · exact absurd rfl hodd
    · exact absurd (by decide) hn
    · exact ⟨rfl, h⟩
    · exact absurd (List.mem_append_right _ List.mem_cons_self) hn
  · rintro ⟨rfl, h⟩
    exact .constant h

theorem spelling_with_n (heven : l ++ 'n' :: r ≠ ['e', 'v', 'e', 'n']) (hl : 'n' ∉ l) :
    Spelling (l ++ 'n' :: r) a b ↔ Factor l a ∧ Term r b := by
  constructor
  · generalize hcs : l ++ 'n' :: r = cs at heven
    have hn : 'n' ∈ cs := hcs ▸ List.mem_append_right l List.mem_cons_self
    rintro (_ | _ | h | @⟨l', r', _, _, hl', hr'⟩)
    · exact absurd hn (by decide)
    · exact absurd rfl heven
    · exact absurd rfl (h.isSign 'n' hn).2
    · -- both times it is cut at the first `n`
      have hfirst : 'n' ∉ l' := fun hmem => (hl'.isSign 'n' hmem).2 rfl
      have hbefore := takeWhile_before (r := r) hl
      have hbehind := dropWhile_before (r := r) hl
      rw [hcs, takeWhile_before hfirst] at hbefore
      rw [hcs, dropWhile_before hfirst] at hbehind
      exact ⟨hbefore ▸ hl', (List.cons.inj hbehind).2 ▸ hr'⟩
  · rintro ⟨hl, hr⟩
    exact .sum hl hr

/-- The words, in which no number is read: `odd` is `⟨2, 1⟩` and `even` is `⟨2, 0⟩`. -/
theorem parse?_word (hcs : compact s.toList = cs) :
    (cs = ['o', 'd', 'd'] → parse? s = some ⟨2, 1⟩) ∧
      (cs = ['e', 'v', 'e', 'n'] → parse? s = some ⟨2, 0⟩) := by
  rw [← hcs, compact]
  constructor
  · intro hodd
    simp only [parse?, if_pos hodd]
  · intro heven
    simp only [parse?, heven]
    rfl

/-- **What is read.** A text is read as `a*n + b` if and only if it spells that in lower case once
all white space is taken out of it, wherever that stands. -/
theorem parse?_eq_some_iff :
    parse? s = some n ↔ Spelling (compact s.toList) n.step.toInt n.offset.toInt := by
  generalize hcs : compact s.toList = cs
  have hnumbers {step offset : Int32} : some (Nth.mk step offset) = some n ↔
      n.step.toInt = step.toInt ∧ n.offset.toInt = offset.toInt := by
    obtain ⟨a, b⟩ := n
    rw [Option.some.injEq, Nth.mk.injEq, Int32.toInt_inj, Int32.toInt_inj, eq_comm (a := a),
      eq_comm (a := b)]
  by_cases hodd : cs = ['o', 'd', 'd']
  · rw [(parse?_word hcs).1 hodd, hnumbers, hodd, spelling_odd_iff]
    rfl
  by_cases heven : cs = ['e', 'v', 'e', 'n']
  · rw [(parse?_word hcs).2 heven, hnumbers, heven, spelling_even_iff]
    rfl
  by_cases hn : 'n' ∈ cs
  · obtain ⟨l, r, rfl, hl⟩ := List.eq_append_cons_of_mem hn
    rw [parse?_with_n hcs heven hl, spelling_with_n heven hl]
  · rw [parse?_without_n hcs hodd hn, spelling_without_n hodd hn]

/-! ### White space where it may stand -/

/-- White space only, or nothing. -/
def Blank (cs : List Char) : Prop :=
  ∀ c ∈ cs, Text.isBlank c = true

/-- No white space. -/
def Solid (cs : List Char) : Prop :=
  ∀ c ∈ cs, Text.isBlank c = false

/-- A spelling, or one with white space around the sign of the second number. -/
inductive Spaced : List Char → Int → Int → Prop where
  | tight {cs : List Char} {a b : Int} (h : Spelling cs a b) : Spaced cs a b
  | around {l w w' ds : List Char} {c : Char} {a σ : Int} {k : Nat} (hl : Factor l a) (hw : Blank w)
    (hc : Sign c σ) (hw' : Blank w') (h : Digits ds k) :
    Spaced (l ++ 'n' :: (w ++ c :: (w' ++ ds))) a (σ * k)

/-- The text in lower case, with white space at its ends left out. -/
def Core (s : String) (body : List Char) : Prop :=
  ∃ pre post, Blank pre ∧ Blank post ∧ s.toList.map Char.toLower = pre ++ body ++ post

/-- The text is in the notation, in any ASCII case and with white space at its ends. -/
def Written (s : String) (n : Nth) : Prop :=
  ∃ body, Core s body ∧ Spaced body n.step.toInt n.offset.toInt

/-- There is no white space, or it stands around a sign behind an `n`. -/
inductive Tidy : List Char → Prop where
  | solid {cs : List Char} (h : Solid cs) : Tidy cs
  | around {l w w' r : List Char} {c : Char} {σ : Int} (hl : Solid l) (hw : Blank w) (hc : Sign c σ)
    (hw' : Blank w') (hr : Solid r) : Tidy (l ++ 'n' :: (w ++ c :: (w' ++ r)))

/-- White space stands at the ends of the text and around a sign behind an `n` only. -/
def WellSpaced (s : String) : Prop :=
  ∃ body, Core s body ∧ Tidy body

/-- A text without its white space. -/
def dense (cs : List Char) : List Char :=
  cs.filter (!Text.isBlank ·)

theorem dense_append (cs ds : List Char) : dense (cs ++ ds) = dense cs ++ dense ds :=
  List.filter_append ..

theorem Blank.dense_eq (h : Blank cs) : dense cs = [] :=
  List.filter_eq_nil_iff.mpr fun c hc => by simp [h c hc]

theorem Solid.dense_eq (h : Solid cs) : dense cs = cs :=
  List.filter_eq_self.mpr fun c hc => by simp [h c hc]

theorem compact_eq (cs : List Char) : compact cs = dense (cs.map Char.toLower) := by
  rw [compact, dense, List.filter_map]
  congr 1
  exact List.filter_congr fun c _ => by simp [Text.isBlank_toLower]

/-- White space around the second sign `c` is taken out, and nothing else there is. -/
theorem dense_around {w w' : List Char} {σ : Int} (hl : Solid l) (hw : Blank w) (hc : Sign c σ)
    (hw' : Blank w') (hr : Solid r) :
    dense (l ++ 'n' :: (w ++ c :: (w' ++ r))) = l ++ 'n' :: c :: r := by
  have hn : Solid ['n'] := by simp [Solid, Text.isBlank]
  have hsign : Solid [c] := List.forall_mem_singleton.mpr hc.isSign.1.notBlank
  have hparts : l ++ 'n' :: (w ++ c :: (w' ++ r)) = l ++ (['n'] ++ (w ++ ([c] ++ (w' ++ r)))) := rfl
  rw [hparts, dense_append, dense_append, dense_append, dense_append, dense_append, hl.dense_eq,
    hn.dense_eq, hw.dense_eq, hsign.dense_eq, hw'.dense_eq, hr.dense_eq]
  rfl

/-- There is no white space in a spelling: it is `Solid`. -/
theorem Spelling.solid (h : Spelling cs a b) : Solid cs := by
  rcases h.word_or_signs with ⟨rfl, -⟩ | ⟨rfl, -⟩ | hsigns
  · simp [Solid, Text.isBlank]
  · simp [Solid, Text.isBlank]
  · exact fun c hc => (hsigns c hc).notBlank

/-- There is one `n` in a spelling at most. -/
theorem Spelling.count_le_one (h : Spelling cs a b) : cs.count 'n' ≤ 1 := by
  cases h with
  | odd => decide
  | even => decide
  | constant h =>
    rw [List.count_eq_zero_of_not_mem fun hn => (h.isSign 'n' hn).2 rfl]
    exact Nat.zero_le _
  | sum hl hr =>
    rw [List.count_append, List.count_cons_self,
      List.count_eq_zero_of_not_mem fun hn => (hl.isSign 'n' hn).2 rfl,
      List.count_eq_zero_of_not_mem fun hn => (hr.isSign 'n' hn).2 rfl]

theorem Spaced.tidy (h : Spaced cs a b) : Tidy cs := by
  cases h with
  | tight h => exact .solid h.solid
  | around hl hw hc hw' h =>
    exact .around (fun c hc => (hl.isSign c hc).1.notBlank) hw hc hw'
      fun c hc => (h.isSign c hc).1.notBlank

/-- White space where it may stand makes no difference: what is `Spaced` is a `Spelling` once it is
dense. -/
theorem Tidy.spaced_iff (h : Tidy cs) : Spaced cs a b ↔ Spelling (dense cs) a b := by
  constructor
  · rintro (hs | ⟨hl, hw, hc, hw', hd⟩)
    · rwa [hs.solid.dense_eq]
    · rw [dense_around (fun c hc => (hl.isSign c hc).1.notBlank) hw hc hw'
        fun c hc => (hd.isSign c hc).1.notBlank]
      exact .sum hl (.signed hc hd)
  · cases h with
    | solid h =>
      rw [h.dense_eq]
      exact .tight
    | @around l w w' r c σ hl hw hc hw' hr =>
      rw [dense_around hl hw hc hw' hr]
      intro h
      -- there is one `n`, so the spelling is cut where the text is
      have hcount := h.count_le_one
      rw [List.count_append, List.count_cons_self] at hcount
      have hfirst : 'n' ∉ l := List.count_eq_zero.mp (by omega)
      have heven : l ++ 'n' :: c :: r ≠ ['e', 'v', 'e', 'n'] := by
        intro heq
        have hbehind := dropWhile_before (r := c :: r) hfirst
        rw [heq] at hbehind
        exact nomatch hbehind
      obtain ⟨hl, hr⟩ := (spelling_with_n heven hfirst).mp h
      cases hr with
      | signed hc hd => exact .around hl hw hc hw' hd

/-- White space at the ends makes no difference to what is read: it is the spelling of
`dense body`. -/
theorem parse?_of_core {body : List Char} (h : Core s body) :
    parse? s = some n ↔ Spelling (dense body) n.step.toInt n.offset.toInt := by
  obtain ⟨pre, post, hpre, hpost, htext⟩ := h
  rw [parse?_eq_some_iff, compact_eq, htext, dense_append, dense_append, hpre.dense_eq,
    hpost.dense_eq, List.nil_append, List.append_nil]

/-- **The notation.** What is written as `a*n + b` is read as that, and whatever is read and has no
white space but at its ends and around the second sign is written so. -/
theorem written_iff : Written s n ↔ parse? s = some n ∧ WellSpaced s := by
  constructor
  · rintro ⟨body, hcore, hbody⟩
    have hspelling := hbody.tidy.spaced_iff.mp hbody
    exact ⟨(parse?_of_core hcore).mpr hspelling, body, hcore, hbody.tidy⟩
  · rintro ⟨hparse, body, hcore, htidy⟩
    have hspelling := (parse?_of_core hcore).mp hparse
    exact ⟨body, hcore, htidy.spaced_iff.mpr hspelling⟩

/-- A text without white space at its ends is its own core, `body`. -/
theorem Core.eq {body : List Char} (h : Core s body)
    (hhead : ∀ c ∈ (s.toList.map Char.toLower).head?, Text.isBlank c = false)
    (hlast : ∀ c ∈ (s.toList.map Char.toLower).getLast?, Text.isBlank c = false) :
    s.toList.map Char.toLower = body := by
  obtain ⟨pre, post, hpre, hpost, htext⟩ := h
  rw [htext] at hhead hlast ⊢
  have hpre : pre = [] := by
    cases pre with
    | nil => rfl
    | cons c pre => exact absurd (hpre c List.mem_cons_self) (Bool.eq_false_iff.mp (hhead c rfl))
  have hpost : post = [] := by
    rcases List.eq_nil_or_concat post with rfl | ⟨post, c, rfl⟩
    · rfl
    · rw [List.concat_eq_append] at hpost hlast
      have hc := hlast c (by rw [← List.append_assoc, List.getLast?_concat]; rfl)
      exact absurd (hpost c (by simp)) (Bool.eq_false_iff.mp hc)
  rw [hpre, hpost, List.nil_append, List.append_nil]

/-- Digits that white space parts are read as one number, though the notation has no such number. -/
theorem parse?_of_parted_digits : parse? "1 2" = some ⟨0, 12⟩ ∧ ∀ n, ¬ Written "1 2" n := by
  refine ⟨by decide, ?_⟩
  rintro n ⟨body, hcore, hbody⟩
  have hends : ['1', ' ', '2'] = body :=
    hcore.eq (by simp [Text.isBlank]) (by simp [Text.isBlank])
  cases hbody.tidy with
  | solid hsolid =>
    have hspace : ' ' ∈ body := hends ▸ List.mem_cons_of_mem _ List.mem_cons_self
    exact absurd (hsolid ' ' hspace) (by decide)
  | @around l =>
    have hn : 'n' ∈ ['1', ' ', '2'] := hends ▸ List.mem_append_right l List.mem_cons_self
    exact absurd hn (by decide)

end Inlay.Selector.Nth
