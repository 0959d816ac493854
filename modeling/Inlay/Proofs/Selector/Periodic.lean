import Inlay.Proofs.Text.Case
import Inlay.Selector.Nth
import Mathlib.Data.List.TakeWhile

/-!
# Spelling periodic positions

The text of `a*n + b` is read back as `a*n + b` (`parse?_text`), with every sign that the two
numbers can have. It has no character that would end the argument of `:nth-child` early.
-/

namespace Inlay.Selector.Nth

/-! ### Numerals -/

/-- A digit, a sign, or the letter that stands for the number of the period. -/
def IsSign (c : Char) : Prop :=
  c.isDigit = true ∨ c = '-' ∨ c = '+' ∨ c = 'n'

theorem toNat_of_isDigit {c : Char} (h : c.isDigit = true) : 48 ≤ c.toNat ∧ c.toNat ≤ 57 := by
  simpa [Char.isDigit, UInt32.le_iff_toNat_le] using h

theorem IsSign.notBlank {c : Char} (h : IsSign c) : Text.isBlank c = false := by
  rcases h with h | rfl | rfl | rfl
  · have hrange := toNat_of_isDigit h
    simp only [Text.isBlank, Bool.or_eq_false_iff, Bool.and_eq_false_iff, decide_eq_false_iff_not,
      beq_eq_false_iff_ne]
    omega
  all_goals decide

theorem IsSign.toLower {c : Char} (h : IsSign c) : c.toLower = c := by
  rcases h with h | rfl | rfl | rfl
  · have hrange := toNat_of_isDigit h
    refine Char.toLower_eq_of_not_isUpper ?_
    simp only [Char.isUpper, decide_eq_true_eq, UInt32.le_iff_toNat_le]
    intro hupper
    have hlow : 65 ≤ c.toNat := hupper.1
    omega
  all_goals decide

theorem isSign_of_mem_toDigits {n : Nat} {c : Char} (h : c ∈ Nat.toDigits 10 n) : IsSign c :=
  Or.inl (Nat.isDigit_of_mem_toDigits (by decide) (by decide) h)

theorem toList_toString_of_nonneg {z : Int} (h : 0 ≤ z) :
    (toString z).toList = Nat.toDigits 10 z.toNat := by
  rw [Int.toString_eq_repr, Int.repr_eq_if, if_pos h, Nat.repr_eq_ofList_toDigits,
    String.toList_ofList]

theorem toList_toString_of_neg {z : Int} (h : z < 0) :
    (toString z).toList = '-' :: Nat.toDigits 10 (-z).toNat := by
  rw [Int.toString_eq_repr, Int.repr_eq_if, if_neg (by omega), Nat.repr_eq_ofList_toDigits]
  simp

/-- The text of a number has only digits and a sign, and no `n`. -/
theorem isSign_of_mem_toString {z : Int} {c : Char} (h : c ∈ (toString z).toList) :
    IsSign c ∧ c ≠ 'n' := by
  have hdigit : ∀ n, c ∈ Nat.toDigits 10 n → IsSign c ∧ c ≠ 'n' := by
    intro n hc
    refine ⟨isSign_of_mem_toDigits hc, ?_⟩
    rintro rfl
    exact absurd (Nat.isDigit_of_mem_toDigits (by decide) (by decide) hc) (by decide)
  rcases Int.lt_or_le z 0 with hz | hz
  · rw [toList_toString_of_neg hz] at h
    rcases List.mem_cons.mp h with rfl | h
    · exact ⟨Or.inr (Or.inl rfl), by decide⟩
    · exact hdigit _ h
  · rw [toList_toString_of_nonneg hz] at h
    exact hdigit _ h

/-! ### Reading numerals -/

/-- Reading digits back gives the number `n`, after a sign or without one. -/
theorem foldl_toDigits (n : Nat) :
    (Nat.toDigits 10 n).foldl (fun n d => n * 10 + (d.toNat - '0'.toNat)) 0 = n := by
  have h := Nat.ofDigitChars_ten_toDigits (n := n)
  rw [Nat.ofDigitChars_eq_foldl] at h
  simpa only [Nat.mul_comm] using h

/-- In `Nat.toDigits 10 n` there is at least one digit, and nothing but digits. -/
theorem readable_toDigits (n : Nat) :
    ((Nat.toDigits 10 n).isEmpty || !(Nat.toDigits 10 n).all Char.isDigit) = false := by
  have hne : (Nat.toDigits 10 n).isEmpty = false := by simp [Nat.toDigits_ne_nil]
  have hall : (Nat.toDigits 10 n).all Char.isDigit = true :=
    List.all_eq_true.mpr fun c hc => Nat.isDigit_of_mem_toDigits (by decide) (by decide) hc
  rw [hne, hall]
  rfl

/-- After a minus the digits of `n` are read as `-n`. -/
theorem int32?_minus {x : Int32} {n : Nat} (h : x.toInt = -(n : Int)) :
    int32? ('-' :: Nat.toDigits 10 n) = some x := by
  have hfits : isInt32 (-(n : Int)) = true := by
    rw [← h]
    exact decide_eq_true ⟨x.minValue_le_toInt, x.toInt_le⟩
  simp only [int32?, readable_toDigits, foldl_toDigits]
  simp only [Bool.false_eq_true, if_false, if_true]
  rw [if_pos hfits, ← h, Int32.ofInt_toInt]

theorem int32?_plus {x : Int32} {n : Nat} (h : x.toInt = n) :
    int32? ('+' :: Nat.toDigits 10 n) = some x := by
  have hfits : isInt32 (n : Int) = true := by
    rw [← h]
    exact decide_eq_true ⟨x.minValue_le_toInt, x.toInt_le⟩
  simp only [int32?, readable_toDigits, foldl_toDigits]
  simp only [Bool.false_eq_true, if_false]
  rw [if_pos hfits, ← h, Int32.ofInt_toInt]

/-- Digits without a sign are read like digits after `'+'`, as no digit is a sign. -/
theorem int32?_toDigits (n : Nat) :
    int32? (Nat.toDigits 10 n) = int32? ('+' :: Nat.toDigits 10 n) := by
  obtain ⟨c, cs, he⟩ := List.exists_cons_of_ne_nil (Nat.toDigits_ne_nil (n := n) (b := 10))
  have hc : c.isDigit = true :=
    Nat.isDigit_of_mem_toDigits (by decide) (by decide) (he ▸ List.mem_cons_self)
  have hminus : c ≠ '-' := by rintro rfl; exact absurd hc (by decide)
  have hplus : c ≠ '+' := by rintro rfl; exact absurd hc (by decide)
  rw [he]
  simp [int32?, hminus, hplus]

/-- The text of a 32-bit number `x` is read as `some x`. -/
theorem int32?_toString (x : Int32) : int32? (toString x.toInt).toList = some x := by
  rcases Int.lt_or_le x.toInt 0 with hx | hx
  · rw [toList_toString_of_neg hx]
    exact int32?_minus (by omega)
  · rw [toList_toString_of_nonneg hx, int32?_toDigits]
    exact int32?_plus (by omega)

theorem int32?_signed (b : Int32) : int32? (signed b).toList = some b := by
  unfold signed
  split
  · rename_i hb
    have hnonneg : 0 ≤ b.toInt := Int32.le_iff_toInt_le.mp hb
    rw [String.toList_append, toList_toString_of_nonneg hnonneg]
    exact int32?_plus (by omega)
  · exact int32?_toString b

/-! ### Reading the whole text -/

theorem head_signed (b : Int32) :
    (signed b).toList.head? = some '+' ∨ (signed b).toList.head? = some '-' := by
  unfold signed
  split
  · exact Or.inl (by simp)
  · rename_i hb
    have hneg : b.toInt < 0 := Int.lt_of_not_ge fun h => hb (Int32.le_iff_toInt_le.mpr h)
    rw [toList_toString_of_neg hneg]
    exact Or.inr rfl

/-- An offset that is written with its sign is read as that, `b`. -/
theorem offset?_signed (b : Int32) : offset? (signed b).toList = some b := by
  have hhead := head_signed b
  have hread := int32?_signed b
  cases hcs : (signed b).toList with
  | nil => simp [hcs] at hhead
  | cons c cs =>
    rw [hcs] at hhead hread
    simp only [offset?]
    rw [if_pos hhead, hread]

/-- A written step is read as that, `a`: it is no lone sign and not empty. -/
theorem step?_toString (a : Int32) : step? (toString a.toInt).toList = some a := by
  have hread := int32?_toString a
  have hnot : ∀ {cs : List Char}, int32? cs = none → (toString a.toInt).toList ≠ cs := by
    rintro cs hnone he
    rw [he, hnone] at hread
    exact absurd hread (by simp)
  unfold step?
  -- no sign, a plus and a minus: none of them is a numeral
  split
  · exact absurd ‹_› (hnot (by decide))
  · exact absurd ‹_› (hnot (by decide))
  · exact absurd ‹_› (hnot (by decide))
  · exact hread

theorem isSign_of_mem_text {n : Nth} {c : Char} (h : c ∈ n.text.toList) : IsSign c := by
  have hsigned : ∀ b, c ∈ (signed b).toList → IsSign c := by
    intro b hc
    unfold signed at hc
    split at hc
    · rw [String.toList_append, List.mem_append] at hc
      rcases hc with hc | hc
      · exact Or.inr (Or.inr (Or.inl (List.mem_singleton.mp hc)))
      · exact (isSign_of_mem_toString hc).1
    · exact (isSign_of_mem_toString hc).1
  have hn : c ∈ "n".toList → IsSign c := fun hc =>
    Or.inr (Or.inr (Or.inr (List.mem_singleton.mp hc)))
  unfold text at h
  split at h
  · exact (isSign_of_mem_toString h).1
  · split at h
    · rw [String.toList_append, List.mem_append] at h
      exact h.elim (fun hc => (isSign_of_mem_toString hc).1) hn
    · rw [String.toList_append, String.toList_append, List.mem_append, List.mem_append] at h
      exact h.elim (fun hc => hc.elim (fun hc => (isSign_of_mem_toString hc).1) hn)
        (hsigned n.offset)

/-- Reading `n.text` ignores neither a character of it nor the case of one, as there is neither
white space nor a capital in it. -/
theorem clean_text (n : Nth) :
    (n.text.toList.filter (!Text.isBlank ·)).map Char.toLower = n.text.toList := by
  rw [List.filter_eq_self.mpr fun c hc => by simp [(isSign_of_mem_text hc).notBlank]]
  exact (List.map_congr_left fun c hc => (isSign_of_mem_text hc).toLower).trans (List.map_id _)

/-- The text of a formula is never `odd` or `even`. -/
theorem not_keyword (n : Nth) :
    n.text.toList ≠ ['o', 'd', 'd'] ∧ n.text.toList ≠ ['e', 'v', 'e', 'n'] := by
  have hsign : ∀ c ∈ n.text.toList, IsSign c := fun c hc => isSign_of_mem_text hc
  constructor
  · intro hodd
    have ho : IsSign 'o' := hsign 'o' (hodd ▸ List.mem_cons_self)
    exact absurd ho (by simp [IsSign])
  · intro heven
    have he : IsSign 'e' := hsign 'e' (heven ▸ List.mem_cons_self)
    exact absurd he (by simp [IsSign])

/-- What is read when the text has a step: what stands before the `n`, and the offset `after` it. -/
theorem parse?_of_step {n : Nth} {after : List Char}
    (htext : n.text.toList = (toString n.step.toInt).toList ++ 'n' :: after)
    (hafter : offset? after = some n.offset) : parse? n.text = some n := by
  have hbefore : ∀ c ∈ (toString n.step.toInt).toList, decide (c ≠ 'n') = true := fun c hc =>
    decide_eq_true (isSign_of_mem_toString hc).2
  have htake : n.text.toList.takeWhile (· ≠ 'n') = (toString n.step.toInt).toList := by
    rw [htext, List.takeWhile_append_of_pos hbefore]
    simp
  have hdrop : n.text.toList.dropWhile (· ≠ 'n') = 'n' :: after := by
    rw [htext, List.dropWhile_append_of_pos hbefore]
    simp
  obtain ⟨hodd, heven⟩ := not_keyword n
  simp only [parse?, clean_text, if_neg hodd, if_neg heven, hdrop, htake, step?_toString, hafter]

/-- **The text of `a*n + b` is read as `a*n + b`.** -/
theorem parse?_text (n : Nth) : parse? n.text = some n := by
  by_cases hstep : n.step = 0
  · have htext : n.text = toString n.offset.toInt := by rw [text, if_pos hstep]
    have hdrop : n.text.toList.dropWhile (· ≠ 'n') = [] := by
      rw [htext, List.dropWhile_eq_nil_iff]
      exact fun c hc => decide_eq_true (isSign_of_mem_toString hc).2
    obtain ⟨hodd, heven⟩ := not_keyword n
    -- without an `n` the whole text is the offset
    simp only [parse?, clean_text, if_neg hodd, if_neg heven, hdrop]
    rw [htext, int32?_toString, Option.map_some, ← hstep]
  · by_cases hoffset : n.offset = 0
    · have htext : n.text.toList = (toString n.step.toInt).toList ++ 'n' :: [] := by
        rw [text, if_neg hstep, if_pos hoffset, String.toList_append]
        rfl
      exact parse?_of_step htext (by rw [hoffset]; rfl)
    · have htext : n.text.toList =
          (toString n.step.toInt).toList ++ 'n' :: (signed n.offset).toList := by
        rw [text, if_neg hstep, if_neg hoffset, String.toList_append, String.toList_append,
          List.append_assoc]
        rfl
      exact parse?_of_step htext (offset?_signed n.offset)

end Inlay.Selector.Nth
