import Inlay.Selector.Match
import Inlay.Proofs.Outcome
import Mathlib.Algebra.Group.Int.Defs
import Mathlib.Algebra.Group.Nat.Defs

/-!
# Positions in 32-bit arithmetic

`Nth.Hits n k` says that the number `k` has the form `step * m + offset` with a natural `m`. What
`Nth.holds` computes in 32-bit arithmetic is that and nothing else (`Nth.hits_of_holds`), and it
computes something wherever the numbers are not too large (`Nth.exists_holds`). For positions, which
count from one, the only number that can be too large is the distance from the offset
(`Nth.holds_spec`).
-/

namespace Inlay.Selector

/-! ### Checked operations -/

/-- A number fits into 32 bits between `-2 ^ 31` and `2 ^ 31 - 1`. -/
theorem isInt32_iff {z : Int} : isInt32 z = true ↔ -2 ^ 31 ≤ z ∧ z < 2 ^ 31 := by
  rw [isInt32, decide_eq_true_eq, Int32.toInt_minValue, Int32.toInt_maxValue]
  omega

theorem toInt_of_fit {fault : ArithmeticFault} {z : Int} {x : Int32} (h : fit fault z = .ok x) :
    x.toInt = z := by
  unfold fit at h
  split at h
  · rename_i hz
    obtain ⟨hlow, hhigh⟩ := isInt32_iff.mp hz
    rw [← Except.ok.inj h, Int32.toInt_ofInt_of_le hlow hhigh]
  · exact absurd h (by simp)

theorem exists_fit (fault : ArithmeticFault) {z : Int} (hlow : -2 ^ 31 ≤ z) (hhigh : z < 2 ^ 31) :
    ∃ x, fit fault z = .ok x :=
  ⟨_, by rw [fit, if_pos (isInt32_iff.mpr ⟨hlow, hhigh⟩)]⟩

/-- A remainder is smaller than the divisor `y`, so it always fits. -/
theorem toInt_tmod (x : Int) {y : Int32} (hy : y ≠ 0) :
    (Int32.ofInt (x.tmod y.toInt)).toInt = x.tmod y.toInt := by
  have hne : y.toInt ≠ 0 := fun he => hy (Int32.toInt_inj.mp he)
  have hpos : 0 < y.toInt.natAbs := Int.natAbs_pos.mpr hne
  have hlt : (x.tmod y.toInt).natAbs < y.toInt.natAbs := by
    rw [Int.natAbs_tmod]
    exact Nat.mod_lt _ hpos
  have hlow := Int32.le_toInt y
  have hhigh := Int32.toInt_lt y
  exact Int32.toInt_ofInt_of_le (by omega) (by omega)

/-! ### The numbers of a progression -/

/-- `k` is one of the numbers `step * m + offset` with a natural `m`. -/
def Nth.Hits (n : Nth) (k : Nat) : Prop :=
  ∃ m : Nat, (k : Int) = n.step.toInt * m + n.offset.toInt

/-- `k` and its distance from the offset are not too large for 32 bits. -/
def Nth.Fits (n : Nth) (k : Nat) : Prop :=
  (k : Int) < 2 ^ 31 ∧ (n.step ≠ 0 → (k : Int) - n.offset.toInt < 2 ^ 31)

namespace Nth

variable {n : Nth} {p : Int32} {k : Nat}

/-- A multiple `d` of `s` is one by a natural number if the quotient `d.tdiv s` is not negative. -/
theorem exists_nat_mul_iff {d s : Int} (hs : s ≠ 0) (hmod : d.tmod s = 0) :
    (∃ m : Nat, d = s * m) ↔ 0 ≤ d.tdiv s := by
  have hd : d = s * d.tdiv s := by
    have h := Int.mul_tdiv_add_tmod d s
    rw [hmod, Int.add_zero] at h
    exact h.symm
  constructor
  · rintro ⟨m, hm⟩
    rw [hm, Int.mul_tdiv_cancel_left _ hs]
    exact Int.natCast_nonneg m
  · intro hnonneg
    refine ⟨(d.tdiv s).toNat, ?_⟩
    rw [Int.toNat_of_nonneg hnonneg]
    exact hd

/-- What comes out is right: the verdict `b` is whether the position `k` is hit. -/
theorem hits_of_holds {b : Bool} (hp : p.toInt = k) (h : n.holds p = .ok b) :
    b = true ↔ n.Hits k := by
  unfold holds at h
  split at h
  · rename_i hstep
    rw [← Except.ok.inj h, beq_iff_eq, Hits, hstep, ← hp]
    constructor
    · rintro rfl
      exact ⟨0, by simp⟩
    · rintro ⟨m, hm⟩
      refine Int32.toInt_inj.mp (hm.trans ?_)
      rw [Int32.toInt_zero, Int.zero_mul, Int.zero_add]
  · rename_i hstep
    have hs : n.step.toInt ≠ 0 := fun he => hstep (Int32.toInt_inj.mp he)
    obtain ⟨d, hd, h⟩ := exists_of_bind_eq_ok h
    obtain ⟨r, hr, h⟩ := exists_of_bind_eq_ok h
    have hd : d.toInt = k - n.offset.toInt := by rw [toInt_of_fit hd, hp]
    have hr : r.toInt = d.toInt.tmod n.step.toInt := by
      unfold checkedRem at hr
      rw [if_neg hstep] at hr
      split at hr
      · exact absurd hr (by simp)
      · rw [← Except.ok.inj hr, toInt_tmod _ hstep]
    have hhits : n.Hits k ↔ ∃ m : Nat, d.toInt = n.step.toInt * m := by
      refine exists_congr fun m => ?_
      omega
    split at h
    · rename_i hzero
      obtain ⟨q, hq, h⟩ := exists_of_bind_eq_ok h
      rw [hzero, Int32.toInt_zero] at hr
      unfold checkedDiv at hq
      rw [if_neg hstep] at hq
      rw [← Except.ok.inj h, decide_eq_true_eq, Int32.le_iff_toInt_le, toInt_of_fit hq, hhits,
        exists_nat_mul_iff hs hr.symm, Int32.toInt_zero]
    · -- the distance is no multiple of the step at all
      rename_i hnonzero
      rw [← Except.ok.inj h, hhits]
      refine iff_of_false Bool.false_ne_true ?_
      rintro ⟨m, hm⟩
      refine hnonzero (Int32.toInt_inj.mp ?_)
      rw [hr, hm, Int.mul_tmod_right, Int32.toInt_zero]

/-- Positions count from one, so only numbers that are too large can stop the computation: where
`n.Fits k` there is a verdict. -/
theorem exists_holds (hp : p.toInt = k) (hk : 0 < k) (hfits : n.Fits k) :
    ∃ b, n.holds p = .ok b := by
  unfold holds
  split
  · exact ⟨_, rfl⟩
  · rename_i hstep
    have hoffset := Int32.toInt_lt n.offset
    have hdistance := hfits.2 hstep
    obtain ⟨d, hd⟩ := exists_fit .subtractOverflow (z := p.toInt - n.offset.toInt)
      (by omega) (by omega)
    have hsub : checkedSub p n.offset = .ok d := hd
    -- Only the smallest number divided by minus one is a quotient that does not fit.
    have hdmin : d ≠ Int32.minValue := by
      rintro rfl
      have := toInt_of_fit hd
      rw [Int32.toInt_minValue] at this
      omega
    have hrem : checkedRem d n.step = .ok (Int32.ofInt (d.toInt.tmod n.step.toInt)) := by
      rw [checkedRem, if_neg hstep, if_neg fun hc => hdmin hc.1]
    simp only [hsub, hrem, bind, Except.bind]
    split
    · have habs := Int.natAbs_tdiv_le_natAbs d.toInt n.step.toInt
      have hlow := Int32.le_toInt d
      have hhigh := Int32.toInt_lt d
      have hmin : d.toInt ≠ -2 ^ 31 := fun he =>
        hdmin (Int32.toInt_inj.mp (he.trans Int32.toInt_minValue.symm))
      obtain ⟨q, hq⟩ := exists_fit .divideOverflow (z := d.toInt.tdiv n.step.toInt)
        (by omega) (by omega)
      have hdiv : checkedDiv d n.step = .ok q := by rw [checkedDiv, if_neg hstep, hq]
      exact ⟨decide (0 ≤ q), by rw [hdiv]; rfl⟩
    · exact ⟨false, rfl⟩

/-- A position too far above the offset, by more than `2 ^ 31 - 1`, stops the computation before
anything is divided. -/
theorem holds_eq_error (hstep : n.step ≠ 0) (hfar : 2 ^ 31 - 1 < p.toInt - n.offset.toInt) :
    n.holds p = .error .subtractOverflow := by
  have hsub : checkedSub p n.offset = .error .subtractOverflow := by
    refine if_neg fun hfits => ?_
    have hhigh := (isInt32_iff.mp hfits).2
    omega
  rw [holds, if_neg hstep, hsub]
  rfl

/-- **The verdict on a position.** With a step, a position that is more than `2 ^ 31 - 1` above the
offset is a fault, of the subtraction and never of the remainder or the quotient. Every other
position has a verdict, which is that of the integers: `step * m + offset` is the position for some
natural `m`. -/
theorem holds_spec (a b p : Int32) (hp : 1 ≤ p.toInt) :
    ((∃ fault, holds ⟨a, b⟩ p = .error fault) ↔ a ≠ 0 ∧ 2 ^ 31 - 1 < p.toInt - b.toInt) ∧
      (∀ fault, holds ⟨a, b⟩ p = .error fault → fault = .subtractOverflow) ∧
      (¬ (a ≠ 0 ∧ 2 ^ 31 - 1 < p.toInt - b.toInt) → ∃ verdict, holds ⟨a, b⟩ p = .ok verdict ∧
        (verdict = true ↔ ∃ m : Nat, a.toInt * m + b.toInt = p.toInt)) := by
  obtain ⟨k, hk⟩ := Int.eq_ofNat_of_zero_le (a := p.toInt) (by omega)
  have hsettled (hnear : ¬ (a ≠ 0 ∧ 2 ^ 31 - 1 < p.toInt - b.toInt)) :
      ∃ verdict, holds ⟨a, b⟩ p = .ok verdict := by
    refine exists_holds hk (by omega) ⟨hk ▸ Int32.toInt_lt p, fun hstep => ?_⟩
    have hle : ¬ 2 ^ 31 - 1 < p.toInt - b.toInt := fun hfar => hnear ⟨hstep, hfar⟩
    show (k : Int) - b.toInt < 2 ^ 31
    omega
  -- a fault means that the position is too far away, and then there is this one fault
  have hfar {fault : ArithmeticFault} (h : holds ⟨a, b⟩ p = .error fault) :
      a ≠ 0 ∧ 2 ^ 31 - 1 < p.toInt - b.toInt := by
    refine Decidable.byContradiction fun hnear => ?_
    obtain ⟨verdict, hverdict⟩ := hsettled hnear
    exact nomatch h.symm.trans hverdict
  have herror (h : a ≠ 0 ∧ 2 ^ 31 - 1 < p.toInt - b.toInt) :
      holds ⟨a, b⟩ p = .error .subtractOverflow :=
    holds_eq_error (n := ⟨a, b⟩) h.1 h.2
  refine ⟨⟨fun ⟨_, h⟩ => hfar h, fun h => ⟨_, herror h⟩⟩, fun fault h => ?_, fun hnear => ?_⟩
  · exact Except.error.inj (h.symm.trans (herror (hfar h)))
  · obtain ⟨verdict, hverdict⟩ := hsettled hnear
    refine ⟨verdict, hverdict, (hits_of_holds hk hverdict).trans ?_⟩
    refine exists_congr fun m => ?_
    rw [hk]
    exact eq_comm

/-- At the edge: the least offset, one position after the other. With the step `-1` the quotient of
the least number would be a fault too, but the distance never gets that far down. -/
theorem holds_spec_at_edge :
    holds ⟨-1, Int32.minValue⟩ 1 = .error .subtractOverflow ∧
      holds ⟨-1, Int32.maxValue⟩ 1 = .ok true ∧ holds ⟨0, Int32.minValue⟩ 1 = .ok false := by
  refine ⟨?_, ?_, ?_⟩
  · obtain ⟨hfaults, hwhich, -⟩ := holds_spec (-1) Int32.minValue 1 (by decide)
    obtain ⟨fault, h⟩ := hfaults.mpr (by decide)
    rw [h, hwhich fault h]
  · obtain ⟨verdict, h, hverdict⟩ := (holds_spec (-1) Int32.maxValue 1 (by decide)).2.2 (by decide)
    rw [h, hverdict.mpr ⟨2 ^ 31 - 2, by decide⟩]
  · obtain ⟨verdict, h, hverdict⟩ := (holds_spec 0 Int32.minValue 1 (by decide)).2.2 (by decide)
    have hmiss : verdict ≠ true := by
      rw [ne_eq, hverdict]
      rintro ⟨m, hm⟩
      rw [show (0 : Int32).toInt = 0 from rfl, Int.zero_mul] at hm
      exact absurd hm (by decide)
    rw [h, Bool.eq_false_iff.mpr hmiss]

end Nth

/-- The position after `before` others is `before + 1`, if it fits. -/
theorem toInt_of_position {before : Nat} {p : Int32} (hbefore : before < 2 ^ 31)
    (h : position before = .ok p) : p.toInt = (before + 1 : Nat) := by
  rw [toInt_of_fit h, Int32.toInt_ofNat_of_lt hbefore]
  rfl

theorem exists_position {before : Nat} (h : ((before + 1 : Nat) : Int) < 2 ^ 31) :
    ∃ p, position before = .ok p := by
  have hone : (1 : Int32).toInt = 1 := rfl
  have hbefore : (Int32.ofNat before).toInt = before := Int32.toInt_ofNat_of_lt (by omega)
  refine exists_fit _ ?_ ?_
  · rw [hbefore, hone]
    omega
  · rw [hbefore, hone]
    omega

end Inlay.Selector
