import Inlay.Text.Ascii
import Inlay.Text.Blank
import Mathlib

/-!
# Folding case

Folding the case of a text folds that of each character. What has a case is ASCII, and so are
digits. No letter is white space.
-/

namespace Inlay.Text

theorem toList_toLower (s : String) : s.toLower.toList = s.toList.map Char.toLower :=
  String.toList_map

/-- A text of characters with `c.toLower = c` is in lower case. -/
theorem toLower_eq_self {s : String} (h : ∀ c ∈ s.toList, c.toLower = c) : s.toLower = s := by
  rw [← String.toList_inj, toList_toLower]
  exact (List.map_congr_left h).trans (List.map_id' _)

/-- Folding twice is folding once: `s.toLower.toLower = s.toLower`. -/
theorem toLower_toLower (s : String) : s.toLower.toLower = s.toLower := by
  rw [← String.toList_inj, toList_toLower, toList_toLower, List.map_map]
  exact List.map_congr_left fun c _ => Char.toLower_toLower_eq_toLower c

theorem toList_toUpper (s : String) : s.toUpper.toList = s.toList.map Char.toUpper :=
  String.toList_map

/-- Texts that are equal in lower case are equal in upper case: `s.toUpper = t.toUpper`. -/
theorem eqIgnoreCase_iff_toUpper {s t : String} :
    eqIgnoreCase s t = true ↔ s.toUpper = t.toUpper := by
  have hupper : ∀ u : String, u.toLower.toUpper = u.toUpper := fun u => by
    rw [← String.toList_inj, toList_toUpper, toList_toLower, toList_toUpper, List.map_map]
    exact List.map_congr_left fun c _ => Char.toUpper_toLower_eq_toUpper c
  have hlower : ∀ u : String, u.toUpper.toLower = u.toLower := fun u => by
    rw [← String.toList_inj, toList_toLower, toList_toUpper, toList_toLower, List.map_map]
    exact List.map_congr_left fun c _ => Char.toLower_toUpper_eq_toLower c
  rw [eqIgnoreCase, beq_iff_eq]
  constructor
  · intro h
    rw [← hupper s, h, hupper]
  · intro h
    rw [← hlower s, h, hlower]

theorem toNat_lt_of_isAlphanum {c : Char} (h : c.isAlphanum = true) : c.toNat < 128 := by
  simp only [Char.isAlphanum, Char.isAlpha, Char.isUpper, Char.isLower, Char.isDigit,
    Bool.or_eq_true, Bool.and_eq_true, decide_eq_true_eq, UInt32.le_iff_toNat_le, ge_iff_le] at h
  have hval : c.toNat = c.val.toNat := rfl
  have hZ : 'Z'.val.toNat = 90 := rfl
  have hz : 'z'.val.toNat = 122 := rfl
  have hnine : '9'.val.toNat = 57 := rfl
  omega

/-- White space is the same in both cases: `isBlank c.toLower = isBlank c`. -/
theorem isBlank_toLower (c : Char) : isBlank c.toLower = isBlank c := by
  cases hupper : c.isUpper with
  | false => rw [Char.toLower_eq_of_not_isUpper (Bool.eq_false_iff.mp hupper)]
  | true =>
    have hascii : ∀ k < 128, isBlank (Char.ofNat k).toLower = isBlank (Char.ofNat k) := by
      decide
    have hlt : c.toNat < 128 :=
      toNat_lt_of_isAlphanum (by simp [Char.isAlphanum, Char.isAlpha, hupper])
    have hc := hascii c.toNat hlt
    rwa [Char.ofNat_toNat] at hc

end Inlay.Text
