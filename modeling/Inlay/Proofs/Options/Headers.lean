import Inlay.Options.Resolve
import Inlay.Proofs.Outcome
import Inlay.Proofs.Text.Case

/-!
# Headers that can be sent

The check of headers against what a header is: its name is a token, that is visible ASCII characters
without delimiters, and its value stays on its line (`validateHeaders_ok_iff`).
-/

namespace Inlay.Options

/-- The characters that separate tokens. -/
def delimiters : List Char :=
  "\"(),/:;<=>?@[\\]\x7b\x7d".toList

/-- A visible ASCII character that is no delimiter. -/
def IsTokenChar (c : Char) : Prop :=
  '!' ≤ c ∧ c ≤ '~' ∧ c ∉ delimiters

instance (c : Char) : Decidable (IsTokenChar c) :=
  inferInstanceAs (Decidable (_ ∧ _ ∧ _))

def IsToken (name : String) : Prop :=
  name ≠ "" ∧ ∀ c ∈ name.toList, IsTokenChar c

/-- The value ends neither its line nor the text. -/
def IsLineContent (value : String) : Prop :=
  '\r' ∉ value.toList ∧ '\n' ∉ value.toList ∧ '\x00' ∉ value.toList

/-- The characters of header names are ASCII: `c.toNat < 128`. -/
theorem toNat_lt_of_isHeaderNameChar {c : Char} (h : isHeaderNameChar c = true) :
    c.toNat < 128 := by
  have hlist : ("!#$%&'*+-.^_`|~".toList.all fun d => d.toNat < 128) = true := by decide
  rw [isHeaderNameChar, Bool.or_eq_true] at h
  rcases h with h | h
  · exact Text.toNat_lt_of_isAlphanum h
  · exact of_decide_eq_true (List.all_eq_true.mp hlist c (List.contains_iff_mem.mp h))

theorem isHeaderNameChar_iff (c : Char) : isHeaderNameChar c = true ↔ IsTokenChar c := by
  have hascii : ∀ n < 128, isHeaderNameChar (Char.ofNat n) = true ↔ IsTokenChar (Char.ofNat n) := by
    decide
  -- beyond ASCII neither side holds
  by_cases h : c.toNat < 128
  · have hc := hascii c.toNat h
    rwa [Char.ofNat_toNat] at hc
  · constructor
    · exact fun hname => absurd (toNat_lt_of_isHeaderNameChar hname) h
    · intro htoken
      exact absurd (Nat.lt_of_le_of_lt (Char.le_def.mp htoken.2.1) (by decide)) h

/-- The test for header names is the definition `IsToken`. -/
theorem isHeaderName_iff (name : String) : isHeaderName name = true ↔ IsToken name := by
  rw [isHeaderName, IsToken, Bool.and_eq_true, List.all_eq_true, Bool.not_eq_true',
    Bool.eq_false_iff, ne_eq, String.isEmpty_iff]
  exact and_congr_right fun _ => forall₂_congr fun c _ => isHeaderNameChar_iff c

/-- The test for header values is the definition `IsLineContent`. -/
theorem isHeaderValue_iff (value : String) : isHeaderValue value = true ↔ IsLineContent value := by
  rw [isHeaderValue, IsLineContent, List.all_eq_true]
  constructor
  · intro h
    refine ⟨fun hc => ?_, fun hc => ?_, fun hc => ?_⟩
    · exact absurd (h _ hc) (by decide)
    · exact absurd (h _ hc) (by decide)
    · exact absurd (h _ hc) (by decide)
  · rintro ⟨hreturn, hfeed, hnul⟩ c hc
    have hne : c ≠ '\r' ∧ c ≠ '\n' ∧ c ≠ '\x00' := by
      refine ⟨?_, ?_, ?_⟩ <;> rintro rfl <;> contradiction
    simp [hne]

/-- Headers pass if each has an `IsToken` for its name and an `IsLineContent` for its value. -/
theorem validateHeaders_ok_iff : ∀ {headers : List (String × String)},
    validateHeaders headers = .ok () ↔ ∀ h ∈ headers, IsToken h.1 ∧ IsLineContent h.2
  | [] => by simp [validateHeaders]
  | (name, value) :: rest => by
    rw [validateHeaders, List.forall_mem_cons, ← validateHeaders_ok_iff, ← isHeaderName_iff,
      ← isHeaderValue_iff]
    cases isHeaderName name with
    | false => simp
    | true => cases isHeaderValue value <;> simp

/-- Resolved options have headers with `validateHeaders o.headers = .ok ()`. -/
theorem validateHeaders_of_resolve {given : InstanceOptions} {x : Placeholder} {o : RequestOptions}
    (h : resolve given x = .ok o) : validateHeaders o.headers = .ok () := by
  unfold resolve at h
  obtain ⟨options, -, h⟩ := exists_of_bind_eq_ok h
  obtain ⟨⟨⟩, hvalid, h⟩ := exists_of_bind_eq_ok h
  obtain rfl := Except.ok.inj h
  exact hvalid

end Inlay.Options
