import Inlay.Text.Escape
import Mathlib.Data.List.Basic

/-!
# Escaping byte by byte

`escape` replaces characters. `escapeOnto` is given the bytes of a text and copies them in runs: a
run ends before a byte that has a reference, the reference comes next, and behind the byte a new run
begins.

* `fromUTF8?_escapeBytes`: on a text in UTF-8 this writes what `escape` makes of the text, in UTF-8.
  The bytes of characters beyond ASCII have no reference, so runs end between characters only.
* `escaped_escape`: what is in an escaped text, and that putting back what the references stand for
  gives the text that was escaped.
-/

namespace Inlay.Text

/-- The characters that markup could mistake for its own, each with its reference. -/
def references : List (Char × String) :=
  [('&', "&amp;"), ('<', "&lt;"), ('>', "&gt;"), ('"', "&quot;"), ('\'', "&#39;")]

/-- The reference that is written for a byte, if it has one. -/
def reference? (b : UInt8) : Option String :=
  (references.find? fun r => r.1.toUInt8 = b).map (·.2)

/-- Goes on at byte `i`, in a run that began at `start` and is not copied yet. -/
def escapeFrom (bytes : ByteArray) (start i : Nat) (out : ByteArray) : ByteArray :=
  if h : i < bytes.size then
    match reference? bytes[i] with
    | some r => escapeFrom bytes (i + 1) (i + 1) (out ++ bytes.extract start i ++ r.toUTF8)
    | none => escapeFrom bytes start (i + 1) out
  else out ++ bytes.extract start bytes.size
termination_by bytes.size - i

/-- Writes bytes as markup does, behind what `out` has. -/
def escapeOnto (out bytes : ByteArray) : ByteArray :=
  escapeFrom bytes 0 0 out

def escapeBytes (bytes : ByteArray) : ByteArray :=
  escapeOnto .empty bytes

/-- Puts back, from left to right, what the references stand for. -/
def unescapeChars : List Char → List Char
  | [] => []
  | c :: cs =>
    match references.find? fun r => r.2.toList.isPrefixOf (c :: cs) with
    | some r => r.1 :: unescapeChars (cs.drop (r.2.length - 1))
    | none => c :: unescapeChars cs
termination_by cs => cs.length
decreasing_by
  · rw [List.length_drop, List.length_cons]
    omega
  · exact Nat.lt_succ_self _

def unescape (s : String) : String :=
  String.ofList (unescapeChars s.toList)

/-! ### Runs -/

/-- What is written for one byte. -/
def escapeByte (b : UInt8) : List UInt8 :=
  match reference? b with
  | some r => r.toUTF8.data.toList
  | none => [b]

theorem toByteArray_toList_data (bytes : ByteArray) : bytes.data.toList.toByteArray = bytes := by
  rw [ByteArray.ext_iff, List.data_toByteArray]

/-- What there is in the end: `out`, the run from `start` to `i` so far, and what is written for
each of the bytes from `i` on. -/
theorem escapeFrom_eq {bytes : ByteArray} {start i : Nat} (hstart : start ≤ i)
    (hi : i ≤ bytes.size) (out : ByteArray) :
    escapeFrom bytes start i out = out ++ bytes.extract start i ++
      ((bytes.data.toList.drop i).flatMap escapeByte).toByteArray := by
  fun_induction escapeFrom bytes start i out with
  | case1 start i out h r hr ih =>
    have hdrop : bytes.data.toList.drop i = bytes[i] :: bytes.data.toList.drop (i + 1) :=
      List.drop_eq_getElem_cons (by simpa using h)
    rw [ih (Nat.le_refl _) h, hdrop, List.flatMap_cons, escapeByte, hr, List.toByteArray_append,
      toByteArray_toList_data, ByteArray.extract_same, ByteArray.append_empty,
      ByteArray.append_assoc]
  | case2 start i out h hr ih =>
    have hdrop : bytes.data.toList.drop i = bytes[i] :: bytes.data.toList.drop (i + 1) :=
      List.drop_eq_getElem_cons (by simpa using h)
    -- the byte joins the run
    have hrun : bytes.extract start (i + 1) = bytes.extract start i ++ [bytes[i]].toByteArray := by
      rw [← ByteArray.extract_add_one h]
      exact ByteArray.extract_eq_extract_append_extract i hstart (Nat.le_succ i)
    rw [ih (Nat.le_succ_of_le hstart) h, hrun, hdrop, List.flatMap_cons, escapeByte, hr,
      List.toByteArray_append]
    simp only [ByteArray.append_assoc]
  | case3 start i out h =>
    have hend : bytes.data.toList.length ≤ i := by simpa using h
    rw [List.drop_eq_nil_of_le hend, Nat.le_antisymm hi (Nat.le_of_not_lt h), List.flatMap_nil,
      List.toByteArray_nil, ByteArray.append_empty]

theorem escapeOnto_eq (out bytes : ByteArray) :
    escapeOnto out bytes = out ++ (bytes.data.toList.flatMap escapeByte).toByteArray := by
  rw [escapeOnto, escapeFrom_eq (Nat.le_refl 0) (Nat.zero_le _), ByteArray.extract_same,
    ByteArray.append_empty, List.drop_zero]

/-- The loop over the runs writes `escapeByte b` for each byte `b`, in order. -/
theorem escapeBytes_eq (bytes : ByteArray) :
    escapeBytes bytes = (bytes.data.toList.flatMap escapeByte).toByteArray := by
  rw [escapeBytes, escapeOnto_eq, ByteArray.empty_append]

theorem escapeOnto_eq_append (out bytes : ByteArray) :
    escapeOnto out bytes = out ++ escapeBytes bytes := by
  rw [escapeOnto_eq, escapeBytes_eq]

/-- Escaping goes part by part: `escapeBytes (x ++ y) = escapeBytes x ++ escapeBytes y`. -/
theorem escapeBytes_append (x y : ByteArray) :
    escapeBytes (x ++ y) = escapeBytes x ++ escapeBytes y := by
  simp only [escapeBytes_eq, ByteArray.toList_data_append, List.flatMap_append,
    List.toByteArray_append]

/-! ### Characters and their bytes -/

/-- A character is written as its reference `r.2` or, without one, as it is. -/
theorem escapeChar_cases (c : Char) :
    (∃ r ∈ references, r.1 = c ∧ escapeChar c = r.2.toList) ∨
      (∀ r ∈ references, r.1 ≠ c) ∧ escapeChar c = [c] := by
  by_cases h : ∃ r ∈ references, r.1 = c
  · have hwritten : ∀ r ∈ references, escapeChar r.1 = r.2.toList := by
      decide
    obtain ⟨r, hr, rfl⟩ := h
    exact .inl ⟨r, hr, rfl, hwritten r hr⟩
  · have hne : ∀ r ∈ references, r.1 ≠ c := fun r hr heq => h ⟨r, hr, heq⟩
    refine .inr ⟨hne, ?_⟩
    unfold escapeChar
    split
    · exact absurd rfl (hne ('&', "&amp;") (by decide))
    · exact absurd rfl (hne ('<', "&lt;") (by decide))
    · exact absurd rfl (hne ('>', "&gt;") (by decide))
    · exact absurd rfl (hne ('"', "&quot;") (by decide))
    · exact absurd rfl (hne ('\'', "&#39;") (by decide))
    · rfl

/-- The bytes of a character beyond ASCII are beyond ASCII: `128 ≤ b.toNat`. -/
theorem le_toNat_of_mem_utf8EncodeChar {c : Char} {b : UInt8} (hc : 128 ≤ c.toNat)
    (hb : b ∈ String.utf8EncodeChar c) : 128 ≤ b.toNat := by
  have hval : c.val.toNat = c.toNat := rfl
  unfold String.utf8EncodeChar at hb
  simp only [hval] at hb
  split at hb
  · omega
  · split at hb
    · simp only [List.mem_cons, List.not_mem_nil, or_false] at hb
      rcases hb with rfl | rfl <;> rw [UInt8.toNat_ofNat'] <;> omega
    · split at hb
      · simp only [List.mem_cons, List.not_mem_nil, or_false] at hb
        rcases hb with rfl | rfl | rfl <;> rw [UInt8.toNat_ofNat'] <;> omega
      · simp only [List.mem_cons, List.not_mem_nil, or_false] at hb
        rcases hb with rfl | rfl | rfl | rfl <;> rw [UInt8.toNat_ofNat'] <;> omega

/-- A byte below `128` is a character of its own. -/
theorem toNat_eq_of_mem_utf8EncodeChar {c : Char} {b : UInt8} (hb : b ∈ String.utf8EncodeChar c)
    (hascii : b.toNat < 128) : b.toNat = c.toNat := by
  by_cases hc : c.toNat < 128
  · have hsize : c.utf8Size = 1 := Char.utf8Size_eq_one_iff.mpr (by
      rw [UInt32.le_iff_toNat_le]
      exact Nat.le_of_lt_succ hc)
    rw [String.utf8EncodeChar_eq_singleton hsize, List.mem_singleton] at hb
    rw [hb, UInt32.toNat_toUInt8]
    exact Nat.mod_eq_of_lt (Nat.lt_trans hc (by decide))
  · have := le_toNat_of_mem_utf8EncodeChar (Nat.le_of_not_lt hc) hb
    omega

/-- The bytes `b` of a character without a reference have none. -/
theorem reference?_eq_none {c : Char} (h : ∀ r ∈ references, r.1 ≠ c) {b : UInt8}
    (hb : b ∈ String.utf8EncodeChar c) : reference? b = none := by
  have hascii : ∀ r ∈ references, r.1.toUInt8.toNat = r.1.toNat ∧ r.1.toNat < 128 := by
    decide
  rw [reference?, Option.map_eq_none_iff, List.find?_eq_none]
  intro r hr heq
  obtain rfl := of_decide_eq_true heq
  have hcode := toNat_eq_of_mem_utf8EncodeChar hb ((hascii r hr).1 ▸ (hascii r hr).2)
  rw [(hascii r hr).1] at hcode
  exact h r hr (Char.toNat_inj.mp hcode)

/-- It is the same to replace `c` and then encode it, and to replace its bytes. -/
theorem flatMap_escapeChar (c : Char) :
    (escapeChar c).flatMap String.utf8EncodeChar =
      (String.utf8EncodeChar c).flatMap escapeByte := by
  rcases escapeChar_cases c with ⟨r, hr, rfl, -⟩ | ⟨hne, hc⟩
  · revert r
    decide
  · have hbytes : ∀ b ∈ String.utf8EncodeChar c, escapeByte b = [b] := fun b hb => by
      rw [escapeByte, reference?_eq_none hne hb]
    rw [hc, List.flatMap_singleton, List.flatMap_congr hbytes, List.flatMap_singleton']

theorem toList_data_toUTF8 (s : String) :
    s.toUTF8.data.toList = s.toList.flatMap String.utf8EncodeChar := by
  rw [String.toUTF8_eq_toByteArray, ← String.utf8Encode_toList, List.utf8Encode,
    List.toList_data_toByteArray]

theorem toUTF8_append (s t : String) : (s ++ t).toUTF8 = s.toUTF8 ++ t.toUTF8 := by
  simp only [String.toUTF8_eq_toByteArray, String.toByteArray_append]

/-- Escaping the bytes of a text gives the bytes of the escaped text: `(escape s).toUTF8`. -/
theorem escapeBytes_toUTF8 (s : String) : escapeBytes s.toUTF8 = (escape s).toUTF8 := by
  rw [escapeBytes_eq, toList_data_toUTF8, List.flatMap_assoc, String.toUTF8_eq_toByteArray, escape,
    String.toByteArray_ofList, List.utf8Encode, escapeChars, List.flatMap_assoc]
  simp only [flatMap_escapeChar]

theorem fromUTF8?_toUTF8 (s : String) : String.fromUTF8? s.toUTF8 = some s := by
  rw [String.fromUTF8?, String.toUTF8_eq_toByteArray, dif_pos s.isValidUTF8]
  rfl

/-- The bytes that are written for `s` are `escape s` in UTF-8. -/
theorem fromUTF8?_escapeBytes (s : String) :
    String.fromUTF8? (escapeBytes s.toUTF8) = some (escape s) := by
  rw [escapeBytes_toUTF8, fromUTF8?_toUTF8]

theorem escape_append (s t : String) : escape (s ++ t) = escape s ++ escape t := by
  rw [← String.toList_inj, toList_escape, String.toList_append, String.toList_append,
    escapeChars_append, toList_escape, toList_escape]

/-! ### What is in an escaped text -/

/-- Of the five characters with a reference only `&` is written. -/
theorem not_mem_escapeChars {r : Char × String} (hr : r ∈ references) (hamp : r.1 ≠ '&')
    (cs : List Char) : r.1 ∉ escapeChars cs := by
  intro hmem
  obtain ⟨c, -, hc⟩ := List.mem_flatMap.mp hmem
  rcases escapeChar_cases c with ⟨r', hr', -, hwritten⟩ | ⟨hne, hwritten⟩
  · have hplain : ∀ r ∈ references, r.1 ≠ '&' → ∀ r' ∈ references, r.1 ∉ r'.2.toList := by
      decide
    rw [hwritten] at hc
    exact hplain r hr hamp r' hr' hc
  · rw [hwritten, List.mem_singleton] at hc
    exact hne r hr hc

/-- An `'&'` in what is written for a character is the beginning of its reference. -/
theorem exists_reference_of_escapeChar {c : Char} {pre post : List Char}
    (h : escapeChar c = pre ++ '&' :: post) : ∃ r ∈ references, r.2.toList = '&' :: post := by
  rcases escapeChar_cases c with ⟨r, hr, -, hwritten⟩ | ⟨hne, hwritten⟩
  · have htail : ∀ r ∈ references, '&' ∉ r.2.toList.tail := by
      decide
    rw [hwritten] at h
    cases pre with
    | nil => exact ⟨r, hr, h⟩
    | cons x pre =>
      refine absurd ?_ (htail r hr)
      rw [h]
      simp
  · -- the character would be an ampersand without a reference
    have hmem : '&' ∈ [c] := by
      rw [← hwritten, h]
      simp
    exact absurd (List.mem_singleton.mp hmem) (hne ('&', "&amp;") (by decide))

/-- Every `&` that is written begins a reference: `r.2.toList` is what stands there. -/
theorem exists_reference_of_escapeChars : ∀ {cs pre post : List Char},
    escapeChars cs = pre ++ '&' :: post → ∃ r ∈ references, r.2.toList <+: '&' :: post
  | [], pre, post, h => by simp at h
  | c :: cs, pre, post, h => by
    rw [escapeChars_cons] at h
    rcases List.append_eq_append_iff.mp h with ⟨mid, -, hrest⟩ | ⟨mid, hchar, hpost⟩
    · exact exists_reference_of_escapeChars hrest
    · cases mid with
      | nil =>
        -- what is written for the character ends right before the ampersand
        have hrest : escapeChars cs = [] ++ '&' :: post := hpost.symm
        exact exists_reference_of_escapeChars hrest
      | cons x mid =>
        obtain ⟨rfl, rfl⟩ := List.cons.inj hpost
        obtain ⟨r, hr, heq⟩ := exists_reference_of_escapeChar hchar
        refine ⟨r, hr, ?_⟩
        rw [heq]
        exact ⟨escapeChars cs, rfl⟩

/-! ### Putting characters back -/

/-- No reference is the beginning of another, so only `r` can come next. -/
theorem find?_reference {r : Char × String} (hr : r ∈ references) (cs : List Char) :
    (references.find? fun r' => r'.2.toList.isPrefixOf (r.2.toList ++ cs)) = some r := by
  have hdistinct : ∀ r₁ ∈ references, ∀ r₂ ∈ references, r₁.2.toList <+: r₂.2.toList → r₁ = r₂ := by
    decide
  cases hfind : references.find? fun r' => r'.2.toList.isPrefixOf (r.2.toList ++ cs) with
  | none =>
    refine absurd ?_ (List.find?_eq_none.mp hfind r hr)
    exact List.isPrefixOf_iff_prefix.mpr (List.prefix_append _ _)
  | some r' =>
    have hr' := List.mem_of_find?_eq_some hfind
    have hfound := List.find?_some hfind
    have hpre := List.isPrefixOf_iff_prefix.mp hfound
    rcases List.prefix_or_prefix_of_prefix hpre (List.prefix_append _ _) with h | h
    · rw [hdistinct r' hr' r hr h]
    · rw [hdistinct r hr r' hr' h]

/-- Where a reference `r.2` stands, its character `r.1` is read, and reading goes on behind it. -/
theorem unescapeChars_reference {r : Char × String} (hr : r ∈ references) (cs : List Char) :
    unescapeChars (r.2.toList ++ cs) = r.1 :: unescapeChars cs := by
  have hne : ∀ r ∈ references, r.2.toList ≠ [] := by
    decide
  have hfind := find?_reference hr cs
  obtain ⟨x, xs, hx⟩ := List.exists_cons_of_ne_nil (hne r hr)
  have hlength : r.2.length - 1 = xs.length := by
    rw [← String.length_toList, hx, List.length_cons, Nat.add_sub_cancel]
  rw [hx, List.cons_append] at hfind ⊢
  rw [unescapeChars, hfind]
  dsimp only
  rw [hlength, List.drop_left]

theorem unescapeChars_cons {c : Char} (hc : c ≠ '&') (cs : List Char) :
    unescapeChars (c :: cs) = c :: unescapeChars cs := by
  have hhead : ∀ r ∈ references, r.2.toList.head? = some '&' := by
    decide
  have hfind : (references.find? fun r => r.2.toList.isPrefixOf (c :: cs)) = none := by
    rw [List.find?_eq_none]
    intro r hr hpre
    obtain ⟨rest, hrest⟩ := List.isPrefixOf_iff_prefix.mp hpre
    have heq : (r.2.toList ++ rest).head? = some '&' := by
      rw [List.head?_append, hhead r hr, Option.some_or]
    rw [hrest, List.head?_cons, Option.some.injEq] at heq
    exact hc heq
  rw [unescapeChars, hfind]

/-- **Unescaping undoes escaping**, character by character. -/
theorem unescapeChars_escapeChars (cs : List Char) : unescapeChars (escapeChars cs) = cs := by
  induction cs with
  | nil => rw [escapeChars_nil, unescapeChars]
  | cons c cs ih =>
    rw [escapeChars_cons]
    rcases escapeChar_cases c with ⟨r, hr, rfl, hwritten⟩ | ⟨hne, hwritten⟩
    · rw [hwritten, unescapeChars_reference hr, ih]
    · have hamp : c ≠ '&' := Ne.symm (hne ('&', "&amp;") (by decide))
      rw [hwritten, List.singleton_append, unescapeChars_cons hamp, ih]

/-- What `t` promises as the form in which markup writes `s`. -/
structure Escaped (s t : String) : Prop where
  /-- Each of the five characters has been replaced by its reference, and nothing else. -/
  toList_eq : t.toList = s.toList.flatMap escapeChar
  plain : '<' ∉ t.toList ∧ '>' ∉ t.toList ∧ '"' ∉ t.toList ∧ '\'' ∉ t.toList
  /-- Every ampersand is the beginning of a reference. -/
  reference : ∀ pre post, t.toList = pre ++ '&' :: post →
    ∃ r ∈ references, r.2.toList <+: '&' :: post
  unescape_eq : unescape t = s

theorem escaped_escape (s : String) : Escaped s (escape s) where
  toList_eq := toList_escape s
  plain := by
    rw [toList_escape]
    refine ⟨?_, ?_, ?_, ?_⟩
    · exact not_mem_escapeChars (r := ('<', "&lt;")) (by decide) (by decide) _
    · exact not_mem_escapeChars (r := ('>', "&gt;")) (by decide) (by decide) _
    · exact not_mem_escapeChars (r := ('"', "&quot;")) (by decide) (by decide) _
    · exact not_mem_escapeChars (r := ('\'', "&#39;")) (by decide) (by decide) _
  reference pre post h := by
    rw [toList_escape] at h
    exact exists_reference_of_escapeChars h
  unescape_eq := by
    rw [unescape, toList_escape, unescapeChars_escapeChars, String.ofList_toList]

end Inlay.Text
