import Inlay.Options.Data
import Inlay.Proofs.Outcome

/-!
# Records in JSON data

What a record of options has to look like, and which fault is named of one that does not: a `get`
field goes before the headers, the headers before the other fields, and of several headers or fields
the first faulty one is named. Fields of unknown names are never at fault.

* `recordOf_ok_iff`: a record is read if and only if it is one (`IsRecord`);
* `recordOf_error_iff`: the fault that is named is the first one (`RecordFault`).
-/

namespace Inlay

variable {α ε : Type} {good : α → Prop} {bad : α → ε → Prop} {l : List α} {x : α} {e : ε}

/-- Before the element with the fault `e` all are good. -/
def FirstFault (good : α → Prop) (bad : α → ε → Prop) (l : List α) (e : ε) : Prop :=
  ∃ pre x post, l = pre ++ x :: post ∧ (∀ y ∈ pre, good y) ∧ bad x e

theorem not_firstFault_nil : ¬ FirstFault good bad [] e := by
  rintro ⟨pre, x, post, h, -⟩
  simp at h

/-- The first fault in `x :: l` is that of `x`, or that of `l` after a good `x`. -/
theorem firstFault_cons_iff :
    FirstFault good bad (x :: l) e ↔ bad x e ∨ good x ∧ FirstFault good bad l e := by
  constructor
  · rintro ⟨pre, y, post, h, hgood, hbad⟩
    cases pre with
    | nil =>
      injection h with hx _
      exact Or.inl (hx ▸ hbad)
    | cons z pre =>
      injection h with hx hl
      rw [List.forall_mem_cons] at hgood
      exact Or.inr ⟨hx ▸ hgood.1, pre, y, post, hl, hgood.2, hbad⟩
  · rintro (hbad | ⟨hx, pre, y, post, rfl, hgood, hbad⟩)
    · exact ⟨[], x, l, rfl, by simp, hbad⟩
    · exact ⟨x :: pre, y, post, rfl, List.forall_mem_cons.mpr ⟨hx, hgood⟩, hbad⟩

/-- Elements that are never at fault, `p x = false`, can be left out. -/
theorem firstFault_filter_iff {p : α → Bool} (hgood : ∀ x, p x = false → good x)
    (hbad : ∀ x e, p x = false → ¬ bad x e) :
    FirstFault good bad (l.filter p) e ↔ FirstFault good bad l e := by
  induction l with
  | nil => rfl
  | cons x l ih =>
    rw [firstFault_cons_iff]
    cases hx : p x with
    | true => rw [List.filter_cons_of_pos hx, firstFault_cons_iff, ih]
    | false =>
      rw [List.filter_cons_of_neg (by simp [hx]), ih]
      simp [hgood x hx, hbad x e hx]

namespace Options

/-! ### Typed options -/

/-- The values that an option can have; null leaves it unset. -/
inductive Expected.Admits : Expected → Json → Prop where
  | null (x : Expected) : Admits x .null
  | string (s : String) : Admits string (.str s)
  | unsigned (n : Nat) : Admits unsigned (.int n)
  | boolean (b : Bool) : Admits boolean (.bool b)

/-- The fault of a value that an option cannot have. -/
def Expected.fault : Expected → Json → Fault
  | unsigned, .int n => .wrongValue (.int n) unsigned
  | x, j => .wrongType j x

/-- What the options of known names have to be. -/
def expectedOf? : String → Option Expected
  | "keepalive" => some .boolean
  | "timeout" => some .unsigned
  | "body" | "cache" | "credentials" | "integrity" | "mode" | "redirect" | "referrer"
  | "referrerPolicy" | "window" => some .string
  | _ => none

/-- `r` is a result for the values that an option can have, and their fault for others. -/
def Expected.Settles (x : Expected) (j : Json) {α : Type} (r : Except Fault α) : Prop :=
  x.Admits j ∧ (∃ a, r = .ok a) ∨ ¬ x.Admits j ∧ r = .error (x.fault j)

theorem Expected.Settles.map {x : Expected} {j : Json} {α β : Type} {r : Except Fault α}
    (h : x.Settles j r) (f : α → β) : x.Settles j (r >>= fun a => pure (f a)) := by
  rcases h with ⟨hadmits, a, rfl⟩ | ⟨hadmits, rfl⟩
  · exact Or.inl ⟨hadmits, f a, rfl⟩
  · exact Or.inr ⟨hadmits, rfl⟩

/-- A field that should be a text is settled by `string?`. -/
theorem settles_string? (j : Json) : Expected.string.Settles j (string? j) := by
  cases j with
  | null => exact Or.inl ⟨.null _, none, rfl⟩
  | str s => exact Or.inl ⟨.string s, some s, rfl⟩
  | _ => exact Or.inr ⟨nofun, rfl⟩

theorem settles_boolean? (j : Json) : Expected.boolean.Settles j (boolean? j) := by
  cases j with
  | null => exact Or.inl ⟨.null _, none, rfl⟩
  | bool b => exact Or.inl ⟨.boolean b, some b, rfl⟩
  | _ => exact Or.inr ⟨nofun, rfl⟩

theorem settles_unsigned? (j : Json) : Expected.unsigned.Settles j (unsigned? j) := by
  cases j with
  | null => exact Or.inl ⟨.null _, none, rfl⟩
  | int n =>
    by_cases hn : 0 ≤ n
    · obtain ⟨k, rfl⟩ := Int.eq_ofNat_of_zero_le hn
      exact Or.inl ⟨.unsigned k, some k, rfl⟩
    · refine Or.inr ⟨fun h => ?_, if_neg hn⟩
      cases h with
      | unsigned k =>
        apply hn
        omega
  | _ => exact Or.inr ⟨nofun, rfl⟩

variable {name : String} {value : Json} {o : RequestOptions}

/-- A field is one of a known option and settled by the type `expectedOf?` it, or it is unknown and
left out. -/
theorem setField?_spec (name : String) (value : Json) (o : RequestOptions) :
    (∃ x r, expectedOf? name = some x ∧ setField? name value o = some r ∧ x.Settles value r) ∨
      expectedOf? name = none ∧ setField? name value o = none := by
  unfold setField?
  -- two options are no strings, the last case is that of an unknown name, and all others are alike
  split
  case h_5 => exact Or.inl ⟨.boolean, _, rfl, rfl, (settles_boolean? value).map _⟩
  case h_10 => exact Or.inl ⟨.unsigned, _, rfl, rfl, (settles_unsigned? value).map _⟩
  case h_12 => exact Or.inr ⟨by simp [expectedOf?, *], rfl⟩
  all_goals exact Or.inl ⟨.string, _, rfl, rfl, (settles_string? value).map _⟩

/-- The value of the field can be that of its option, if it is of a known one. -/
def FieldFits (f : String × Json) : Prop :=
  ∀ x, expectedOf? f.1 = some x → x.Admits f.2

/-- The fault of a field. -/
def FieldFault (f : String × Json) (e : Fault) : Prop :=
  ∃ x, expectedOf? f.1 = some x ∧ ¬ x.Admits f.2 ∧ e = x.fault f.2

/-- What a field does to a record: it changes it, it is left out, or it is at fault, with one fault
`e`. -/
theorem setField?_cases (name : String) (value : Json) (o : RequestOptions) :
    FieldFits (name, value) ∧ (∀ e, ¬ FieldFault (name, value) e) ∧
        ((∃ o', setField? name value o = some (.ok o')) ∨ setField? name value o = none) ∨
      ¬ FieldFits (name, value) ∧
        ∃ e, setField? name value o = some (.error e) ∧
          ∀ e', FieldFault (name, value) e' ↔ e' = e := by
  rcases setField?_spec name value o with ⟨x, r, hx, hset, hsettles⟩ | ⟨hnone, hset⟩
  · have hfits : FieldFits (name, value) ↔ x.Admits value := by
      simp [FieldFits, hx]
    have hfault : ∀ e, FieldFault (name, value) e ↔ ¬ x.Admits value ∧ e = x.fault value := by
      simp [FieldFault, hx]
    rcases hsettles with ⟨hadmits, o', rfl⟩ | ⟨hadmits, rfl⟩
    · exact Or.inl ⟨hfits.mpr hadmits, fun e h => ((hfault e).mp h).1 hadmits, Or.inl ⟨o', hset⟩⟩
    · refine Or.inr ⟨fun h => hadmits (hfits.mp h), _, hset, fun e => ?_⟩
      rw [hfault, and_iff_right hadmits]
  · refine Or.inl ⟨?_, ?_, Or.inr hset⟩
    · simp [FieldFits, hnone]
    · simp [FieldFault, hnone]

/-! ### All fields -/

variable {fields : List (String × Json)}

/-- Fields are applied if each fits, `FieldFits f`, in whatever order they stand. -/
theorem setFields_ok_iff : ∀ (fields : List (String × Json)) (o : RequestOptions),
    (∃ r, setFields o fields = .ok r) ↔ ∀ f ∈ fields, FieldFits f
  | [], o => by simp [setFields]
  | (name, value) :: rest, o => by
    rw [setFields, List.forall_mem_cons]
    rcases setField?_cases name value o with ⟨hfits, -, ⟨o', hset⟩ | hset⟩ | ⟨hmisfit, e, hset, -⟩
    · rw [hset, and_iff_right hfits]
      exact setFields_ok_iff rest o'
    · -- an unknown field is passed over
      rw [hset, and_iff_right hfits, ← setFields_ok_iff rest o]
      exact exists_bind_pure_eq_ok_iff fun r : RequestOptions × List String => (r.1, name :: r.2)
    · rw [hset]
      show (∃ r, Except.error e = Except.ok r) ↔ _
      simp [hmisfit]

/-- The fault is that of the first field that does not fit, in the order of `fields`. -/
theorem setFields_error_iff {e : Fault} : ∀ (fields : List (String × Json)) (o : RequestOptions),
    setFields o fields = .error e ↔ FirstFault FieldFits FieldFault fields e
  | [], o => by simp [setFields, not_firstFault_nil]
  | (name, value) :: rest, o => by
    -- `FirstFault` takes the same turn at this field as the program does
    rw [setFields, firstFault_cons_iff]
    rcases setField?_cases name value o with
      ⟨hfits, hfault, ⟨o', hset⟩ | hset⟩ | ⟨hmisfit, e', hset, hfault⟩
    · rw [hset, or_iff_right (hfault e), and_iff_right hfits]
      exact setFields_error_iff rest o'
    · rw [hset, or_iff_right (hfault e), and_iff_right hfits, ← setFields_error_iff rest o]
      exact bind_pure_eq_error_iff fun r : RequestOptions × List String => (r.1, name :: r.2)
    · rw [hset, hfault e, or_iff_left (fun h => hmisfit h.1)]
      exact ⟨fun h => (Except.error.inj h).symm, fun h => congrArg _ h.symm⟩

/-! ### Headers -/

def IsText (j : Json) : Prop :=
  ∃ s, j = .str s

/-- A header that has no text. -/
def HeaderFault (f : String × Json) (e : TemplateError) : Prop :=
  ¬ IsText f.2 ∧ e = .invalidHeaderValue f.1

theorem headersOf_ok_iff : ∀ (headers : List (String × Json)),
    (∃ r, headersOf headers = .ok r) ↔ ∀ f ∈ headers, IsText f.2
  | [] => by simp [headersOf]
  | (name, value) :: rest => by
    rw [List.forall_mem_cons, ← headersOf_ok_iff rest]
    cases value with
    | str s =>
      rw [headersOf, and_iff_right ⟨s, rfl⟩]
      exact exists_bind_pure_eq_ok_iff (List.cons (name, s))
    | _ => simp [headersOf, IsText]

/-- Headers are refused for the first one that is not `IsText`. -/
theorem headersOf_error_iff {e : TemplateError} : ∀ (headers : List (String × Json)),
    headersOf headers = .error e ↔ FirstFault (IsText ·.2) HeaderFault headers e
  | [] => by simp [headersOf, not_firstFault_nil]
  | (name, value) :: rest => by
    rw [firstFault_cons_iff, ← headersOf_error_iff rest]
    cases value with
    | str s =>
      have htext : IsText (.str s) := ⟨s, rfl⟩
      rw [headersOf, and_iff_right htext, or_iff_right fun h => h.1 htext]
      exact bind_pure_eq_error_iff (List.cons (name, s))
    | _ => simp [headersOf, IsText, HeaderFault, eq_comm]

/-- A field with an object that is as `P` says; absent and null mean unset. -/
inductive Holds (P : List (String × Json) → Prop) : Option Json → Prop where
  | absent : Holds P none
  | null : Holds P (some .null)
  | object {fields : List (String × Json)} (h : P fields) : Holds P (some (.obj fields))

/-- The fault of a field that holds no object, or one with a fault of its own. -/
inductive HoldsFault (other : Fault) (Q : List (String × Json) → TemplateError → Prop) :
    Option Json → TemplateError → Prop where
  | other {j : Json} (hnull : j ≠ .null) (hobject : ∀ fields, j ≠ .obj fields) :
    HoldsFault other Q (some j) (.invalidOptions other)
  | object {fields : List (String × Json)} {e : TemplateError} (h : Q fields e) :
    HoldsFault other Q (some (.obj fields)) e

theorem holdsFault_object_iff {Q : List (String × Json) → TemplateError → Prop} {other : Fault}
    {e : TemplateError} : HoldsFault other Q (some (.obj fields)) e ↔ Q fields e :=
  ⟨fun | .object h => h | .other _ hobject => absurd rfl (hobject _), fun h => .object h⟩

theorem holdsFault_other_iff {Q : List (String × Json) → TemplateError → Prop} {other : Fault}
    {e : TemplateError} {j : Json} (hnull : j ≠ .null) (hobject : ∀ fields, j ≠ .obj fields) :
    HoldsFault other Q (some j) e ↔ e = .invalidOptions other := by
  constructor
  · intro h
    cases h with
    | other => rfl
    | object => exact absurd rfl (hobject _)
  · rintro rfl
    exact .other hnull hobject

theorem Holds.not_fault {P : List (String × Json) → Prop}
    {Q : List (String × Json) → TemplateError → Prop} {other : Fault} {field : Option Json}
    {e : TemplateError} (hP : ∀ fields, P fields → ¬ Q fields e) (h : Holds P field) :
    ¬ HoldsFault other Q field e := by
  intro hfault
  cases hfault with
  | other hnull hobject =>
    cases h with
    | null => exact hnull rfl
    | object => exact hobject _ rfl
  | object hq =>
    cases h with
    | object hp => exact hP _ hp hq

/-- Headers are strings. -/
abbrev HeadersFit : Option Json → Prop :=
  Holds fun headers => ∀ f ∈ headers, IsText f.2

abbrev HeadersFault : Option Json → TemplateError → Prop :=
  HoldsFault .headersNoObject (FirstFault (IsText ·.2) HeaderFault)

/-- The field `"headers"` is read if it is missing, null, or a record of texts. -/
theorem headersField_ok_iff :
    (∃ r, headersField fields = .ok r) ↔ HeadersFit (fields.lookup "headers") := by
  unfold headersField
  split
  case h_1 hfield =>
    rw [hfield]
    exact ⟨fun _ => .absent, fun _ => ⟨[], rfl⟩⟩
  case h_2 hfield =>
    rw [hfield]
    exact ⟨fun _ => .null, fun _ => ⟨[], rfl⟩⟩
  case h_3 headers hfield =>
    rw [hfield, headersOf_ok_iff]
    exact ⟨fun h => .object h, fun | .object h => h⟩
  case h_4 j hnull hobject hfield =>
    rw [hfield]
    refine ⟨fun ⟨r, hr⟩ => absurd hr (by simp), fun h => ?_⟩
    cases h with
    | null => exact absurd rfl hnull
    | object => exact absurd rfl (hobject _)

theorem headersField_error_iff {e : TemplateError} :
    headersField fields = .error e ↔ HeadersFault (fields.lookup "headers") e := by
  unfold headersField HeadersFault
  split
  case h_1 hfield =>
    rw [hfield]
    exact ⟨nofun, nofun⟩
  case h_2 hfield =>
    rw [hfield]
    exact ⟨nofun, fun | .other hnull _ => absurd rfl hnull⟩
  case h_3 headers hfield =>
    rw [hfield, headersOf_error_iff, holdsFault_object_iff]
  case h_4 j hnull hobject hfield =>
    rw [hfield, holdsFault_other_iff (fun h => hnull h) fun fields h => hobject fields h]
    exact ⟨fun h => (Except.error.inj h).symm, fun h => congrArg _ h.symm⟩

/-! ### Records -/

/-- A record of options: no observer, headers that are strings, and options of the right types. -/
structure IsRecord (fields : List (String × Json)) : Prop where
  observer : hasField "get" fields = false
  headers : HeadersFit (fields.lookup "headers")
  options : ∀ f ∈ fields, FieldFits f

/-- The fault of a record. -/
inductive RecordFault (fields : List (String × Json)) : TemplateError → Prop where
  | observer (hget : hasField "get" fields = true) : RecordFault fields .observerInData
  | headers {e : TemplateError} (hget : hasField "get" fields = false)
    (h : HeadersFault (fields.lookup "headers") e) : RecordFault fields e
  | option {e : Fault} (hget : hasField "get" fields = false)
    (hheaders : HeadersFit (fields.lookup "headers"))
    (h : FirstFault FieldFits FieldFault fields e) : RecordFault fields (.invalidOptions e)

theorem expectedOf?_headers : expectedOf? "headers" = none :=
  rfl

/-- The headers are no option of their own, so leaving out `"headers"` leaves all options in. -/
theorem expectedOf?_of_filtered {f : String × Json} (h : decide (f.1 ≠ "headers") = false) :
    expectedOf? f.1 = none := by
  have hname : f.1 = "headers" := by simpa using h
  rw [hname, expectedOf?_headers]

/-- Without `"headers"` the options of a record are applied if each field fits, as with them. -/
theorem setFields_withoutHeaders_ok_iff (o : RequestOptions) :
    (∃ r, setFields o (fields.filter (·.1 ≠ "headers")) = .ok r) ↔ ∀ f ∈ fields, FieldFits f := by
  rw [setFields_ok_iff]
  constructor
  · intro h f hf
    cases hname : decide (f.1 ≠ "headers") with
    | true => exact h f (List.mem_filter.mpr ⟨hf, hname⟩)
    | false => simp [FieldFits, expectedOf?_of_filtered hname]
  · exact fun h f hf => h f ((List.mem_filter.mp hf).1)

theorem setFields_withoutHeaders_error_iff {e : Fault} (o : RequestOptions) :
    setFields o (fields.filter (·.1 ≠ "headers")) = .error e ↔
      FirstFault FieldFits FieldFault fields e := by
  rw [setFields_error_iff]
  apply firstFault_filter_iff
  · intro f hf
    simp [FieldFits, expectedOf?_of_filtered hf]
  · intro f e hf
    simp [FieldFault, expectedOf?_of_filtered hf]

/-- A record of options is read if it `IsRecord`: its headers are read and each option fits its
type, -/
theorem recordOf_ok_iff : (∃ r, recordOf fields = .ok r) ↔ IsRecord fields := by
  constructor
  · rintro ⟨r, h⟩
    unfold recordOf at h
    split at h
    · simp at h
    · rename_i hget
      obtain ⟨headers, hheaders, h⟩ := exists_of_bind_eq_ok h
      refine ⟨by simpa using hget, headersField_ok_iff.mp ⟨_, hheaders⟩, ?_⟩
      split at h
      · rename_i hset
        exact (setFields_withoutHeaders_ok_iff _).mp ⟨_, hset⟩
      · simp at h
  · rintro ⟨hget, hheaders, hoptions⟩
    obtain ⟨headers, hheaders⟩ := headersField_ok_iff.mpr hheaders
    obtain ⟨r, hset⟩ := (setFields_withoutHeaders_ok_iff { headers }).mpr hoptions
    refine ⟨r, ?_⟩
    rw [recordOf, hget, hheaders]
    simp only [bind, Except.bind, hset]
    rfl

/-- and everything else is refused with its `RecordFault`: that of an observer first, then that of
the headers, then that of the options. -/
theorem recordOf_error_iff {e : TemplateError} :
    recordOf fields = .error e ↔ RecordFault fields e := by
  constructor
  · intro h
    unfold recordOf at h
    split at h
    · rename_i hget
      obtain rfl := Except.error.inj h
      exact .observer hget
    · rename_i hget
      have hget : hasField "get" fields = false := by simpa using hget
      -- The headers are read before the other fields, so a fault of theirs comes first.
      rcases cases_of_bind_eq_error h with hheaders | ⟨headers, hheaders, h⟩
      · exact .headers hget (headersField_error_iff.mp hheaders)
      · split at h
        · exact nomatch h
        · rename_i hset
          obtain rfl := Except.error.inj h
          exact .option hget (headersField_ok_iff.mp ⟨_, hheaders⟩)
            ((setFields_withoutHeaders_error_iff _).mp hset)
  · intro h
    cases h with
    | observer hget => rw [recordOf, if_pos hget]
    | headers hget h =>
      rw [recordOf, hget, headersField_error_iff.mpr h]
      rfl
    | option hget hheaders h =>
      obtain ⟨headers, hheaders⟩ := headersField_ok_iff.mpr hheaders
      have hset := (setFields_withoutHeaders_error_iff { headers }).mpr h
      rw [recordOf, hget, hheaders]
      simp only [bind, Except.bind, hset]
      rfl

theorem IsRecord.not_fault {e : TemplateError} (h : IsRecord fields) : ¬ RecordFault fields e := by
  intro hfault
  obtain ⟨r, hrecord⟩ := recordOf_ok_iff.mpr h
  have herror := recordOf_error_iff.mpr hfault
  rw [hrecord] at herror
  exact nomatch herror

end Options

end Inlay
