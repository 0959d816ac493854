import Inlay.Options.Resolve
import Inlay.Proofs.Options.Record
import Mathlib.Data.List.Forall2

/-!
# Lists of options in JSON data

Which lists are read, and which fault is named of the others: that of the first entry that is faulty
by itself or repeats an id. An id that stands twice is looked for in two places, when a list is read
and when it is used (`validateIds`), and both find the same one.

* `readEntries_error_iff`: what refuses a list is the fault of an entry before which all are sound
  and have new ids (`EntriesFault`);
* `read_list`: which lists are read, what they denote, and that the two checks of ids agree.
-/

namespace Inlay.Options

variable {index : Nat} {seen ids : List String} {id : String} {entry : Json}
  {entries rest : List Json} {e : TemplateError} {ds : List Diagnostic} {xs : List OptionsEntry}

/-! ### Ids -/

/-- None of the ids stands twice, or is one of those that were seen before. -/
def Fresh (seen ids : List String) : Prop :=
  ids.Nodup ∧ ∀ id ∈ ids, id ∉ seen

theorem fresh_nil : Fresh seen [] :=
  ⟨List.nodup_nil, by simp⟩

/-- A row of ids is fresh if the first is not in `seen`, and the others are fresh once it is. -/
theorem fresh_cons_iff : Fresh seen (id :: ids) ↔ id ∉ seen ∧ Fresh (id :: seen) ids := by
  rw [Fresh, Fresh, List.nodup_cons, List.forall_mem_cons]
  simp only [List.mem_cons, not_or]
  constructor
  · rintro ⟨⟨hid, hids⟩, hseen, hrest⟩
    exact ⟨hseen, hids, fun other hother => ⟨fun heq => hid (heq ▸ hother), hrest other hother⟩⟩
  · rintro ⟨hseen, hids, hrest⟩
    exact ⟨⟨fun hid => (hrest id hid).1 rfl, hids⟩, hseen, fun other hother =>
      (hrest other hother).2⟩

@[simp] theorem fresh_nil_left_iff : Fresh [] ids ↔ ids.Nodup := by
  simp [Fresh]

/-- No id repeats one before it if all are fresh: `repeatedId? seen xs = none`. -/
theorem repeatedId?_eq_none_iff : ∀ {seen : List String} {xs : List OptionsEntry},
    repeatedId? seen xs = none ↔ Fresh seen (xs.map (·.id))
  | seen, [] => by simp [repeatedId?, fresh_nil]
  | seen, x :: xs => by
    rw [repeatedId?, List.map_cons, fresh_cons_iff, ← repeatedId?_eq_none_iff]
    by_cases hx : x.id ∈ seen
    · simp [hx]
    · simp [hx]

/-- A list of records passes if its ids are `Nodup`. -/
theorem validateIds_ok_iff : validateIds xs = .ok () ↔ (xs.map (·.id)).Nodup := by
  rw [← fresh_nil_left_iff, ← repeatedId?_eq_none_iff, validateIds]
  cases repeatedId? [] xs <;> simp

/-- It is refused for the first id that repeats one before it, `repeatedId? [] xs = some id`. -/
theorem validateIds_error_iff :
    validateIds xs = .error (.duplicateOptionsId id) ↔ repeatedId? [] xs = some id := by
  rw [validateIds]
  cases repeatedId? [] xs <;> simp

/-! ### One entry -/

/-- The entry is an object without an observer, and this is its id. -/
def Named (entry : Json) (id : String) : Prop :=
  ∃ fields, entry = .obj fields ∧ hasField "get" fields = false ∧
    fields.lookup "id" = some (.str id)

/-- An entry with that id that is sound by itself. -/
structure IsEntry (entry : Json) (id : String) : Prop where
  named : Named entry id
  options : Holds IsRecord (entry.get? "options")

/-- The record of an entry. -/
inductive HoldsRecord : Option Json → RequestOptions → Prop where
  | absent : HoldsRecord none {}
  | null : HoldsRecord (some .null) {}
  | record {fields : List (String × Json)} {o : RequestOptions} {unknown : List String}
    (h : recordOf fields = .ok (o, unknown)) : HoldsRecord (some (.obj fields)) o

/-- A sound entry, read. -/
structure Denotes (entry : Json) (x : OptionsEntry) : Prop where
  isEntry : IsEntry entry x.id
  record : HoldsRecord (entry.get? "options") x.options

/-- The fault of an entry, apart from its options. -/
inductive HeadingFault (index : Nat) (seen : List String) (entry : Json) :
    TemplateError → Prop where
  | noObject (h : ∀ fields, entry ≠ .obj fields) :
    HeadingFault index seen entry (.invalidOptions (.entryNoObject index))
  | observer {fields : List (String × Json)} (h : entry = .obj fields)
    (hget : hasField "get" fields = true) : HeadingFault index seen entry .observerInData
  | noId {fields : List (String × Json)} (h : entry = .obj fields)
    (hget : hasField "get" fields = false) (hid : ∀ id, fields.lookup "id" ≠ some (.str id)) :
    HeadingFault index seen entry (.invalidOptions (.entryIdNoString index))
  | repeated {id : String} (h : Named entry id) (hseen : id ∈ seen) :
    HeadingFault index seen entry (.duplicateOptionsId id)

/-- The fault of an entry that stands at `index`, behind entries with the ids in `seen`. -/
inductive EntryFault (index : Nat) (seen : List String) (entry : Json) (e : TemplateError) :
    Prop where
  | heading (h : HeadingFault index seen entry e)
  | options {id : String} (hnamed : Named entry id) (hseen : id ∉ seen)
    (h : HoldsFault (.entryOptionsNoObject index) RecordFault (entry.get? "options") e)

/-- An entry has one id: `id = id'`. -/
theorem Named.unique {id' : String} (h : Named entry id) (h' : Named entry id') : id = id' := by
  obtain ⟨fields, rfl, -, hid⟩ := h
  obtain ⟨fields', heq, -, hid'⟩ := h'
  obtain rfl := Json.obj.inj heq
  rw [hid] at hid'
  exact Json.str.inj (Option.some.inj hid')

/-- The id of an entry is read if it is `Named` and not in `seen`. -/
theorem entryId_ok_iff : entryId index seen entry = .ok id ↔ Named entry id ∧ id ∉ seen := by
  constructor
  · intro h
    unfold entryId at h
    split at h
    · rename_i fields
      split at h
      · simp at h
      · rename_i hget
        split at h
        · rename_i other hid
          split at h
          · simp at h
          · rename_i hseen
            obtain rfl := Except.ok.inj h
            exact ⟨⟨fields, rfl, by simpa using hget, hid⟩, by simpa using hseen⟩
        · simp at h
    · simp at h
  · rintro ⟨⟨fields, rfl, hget, hid⟩, hseen⟩
    simp [entryId, hget, hid, hseen]

/-- Otherwise there is a `HeadingFault`: it is no record, has an observer, has no id, or repeats
one, in this order. -/
theorem entryId_error_iff :
    entryId index seen entry = .error e ↔ HeadingFault index seen entry e := by
  constructor
  · intro h
    -- The checks in their order, each refusing with its own fault.
    unfold entryId at h
    split at h
    · rename_i fields
      split at h
      · rename_i hget
        obtain rfl := Except.error.inj h
        exact .observer rfl hget
      · rename_i hget
        have hget : hasField "get" fields = false := by simpa using hget
        split at h
        · rename_i id hid
          split at h
          · rename_i hseen
            obtain rfl := Except.error.inj h
            exact .repeated ⟨fields, rfl, hget, hid⟩ (by simpa using hseen)
          · simp at h
        · rename_i hid
          obtain rfl := Except.error.inj h
          exact .noId rfl hget hid
    · rename_i hobject
      obtain rfl := Except.error.inj h
      exact .noObject fun fields heq => hobject fields heq
  · intro h
    cases h with
    | noObject h => cases entry <;> first | rfl | exact absurd rfl (h _)
    | observer h hget =>
      subst h
      simp [entryId, hget]
    | noId h hget hid =>
      subst h
      simp [entryId, hget]
    | repeated h hseen =>
      obtain ⟨fields, rfl, hget, hid⟩ := h
      simp [entryId, hget, hid, hseen]

/-! ### The options of an entry -/

theorem outcome_readRecord (fields : List (String × Json)) (ds : List Diagnostic) :
    outcome (readRecord fields) ds = recordOf fields >>= fun r => pure r.1 := by
  unfold readRecord outcome
  cases recordOf fields <;> rfl

/-- The options of an entry are read if `"options"` holds a record of them, or there are none at
all. -/
theorem readEntryOptions_ok_iff {o : RequestOptions} :
    outcome (readEntryOptions index entry) ds = .ok o ↔ HoldsRecord (entry.get? "options") o := by
  unfold readEntryOptions
  split
  -- The field is absent, null, a record or something else.
  case h_1 hfield =>
    rw [hfield]
    exact ⟨fun h => Except.ok.inj h ▸ .absent, fun | .absent => rfl⟩
  case h_2 hfield =>
    rw [hfield]
    exact ⟨fun h => Except.ok.inj h ▸ .null, fun | .null => rfl⟩
  case h_3 fields hfield =>
    rw [hfield, outcome_readRecord]
    constructor
    · intro h
      obtain ⟨⟨o', unknown⟩, hrecord, h⟩ := exists_of_bind_eq_ok h
      obtain rfl := Except.ok.inj h
      exact .record hrecord
    · rintro (_ | _ | hrecord)
      rw [hrecord]
      rfl
  case h_4 j hnull hobject hfield =>
    rw [hfield]
    refine ⟨nofun, fun h => ?_⟩
    cases h with
    | null => exact absurd rfl hnull
    | record => exact absurd rfl (hobject _)

/-- Otherwise the fault is that they are no record, or a `RecordFault`. -/
theorem readEntryOptions_error_iff :
    outcome (readEntryOptions index entry) ds = .error e ↔
      HoldsFault (.entryOptionsNoObject index) RecordFault (entry.get? "options") e := by
  unfold readEntryOptions
  split
  case h_1 hfield =>
    rw [hfield]
    exact ⟨nofun, nofun⟩
  case h_2 hfield =>
    rw [hfield]
    exact ⟨nofun, fun | .other hnull _ => absurd rfl hnull⟩
  case h_3 fields hfield =>
    rw [hfield, outcome_readRecord, bind_pure_eq_error_iff, recordOf_error_iff,
      holdsFault_object_iff]
  case h_4 j hnull hobject hfield =>
    rw [hfield, holdsFault_other_iff (fun h => hnull h) fun fields h => hobject fields h]
    exact ⟨fun h => (Except.error.inj h).symm, fun h => congrArg _ h.symm⟩

theorem exists_holdsRecord_iff {field : Option Json} :
    (∃ o, HoldsRecord field o) ↔ Holds IsRecord field := by
  constructor
  · rintro ⟨o, h⟩
    cases h with
    | absent => exact .absent
    | null => exact .null
    | record h => exact .object (recordOf_ok_iff.mp ⟨_, h⟩)
  · intro h
    cases h with
    | absent => exact ⟨{}, .absent⟩
    | null => exact ⟨{}, .null⟩
    | object h =>
      obtain ⟨⟨o, unknown⟩, hrecord⟩ := recordOf_ok_iff.mpr h
      exact ⟨o, .record hrecord⟩

/-! ### Entries in turn -/

theorem run_check_eq_ok_iff {α : Type} {x : Except TemplateError α} {y : α}
    {ds' : List Diagnostic} : (check x).run ds = .ok y ds' ↔ x = .ok y ∧ ds = ds' := by
  cases x with
  | error e => exact ⟨nofun, nofun⟩
  | ok z =>
    show EStateM.Result.ok z ds = .ok y ds' ↔ _
    simp

theorem outcome_check {α : Type} (x : Except TemplateError α) : outcome (check x) ds = x := by
  cases x <;> rfl

/-- The entries that are read are sound, one by one, and their ids are new:
`Fresh seen (xs.map (·.id))`. -/
theorem readEntries_ok : ∀ {entries : List Json} {index : Nat} {seen : List String}
    {ds : List Diagnostic} {xs : List OptionsEntry},
    outcome (readEntries index seen entries) ds = .ok xs →
      List.Forall₂ Denotes entries xs ∧ Fresh seen (xs.map (·.id))
  | [], _, _, _, _, h => by
    obtain rfl := Except.ok.inj h
    exact ⟨.nil, fresh_nil⟩
  | entry :: rest, index, seen, ds, xs, h => by
    obtain ⟨id, ds', hcheck, h⟩ := outcome_bind_eq_ok_iff.mp h
    obtain ⟨hid, rfl⟩ := run_check_eq_ok_iff.mp hcheck
    obtain ⟨o, ds', hoptions, h⟩ := outcome_bind_eq_ok_iff.mp h
    obtain ⟨xs', ds'', hrest, h⟩ := outcome_bind_eq_ok_iff.mp h
    obtain rfl := Except.ok.inj h
    obtain ⟨hnamed, hseen⟩ := entryId_ok_iff.mp hid
    have hrecord := readEntryOptions_ok_iff.mp (outcome_eq_ok_iff.mpr ⟨ds', hoptions⟩)
    have hentry : Denotes entry ⟨id, o⟩ :=
      ⟨⟨hnamed, exists_holdsRecord_iff.mp ⟨o, hrecord⟩⟩, hrecord⟩
    obtain ⟨hdenotes, hfresh⟩ := readEntries_ok (outcome_eq_ok_iff.mpr ⟨ds'', hrest⟩)
    exact ⟨.cons hentry hdenotes, fresh_cons_iff.mpr ⟨hseen, hfresh⟩⟩

/-- The fault of entries that begin at `index`, behind entries with the ids in `seen`: that of an
entry before which all are sound and have new ids. -/
def EntriesFault (index : Nat) (seen : List String) (entries : List Json) (e : TemplateError) :
    Prop :=
  ∃ pre entry post ids, entries = pre ++ entry :: post ∧ List.Forall₂ IsEntry pre ids ∧
    Fresh seen ids ∧ EntryFault (index + pre.length) (ids ++ seen) entry e

/-- Whether an entry is at fault depends on which ids are in `seen`, and not on their order. -/
theorem EntryFault.congr {seen' : List String} (hseen : ∀ id, id ∈ seen ↔ id ∈ seen')
    (h : EntryFault index seen entry e) : EntryFault index seen' entry e := by
  cases h with
  | heading h =>
    apply EntryFault.heading
    cases h with
    | noObject h => exact .noObject h
    | observer h hget => exact .observer h hget
    | noId h hget hid => exact .noId h hget hid
    | repeated h hmem => exact .repeated h ((hseen _).mp hmem)
  | options hnamed hmem h => exact .options hnamed (fun hmem' => hmem ((hseen _).mpr hmem')) h

theorem not_entriesFault_nil : ¬ EntriesFault index seen [] e := by
  rintro ⟨pre, entry, post, ids, h, -⟩
  simp at h

/-- The fault of `entry :: rest` is that of the first entry, or that of the others with its id
seen. -/
theorem entriesFault_cons_iff :
    EntriesFault index seen (entry :: rest) e ↔ EntryFault index seen entry e ∨
      ∃ id, IsEntry entry id ∧ id ∉ seen ∧ EntriesFault (index + 1) (id :: seen) rest e := by
  have hmem : ∀ {id : String} {ids : List String} (other : String),
      other ∈ id :: ids ++ seen ↔ other ∈ ids ++ id :: seen := by
    intro id ids other
    simp [or_left_comm]
  constructor
  · rintro ⟨pre, first, post, ids, h, hpre, hfresh, hfault⟩
    cases hpre with
    | nil =>
      injection h with hentry _
      exact Or.inl (hentry ▸ hfault)
    | @cons x id pre ids hx hpre =>
      injection h with hentry hrest
      obtain ⟨hid, hfresh⟩ := fresh_cons_iff.mp hfresh
      -- seen from the rest there is one entry fewer before the fault, and one more id
      have hfault := hfault.congr hmem
      rw [List.length_cons, ← Nat.add_assoc, Nat.add_right_comm] at hfault
      exact Or.inr ⟨id, hentry ▸ hx, hid, pre, first, post, ids, hrest, hpre, hfresh, hfault⟩
  · rintro (hfault | ⟨id, hx, hid, pre, first, post, ids, rfl, hpre, hfresh, hfault⟩)
    · exact ⟨[], entry, rest, [], rfl, .nil, fresh_nil, hfault⟩
    · refine ⟨entry :: pre, first, post, id :: ids, rfl, .cons hx hpre,
        fresh_cons_iff.mpr ⟨hid, hfresh⟩, ?_⟩
      rw [List.length_cons, ← Nat.add_assoc, Nat.add_right_comm]
      exact hfault.congr fun other => (hmem other).symm

/-- What refuses entries is their first fault, as `EntriesFault` says, and every first fault refuses
them. -/
theorem readEntries_error_iff : ∀ {entries : List Json} {index : Nat} {seen : List String}
    {ds : List Diagnostic},
    outcome (readEntries index seen entries) ds = .error e ↔ EntriesFault index seen entries e
  | [], _, _, _ => ⟨nofun, fun h => absurd h not_entriesFault_nil⟩
  | entry :: rest, index, seen, ds => by
    rw [entriesFault_cons_iff]
    constructor
    · intro h
      rcases outcome_bind_eq_error_iff.mp h with h | ⟨id, ds', hcheck, h⟩
      · rw [outcome_check] at h
        exact Or.inl (.heading (entryId_error_iff.mp h))
      obtain ⟨hid, rfl⟩ := run_check_eq_ok_iff.mp hcheck
      obtain ⟨hnamed, hseen⟩ := entryId_ok_iff.mp hid
      rcases outcome_bind_eq_error_iff.mp h with h | ⟨o, ds', hoptions, h⟩
      · exact Or.inl (.options hnamed hseen (readEntryOptions_error_iff.mp h))
      have hrecord := readEntryOptions_ok_iff.mp (outcome_eq_ok_iff.mpr ⟨ds', hoptions⟩)
      refine Or.inr ⟨id, ⟨hnamed, exists_holdsRecord_iff.mp ⟨o, hrecord⟩⟩, hseen, ?_⟩
      rcases outcome_bind_eq_error_iff.mp h with h | ⟨xs, ds'', -, h⟩
      · exact readEntries_error_iff.mp h
      · exact nomatch h
    · -- the fault is found at the step that it is about, all steps before it succeed
      rintro ((h | ⟨hnamed, hseen, h⟩) | ⟨id, hentry, hseen, h⟩)
      · apply outcome_bind_eq_error_iff.mpr
        rw [outcome_check]
        exact Or.inl (entryId_error_iff.mpr h)
      · refine outcome_bind_eq_error_iff.mpr (Or.inr ⟨_, ds,
          run_check_eq_ok_iff.mpr ⟨entryId_ok_iff.mpr ⟨hnamed, hseen⟩, rfl⟩, ?_⟩)
        exact outcome_bind_eq_error_iff.mpr (Or.inl (readEntryOptions_error_iff.mpr h))
      · obtain ⟨o, hrecord⟩ := exists_holdsRecord_iff.mpr hentry.options
        have hoptions : outcome (readEntryOptions index entry) ds = .ok o :=
          readEntryOptions_ok_iff.mpr hrecord
        obtain ⟨ds', hoptions⟩ := outcome_eq_ok_iff.mp hoptions
        refine outcome_bind_eq_error_iff.mpr (Or.inr ⟨id, ds,
          run_check_eq_ok_iff.mpr ⟨entryId_ok_iff.mpr ⟨hentry.named, hseen⟩, rfl⟩, ?_⟩)
        refine outcome_bind_eq_error_iff.mpr (Or.inr ⟨o, ds', hoptions, ?_⟩)
        exact outcome_bind_eq_error_iff.mpr (Or.inl (readEntries_error_iff.mpr h))

/-! ### Sound entries -/

/-- A sound entry can only repeat an id, and then the fault is `.duplicateOptionsId id`. -/
theorem IsEntry.fault_iff (h : IsEntry entry id) :
    EntryFault index seen entry e ↔ id ∈ seen ∧ e = .duplicateOptionsId id := by
  obtain ⟨hnamed, hoptions⟩ := h
  constructor
  · rintro (hheading | ⟨hid, hseen, hfault⟩)
    · obtain ⟨fields, rfl, hget, hid⟩ := hnamed
      cases hheading with
      | noObject hobject => exact absurd rfl (hobject fields)
      | observer hobject hobserver =>
        obtain rfl := Json.obj.inj hobject
        rw [hget] at hobserver
        exact nomatch hobserver
      | noId hobject _ hnoId =>
        obtain rfl := Json.obj.inj hobject
        exact absurd hid (hnoId id)
      | repeated hnamed hseen =>
        obtain rfl := hnamed.unique ⟨fields, rfl, hget, hid⟩
        exact ⟨hseen, rfl⟩
    · exact absurd hfault (hoptions.not_fault fun _ => IsRecord.not_fault)
  · rintro ⟨hseen, rfl⟩
    exact .heading (.repeated hnamed hseen)

theorem IsEntry.exists_iff {P : String → Prop} (h : IsEntry entry id) :
    (∃ other, IsEntry entry other ∧ P other) ↔ P id := by
  constructor
  · rintro ⟨other, hother, hP⟩
    exact hother.named.unique h.named ▸ hP
  · exact fun hP => ⟨id, h, hP⟩

/-- Of sound entries the first repeated id is at fault, which is the one that `repeatedId?`
finds. -/
theorem entriesFault_iff_repeated {ids : List String} (h : List.Forall₂ IsEntry entries ids) :
    ∀ {index : Nat} {seen : List String} {xs : List OptionsEntry}, xs.map (·.id) = ids →
      (EntriesFault index seen entries e ↔
        ∃ id, repeatedId? seen xs = some id ∧ e = .duplicateOptionsId id) := by
  induction h with
  | nil =>
    intro index seen xs hxs
    rw [List.map_eq_nil_iff.mp hxs]
    simp [not_entriesFault_nil, repeatedId?]
  | @cons entry id rest ids hentry hrest ih =>
    intro index seen xs hxs
    obtain ⟨x, rest', rfl, rfl, hrest'⟩ := List.map_eq_cons_iff.mp hxs
    rw [entriesFault_cons_iff, hentry.fault_iff, hentry.exists_iff, ih hrest', repeatedId?]
    by_cases hseen : x.id ∈ seen
    · simp [hseen]
    · simp [hseen]

theorem outcome_read_arr (entries : List Json) (ds : List Diagnostic) :
    outcome (read (.arr entries)) ds =
      outcome (readEntries 0 [] entries) ds >>= fun xs => pure (.byId xs) := by
  unfold read outcome
  rw [EStateM.run_bind]
  cases (readEntries 0 [] entries).run ds <;> rfl

/-- **Lists of options.** A list is read if and only if each entry is sound by itself and no id
stands twice; the result has the entries in order, and is accepted where it is used. Otherwise the
error is that of the first entry that is faulty by itself or repeats an id, where the id goes before
the options of the entry; and if all entries are sound by themselves, it is the error with which the
list would be refused where it is used. -/
theorem read_list (entries : List Json) (ds : List Diagnostic) :
    ((∃ given, outcome (read (.arr entries)) ds = .ok given) ↔
        ∃ ids, List.Forall₂ IsEntry entries ids ∧ ids.Nodup) ∧
      (∀ given, outcome (read (.arr entries)) ds = .ok given →
        ∃ xs, given = .byId xs ∧ List.Forall₂ Denotes entries xs ∧ validateIds xs = .ok ()) ∧
      (∀ e, outcome (read (.arr entries)) ds = .error e ↔
        ∃ pre entry post ids, entries = pre ++ entry :: post ∧ List.Forall₂ IsEntry pre ids ∧
          ids.Nodup ∧ EntryFault pre.length ids entry e) ∧
      ∀ ids xs e, List.Forall₂ IsEntry entries ids → xs.map (·.id) = ids →
        (outcome (read (.arr entries)) ds = .error e ↔
          ∃ id, e = .duplicateOptionsId id ∧ validateIds xs = .error (.duplicateOptionsId id)) := by
  have herror : ∀ e, outcome (read (.arr entries)) ds = .error e ↔ EntriesFault 0 [] entries e := by
    intro e
    rw [outcome_read_arr, bind_pure_eq_error_iff, readEntries_error_iff]
  have hsound : ∀ given, outcome (read (.arr entries)) ds = .ok given → ∃ xs, given = .byId xs ∧
      List.Forall₂ Denotes entries xs ∧ (xs.map (·.id)).Nodup := by
    intro given hgiven
    rw [outcome_read_arr] at hgiven
    obtain ⟨xs, hxs, hgiven⟩ := exists_of_bind_eq_ok hgiven
    obtain ⟨hdenotes, hfresh⟩ := readEntries_ok hxs
    exact ⟨xs, (Except.ok.inj hgiven).symm, hdenotes, fresh_nil_left_iff.mp hfresh⟩
  have hrepeated : ∀ {ids xs e}, List.Forall₂ IsEntry entries ids → xs.map (·.id) = ids →
      (outcome (read (.arr entries)) ds = .error e ↔
        ∃ id, repeatedId? [] xs = some id ∧ e = .duplicateOptionsId id) := by
    intro ids xs e hids hxs
    rw [herror, entriesFault_iff_repeated hids hxs]
  refine ⟨⟨?_, ?_⟩, ?_, ?_, ?_⟩
  · rintro ⟨given, hgiven⟩
    obtain ⟨xs, -, hdenotes, hnodup⟩ := hsound given hgiven
    have hentries : List.Forall₂ IsEntry entries (xs.map (·.id)) :=
      List.forall₂_map_right_iff.mpr (hdenotes.imp fun _ _ h => h.isEntry)
    exact ⟨xs.map (·.id), hentries, hnodup⟩
  · rintro ⟨ids, hids, hnodup⟩
    cases hread : outcome (read (.arr entries)) ds with
    | ok given => exact ⟨given, rfl⟩
    | error e =>
      -- sound entries are refused for their ids only, so records without options do
      have hxs : (ids.map fun id => OptionsEntry.mk id {}).map (·.id) = ids :=
        List.map_map.trans (List.map_id ids)
      obtain ⟨id, hid, -⟩ := (hrepeated hids hxs).mp hread
      have hnone := repeatedId?_eq_none_iff.mpr (hxs ▸ fresh_nil_left_iff.mpr hnodup)
      rw [hnone] at hid
      exact nomatch hid
  · intro given hgiven
    obtain ⟨xs, rfl, hdenotes, hnodup⟩ := hsound given hgiven
    exact ⟨xs, rfl, hdenotes, validateIds_ok_iff.mpr hnodup⟩
  · intro e
    rw [herror]
    simp only [EntriesFault, fresh_nil_left_iff, Nat.zero_add, List.append_nil]
  · intro ids xs e hids hxs
    rw [hrepeated hids hxs]
    simp only [validateIds_error_iff, and_comm]

/-- The second entry repeats an id, and that its options are no object goes unnoticed. -/
example : outcome (read (.arr [.obj [("id", .str "a")],
    .obj [("id", .str "a"), ("options", .bool true)]])) [] = .error (.duplicateOptionsId "a") := by
  rfl

end Inlay.Options
