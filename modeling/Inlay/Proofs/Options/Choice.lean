import Inlay.Proofs.Options.Entries
import Mathlib.Data.List.Nodup

/-!
# Choosing a record from a list

In a list that is accepted every id stands once, so the search for the record of a placeholder finds
it wherever it stands (`find?_id_eq_some_iff`), and nothing but this record is looked at. `Applies`
says which record that is without a search; two accepted lists of which the same records apply to a
placeholder give it the same options or the same error (`resolve_eq_of_applies`), and a list in
another order is such a list (`resolve_of_perm`).
-/

namespace Inlay.Options

variable {xs ys : List OptionsEntry} {x : OptionsEntry} {p : Placeholder} {id : String}
  {o : RequestOptions} {e : TemplateError} {single : Bool}

/-- The record that a list has for a placeholder with that `ref`. -/
inductive Applies (xs : List OptionsEntry) : Option String → RequestOptions → Prop where
  | default : Applies xs none {}
  | entry {id : String} {o : RequestOptions} (h : ⟨id, o⟩ ∈ xs) : Applies xs (some id) o

/-- A list is accepted for templates with several placeholders, `single = false`, if no id stands
twice in it. -/
theorem validate_byId_ok_iff :
    validate single (.byId xs) = .ok () ↔ single = false ∧ (xs.map (·.id)).Nodup := by
  rw [validate, ← validateIds_ok_iff]
  cases single <;> simp

/-! ### The search -/

/-- With no id twice, the record that is found for `id` is the one that has it. -/
theorem find?_id_eq_some_iff (hnodup : (xs.map (·.id)).Nodup) :
    xs.find? (·.id == id) = some x ↔ x ∈ xs ∧ x.id = id := by
  constructor
  · intro h
    exact ⟨List.mem_of_find?_eq_some h, by simpa using List.find?_some h⟩
  · rintro ⟨hx, hid⟩
    cases hfound : xs.find? (·.id == id) with
    | none => exact absurd hid (by simpa using List.find?_eq_none.mp hfound x hx)
    | some y =>
      -- whatever else is found first has the same id
      have hy : y.id = id := by simpa using List.find?_some hfound
      have heq : y = x := List.inj_on_of_nodup_map hnodup (List.mem_of_find?_eq_some hfound) hx
        (hy.trans hid.symm)
      rw [heq]

/-- The options that are chosen are those of the record that applies, to a `ref` or to none. -/
theorem choose_ok_iff (hnodup : (xs.map (·.id)).Nodup) :
    choose (.byId xs) p = .ok o ↔ Applies xs p.ref o := by
  cases href : p.ref with
  | none =>
    simp only [choose, href, Except.ok.injEq]
    exact ⟨fun h => h ▸ .default, fun | .default => rfl⟩
  | some id =>
    have hsearch : choose (.byId xs) p = .ok o ↔
        ∃ x, xs.find? (·.id == id) = some x ∧ x.options = o := by
      simp only [choose, href]
      cases xs.find? (·.id == id) <;> simp
    rw [hsearch]
    constructor
    · rintro ⟨x, hx, rfl⟩
      obtain ⟨hmem, rfl⟩ := (find?_id_eq_some_iff hnodup).mp hx
      exact .entry hmem
    · rintro (_ | hmem)
      exact ⟨_, (find?_id_eq_some_iff hnodup).mpr ⟨hmem, rfl⟩, rfl⟩

/-- Only an id that no record has leaves a placeholder without options, and the error is
`.unknownOptionsId p.position id`. -/
theorem choose_error_iff :
    choose (.byId xs) p = .error e ↔
      ∃ id, p.ref = some id ∧ (∀ o, ⟨id, o⟩ ∉ xs) ∧ e = .unknownOptionsId p.position id := by
  cases href : p.ref with
  | none => simp [choose, href]
  | some id =>
    have hnone : xs.find? (·.id == id) = none ↔ ∀ o, ⟨id, o⟩ ∉ xs := by
      rw [List.find?_eq_none]
      constructor
      · exact fun h o hmem => h _ hmem (beq_self_eq_true id)
      · rintro h ⟨other, o⟩ hmem hid
        obtain rfl : other = id := by simpa using hid
        exact h o hmem
    simp only [choose, href, Option.some.injEq, exists_eq_left', ← hnone]
    cases xs.find? (·.id == id) <;> simp [eq_comm]

/-! ### Two lists -/

/-- The options of a placeholder depend on nothing but the record that `Applies` to it: two lists
`xs` and `ys` with the same one give the same. -/
theorem resolve_eq_of_applies (hxs : (xs.map (·.id)).Nodup) (hys : (ys.map (·.id)).Nodup)
    (h : ∀ o, Applies ys p.ref o ↔ Applies xs p.ref o) :
    resolve (.byId ys) p = resolve (.byId xs) p := by
  have hchoose : choose (.byId ys) p = choose (.byId xs) p := by
    cases hx : choose (.byId xs) p with
    | ok o => exact (choose_ok_iff hys).mpr ((h o).mpr ((choose_ok_iff hxs).mp hx))
    | error e =>
      obtain ⟨id, href, hnone, rfl⟩ := choose_error_iff.mp hx
      refine choose_error_iff.mpr ⟨id, href, fun o hmem => ?_, rfl⟩
      have happlies : Applies xs p.ref o := (h o).mp (href ▸ .entry hmem)
      rw [href] at happlies
      cases happlies with
      | entry hmem => exact hnone o hmem
  rw [resolve, resolve, hchoose]

/-- Options are resolved to the record that `Applies`, if its headers pass. -/
theorem resolve_ok_iff (hnodup : (xs.map (·.id)).Nodup) :
    resolve (.byId xs) p = .ok o ↔ Applies xs p.ref o ∧ validateHeaders o.headers = .ok () := by
  rw [← choose_ok_iff hnodup]
  unfold resolve
  constructor
  · intro h
    obtain ⟨chosen, hchosen, h⟩ := exists_of_bind_eq_ok h
    obtain ⟨⟨⟩, hvalid, h⟩ := exists_of_bind_eq_ok h
    obtain rfl := Except.ok.inj h
    exact ⟨hchosen, hvalid⟩
  · rintro ⟨hchosen, hvalid⟩
    rw [hchosen]
    simp only [bind, Except.bind, hvalid]
    rfl

/-- They are refused for a header of the record that `Applies`, or because there is none. -/
theorem resolve_error_iff (hnodup : (xs.map (·.id)).Nodup) :
    resolve (.byId xs) p = .error e ↔
      (∃ o, Applies xs p.ref o ∧ validateHeaders o.headers = .error e) ∨
        ∃ id, p.ref = some id ∧ (∀ o, ⟨id, o⟩ ∉ xs) ∧ e = .unknownOptionsId p.position id := by
  rw [← choose_error_iff, or_comm]
  simp only [← choose_ok_iff hnodup]
  unfold resolve
  constructor
  · intro h
    rcases cases_of_bind_eq_error h with h | ⟨o, ho, h⟩
    · exact .inl h
    · exact .inr ⟨o, ho, (bind_pure_eq_error_iff fun _ => o).mp h⟩
  · rintro (h | ⟨o, ho, hheaders⟩)
    · rw [h]
      rfl
    · rw [ho]
      exact (bind_pure_eq_error_iff fun _ => o).mpr hheaders

/-- **The order of a list of options has no effect.** If a list is accepted, so is the list in any
other order, and every placeholder gets the same options or the same error from both. A placeholder
with a `ref` gets the record with that id, if its headers pass; it is refused for a header of that
record or because there is none, so whatever else the list has does not matter. -/
theorem resolve_of_perm (hvalid : validate single (.byId xs) = .ok ()) (hperm : xs.Perm ys) :
    validate single (.byId ys) = .ok () ∧
      (∀ p, resolve (.byId ys) p = resolve (.byId xs) p) ∧
      ∀ p id, p.ref = some id →
        (∀ o, resolve (.byId xs) p = .ok o ↔ ⟨id, o⟩ ∈ xs ∧ validateHeaders o.headers = .ok ()) ∧
        ∀ e, resolve (.byId xs) p = .error e ↔
          (∃ o, ⟨id, o⟩ ∈ xs ∧ validateHeaders o.headers = .error e) ∨
            (∀ o, ⟨id, o⟩ ∉ xs) ∧ e = .unknownOptionsId p.position id := by
  obtain ⟨hsingle, hxs⟩ := validate_byId_ok_iff.mp hvalid
  have hys : (ys.map (·.id)).Nodup := (hperm.map _).nodup hxs
  have hentry : ∀ {zs id o}, Applies zs (some id) o ↔ ⟨id, o⟩ ∈ zs :=
    ⟨fun | .entry h => h, .entry⟩
  refine ⟨validate_byId_ok_iff.mpr ⟨hsingle, hys⟩, fun p => ?_, fun p id href =>
    ⟨fun o => ?_, fun e => ?_⟩⟩
  · refine resolve_eq_of_applies hxs hys fun o => ?_
    cases p.ref with
    | none => exact ⟨fun | .default => .default, fun | .default => .default⟩
    | some id => rw [hentry, hentry, hperm.mem_iff]
  · rw [resolve_ok_iff hxs, href, hentry]
  · rw [resolve_error_iff hxs, href]
    simp only [hentry, Option.some.injEq, exists_eq_left']

/-- Behind a record with a header that cannot be sent, or before it: the other record is found, and
the header is noticed by those who ask for the record that has it. -/
theorem resolve_beside_bad_header :
    let plain : OptionsEntry := ⟨"b", { body := some "B" }⟩
    let bad : OptionsEntry := ⟨"a", { headers := [("X Token", "1")] }⟩
    let wanting (id : String) : Placeholder := ⟨1, "/x", .get, some id, none, .all⟩
    validate false (.byId [bad, plain]) = .ok () ∧
      resolve (.byId [plain, bad]) (wanting "b") = .ok plain.options ∧
      resolve (.byId [bad, plain]) (wanting "b") = .ok plain.options ∧
      resolve (.byId [bad, plain]) (wanting "a") = .error (.invalidHeaderName "X Token") := by
  intro plain bad wanting
  have haccepted : validate false (.byId [plain, bad]) = .ok () := rfl
  obtain ⟨hvalid, hsame, hchosen⟩ := resolve_of_perm haccepted (.swap bad plain [])
  have hplain := ((hchosen (wanting "b") "b" rfl).1 plain.options).mpr ⟨.head _, rfl⟩
  have hbad := ((hchosen (wanting "a") "a" rfl).2 (.invalidHeaderName "X Token")).mpr
    (.inl ⟨bad.options, .tail _ (.head _), rfl⟩)
  exact ⟨hvalid, hplain, (hsame _).trans hplain, (hsame _).trans hbad⟩

end Inlay.Options
