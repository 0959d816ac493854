import Inlay.Proofs.Outcome
import Inlay.Proofs.Text.Case
import Inlay.Template.Placeholder

/-!
# Attributes of placeholders

What the attributes of an element must be for it to be a placeholder (`Element.Eligible`), and what
is read off them then (`Placeholder.ReadFrom`).

* `ofElement_ok_iff`: validating an element gives just the placeholder that is read off it;
* `eligible_iff`: there is one if the element is eligible, and only then.
-/

namespace Inlay

/-- The keyword of a mode. -/
def Mode.keyword : Mode → String
  | one => "one"
  | all => "all"

/-- The attributes that an element has are those of a placeholder; `single` says that it is the root
of its template. -/
structure Element.Eligible (e : Element) (single : Bool) : Prop where
  source : ∃ s, e.attribute? "src" = some s ∧ s ≠ ""
  method : ∀ s, e.attribute? "method" = some s → ∃ m : Method, Text.eqIgnoreCase s m.text = true
  mode : ∀ s, e.attribute? "mode" = some s → ∃ m : Mode, Text.eqIgnoreCase s m.keyword = true
  /-- There is no trigger, and so no mode, or there is one, which has to be below the root. -/
  trigger : (e.attribute? "after").getD "" = "" ∧ e.attribute? "mode" = none ∨
    single = false ∧ ∃ event source selector,
      e.attribute? "after" = some (event ++ ":" ++ source) ∧ ':' ∉ event.toList ∧ event ≠ "" ∧
        Text.allBlank source = false ∧ Selector.parse source = .ok selector

namespace Placeholder

/-- The trigger is what the value of `after` says. -/
structure Trigger.Spelled (t : Trigger) (value : String) : Prop where
  value_eq : value = t.event ++ ":" ++ t.source
  /-- Further colons belong to the selector. -/
  first : ':' ∉ t.event.toList
  event_ne : t.event ≠ ""
  visible : Text.allBlank t.source = false
  parsed : Selector.parse t.source = .ok t.selector

/-- A value names `x`, in any ASCII case; where there is none, `x` is the default. -/
def Names {α : Type} (text : α → String) (default x : α) : Option String → Prop
  | none => x = default
  | some s => Text.eqIgnoreCase s (text x) = true

/-- The placeholder is what the attributes of the element say. -/
structure ReadFrom (x : Placeholder) (e : Element) (single : Bool) : Prop where
  source : e.attribute? "src" = some x.source ∧ x.source ≠ ""
  method : Names Method.text .get x.method (e.attribute? "method")
  ref : x.ref = e.attribute? "ref"
  mode : Names Mode.keyword .all x.mode (e.attribute? "mode")
  trigger : x.trigger = none ∧ (e.attribute? "after").getD "" = "" ∧ e.attribute? "mode" = none ∨
    single = false ∧ ∃ t value, x.trigger = some t ∧ e.attribute? "after" = some value ∧
      Trigger.Spelled t value

variable {e : Element} {position : Position} {single : Bool}

/-! ### One attribute -/

/-- The address is the value of `src`, which must not be empty. -/
theorem readSource_ok_iff {s : String} :
    readSource e position = .ok s ↔ e.attribute? "src" = some s ∧ s ≠ "" := by
  unfold readSource
  cases e.attribute? "src" with
  | none => simp
  | some s' =>
    by_cases hs : s' = ""
    · subst hs
      simp
    · have hne : s'.isEmpty = false := by simpa using hs
      simp only [hne]
      constructor
      · intro h
        obtain rfl := Except.ok.inj h
        exact ⟨rfl, hs⟩
      · rintro ⟨h, -⟩
        rw [Option.some.inj h]
        rfl

theorem exists_names_iff {α : Type} {text : α → String} (default : α) {value : Option String} :
    (∃ x, Names text default x value) ↔
      ∀ s, value = some s → ∃ x, Text.eqIgnoreCase s (text x) = true := by
  cases value with
  | none => simp [Names]
  | some s => simp [Names]

theorem method_parse?_iff {s : String} {m : Method} :
    Method.parse? s = some m ↔ Text.eqIgnoreCase s m.text = true := by
  rw [Text.eqIgnoreCase_iff_toUpper]
  have hupper : m.text.toUpper = m.text := by cases m <;> decide +kernel
  rw [hupper, Method.parse?]
  constructor
  · intro h
    have htext := List.find?_some h
    exact (beq_iff_eq.mp htext).symm
  · intro h
    rw [h]
    cases m <;> decide

/-- The method is the one that `method` names in any case, or `.get` without one. -/
theorem readMethod_ok_iff {m : Method} :
    readMethod e position = .ok m ↔ Names Method.text .get m (e.attribute? "method") := by
  unfold readMethod
  cases e.attribute? "method" with
  | none => rw [Names, Except.ok.injEq, eq_comm]
  | some s =>
    simp only [Names, ← method_parse?_iff]
    cases hs : Method.parse? s with
    | none => simp
    | some m' => simp

theorem mode_parse?_iff {s : String} {m : Mode} :
    Mode.parse? s = some m ↔ Text.eqIgnoreCase s m.keyword = true := by
  unfold Mode.parse?
  by_cases hone : Text.eqIgnoreCase s "one" = true
  · rw [if_pos hone]
    cases m with
    | one => simpa [Mode.keyword] using hone
    | all =>
      -- no value is both keywords
      have hne : Text.eqIgnoreCase s "all" = false := by
        rw [Text.eqIgnoreCase, beq_iff_eq] at hone
        rw [Text.eqIgnoreCase, hone]
        decide +kernel
      simp [Mode.keyword, hne]
  · rw [if_neg hone]
    cases m with
    | one => simpa [Mode.keyword] using hone
    | all => simp [Mode.keyword]

/-- The mode is the one that `mode` names in any case, or `.all` without one. -/
theorem readMode_ok_iff {m : Mode} :
    readMode e position = .ok m ↔ Names Mode.keyword .all m (e.attribute? "mode") := by
  unfold readMode
  cases e.attribute? "mode" with
  | none => rw [Names, Except.ok.injEq, eq_comm]
  | some s =>
    simp only [Names, ← mode_parse?_iff]
    cases hs : Mode.parse? s with
    | none => simp
    | some m' => simp

/-! ### The trigger -/

/-- The event goes up to the first colon, and the rest is the selector:
`value = event ++ ":" ++ source`, and neither is empty. -/
theorem triggerParts?_eq_some_iff {value event source : String} :
    triggerParts? value = some (event, source) ↔ value = event ++ ":" ++ source ∧
      ':' ∉ event.toList ∧ event ≠ "" ∧ Text.allBlank source = false := by
  unfold triggerParts?
  constructor
  · intro h
    have hsplit := List.takeWhile_append_dropWhile (p := (· ≠ ':')) (l := value.toList)
    split at h
    · exact absurd h (by simp)
    · rename_i c selector hdrop
      simp only at h
      split at h
      · exact absurd h (by simp)
      · rename_i hvalid
        obtain ⟨rfl, rfl⟩ := Prod.mk.inj (Option.some.inj h)
        -- what stops the event is a colon
        obtain rfl : c = ':' := by
          have hhead := List.head?_dropWhile_not (· ≠ ':') value.toList
          rw [hdrop] at hhead
          simpa using hhead
        rw [Bool.or_eq_true, not_or, Bool.not_eq_true, Bool.not_eq_true] at hvalid
        refine ⟨?_, fun hmem => ?_, ?_, ?_⟩
        · rw [hdrop] at hsplit
          rw [← String.toList_inj]
          simpa using hsplit.symm
        · rw [String.toList_ofList] at hmem
          have hne := List.mem_takeWhile_imp hmem
          simp at hne
        · intro hnil
          rw [← String.toList_inj, String.toList_ofList] at hnil
          rw [hnil] at hvalid
          exact absurd hvalid.1 (by simp)
        · rw [Text.allBlank, String.toList_ofList]
          exact hvalid.2
  · rintro ⟨rfl, hcolon, hevent, hsource⟩
    have hlist : (event ++ ":" ++ source).toList = event.toList ++ ':' :: source.toList := by simp
    have hpos : ∀ c ∈ event.toList, decide (c ≠ ':') = true := fun c hc => by
      rw [decide_eq_true_eq]
      rintro rfl
      exact hcolon hc
    rw [hlist, List.takeWhile_append_of_pos hpos, List.dropWhile_append_of_pos hpos,
      List.takeWhile_cons_of_neg (by simp), List.dropWhile_cons_of_neg (by simp), List.append_nil]
    have hne : event.toList.isEmpty = false := by
      rw [List.isEmpty_eq_false_iff, ne_eq, String.toList_eq_nil_iff]
      exact hevent
    rw [Text.allBlank] at hsource
    simp [hne, hsource]

/-- A trigger is read if it is `Spelled`: an event, a colon, and a selector that can be parsed. -/
theorem readTrigger_ok_iff {value : String} {t : Trigger} :
    readTrigger position value = .ok t ↔ Trigger.Spelled t value := by
  unfold readTrigger
  constructor
  · intro h
    split at h
    · exact absurd h (by simp)
    · rename_i event source hparts
      obtain ⟨hvalue, hfirst, hne, hvisible⟩ := triggerParts?_eq_some_iff.mp hparts
      split at h
      · rename_i selector hparsed
        obtain rfl := Except.ok.inj h
        exact ⟨hvalue, hfirst, hne, hvisible, hparsed⟩
      · exact absurd h (by simp)
  · rintro ⟨hvalue, hfirst, hne, hvisible, hparsed⟩
    rw [triggerParts?_eq_some_iff.mpr ⟨hvalue, hfirst, hne, hvisible⟩]
    simp only [hparsed]

/-- The value of `after` counts if it is not empty. -/
theorem triggerValue_eq_some_iff {value : String} :
    triggerValue e = some value ↔ e.attribute? "after" = some value ∧ value ≠ "" := by
  rw [triggerValue, Option.filter_eq_some_iff]
  simp

theorem triggerValue_eq_none_iff :
    triggerValue e = none ↔ (e.attribute? "after").getD "" = "" := by
  rw [triggerValue]
  cases e.attribute? "after" with
  | none => simp
  | some value => simp [Option.filter]

theorem Trigger.Spelled.value_ne {t : Trigger} {value : String} (h : Trigger.Spelled t value) :
    value ≠ "" := by
  intro hnil
  have hlist := h.value_eq
  rw [hnil, ← String.toList_inj] at hlist
  simp at hlist

/-! ### All of them -/

/-- Validating an element gives just the placeholder `x` that is read off it. -/
theorem ofElement_ok_iff {x : Placeholder} :
    ofElement e position single = .ok x ↔ x.position = position ∧ x.ReadFrom e single := by
  unfold ofElement
  constructor
  · intro h
    obtain ⟨source, hsource, h⟩ := exists_of_bind_eq_ok h
    obtain ⟨method, hmethod, h⟩ := exists_of_bind_eq_ok h
    by_cases hsingle : ((triggerValue e).isSome && single) = true
    · simp only [if_pos hsingle] at h
      obtain ⟨_, hthrow, -⟩ := exists_of_bind_eq_ok h
      exact absurd hthrow (by simp [throw, throwThe, MonadExceptOf.throw])
    · -- the root is past, so a trigger is allowed from here on
      simp only [if_neg hsingle] at h
      obtain ⟨mode, hmode, h⟩ := exists_of_bind_eq_ok h
      obtain ⟨trigger, htrigger, h⟩ := exists_of_bind_eq_ok h
      obtain rfl := Except.ok.inj h
      refine ⟨rfl, readSource_ok_iff.mp hsource, readMethod_ok_iff.mp hmethod, rfl,
        readMode_ok_iff.mp hmode, ?_⟩
      cases hvalue : triggerValue e with
      | some value =>
        rw [hvalue] at htrigger hsingle
        simp only at htrigger
        obtain ⟨t, hread, htrigger⟩ := exists_of_bind_eq_ok htrigger
        obtain rfl := Except.ok.inj htrigger
        exact Or.inr ⟨by simpa using hsingle, t, value, rfl, (triggerValue_eq_some_iff.mp hvalue).1,
          readTrigger_ok_iff.mp hread⟩
      | none =>
        rw [hvalue] at htrigger
        simp only at htrigger
        by_cases hattribute : e.hasAttribute "mode" = true
        · rw [if_pos hattribute] at htrigger
          exact absurd htrigger (by simp [throw, throwThe, MonadExceptOf.throw])
        · rw [if_neg hattribute] at htrigger
          obtain rfl := Except.ok.inj htrigger
          rw [Element.hasAttribute, Option.not_isSome_iff_eq_none] at hattribute
          exact Or.inl ⟨rfl, triggerValue_eq_none_iff.mp hvalue, hattribute⟩
  · rintro ⟨rfl, hsource, hmethod, href, hmode, htrigger⟩
    rw [readSource_ok_iff.mpr hsource, readMethod_ok_iff.mpr hmethod, readMode_ok_iff.mpr hmode]
    rcases htrigger with
      ⟨htrigger, hvalue, hattribute⟩ | ⟨hsingle, t, value, htrigger, hvalue, hspelled⟩
    · have hmode' : e.hasAttribute "mode" = false := by
        rw [Element.hasAttribute, hattribute]
        rfl
      rw [triggerValue_eq_none_iff.mpr hvalue, hmode']
      obtain ⟨position, source, method, ref, trigger, mode⟩ := x
      simp only at href htrigger
      rw [href, htrigger]
      rfl
    · rw [triggerValue_eq_some_iff.mpr ⟨hvalue, hspelled.value_ne⟩, hsingle]
      simp only [readTrigger_ok_iff.mpr hspelled]
      obtain ⟨position, source, method, ref, trigger, mode⟩ := x
      simp only at href htrigger
      rw [href, htrigger]
      rfl

end Placeholder

/-- An element can be read as a placeholder if it is `Eligible`, and only then. -/
theorem Element.eligible_iff {e : Element} {single : Bool} (position : Position) :
    e.Eligible single ↔ ∃ x, Placeholder.ofElement e position single = .ok x := by
  simp only [Placeholder.ofElement_ok_iff]
  constructor
  · rintro ⟨⟨source, hsource⟩, hmethod, hmode, htrigger⟩
    obtain ⟨method, hmethod'⟩ := (Placeholder.exists_names_iff Method.get).mpr hmethod
    obtain ⟨mode, hmode'⟩ := (Placeholder.exists_names_iff Mode.all).mpr hmode
    rcases htrigger with
      hnone | ⟨hsingle, event, selector, parsed, hvalue, hfirst, hne, hvisible, hparsed⟩
    · exact ⟨⟨position, source, method, e.attribute? "ref", none, mode⟩, rfl, hsource,
        hmethod', rfl, hmode', Or.inl ⟨rfl, hnone⟩⟩
    · exact ⟨⟨position, source, method, e.attribute? "ref", some ⟨event, parsed, selector⟩, mode⟩,
        rfl, hsource, hmethod', rfl, hmode',
        Or.inr ⟨hsingle, _, _, rfl, hvalue, rfl, hfirst, hne, hvisible, hparsed⟩⟩
  · rintro ⟨x, -, hsource, hmethod, -, hmode, htrigger⟩
    constructor
    case source => exact ⟨x.source, hsource⟩
    case method => exact (Placeholder.exists_names_iff _).mp ⟨x.method, hmethod⟩
    case mode => exact (Placeholder.exists_names_iff _).mp ⟨x.mode, hmode⟩
    case trigger =>
      rcases htrigger with ⟨-, hnone⟩ | ⟨hsingle, t, value, -, hvalue, hspelled⟩
      · exact Or.inl hnone
      · obtain ⟨rfl, hfirst, hne, hvisible, hparsed⟩ := hspelled
        exact Or.inr ⟨hsingle, t.event, t.source, t.selector, hvalue, hfirst, hne, hvisible,
          hparsed⟩

end Inlay
