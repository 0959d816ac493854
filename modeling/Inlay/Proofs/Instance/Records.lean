import Inlay.Scene.Basic
import Mathlib.Data.List.Basic

/-!
# What an instance keeps by position

Lemmas on the lists that an instance keeps about its placeholders: records of requests, regions, and
standbys. Each of them says what is found at any position after one of them has changed.
-/

namespace Inlay.Instance

variable {i : Instance}

/-! ### Regions -/

theorem lookup_cons_of_ne {α : Type} {p q : Position} (h : q ≠ p) (x : α)
    (l : List (Position × α)) : List.lookup q ((p, x) :: l) = l.lookup q := by
  rw [List.lookup_cons, beq_false_of_ne h]

/-- What was assigned at `p` is found there, and at the other positions what was there before. -/
theorem lookup_assign {α : Type} (p q : Position) (x : α) : ∀ l : List (Position × α),
    (assign p x l).lookup q = if q = p then some x else l.lookup q
  | [] => by
    rw [assign]
    by_cases hq : q = p
    · rw [if_pos hq, hq, List.lookup_cons_self]
    · rw [if_neg hq, lookup_cons_of_ne hq]
  | (r, y) :: l => by
    rw [assign]
    by_cases hr : r = p
    · subst hr
      rw [if_pos rfl]
      by_cases hq : q = r
      · rw [if_pos hq, hq, List.lookup_cons_self]
      · rw [if_neg hq, lookup_cons_of_ne hq, lookup_cons_of_ne hq]
    · rw [if_neg hr]
      by_cases hq : q = r
      · rw [hq, if_neg hr, List.lookup_cons_self, List.lookup_cons_self]
      · rw [lookup_cons_of_ne hq, lookup_cons_of_ne hq, lookup_assign p q x l]

theorem region?_setRegion (i : Instance) (p q : Position) (r : Region) :
    (i.setRegion p r).region? q = if q = p then some r else i.region? q :=
  lookup_assign p q r i.regions

theorem region?_setRegion_of_ne (i : Instance) {p q : Position} (hq : q ≠ p) (r : Region) :
    (i.setRegion p r).region? q = i.region? q := by
  rw [region?_setRegion, if_neg hq]

/-! ### Records -/

/-- A record is changed by `f` at its position `p`, and no other one is. -/
theorem record?_updateRecord {f : RequestRecord → RequestRecord}
    (hf : ∀ r, (f r).position = r.position) (i : Instance) (p q : Position) :
    (i.updateRecord p f).record? q = (i.record? q).map fun r => if q = p then f r else r := by
  have hsame : ((fun r : RequestRecord => r.position == q) ∘
      fun r => if r.position = p then f r else r) = fun r => r.position == q := by
    funext r
    by_cases hr : r.position = p
    · simp [hr, hf]
    · simp [hr]
  rw [record?, updateRecord, List.find?_map, hsame, ← record?]
  cases hfound : i.record? q with
  | none => rfl
  | some r =>
    have hpos : r.position = q := by
      have hr := List.find?_some hfound
      simpa using hr
    rw [Option.map_some, Option.map_some, hpos]

/-- What is known about the request of a placeholder: its status and whether it runs. -/
def flight? (i : Instance) (p : Position) : Option (Nat × Bool) :=
  (i.record? p).map fun r => (r.status, r.running)

theorem isRunning_eq (i : Instance) (p : Position) :
    i.isRunning p = ((i.flight? p).map (·.2)).getD false := by
  rw [isRunning, flight?]
  cases i.record? p <;> rfl

theorem statusOf_eq {job : Job} {id : NodeId} (hjob : job.destination = .element id)
    (i : Instance) : i.statusOf job = ((i.flight? job.position).map (·.1)).getD 0 := by
  rw [statusOf, hjob, flight?]
  cases i.record? job.position <;> rfl

theorem flight?_updateRecord {f : RequestRecord → RequestRecord} {g : Nat × Bool → Nat × Bool}
    (hf : ∀ r, (f r).position = r.position)
    (hg : ∀ r, ((f r).status, (f r).running) = g (r.status, r.running)) (i : Instance)
    (p q : Position) : (i.updateRecord p f).flight? q =
      (i.flight? q).map fun x => if q = p then g x else x := by
  rw [flight?, record?_updateRecord hf, flight?, Option.map_map, Option.map_map]
  refine congrArg (Option.map · _) (funext fun r => ?_)
  by_cases hq : q = p
  · simp [hq, hg]
  · simp [hq]

/-- The status at `job.position` is `code`, and whether it runs stays as it was. -/
theorem flight?_setStatus {job : Job} {id : NodeId} (hjob : job.destination = .element id)
    (i : Instance) (code : Nat) (q : Position) : (i.setStatus job code).flight? q =
      (i.flight? q).map fun x => if q = job.position then (code, x.2) else x := by
  unfold setStatus
  rw [hjob]
  exact flight?_updateRecord (by simp) (by simp) i job.position q

/-- Whether the placeholder at `job.position` runs is `flag`, and its status stays. -/
theorem flight?_setRunning {job : Job} {id : NodeId} (hjob : job.destination = .element id)
    (i : Instance) (flag : Bool) (q : Position) : (i.setRunning job flag).flight? q =
      (i.flight? q).map fun x => if q = job.position then (x.1, flag) else x := by
  unfold setRunning
  rw [hjob]
  exact flight?_updateRecord (by simp) (by simp) i job.position q

theorem isSome_of_isRunning {p : Position} (h : i.isRunning p = true) : (i.flight? p).isSome := by
  rw [isRunning_eq] at h
  cases hf : i.flight? p with
  | none => simp [hf] at h
  | some f => rfl

/-- A placeholder with a record runs from then on, or does not; the others are as they were. -/
theorem isRunning_setRunning {job : Job} {id : NodeId} (hjob : job.destination = .element id)
    (i : Instance) (flag : Bool) (q : Position) : (i.setRunning job flag).isRunning q =
      if q = job.position then (i.flight? q).isSome && flag else i.isRunning q := by
  rw [isRunning_eq, flight?_setRunning hjob, isRunning_eq]
  by_cases hq : q = job.position
  · rw [if_pos hq]
    cases i.flight? q with
    | none => rfl
    | some f => simp [hq]
  · rw [if_neg hq]
    cases i.flight? q with
    | none => rfl
    | some f => simp [hq]

/-- With `destination = .whole` no request is recorded as running. -/
theorem setRunning_of_whole {job : Job} (hjob : job.destination = .whole) (i : Instance)
    (flag : Bool) : i.setRunning job flag = i := by
  rw [setRunning, hjob]

theorem flight?_setRunning_of_ne {job : Job} {p : Position} (hp : p ≠ job.position) (i : Instance)
    (flag : Bool) : (i.setRunning job flag).flight? p = i.flight? p := by
  cases hjob : job.destination with
  | whole => rw [setRunning_of_whole hjob]
  | element id =>
    rw [flight?_setRunning hjob]
    cases i.flight? p with
    | none => rfl
    | some f => rw [Option.map_some, if_neg hp]

/-- The nodes that the last success for a placeholder put into the tree. -/
def response? (i : Instance) (p : Position) : Option (List NodeId) :=
  (i.record? p).bind (·.response)

/-- Changes `f` of other parts of a record leave the response alone. -/
theorem response?_updateRecord {f : RequestRecord → RequestRecord}
    (hf : ∀ r, (f r).position = r.position) (hresponse : ∀ r, (f r).response = r.response)
    (i : Instance) (p q : Position) : (i.updateRecord p f).response? q = i.response? q := by
  rw [response?, record?_updateRecord hf, response?]
  cases i.record? q with
  | none => rfl
  | some r =>
    rw [Option.map_some, Option.bind_some, Option.bind_some]
    by_cases hq : q = p
    · rw [if_pos hq, hresponse]
    · rw [if_neg hq]

/-- A response is recorded at `p`, and no other one changes. -/
theorem response?_respond {p : Position} (hrecord : (i.record? p).isSome)
    (response : Option (List NodeId)) (q : Position) :
    (i.updateRecord p ({ · with response })).response? q =
      if q = p then response else i.response? q := by
  rw [response?, record?_updateRecord (by simp)]
  by_cases hq : q = p
  · obtain ⟨record, hrecord⟩ := Option.isSome_iff_exists.mp hrecord
    rw [if_pos hq, hq, hrecord]
    simp
  · rw [if_neg hq, response?]
    simp only [if_neg hq, Option.map_id']

/-! ### Standbys and their subscriptions -/

theorem mem_active_subscribeAll {α : Type} {event : String} {listener : α} :
    ∀ (nodes : List NodeId) (r : Listeners α) {l : Listening α},
    l ∈ (r.subscribeAll event listener nodes).2.active →
    l ∈ r.active ∨
      l.listener = listener ∧ l.subscription ∈ (r.subscribeAll event listener nodes).1
  | [], _, _, h => Or.inl h
  | node :: nodes, r, l, h => by
    rcases mem_active_subscribeAll nodes (r.subscribe node event listener).2 h with h |
      ⟨hlistener, hmem⟩
    · rcases List.mem_append.mp h with h | h
      · exact Or.inl h
      · obtain rfl := List.mem_singleton.mp h
        exact Or.inr ⟨rfl, List.mem_cons_self⟩
    · exact Or.inr ⟨hlistener, List.mem_cons_of_mem _ hmem⟩

/-- After cancellations `ss`, those subscriptions are active that were and are not in `ss`. -/
theorem active_cancelAll {α : Type} : ∀ (ss : List Subscription) (r : Listeners α),
    (r.cancelAll ss).active = r.active.filter (·.subscription ∉ ss)
  | [], r => by
    simp [Listeners.cancelAll]
  | s :: ss, r => by
    have hrest := active_cancelAll ss (r.cancel s).2
    rw [Listeners.cancelAll] at hrest ⊢
    rw [List.foldl_cons, hrest, Listeners.cancel, List.filter_filter]
    refine List.filter_congr fun l _ => ?_
    simp [Bool.and_comm]

theorem next_cancelAll {α : Type} : ∀ (ss : List Subscription) (r : Listeners α),
    (r.cancelAll ss).next = r.next
  | [], _ => rfl
  | s :: ss, r => next_cancelAll ss (r.cancel s).2

/-- A placeholder that listens is on standby at `job.position` with its new subscriptions, and the
others stay. -/
theorem standby?_standBy (i : Instance) (job : Job) (mode : Mode) (event : String)
    (nodes : List NodeId) (q : Position) : (i.standBy job mode event nodes).standby? q =
      (i.standby? q).or (if job.position = q then
        some ⟨job, mode, (i.listeners.subscribeAll event job.position nodes).1⟩ else none) := by
  rw [standby?, standBy, List.find?_append, ← standby?]
  by_cases hq : job.position = q
  · simp [hq]
  · simp [hq]

/-- A placeholder that stops listening stays on standby, with `subscriptions := []`. -/
theorem standby?_standDown (i : Instance) (p q : Position) : (i.standDown p).standby? q =
    (i.standby? q).map fun b => if q = p then { b with subscriptions := [] } else b := by
  have hsame : ((fun b : Standby => b.job.position == q) ∘
      fun b => if b.job.position = p then { b with subscriptions := [] } else b)
      = fun b => b.job.position == q := by
    funext b
    by_cases hb : b.job.position = p
    · simp [hb]
    · simp [hb]
  rw [standby?, standDown, List.find?_map, hsame, ← standby?]
  cases hfound : i.standby? q with
  | none => rfl
  | some b =>
    have hpos : b.job.position = q := by
      have hb := List.find?_some hfound
      simpa using hb
    rw [Option.map_some, Option.map_some, hpos]

/-- What a placeholder cancels when it stops listening are its own subscriptions,
`(i.standby? p).map Standby.subscriptions`. -/
theorem active_standDown (i : Instance) (p : Position) :
    (i.standDown p).listeners.active = i.listeners.active.filter
      (·.subscription ∉ ((i.standby? p).map Standby.subscriptions).getD []) :=
  active_cancelAll _ _

theorem standby?_mem {p : Position} {b : Standby} (h : i.standby? p = some b) :
    b ∈ i.standbys ∧ b.job.position = p :=
  ⟨List.mem_of_find?_eq_some h, by simpa using List.find?_some h⟩

/-- Every subscription that is active belongs to the standby of its placeholder. -/
def Attended (i : Instance) : Prop :=
  ∀ l ∈ i.listeners.active, ∃ b, i.standby? l.listener = some b ∧ l.subscription ∈ b.subscriptions

theorem Attended.congr {j : Instance} (h : i.Attended) (hstandbys : j.standbys = i.standbys)
    (hlisteners : j.listeners = i.listeners) : j.Attended := by
  intro l hl
  rw [hlisteners] at hl
  obtain ⟨b, hb, hsub⟩ := h l hl
  exact ⟨b, by rwa [standby?, hstandbys, ← standby?], hsub⟩

theorem Attended.standBy (h : i.Attended) {job : Job} (hnone : i.standby? job.position = none)
    (mode : Mode) (event : String) (nodes : List NodeId) :
    (i.standBy job mode event nodes).Attended := by
  intro l hl
  rcases mem_active_subscribeAll nodes i.listeners hl with hl | ⟨hlistener, hmem⟩
  · obtain ⟨b, hb, hsub⟩ := h l hl
    exact ⟨b, by rw [standby?_standBy, hb, Option.some_or], hsub⟩
  · refine ⟨⟨job, mode, (i.listeners.subscribeAll event job.position nodes).1⟩, ?_, hmem⟩
    rw [standby?_standBy, hlistener, hnone, if_pos rfl, Option.none_or]

/-- What is active after `p` stopped listening was so before, and is not for `p`. -/
theorem mem_active_standDown (h : i.Attended) {p : Position} {l : Listening Position}
    (hl : l ∈ (i.standDown p).listeners.active) : l ∈ i.listeners.active ∧ l.listener ≠ p := by
  rw [active_standDown, List.mem_filter] at hl
  refine ⟨hl.1, fun he => ?_⟩
  obtain ⟨b, hb, hsub⟩ := h l hl.1
  rw [← he, hb] at hl
  exact absurd hsub (of_decide_eq_true hl.2)

theorem Attended.standDown (h : i.Attended) (p : Position) : (i.standDown p).Attended := by
  intro l hl
  obtain ⟨hl', hne⟩ := mem_active_standDown h hl
  obtain ⟨b, hb, hsub⟩ := h l hl'
  exact ⟨b, by rw [standby?_standDown, hb, Option.map_some, if_neg hne], hsub⟩

end Inlay.Instance
