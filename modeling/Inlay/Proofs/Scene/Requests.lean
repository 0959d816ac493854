import Inlay.Scene.Basic
import Mathlib.Data.List.Basic

/-!
# The requests of one instance

A host keeps the requests of all instances. `Host.requestsOf` is the part of one instance, with ids
and in the order in which the requests were started: it only grows at its end, and each request in
it only changes its phase.
-/

namespace Inlay

namespace Host

variable {h : Host}

/-- The requests that an instance has started so far, with their ids. -/
def requestsOf (h : Host) (owner : Nat) : List (TaskId × Task) :=
  (h.tasks.zipIdx.filter fun x => x.1.owner = owner).map fun x => (⟨x.2⟩, x.1)

/-- A request belongs to an instance if `owner` says so. -/
theorem mem_requestsOf {owner : Nat} {x : TaskId × Task} :
    x ∈ h.requestsOf owner ↔ h.task? x.1 = some x.2 ∧ x.2.owner = owner := by
  obtain ⟨⟨number⟩, t⟩ := x
  rw [requestsOf, List.mem_map]
  constructor
  · rintro ⟨⟨t', number'⟩, hmem, he⟩
    obtain ⟨he₁, rfl⟩ := Prod.mk.inj he
    obtain rfl := TaskId.mk.inj he₁
    rw [List.mem_filter, List.mem_zipIdx_iff_getElem?] at hmem
    exact ⟨hmem.1, of_decide_eq_true hmem.2⟩
  · rintro ⟨htask, howner⟩
    refine ⟨(t, number), List.mem_filter.mpr ⟨?_, decide_eq_true howner⟩, rfl⟩
    rw [List.mem_zipIdx_iff_getElem?]
    exact htask

theorem requestsOf_of_tasks {h' : Host} (hsame : h'.tasks = h.tasks) (owner : Nat) :
    h'.requestsOf owner = h.requestsOf owner := by
  rw [requestsOf, hsame, ← requestsOf]

/-- A request that is put into the queue is the last one of `t.owner`. -/
theorem requestsOf_enqueue (h : Host) (t : Task) (owner : Nat) :
    (h.enqueue t).2.requestsOf owner =
      h.requestsOf owner ++ if t.owner = owner then [((h.enqueue t).1, t)] else [] := by
  rw [requestsOf, enqueue, List.zipIdx_append, List.filter_append, List.map_append, requestsOf]
  by_cases ho : t.owner = owner
  · simp [ho]
  · simp [ho]

theorem zipIdx_modify {α : Type} (f : α → α) (l : List α) (n : Nat) :
    (l.modify n f).zipIdx = l.zipIdx.map fun x => if x.2 = n then (f x.1, x.2) else x := by
  refine List.ext_getElem? fun i => ?_
  rw [List.getElem?_zipIdx, List.getElem?_modify, List.getElem?_map, List.getElem?_zipIdx]
  cases l[i]? with
  | none => rfl
  | some x =>
    by_cases hi : i = n
    · simp [hi]
    · simp [hi, Ne.symm hi]

/-- In `requestsOf` a new phase is the only change. -/
theorem requestsOf_setPhase (h : Host) (id : TaskId) (phase : Phase) (owner : Nat) :
    (h.setPhase id phase).requestsOf owner = (h.requestsOf owner).map fun x =>
      if x.1 = id then (x.1, { x.2 with phase }) else x := by
  obtain ⟨number⟩ := id
  rw [requestsOf, setPhase, zipIdx_modify, requestsOf, List.filter_map, List.map_map, List.map_map]
  have hfilter : ((fun x : Task × Nat => decide (x.1.owner = owner)) ∘ fun x : Task × Nat =>
      if x.2 = number then ({ x.1 with phase }, x.2) else x)
      = fun x => decide (x.1.owner = owner) := by
    funext x
    by_cases hx : x.2 = number
    · simp [hx]
    · simp [hx]
  rw [hfilter]
  refine List.map_congr_left fun x _ => ?_
  by_cases hx : x.2 = number
  · simp [hx]
  · simp [hx]

end Host

end Inlay
