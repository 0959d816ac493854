import Inlay.Proofs.Scene.Flow

/-!
# Turns of requests

What turns of requests do to `Flow`. A turn ends a request or has it wait, and observers may be told
something on the way (`flow_turn`). Requests that have ended stay, so none is forgotten.
-/

namespace Inlay.Scene

variable {σ : Type} {t : Template} {home : Position → Destination} {s s' : Scene σ}
  {observe : Observer σ}

/-! ### Phases -/

/-- A request with another phase. -/
def withPhase (id : TaskId) (phase : Phase) (r : TaskId × Task) : TaskId × Task :=
  if r.1 = id then (r.1, { r.2 with phase }) else r

theorem withPhase_job (id : TaskId) (phase : Phase) (r : TaskId × Task) :
    (withPhase id phase r).2.job = r.2.job := by
  unfold withPhase
  split <;> rfl

/-- A new phase of one request changes nothing else in `requests`. -/
theorem requests_setPhase (s : Scene σ) (id : TaskId) (phase : Phase) :
    (s.mapHost (·.setPhase id phase)).requests = s.requests.map (withPhase id phase) :=
  Host.requestsOf_setPhase s.host id phase s.inst.id

theorem requestsAt_setPhase (s : Scene σ) (id : TaskId) (phase : Phase) (p : Position) :
    (s.mapHost (·.setPhase id phase)).requestsAt p = (s.requestsAt p).map (withPhase id phase) := by
  have hsame : (fun r : TaskId × Task => decide (r.2.job.position = p)) ∘ withPhase id phase
      = fun r => decide (r.2.job.position = p) := by
    funext r
    rw [Function.comp, withPhase_job]
  rw [requestsAt, requests_setPhase, List.filter_map, hsame, requestsAt]

theorem requests_finish (s : Scene σ) (id : TaskId) (job : Job)
    (result : Except RequestError Unit) :
    (s.finish id job result).requests = s.requests.map (withPhase id (.ended result)) := by
  have hmark := (sameBooks_setRunning s job false).requests_eq
  exact (requests_setPhase _ id (.ended result)).trans (by rw [hmark])

/-- When a request ends, only its phase in `requestsAt p` changes. -/
theorem requestsAt_finish (s : Scene σ) (id : TaskId) (job : Job)
    (result : Except RequestError Unit) (p : Position) : (s.finish id job result).requestsAt p
      = (s.requestsAt p).map (withPhase id (.ended result)) :=
  (requestsAt_setPhase _ id (.ended result) p).trans
    (by rw [(sameBooks_setRunning s job false).requestsAt_eq])

/-- The requests of a placeholder that have not ended. -/
def unfinished (s : Scene σ) (p : Position) : List (TaskId × Task) :=
  (s.requestsAt p).filter fun r => !r.2.isEnded

/-- Requests are told apart by their ids: `task' = task`. -/
theorem eq_of_mem_requests {id : TaskId} {task task' : Task} (h : (id, task) ∈ s.requests)
    (h' : (id, task') ∈ s.requests) : task' = task :=
  Option.some.inj ((Host.mem_requestsOf.mp h').1.symm.trans (Host.mem_requestsOf.mp h).1)

theorem mem_unfinished {id : TaskId} {task : Task} (h : (id, task) ∈ s.requests)
    (hunended : task.isEnded = false) : (id, task) ∈ s.unfinished task.job.position :=
  List.mem_filter.mpr ⟨List.mem_filter.mpr ⟨h, decide_eq_true rfl⟩, by rw [hunended]; rfl⟩

theorem eq_of_length_le_one {α : Type} {l : List α} (h : l.length ≤ 1) {a b : α} (ha : a ∈ l)
    (hb : b ∈ l) : a = b := by
  match l, h with
  | [c], _ => rw [List.mem_singleton.mp ha, List.mem_singleton.mp hb]

/-- When the only request at `p` that has not ended ends, `unfinished p = []`. -/
theorem unfinished_finish {id : TaskId} {p : Position} (h : ∀ r ∈ s.unfinished p, r.1 = id)
    (job : Job) (result : Except RequestError Unit) :
    (s.finish id job result).unfinished p = [] := by
  rw [unfinished, requestsAt_finish, List.filter_eq_nil_iff]
  intro r hr
  obtain ⟨r', hr', rfl⟩ := List.mem_map.mp hr
  rw [withPhase]
  split
  · simp [Task.isEnded, Task.result?]
  · rename_i hne
    intro hunended
    exact hne (h r' (List.mem_filter.mpr ⟨hr', hunended⟩))

/-- A request that waits is still among `unfinished p`, in its new phase. -/
theorem unfinished_wait {id : TaskId} {task : Task} (hmem : (id, task) ∈ s.requests)
    (hunended : task.isEnded = false) (due : Nat) (r : Response) (p : Position) :
    (s.mapHost (·.setPhase id (.waiting due r))).unfinished p
      = (s.unfinished p).map (withPhase id (.waiting due r)) := by
  rw [unfinished, requestsAt_setPhase, List.filter_map, unfinished]
  refine congrArg _ (List.filter_congr ?_)
  rintro ⟨id', task'⟩ hr
  rw [Function.comp, withPhase]
  split
  · rename_i he
    obtain rfl : id' = id := he
    rw [eq_of_mem_requests hmem (List.mem_of_mem_filter hr), hunended]
    rfl
  · rfl

theorem settled_setPhase (s : Scene σ) (id : TaskId) (phase : Phase) (p : Position) :
    (s.mapHost (·.setPhase id phase)).Settled p ↔ s.Settled p := by
  rw [Settled, requestsAt_setPhase, ne_eq, List.map_eq_nil_iff]
  rfl

theorem flow_setPhase (h : Flow t home s) (id : TaskId) (phase : Phase) :
    Flow t home (s.mapHost (·.setPhase id phase)) where
  jobs r hr := by
    rw [requests_setPhase, List.mem_map] at hr
    obtain ⟨r', hr', rfl⟩ := hr
    rw [withPhase_job]
    exact h.jobs r' hr'
  standbys := h.standbys
  attended := h.attended
  once x hx htracked := by
    rw [requestsAt_setPhase, List.length_map]
    exact h.once x hx htracked
  spent x hx hone hne := by
    rw [requestsAt_setPhase, ne_eq, List.map_eq_nil_iff] at hne
    exact h.spent x hx hone hne
  calm x hx htracked hnone := by
    rw [requestsAt_setPhase, List.map_eq_nil_iff] at hnone
    exact h.calm x hx htracked hnone
  recorded := h.recorded

/-! ### Turns -/

/-- Placeholders that fire once only have not fired or do not listen any more. -/
def AllSettled (t : Template) (s : Scene σ) : Prop :=
  ∀ x ∈ t.placeholders, x.mode = .one → s.Settled x.position

/-- What is settled stays settled in what is `Quiet`. -/
theorem AllSettled.quiet (h : AllSettled t s) (hquiet : Quiet t s s') : AllSettled t s' :=
  fun x hx hone => hquiet.settled x hx hone (h x hx hone)

theorem AllSettled.sameBooks (h : AllSettled t s) (hbooks : SameBooks s s') : AllSettled t s' :=
  fun x hx hone => (hbooks.settled_iff x.position).mpr (h x hx hone)

/-- The end of a request keeps `Flow` if all placeholders that fire once are settled. -/
theorem flow_finish (h : Flow t home s) (hsettled : AllSettled t s) (id : TaskId) (job : Job)
    (result : Except RequestError Unit) :
    Flow t home (s.finish id job result) ∧ AllSettled t (s.finish id job result) := by
  have hbooks := sameBooks_setRunning s job false
  have hrunning : Flow t home (s.mapInst (·.setRunning job false)) := by
    refine hbooks.flow h (fun x hx hone _ => Or.inr (hsettled x hx hone)) (fun x _ _ f' hf' => ?_)
      fun p => isSome_flight?_setRunning s.inst job false p
    change (s.inst.setRunning job false).flight? x.position = some f' at hf'
    cases hjob : job.destination with
    | whole =>
      rw [Instance.setRunning_of_whole hjob] at hf'
      exact Or.inr ⟨f', hf', rfl⟩
    | element e =>
      rw [Instance.flight?_setRunning hjob, Option.map_eq_some_iff] at hf'
      obtain ⟨f, hf, rfl⟩ := hf'
      exact Or.inr ⟨f, hf, by split <;> rfl⟩
  exact ⟨flow_setPhase hrunning id (.ended result), fun x hx hone =>
    (settled_setPhase _ id _ x.position).mpr (hsettled.sameBooks hbooks x hx hone)⟩

theorem sameBooks_of_reworked {j : Instance} (h : Instance.Reworked s.inst j) :
    SameBooks s { s with inst := j } := by
  rw [h.rest]
  exact ⟨rfl, rfl, rfl⟩

theorem flow_of_reworked (hflow : Flow t home s) {j : Instance} (h : Instance.Reworked s.inst j) :
    Flow t home { s with inst := j } :=
  (sameBooks_of_reworked h).flow_of_flight h.flight_eq hflow

theorem requestsAt_ne_nil {r : TaskId × Task} (hr : r ∈ s.requests) :
    s.requestsAt r.2.job.position ≠ [] :=
  List.ne_nil_of_mem (List.mem_filter.mpr ⟨hr, decide_eq_true rfl⟩)

/-- What using a response comes to, the status having been changed before. -/
inductive Received (observe : Observer σ) (id : TaskId) (job : Job) (r : Response) (s : Scene σ) :
    Scene σ → Prop where
  /-- It is no success. -/
  | refused : isSuccess r.status = false →
    Received observe id job r s (s.finish id job (.error (.failed r.status)))
  /-- It cannot be put into the tree. -/
  | failed (cause : InsertError) (j : Instance) : isSuccess r.status = true →
    (Instance.insertResponse job r.body).run s.inst = .error cause j → Instance.Reworked s.inst j →
    Received observe id job r s ({ s with inst := j }.finish id job (.error (.insertion cause)))
  /-- Observers are told when it is in the tree and the request still runs. -/
  | inserted (ns : List Notification) (j : Instance) : isSuccess r.status = true →
    (Instance.insertResponse job r.body).run s.inst = .ok ns j → Instance.Reworked s.inst j →
    Received observe id job r s
      (({ s with inst := j }.notifyAll observe job ns).finish id job (.ok ()))

/-- Using a response comes to one of the ends that `Received` lists. -/
theorem received_receive (observe : Observer σ) (id : TaskId) (job : Job) (r : Response)
    (s : Scene σ) : Received observe id job r (s.changeStatus observe job r.status)
      (s.receive observe id job r) := by
  unfold receive
  simp only
  generalize s.changeStatus observe job r.status = s₁
  cases hsuccess : isSuccess r.status with
  | false =>
    rw [if_neg (by simp)]
    exact .refused hsuccess
  | true =>
    rw [if_pos rfl]
    have hreworked := Instance.confined_insertResponse job r.body s₁.inst
    cases hrun : (Instance.insertResponse job r.body).run s₁.inst with
    | error cause j =>
      rw [stateAfter_of_error hrun] at hreworked
      exact .failed cause j hsuccess hrun hreworked
    | ok ns j =>
      rw [stateAfter_of_ok hrun] at hreworked
      exact .inserted ns j hsuccess hrun hreworked

/-- Using a response keeps `Flow`, and all placeholders that fire once stay settled. -/
theorem flow_receive (hobserve : Tame t home observe) (h : Flow t home s)
    (hsettled : AllSettled t s) {id : TaskId} {task : Task} (hmem : (id, task) ∈ s.requests)
    (r : Response) :
    Flow t home (s.receive observe id task.job r) ∧
      AllSettled t (s.receive observe id task.job r) := by
  obtain ⟨h₁, hquiet₁⟩ :=
    flow_changeStatus hobserve h task.job r.status (Or.inl (requestsAt_ne_nil hmem))
  have hsettled₁ := hsettled.quiet hquiet₁
  have hreceived := received_receive observe id task.job r s
  generalize s.receive observe id task.job r = s' at hreceived ⊢
  generalize s.changeStatus observe task.job r.status = s₁ at hreceived h₁ hsettled₁
  cases hreceived with
  | refused => exact flow_finish h₁ hsettled₁ id task.job _
  | failed cause j _ _ hreworked =>
    have hsettled₂ := hsettled₁.sameBooks (sameBooks_of_reworked hreworked)
    exact flow_finish (flow_of_reworked h₁ hreworked) hsettled₂ id task.job _
  | inserted ns j _ _ hreworked =>
    have hsettled₂ := hsettled₁.sameBooks (sameBooks_of_reworked hreworked)
    obtain ⟨h₃, hquiet₃⟩ := flow_notifyAll hobserve task.job ns (flow_of_reworked h₁ hreworked)
    exact flow_finish h₃ (hsettled₂.quiet hquiet₃) id task.job _

/-- A turn keeps `Flow`, and all placeholders that fire once stay settled. -/
theorem flow_turn (hobserve : Tame t home observe) (h : Flow t home s) (hsettled : AllSettled t s)
    {id : TaskId} {task : Task} (hmem : (id, task) ∈ s.requests) :
    Flow t home (s.turn observe id task) ∧ AllSettled t (s.turn observe id task) := by
  have hturned := turned_turn observe id task s
  have hhost : ∀ {host : Host}, host.tasks = s.host.tasks →
      Flow t home { s with host } ∧ AllSettled t { s with host } := fun hhost =>
    ⟨(flow_of_tasks h hhost).1, hsettled.sameBooks (sameBooks_of_tasks s hhost)⟩
  generalize s.turn observe id task = s' at hturned ⊢
  cases hturned with
  | received host r htasks =>
    obtain ⟨h₁, hsettled₁⟩ := hhost htasks
    refine flow_receive hobserve h₁ hsettled₁ ?_ r
    rwa [(sameBooks_of_tasks s htasks).requests_eq]
  | finished host error htasks =>
    obtain ⟨h₁, hsettled₁⟩ := hhost htasks
    exact flow_finish h₁ hsettled₁ id task.job _
  | asked host due r htasks =>
    obtain ⟨h₁, hsettled₁⟩ := hhost htasks
    exact ⟨flow_setPhase h₁ id _, fun x hx hone =>
      (settled_setPhase _ id _ x.position).mpr (hsettled₁ x hx hone)⟩
  | idle host htasks => exact hhost htasks

/-! ### What a turn does to the tree -/

section Tree

variable {id : TaskId} {task : Task} {r : Response}

theorem sameContents_finish (s : Scene σ) (id : TaskId) (job : Job)
    (result : Except RequestError Unit) : SameContents s.inst (s.finish id job result).inst :=
  sameContents_setRunning s.inst job false

/-- With `isSuccess r.status = false` the tree is as before. -/
theorem sameContents_receive (hobserve : Tame t home observe) (h : Flow t home s)
    (hmem : (id, task) ∈ s.requests) (hfailure : isSuccess r.status = false) :
    SameContents s.inst (s.receive observe id task.job r).inst := by
  obtain ⟨-, hquiet⟩ :=
    flow_changeStatus hobserve h task.job r.status (Or.inl (requestsAt_ne_nil hmem))
  have hreceived := received_receive observe id task.job r s
  generalize s.receive observe id task.job r = s' at hreceived ⊢
  cases hreceived with
  | refused => exact hquiet.tree.trans (sameContents_finish _ id task.job _)
  | failed _ _ hsuccess =>
    rw [hfailure] at hsuccess
    exact absurd hsuccess (by simp)
  | inserted _ _ hsuccess =>
    rw [hfailure] at hsuccess
    exact absurd hsuccess (by simp)

/-- With `isSuccess r.status` the body of `r` is put into the tree, which is otherwise as before. -/
theorem exists_insertResponse_receive (hobserve : Tame t home observe) (h : Flow t home s)
    (hmem : (id, task) ∈ s.requests) (hsuccess : isSuccess r.status = true) :
    ∃ i, SameContents s.inst i ∧
      SameContents (stateAfter (Instance.insertResponse task.job r.body) i)
        (s.receive observe id task.job r).inst := by
  obtain ⟨h₁, hquiet₁⟩ :=
    flow_changeStatus hobserve h task.job r.status (Or.inl (requestsAt_ne_nil hmem))
  refine ⟨(s.changeStatus observe task.job r.status).inst, hquiet₁.tree, ?_⟩
  have hreceived := received_receive observe id task.job r s
  generalize s.receive observe id task.job r = s' at hreceived ⊢
  generalize s.changeStatus observe task.job r.status = s₁ at hreceived h₁
  cases hreceived with
  | refused hfailure =>
    rw [hsuccess] at hfailure
    exact absurd hfailure (by simp)
  | failed cause j _ hrun =>
    rw [stateAfter_of_error hrun]
    exact sameContents_finish { s₁ with inst := j } id task.job _
  | inserted ns j _ hrun hreworked =>
    rw [stateAfter_of_ok hrun]
    obtain ⟨-, hquiet₂⟩ := flow_notifyAll hobserve task.job ns (flow_of_reworked h₁ hreworked)
    exact hquiet₂.tree.trans (sameContents_finish _ id task.job _)

/-- A turn without an answer that is a success has `SameContents`. -/
theorem sameContents_turn (hobserve : Tame t home observe) (h : Flow t home s)
    (hmem : (id, task) ∈ s.requests)
    (hfailed : ∀ r, s.answer? task = some r → isSuccess r.status = false) :
    SameContents s.inst (s.turn observe id task).inst := by
  have hturned := turned_turn observe id task s
  generalize s.turn observe id task = s' at hturned ⊢
  cases hturned with
  | received host r htasks _ hanswer =>
    refine sameContents_receive (s := { s with host }) hobserve (flow_of_tasks h htasks).1 ?_
      (hfailed r hanswer)
    rwa [(sameBooks_of_tasks s htasks).requests_eq]
  | finished host error => exact sameContents_finish { s with host } id task.job _
  | asked => exact SameContents.refl s.inst
  | idle => exact SameContents.refl s.inst

/-- A turn that uses a success `r` puts the body of `r` into the tree. -/
theorem exists_insertResponse_turn (hobserve : Tame t home observe) (h : Flow t home s)
    (hmem : (id, task) ∈ s.requests) (hanswer : s.answer? task = some r)
    (hsuccess : isSuccess r.status = true) :
    ∃ i, SameContents s.inst i ∧
      SameContents (stateAfter (Instance.insertResponse task.job r.body) i)
        (s.turn observe id task).inst := by
  have hturned := turned_turn observe id task s
  generalize s.turn observe id task = s' at hturned ⊢
  cases hturned with
  | received host r' htasks _ hanswer' =>
    obtain rfl : r' = r := Option.some.inj (hanswer'.symm.trans hanswer)
    refine exists_insertResponse_receive (s := { s with host })
      hobserve (flow_of_tasks h htasks).1 ?_
      hsuccess
    rwa [(sameBooks_of_tasks s htasks).requests_eq]
  | finished host error _ _ hnone => exact absurd (hnone.symm.trans hanswer) (by simp)
  | asked host due r' _ _ hnone => exact absurd (hnone.symm.trans hanswer) (by simp)
  | idle host _ hnone => exact absurd (hnone.symm.trans hanswer) (by simp)

/-- A turn puts a success `r` into the tree, and otherwise has `SameContents`. -/
theorem tree_turn (hobserve : Tame t home observe) (h : Flow t home s)
    (hmem : (id, task) ∈ s.requests) :
    SameContents s.inst (s.turn observe id task).inst ∨
    ∃ r i, s.answer? task = some r ∧ isSuccess r.status = true ∧ SameContents s.inst i ∧
      SameContents (stateAfter (Instance.insertResponse task.job r.body) i)
        (s.turn observe id task).inst := by
  by_cases hanswer : ∃ r, s.answer? task = some r ∧ isSuccess r.status = true
  · obtain ⟨r, hr, hsuccess⟩ := hanswer
    obtain ⟨i, hbefore, hafter⟩ := exists_insertResponse_turn hobserve h hmem hr hsuccess
    exact Or.inr ⟨r, i, hr, hsuccess, hbefore, hafter⟩
  · refine Or.inl (sameContents_turn hobserve h hmem fun r hr => ?_)
    rw [Bool.eq_false_iff]
    exact fun hsuccess => hanswer ⟨r, hr, hsuccess⟩

theorem id_turn (hobserve : Tame t home observe) (h : Flow t home s)
    (hmem : (id, task) ∈ s.requests) : (s.turn observe id task).inst.id = s.inst.id := by
  rcases tree_turn hobserve h hmem with hsame | ⟨r, i, -, -, hbefore, hafter⟩
  · exact hsame.id_eq
  · rw [hafter.id_eq, (Instance.confined_insertResponse task.job r.body i).rest]
    exact hbefore.id_eq

/-- Slots are only added: `s.inst.arena.slots.size` does not become less. -/
theorem size_le_turn (hobserve : Tame t home observe) (h : Flow t home s)
    (hmem : (id, task) ∈ s.requests) :
    s.inst.arena.slots.size ≤ (s.turn observe id task).inst.arena.slots.size := by
  rcases tree_turn hobserve h hmem with hsame | ⟨r, i, -, -, hbefore, hafter⟩
  · rw [hsame.arena_eq]
  · rw [hafter.arena_eq, ← hbefore.arena_eq]
    exact (Instance.confined_insertResponse task.job r.body i).size_le

end Tree

end Inlay.Scene
