import Inlay.Proofs.Scene.InFlight
import Inlay.Proofs.Scene.Later
import Inlay.Proofs.Scene.Recorded
import Mathlib.Data.List.Sort

/-!
# Requests that nobody has taken

An instance keeps the latest request of each placeholder until somebody takes it. Nothing that still
runs gets lost on the way (`Custody`): when a newer request comes in place of an older one the older
one has ended, for otherwise the placeholder would have let the event pass.

`Handled observe t taken s` is a run that leads to `s` with what was taken until then.
-/

namespace Inlay

/-! ### Lists by position -/

namespace Instance

/-- There is at most one request for each position, and positions ascend. -/
def Ascending (l : List (Position × TaskId)) : Prop :=
  l.Pairwise fun a b => a.1 < b.1

variable {p : Position} {id : TaskId} {l : List (Position × TaskId)} {h : Position × TaskId}

/-- What is at position `p` gives way to `(p, id)`, and the others stay. -/
theorem mem_putPending : ∀ {l : List (Position × TaskId)}, Ascending l →
    (h ∈ putPending p id l ↔ h = (p, id) ∨ h ∈ l ∧ h.1 ≠ p)
  | [], _ => by simp [putPending]
  | (q, other) :: rest, hl => by
    obtain ⟨hbefore, hrest⟩ := List.pairwise_cons.mp hl
    unfold putPending
    by_cases hlt : p < q
    · -- all positions in the list come later
      have hothers : ∀ x ∈ (q, other) :: rest, x.1 ≠ p := by
        intro x hx
        rcases List.mem_cons.mp hx with rfl | hx
        · exact Nat.ne_of_gt hlt
        · have hqx := hbefore x hx
          exact Nat.ne_of_gt (Nat.lt_trans hlt hqx)
      rw [if_pos hlt, List.mem_cons]
      exact or_congr_right (iff_self_and.mpr (hothers h))
    · rw [if_neg hlt]
      by_cases heq : p = q
      · subst heq
        have hothers : ∀ x ∈ rest, x.1 ≠ p := fun x hx => Nat.ne_of_gt (hbefore x hx)
        rw [if_pos rfl, List.mem_cons, List.mem_cons]
        refine or_congr_right ⟨fun hx => ⟨Or.inr hx, hothers h hx⟩, fun hx => ?_⟩
        rcases hx.1 with rfl | hmem
        · exact absurd rfl hx.2
        · exact hmem
      · rw [if_neg heq, List.mem_cons, List.mem_cons, mem_putPending hrest]
        constructor
        · rintro (rfl | rfl | ⟨hmem, hne⟩)
          · exact Or.inr ⟨Or.inl rfl, Ne.symm heq⟩
          · exact Or.inl rfl
          · exact Or.inr ⟨Or.inr hmem, hne⟩
        · rintro (rfl | ⟨rfl | hmem, hne⟩)
          · exact Or.inr (Or.inl rfl)
          · exact Or.inl rfl
          · exact Or.inr (Or.inr ⟨hmem, hne⟩)

/-- Afterwards `lookup q` is `some id` for `q = p`, and what it was for any other `q`. -/
theorem lookup_putPending (p q : Position) (id : TaskId) : ∀ l : List (Position × TaskId),
    (putPending p id l).lookup q = if q = p then some id else l.lookup q
  | [] => by
    rw [putPending]
    by_cases hq : q = p
    · rw [if_pos hq, hq, List.lookup_cons_self]
    · rw [if_neg hq, lookup_cons_of_ne hq]
  | (r, other) :: rest => by
    unfold putPending
    by_cases hq : q = p
    · subst hq
      by_cases hlt : q < r
      · rw [if_pos hlt, if_pos rfl, List.lookup_cons_self]
      · rw [if_neg hlt]
        by_cases heq : q = r
        · rw [if_pos heq, if_pos rfl, List.lookup_cons_self]
        · rw [if_neg heq, lookup_cons_of_ne heq, lookup_putPending q q id rest, if_pos rfl,
            if_pos rfl]
    · rw [if_neg hq]
      by_cases hlt : p < r
      · rw [if_pos hlt, lookup_cons_of_ne hq]
      · rw [if_neg hlt]
        by_cases heq : p = r
        · rw [if_pos heq, lookup_cons_of_ne hq, lookup_cons_of_ne (heq ▸ hq)]
        · rw [if_neg heq]
          by_cases hr : q = r
          · rw [hr, List.lookup_cons_self, List.lookup_cons_self]
          · rw [lookup_cons_of_ne hr, lookup_cons_of_ne hr, lookup_putPending p q id rest,
              if_neg hq]

theorem Ascending.put (p : Position) (id : TaskId) : ∀ {l : List (Position × TaskId)},
    Ascending l → Ascending (putPending p id l)
  | [], _ => List.pairwise_singleton _ _
  | (q, other) :: rest, hl => by
    obtain ⟨hbefore, hrest⟩ := List.pairwise_cons.mp hl
    unfold putPending
    by_cases hlt : p < q
    · rw [if_pos hlt]
      refine List.pairwise_cons.mpr ⟨fun x hx => ?_, hl⟩
      rcases List.mem_cons.mp hx with rfl | hx
      · exact hlt
      · exact Nat.lt_trans hlt (hbefore x hx)
    · rw [if_neg hlt]
      by_cases heq : p = q
      · subst heq
        rw [if_pos rfl]
        exact List.pairwise_cons.mpr ⟨hbefore, hrest⟩
      · rw [if_neg heq]
        refine List.pairwise_cons.mpr ⟨fun x hx => ?_, Ascending.put p id hrest⟩
        rcases (mem_putPending hrest).mp hx with rfl | ⟨hmem, -⟩
        · exact Nat.lt_of_le_of_ne (Nat.le_of_not_lt hlt) (Ne.symm heq)
        · exact hbefore x hmem

end Instance

namespace Scene

variable {σ : Type} {t : Template} {home : Position → Destination} {s s' s'' : Scene σ}
  {observe : Observer σ} {taken : List (Position × TaskId)}

/-! ### Runs -/

/-- The states that an instance can be in between steps, with the requests that were taken until
then. -/
inductive Handled (observe : Observer σ) (t : Template) : List (Position × TaskId) → Scene σ → Prop
    where
  /-- An instance is made, under an id that no request belongs to yet. -/
  | instantiate (given : InstanceOptions) (id : Nat) {host host' : Host} {memory memory' : σ}
      {inst : Instance} :
    host.requestsOf id = [] →
    (t.instantiate observe given id).run (host, memory) = .ok inst (host', memory') →
    Handled observe t [] ⟨inst, host', memory'⟩
  | dispatch {taken : List (Position × TaskId)} {s : Scene σ} (target : NodeId) (event : String) :
    Handled observe t taken s →
    Handled observe t taken (stateAfter (Scene.dispatch observe target event) s)
  /-- A request gets a turn, whether or not it is the one that has waited longest. -/
  | turn {taken : List (Position × TaskId)} {s : Scene σ} (id : TaskId) (task : Task) :
    Handled observe t taken s → (id, task) ∈ s.requests →
    Handled observe t taken (s.turn observe id task)
  | collect {taken : List (Position × TaskId)} {s : Scene σ} : Handled observe t taken s →
    Handled observe t (taken ++ s.inst.collect.1) (s.mapInst fun i => i.collect.2)
  /-- Time passes, signals are aborted, the transport learns other answers, other instances go
  on. -/
  | elsewhere {taken : List (Position × TaskId)} {s : Scene σ} (host : Host) (memory : σ) :
    Handled observe t taken s → s.host.SameRequests s.inst.id host →
    Handled observe t taken { s with host, memory }

/-- What was `Handled` without looking at what was taken is a run. -/
theorem Handled.exists_run (h : Handled observe t taken s) :
    ∃ responses, Run observe t responses s := by
  induction h with
  | instantiate given id hfresh hmade => exact ⟨[], .instantiate given id hfresh hmade⟩
  | dispatch target event _ ih =>
    obtain ⟨responses, hrun⟩ := ih
    exact ⟨responses, hrun.dispatch target event⟩
  | turn id task _ hmem ih =>
    obtain ⟨responses, hrun⟩ := ih
    exact ⟨_, hrun.turn id task hmem⟩
  | collect _ ih =>
    obtain ⟨responses, hrun⟩ := ih
    exact ⟨responses, hrun.collect⟩
  | elsewhere host memory _ hhost ih =>
    obtain ⟨responses, hrun⟩ := ih
    exact ⟨responses, hrun.elsewhere host memory hhost⟩

/-! ### Custody -/

/-- Each request that goes on is kept or was taken, and nothing else is kept or was taken than
requests of the instance. -/
structure Custody (taken : List (Position × TaskId)) (s : Scene σ) : Prop where
  covered : ∀ r ∈ s.requests, r.2.isEnded = false →
    (r.2.job.position, r.1) ∈ s.inst.pending ∨ (r.2.job.position, r.1) ∈ taken
  named : ∀ h ∈ s.inst.pending ++ taken, ∃ task, (h.2, task) ∈ s.requests ∧ task.job.position = h.1
  ascending : Instance.Ascending s.inst.pending

namespace Custody

theorem congr (h : Custody taken s) (hrequests : s'.requests = s.requests)
    (hpending : s'.inst.pending = s.inst.pending) : Custody taken s' := by
  obtain ⟨hcovered, hnamed, hascending⟩ := h
  constructor
  · rwa [hrequests, hpending]
  · rwa [hrequests, hpending]
  · rwa [hpending]

/-- What is collected counts as `taken`, and nothing is left. -/
theorem collect (h : Custody taken s) :
    Custody (taken ++ s.inst.collect.1) (s.mapInst fun i => i.collect.2) where
  covered r hr hunended := by
    refine Or.inr (List.mem_append.mpr ?_)
    exact (h.covered r hr hunended).symm
  named x hx := by
    refine h.named x ?_
    rw [List.mem_append] at hx ⊢
    rcases hx with hx | hx
    · exact absurd hx List.not_mem_nil
    · exact (List.mem_append.mp hx).symm
  ascending := List.Pairwise.nil

end Custody

/-- A request that is taken in replaces what was pending at `job.position`. -/
theorem pending_board (s : Scene σ) (job : Job) (request : Outgoing) :
    (s.board job request).inst.pending =
      Instance.putPending job.position ⟨s.host.tasks.length⟩ s.inst.pending := by
  change Instance.putPending job.position _ (s.inst.setRunning job true).pending = _
  rw [pending_setRunning]

/-- What nobody has taken is still there, or it has ended and there is something newer in its
place. -/
def Yields (s s' : Scene σ) : Prop :=
  ∀ h ∈ s.inst.pending, h ∈ s'.inst.pending ∨
    (∃ newer, (h.1, newer) ∈ s'.inst.pending) ∧
      ∃ task, (h.2, task) ∈ s.requests ∧ task.isEnded = true

theorem Yields.of_pending (h : s'.inst.pending = s.inst.pending) : Yields s s' := by
  intro x hx
  rw [h]
  exact Or.inl hx

theorem Yields.trans (h : Yields s s') (h' : Yields s' s'') (hcustody : Custody taken s)
    (hkept : ∀ r ∈ s.requests, r ∈ s'.requests) : Yields s s'' := by
  intro x hx
  rcases h x hx with hx' | ⟨⟨newer, hnewer⟩, hended⟩
  · rcases h' x hx' with hx'' | ⟨hnewer, task', htask', hended'⟩
    · exact Or.inl hx''
    · obtain ⟨task, htask, -⟩ := hcustody.named x (List.mem_append_left _ hx)
      rw [eq_of_mem_requests (hkept _ htask) htask'] at hended'
      exact Or.inr ⟨hnewer, task, htask, hended'⟩
  · refine Or.inr ⟨?_, hended⟩
    rcases h' _ hnewer with hnewer' | ⟨hnewest, -⟩
    · exact ⟨newer, hnewer'⟩
    · exact hnewest

section Board

variable {job : Job}

/-- Taking in a request loses nothing that goes on, if at `job.position` everything has ended. -/
theorem Custody.board (h : Custody taken s)
    (hfree : ∀ r ∈ s.requests, r.2.job.position = job.position → r.2.isEnded = true)
    (request : Outgoing) : Custody taken (s.board job request) := by
  have hnew : ((⟨s.host.tasks.length⟩, ⟨s.inst.id, job, request, .started⟩) : TaskId × Task) ∈
      (s.board job request).requests := by
    rw [requests_board]
    exact List.mem_append_right _ (List.mem_singleton_self _)
  have hput : ∀ x, x ∈ Instance.putPending job.position ⟨s.host.tasks.length⟩ s.inst.pending ↔
      x = (job.position, ⟨s.host.tasks.length⟩) ∨ x ∈ s.inst.pending ∧ x.1 ≠ job.position :=
    fun x => Instance.mem_putPending h.ascending
  constructor
  case covered =>
    intro r hr hunended
    rw [pending_board, hput]
    rw [requests_board] at hr
    rcases List.mem_append.mp hr with hr | hr
    · -- what goes on belongs to another placeholder
      have hne : r.2.job.position ≠ job.position := by
        intro he
        rw [hfree r hr he] at hunended
        exact absurd hunended (by simp)
      exact (h.covered r hr hunended).imp_left fun hmem => Or.inr ⟨hmem, hne⟩
    · obtain rfl := List.mem_singleton.mp hr
      exact Or.inl (Or.inl rfl)
  case named =>
    intro x hx
    have hold : x ∈ s.inst.pending ++ taken →
        ∃ task, (x.2, task) ∈ (s.board job request).requests ∧ task.job.position = x.1 := by
      intro hx
      obtain ⟨task, htask, hposition⟩ := h.named x hx
      rw [requests_board]
      exact ⟨task, List.mem_append_left _ htask, hposition⟩
    rcases List.mem_append.mp hx with hx | hx
    · rw [pending_board, hput] at hx
      rcases hx with rfl | ⟨hx, -⟩
      · exact ⟨_, hnew, rfl⟩
      · exact hold (List.mem_append_left _ hx)
    · exact hold (List.mem_append_right _ hx)
  case ascending =>
    rw [pending_board]
    exact h.ascending.put _ _

theorem Custody.yields_board (h : Custody taken s)
    (hfree : ∀ r ∈ s.requests, r.2.job.position = job.position → r.2.isEnded = true)
    (request : Outgoing) : Yields s (s.board job request) := by
  intro x hx
  obtain ⟨task, htask, hposition⟩ := h.named x (List.mem_append_left _ hx)
  rw [pending_board, Instance.mem_putPending h.ascending]
  by_cases hp : x.1 = job.position
  · refine Or.inr ⟨⟨⟨s.host.tasks.length⟩, ?_⟩, task, htask, hfree _ htask (hposition.trans hp)⟩
    rw [Instance.mem_putPending h.ascending, hp]
    exact Or.inl rfl
  · exact Or.inl (Or.inr ⟨hx, hp⟩)

end Board

/-! ### Steps -/

/-- With `isRunning = false` all requests of what waits have ended. -/
theorem Flights.isEnded (h : Flights t home s) (ht : t.Housed home) (hflow : Flow t home s)
    {b : Standby} (hb : b ∈ s.inst.standbys) (hidle : s.inst.isRunning b.job.position = false) :
    ∀ r ∈ s.requests, r.2.job.position = b.job.position → r.2.isEnded = true := by
  intro r hr hposition
  obtain ⟨x, hx, hjob, hdeferred, -⟩ := hflow.standbys b hb
  obtain ⟨id, hid⟩ := ht.home_element x hx (Or.inr hdeferred)
  by_contra hunended
  have hmem := mem_unfinished hr (Bool.eq_false_iff.mpr hunended)
  rw [hposition, hjob.position] at hmem
  rw [hjob.position, ← Bool.not_eq_true, h.running x hx id hid] at hidle
  exact hidle (List.ne_nil_of_mem hmem)

/-- Observers that only record leave requests and `pending` alone. -/
theorem Recording.requests_changeStatus (hobserve : Recording observe) (job : Job) (code : Nat)
    {host : Host} (htasks : host.tasks = s.host.tasks) :
    ({ s with host }.changeStatus observe job code).requests = s.requests ∧
      ({ s with host }.changeStatus observe job code).inst.pending = s.inst.pending := by
  obtain ⟨inst, memory, hstatus, hsame⟩ := hobserve.changeStatus job code { s with host }
  rw [hstatus]
  refine ⟨?_, hsame.pending_eq⟩
  rw [requests, hsame.id_eq]
  exact (sameBooks_of_tasks s htasks).requests_eq

/-- Firing a placeholder keeps `Custody`: it loses nothing that goes on. -/
theorem custody_fire (hobserve : Recording observe) (ht : t.Housed home) (hflow : Flow t home s)
    (hflights : Flights t home s) (h : Custody taken s) (p : Position) :
    Custody taken (stateAfter (fire observe p) s) ∧ Yields s (stateAfter (fire observe p) s) := by
  have hfired := fired_fire observe p s
  generalize stateAfter (fire observe p) s = s' at hfired ⊢
  -- in both cases in which a request is started
  have hboard : ∀ {b : Standby} (request : Outgoing) {host : Host}, s.inst.standby? p = some b →
      s.inst.isRunning p = false → host.tasks = s.host.tasks →
      Custody taken (({ s with host }.changeStatus observe b.job 0).board b.job request) ∧
        Yields s (({ s with host }.changeStatus observe b.job 0).board b.job request) := by
    intro b request host hb hidle htasks
    obtain ⟨hmem, hposition⟩ := Instance.standby?_mem hb
    have hended := hflights.isEnded ht hflow hmem (hposition.symm ▸ hidle)
    obtain ⟨hrequests, hpending⟩ := hobserve.requests_changeStatus b.job 0 htasks
    have h₁ := h.congr hrequests hpending
    have hyields : Yields ({ s with host }.changeStatus observe b.job 0) _ :=
      h₁.yields_board (by rwa [hrequests]) request
    rw [Yields, hrequests, hpending] at hyields
    exact ⟨h₁.board (by rwa [hrequests]) request, hyields⟩
  cases hfired with
  | passed host hhost =>
    exact ⟨h.congr (sameBooks_of_tasks s hhost.tasks_eq).requests_eq rfl, .of_pending rfl⟩
  | once b request host hb hidle hhost =>
    obtain ⟨hcustody, hyields⟩ := hboard request hb hidle hhost.tasks_eq
    exact ⟨hcustody.congr rfl rfl, hyields⟩
  | again b request host hb hidle hhost => exact hboard request hb hidle hhost.tasks_eq

theorem custody_dispatch (hobserve : Recording observe) (ht : t.Housed home)
    (hflow : Flow t home s) (hflights : Flights t home s) (h : Custody taken s) (target : NodeId)
    (event : String) :
    Custody taken (stateAfter (dispatch observe target event) s) ∧
      Yields s (stateAfter (dispatch observe target event) s) := by
  have htame := hobserve.lawful.tame ht
  have hconsiderate := hobserve.considerate
  -- what was there before the event is compared with what is there after each firing
  have hstep : ∀ p s₁, Flow t home s₁ → Quiet t s₁ (stateAfter (fire observe p) s₁) →
      (Continues t home s s₁ ∧ Custody taken s₁ ∧ Yields s s₁) →
      Continues t home s (stateAfter (fire observe p) s₁) ∧
        Custody taken (stateAfter (fire observe p) s₁) ∧
        Yields s (stateAfter (fire observe p) s₁) := by
    intro p s₁ hflow₁ _ ⟨hcontinues, hcustody, hyields⟩
    obtain ⟨hcustody', hyields'⟩ := custody_fire hobserve ht hflow₁ hcontinues.flights hcustody p
    exact ⟨hcontinues.trans (continues_fire htame (hconsiderate.steady ht) hconsiderate.patient ht p
      s₁ hflow₁ hcontinues.flights), hcustody', hyields.trans hyields' h hcontinues.requests⟩
  exact (flow_dispatch htame ht hstep hflow
    ⟨hflights.continues rfl fun _ => rfl, h, .of_pending rfl⟩ target event).2.2.2

/-- A request `r` that goes on after a turn went on before, for the same job. -/
theorem Recording.exists_of_turn (hobserve : Recording observe) {id : TaskId} {task : Task}
    (hmem : (id, task) ∈ s.requests) {r : TaskId × Task}
    (hr : r ∈ (s.turn observe id task).requests) (hunended : r.2.isEnded = false) :
    ∃ r' ∈ s.requests, r'.1 = r.1 ∧ r'.2.job = r.2.job ∧ r'.2.isEnded = false := by
  obtain ⟨hsame, hturned⟩ := hobserve.turn id task s
  rw [requests, hsame.id_eq] at hr
  generalize (s.turn observe id task).host = host at hturned hr
  -- A turn writes one phase at most, and never takes an ended task up again.
  have hphase : ∀ {host' : Host} (phase : Phase), s.host.Beside host' →
      (({ task with phase } : Task).isEnded = false → task.isEnded = false) →
      r ∈ (host'.setPhase id phase).requestsOf s.inst.id →
      ∃ r' ∈ s.requests, r'.1 = r.1 ∧ r'.2.job = r.2.job ∧ r'.2.isEnded = false := by
    intro host' phase hbeside hgoes hr
    rw [Host.requestsOf_setPhase, Host.requestsOf_of_tasks hbeside.tasks_eq, List.mem_map] at hr
    obtain ⟨⟨id', task'⟩, hmem', rfl⟩ := hr
    refine ⟨(id', task'), hmem', ?_⟩
    by_cases hid : id' = id
    · subst hid
      obtain rfl := eq_of_mem_requests hmem hmem'
      rw [if_pos rfl] at hunended ⊢
      exact ⟨rfl, rfl, hgoes hunended⟩
    · rw [if_neg hid] at hunended ⊢
      exact ⟨rfl, rfl, hunended⟩
  cases hturned with
  | idle hbeside =>
    rw [Host.requestsOf_of_tasks hbeside.tasks_eq] at hr
    exact ⟨r, hr, rfl, rfl, hunended⟩
  | ended result hbeside hgoes => exact hphase _ hbeside (fun _ => hgoes) hr
  | asked due response hbeside hphase' =>
    have hgoes : task.isEnded = false := by rw [Task.isEnded, Task.result?, hphase']; rfl
    exact hphase _ hbeside (fun _ => hgoes) hr

/-- A turn keeps `Custody` as well. -/
theorem custody_turn (hobserve : Recording observe) (h : Custody taken s) {id : TaskId}
    {task : Task} (hmem : (id, task) ∈ s.requests) : Custody taken (s.turn observe id task) := by
  have hpending := (hobserve.turn id task s).1.pending_eq
  constructor
  case covered =>
    intro r hr hunended
    obtain ⟨r', hr', hid, hjob, hunended'⟩ := hobserve.exists_of_turn hmem hr hunended
    rw [hpending, ← hid, ← hjob]
    exact h.covered r' hr' hunended'
  case named =>
    intro x hx
    rw [hpending] at hx
    obtain ⟨task', htask', hposition⟩ := h.named x hx
    obtain ⟨phase, hkept⟩ := lasting_retains.turn hobserve.lawful id task s x.2 task' htask'
    exact ⟨_, hkept, hposition⟩
  case ascending =>
    rw [hpending]
    exact h.ascending

/-! ### A new instance -/

theorem Copy.pending_eq {id : Nat} {i : Instance} (h : Copy t id i) : i.pending = [] := by
  have hmade := h.made
  unfold Instance.ofTemplate at hmade
  split at hmade
  · exact absurd hmade (by simp)
  · rw [← Except.ok.inj hmade]

/-- Plans at positions without requests replace nothing, so carrying them out keeps `Custody`. -/
theorem custody_carryOutAll (hobserve : Recording observe) {xs : List Placeholder}
    {plans : List Plan} (hplans : List.Forall₂ (fun x plan => plan.For home x) xs plans)
    (hnodup : (xs.map (·.position)).Nodup)
    (hnone : ∀ r ∈ s.requests, r.2.job.position ∉ xs.map (·.position)) (h : Custody taken s)
    (hrun : (carryOutAll observe plans).run s = .ok () s') : Custody taken s' := by
  induction hplans generalizing s with
  | nil =>
    injection hrun with _ he
    rwa [← he]
  | @cons x plan xs plans hplan _ ih =>
    unfold carryOutAll at hrun
    obtain ⟨_, s₁, hfirst, hrest⟩ := exists_of_run_bind_eq_ok hrun
    obtain ⟨hnew, hnodup'⟩ := List.nodup_cons.mp hnodup
    have hnone' : ∀ r ∈ s.requests, r.2.job.position ∉ xs.map (·.position) := fun r hr hmem =>
      hnone r hr (List.mem_cons_of_mem _ hmem)
    cases plan with
    | standBy job mode event nodes =>
      injection hfirst with _ he
      have h₁ : Custody taken s₁ := by
        rw [← he]
        exact h.congr rfl rfl
      refine ih hnodup' ?_ h₁ hrest
      rw [← he]
      exact hnone'
    | start job =>
      obtain ⟨hjob, -⟩ := hplan
      obtain ⟨f, _, -, hfailed⟩ | ⟨request, host, hhost, -, hrun'⟩ := launch_cases observe job s
      · rw [carryOut, hfailed] at hfirst
        exact absurd hfirst (by simp)
      · rw [carryOut, hrun'] at hfirst
        injection hfirst with _ he
        obtain ⟨hrequests, hpending⟩ := hobserve.requests_changeStatus job 0 hhost.tasks_eq
        have h₁ := h.congr hrequests hpending
        rw [← he] at hrest
        -- The request just boarded is of a position that does not come again.
        refine ih hnodup' (fun r hr => ?_) (h₁.board (fun r hr hposition => ?_) request) hrest
        · rw [requests_board, hrequests] at hr
          rcases List.mem_append.mp hr with hr | hr
          · exact hnone' r hr
          · rw [List.mem_singleton.mp hr, hjob.position]
            exact hnew
        · rw [hrequests] at hr
          refine absurd ?_ (hnone r hr)
          rw [hposition, hjob.position]
          exact List.mem_cons_self

/-! ### Runs -/

/-- **Nothing that still runs gets lost.** -/
theorem custody_of_handled {source : String} (hcompiled : Template.Compiled source t)
    (hobserve : Recording observe) (h : Handled observe t taken s) : Custody taken s := by
  induction h with
  | @instantiate given id host _ memory _ _ hfresh hmade =>
    obtain ⟨i, plans, htemplate, hplans, hcarry⟩ := exists_plans hmade
    have hcopy := copy_ofTemplate htemplate
    have hnone : (⟨i, host, memory⟩ : Scene σ).requests = [] := hcopy.requests_eq_nil hfresh memory
    refine custody_carryOutAll hobserve (Instance.forall₂_planAll hplans).1 hcompiled.nodup
      (fun r hr => ?_) ⟨fun r hr => ?_, ?_, ?_⟩ hcarry
    · rw [hnone] at hr
      exact absurd hr List.not_mem_nil
    · rw [hnone] at hr
      exact absurd hr List.not_mem_nil
    · rw [hcopy.pending_eq]
      exact fun x hx => absurd hx List.not_mem_nil
    · rw [hcopy.pending_eq]
      exact List.Pairwise.nil
  | dispatch target event hhandled ih =>
    obtain ⟨responses, hrun⟩ := hhandled.exists_run
    obtain ⟨home, ht, hflow, -, hflights⟩ :=
      (invariant_flights hobserve).of_run hcompiled hobserve.lawful hrun
    exact (custody_dispatch hobserve ht hflow hflights ih target event).1
  | turn id task _ hmem ih => exact custody_turn hobserve ih hmem
  | collect _ ih => exact ih.collect
  | elsewhere host memory _ hhost ih => exact ih.congr hhost rfl

/-- The positions of `pending` are a sublist of those of the placeholders, so there is at most one
request for each. -/
theorem Custody.sublist {source : String} (hcompiled : Template.Compiled source t)
    (hflow : Flow t home s) (h : Custody taken s) :
    (s.inst.pending.map (·.1)).Sublist (t.placeholders.map (·.position)) := by
  have hascending : (s.inst.pending.map (·.1)).Pairwise (· < ·) := List.pairwise_map.mpr h.ascending
  have hsubset : s.inst.pending.map (·.1) ⊆ t.placeholders.map (·.position) := by
    intro p hp
    obtain ⟨x, hx, rfl⟩ := List.mem_map.mp hp
    obtain ⟨task, htask, hposition⟩ := h.named x (List.mem_append_left _ hx)
    obtain ⟨y, hy, hjob⟩ := hflow.jobs _ htask
    exact List.mem_map.mpr ⟨y, hy, hjob.position.symm.trans hposition⟩
  have hsubperm := List.Nodup.subperm (hascending.imp Nat.ne_of_lt) hsubset
  exact List.sublist_of_subperm_of_pairwise hsubperm hascending hcompiled.ascending

end Scene

end Inlay
