import Inlay.Proofs.Scene.Opening

/-!
# Requests in flight

A request is marked as running only when observers have been told that its status is zero again. So
an observer could start another request for the placeholder at that moment; `Considerate` ones do
not, and `Recording` ones do nothing at all. With such observers a placeholder has at most one
unfinished request at any time, and its record says that a request is running exactly while there is
one (`Flights`). How often it starts requests is limited as well: `orderly_of_run`.
-/

namespace Inlay.Scene

variable {σ : Type} {t : Template} {home : Position → Destination} {s s' : Scene σ}
  {observe : Observer σ} {x : Placeholder}

/-- Requests and the marks on the records of placeholders agree. -/
structure Flights (t : Template) (home : Position → Destination) (s : Scene σ) : Prop where
  alone : ∀ x ∈ t.placeholders, (s.unfinished x.position).length ≤ 1
  running : ∀ x ∈ t.placeholders, ∀ id, home x.position = .element id →
    (s.inst.isRunning x.position = true ↔ s.unfinished x.position ≠ [])
  started : ∀ x ∈ t.placeholders, x.isDeferred = false → s.requestsAt x.position ≠ []

theorem Flights.congr (h : Flights t home s) (hrequests : s'.requests = s.requests)
    (hrunning : ∀ p, s'.inst.isRunning p = s.inst.isRunning p) : Flights t home s' := by
  have hat : ∀ p, s'.requestsAt p = s.requestsAt p := fun p => by
    rw [requestsAt, hrequests, ← requestsAt]
  constructor
  · intro x hx
    rw [unfinished, hat]
    exact h.alone x hx
  · intro x hx id hid
    rw [unfinished, hat, hrunning]
    exact h.running x hx id hid
  · intro x hx himmediate
    rw [hat]
    exact h.started x hx himmediate

/-! ### Considerate observers -/

/-- Told that the status of a placeholder is zero again, the observer starts no request for it. -/
def Patient (observe : Observer σ) : Prop :=
  ∀ label p s, (observe label (.status 0 (some p)) s).requestsAt p = s.requestsAt p

/-- What can happen while considerate observers are told something: the same as with lawful ones
(`Acts`), except that events are dispatched with patient observers only. -/
inductive Behaves : Scene σ → Scene σ → Prop where
  | refl (s : Scene σ) : Behaves s s
  | trans {s s' s'' : Scene σ} : Behaves s s' → Behaves s' s'' → Behaves s s''
  | remember (s : Scene σ) (memory : σ) : Behaves s { s with memory }
  | elsewhere (s : Scene σ) (host : Host) :
    s.host.SameRequests s.inst.id host → Behaves s { s with host }
  | collect (s : Scene σ) : Behaves s (s.mapInst fun i => i.collect.2)
  | dispatch (inner : Observer σ) (s : Scene σ) (target : NodeId) (event : String) :
    (∀ label n s, Behaves s (inner label n s)) → Patient inner →
    Behaves s (stateAfter (Scene.dispatch inner target event) s)

theorem Behaves.acts (h : Behaves s s') : Acts s s' := by
  induction h with
  | refl s => exact .refl s
  | trans _ _ ih ih' => exact ih.trans ih'
  | remember s memory => exact .remember s memory
  | elsewhere s host hhost => exact .elsewhere s host hhost
  | collect s => exact .collect s
  | dispatch inner s target event _ _ ih => exact .dispatch inner s target event ih

/-- The observer acts on the instance as a program does, but never starts a request that is about to
start anyway. -/
structure Considerate (observe : Observer σ) : Prop where
  behaves : ∀ label n s, Behaves s (observe label n s)
  patient : Patient observe

theorem Considerate.lawful (h : Considerate observe) : Lawful observe :=
  fun label n s => (h.behaves label n s).acts

theorem Recording.considerate (h : Recording observe) : Considerate observe where
  behaves label n s := by
    obtain ⟨memory, he⟩ := h label n s
    rw [he]
    exact .remember s memory
  patient label p s := by
    obtain ⟨memory, he⟩ := h label (.status 0 (some p)) s
    rw [he]
    rfl

/-! ### Telling observers -/

/-- The requests and the marks stay in order, and no request is changed, only new ones are added. -/
structure Continues (t : Template) (home : Position → Destination) (s s' : Scene σ) : Prop where
  flights : Flights t home s'
  requests : ∀ r ∈ s.requests, r ∈ s'.requests

theorem Continues.trans {s'' : Scene σ} (h : Continues t home s s') (h' : Continues t home s' s'') :
    Continues t home s s'' :=
  ⟨h'.flights, fun r hr => h'.requests r (h.requests r hr)⟩

theorem Flights.continues (h : Flights t home s) (hrequests : s'.requests = s.requests)
    (hrunning : ∀ p, s'.inst.isRunning p = s.inst.isRunning p) : Continues t home s s' :=
  ⟨h.congr hrequests hrunning, fun _ hr => hrequests ▸ hr⟩

/-- Whatever the observer does when it is told something, requests and marks stay in order. -/
def Steady (t : Template) (home : Position → Destination) (observe : Observer σ) : Prop :=
  ∀ label n s, Flow t home s → Flights t home s → Continues t home s (observe label n s)

/-- Telling a steady observer one thing `Continues`: requests and marks stay in order. -/
theorem continues_notify (hsteady : Steady t home observe) (hflow : Flow t home s)
    (h : Flights t home s) (job : Job) (n : Notification) :
    Continues t home s (s.notify observe job n) := by
  unfold notify
  split
  · exact hsteady _ n s hflow h
  · exact h.continues rfl fun _ => rfl

theorem continues_notifyAll (hobserve : Tame t home observe) (hsteady : Steady t home observe)
    (job : Job) : ∀ (ns : List Notification) {s : Scene σ}, Flow t home s → Flights t home s →
    Continues t home s (s.notifyAll observe job ns)
  | [], s, _, h => h.continues rfl fun _ => rfl
  | n :: ns, s, hflow, h => by
    have h₁ := continues_notify hsteady hflow h job n
    have hflow₁ := (flow_notify hobserve hflow job n).1
    exact h₁.trans (continues_notifyAll hobserve hsteady job ns hflow₁ h₁.flights)

theorem continues_setStatus (h : Flights t home s) (job : Job) (code : Nat) :
    Continues t home s (s.mapInst (·.setStatus job code)) := by
  refine h.continues (sameBooks_setStatus s job code).requests_eq fun p => ?_
  change (s.inst.setStatus job code).isRunning p = _
  cases hjob : job.destination with
  | whole =>
    unfold Instance.setStatus
    rw [hjob]
    rfl
  | element id =>
    exact isRunning_of_flight?_map (Instance.flight?_setStatus hjob s.inst code p) fun x => by
      split <;> rfl

theorem continues_changeStatus (hsteady : Steady t home observe) (hflow : Flow t home s)
    (h : Flights t home s) (job : Job) (code : Nat)
    (hcode : s.requestsAt job.position ≠ [] ∨ code = 0) :
    Continues t home s (s.changeStatus observe job code) := by
  unfold changeStatus
  split
  · exact h.continues rfl fun _ => rfl
  · have h₁ := continues_setStatus h job code
    have hflow₁ := (flow_setStatus hflow job code hcode).1
    exact h₁.trans (continues_notify hsteady hflow₁ h₁.flights job (.status code job.shownPosition))

/-- A patient observer that is told of a status `0` leaves `requestsAt job.position` as it is. -/
theorem requestsAt_changeStatus (hpatient : Patient observe) {job : Job} {id : NodeId}
    (hjob : job.destination = .element id) (s : Scene σ) :
    (s.changeStatus observe job 0).requestsAt job.position = s.requestsAt job.position := by
  unfold changeStatus
  split
  · rfl
  · have hset := (sameBooks_setStatus s job 0).requestsAt_eq job.position
    have hshown : job.shownPosition = some job.position := by rw [Job.shownPosition, hjob]
    unfold notify
    split
    · rw [hshown, hpatient, hset]
    · exact hset

/-! ### Starting and ending -/

/-- Taking in a request for a placeholder with `isRunning = false` keeps marks in order. -/
theorem flights_board (h : Flights t home s) (hflow : Flow t home s) (ht : t.Housed home)
    (hx : x ∈ t.placeholders) {job : Job} (hjob : x.Describes home job) {id : NodeId}
    (hid : home x.position = .element id) (hidle : s.inst.isRunning x.position = false)
    (request : Outgoing) : Flights t home (s.board job request) := by
  have hother : ∀ y ∈ t.placeholders, y ≠ x → y.position ≠ job.position := fun y hy hne he =>
    hne (ht.eq_of_position hy hx (he.trans hjob.position))
  have hself := requestsAt_board_self s job request
  rw [hjob.position] at hself
  -- The placeholder was idle, so the request taken in is the only one it has to finish.
  have hnone : s.unfinished x.position = [] := by
    by_contra hne
    rw [(h.running x hx id hid).mpr hne] at hidle
    exact absurd hidle (by simp)
  have hunfinished : (s.board job request).unfinished x.position
      = [(⟨s.host.tasks.length⟩, ⟨s.inst.id, job, request, .started⟩)] := by
    rw [unfinished, hself, List.filter_append, ← unfinished, hnone]
    rfl
  constructor
  · intro y hy
    by_cases hyx : y = x
    · rw [hyx, hunfinished]
      exact Nat.le_refl 1
    · rw [unfinished, requestsAt_board_of_ne s request (hother y hy hyx)]
      exact h.alone y hy
  · intro y hy e he
    by_cases hyx : y = x
    · subst hyx
      have hsome := hflow.recorded y hy id hid
      rw [hunfinished]
      rw [← hjob.position] at hsome ⊢
      exact ⟨fun _ => by simp, fun _ =>
        isRunning_board_self (hjob.destination.trans hid) s request hsome⟩
    · rw [unfinished, requestsAt_board_of_ne s request (hother y hy hyx),
        isRunning_board_of_ne s request (hother y hy hyx)]
      exact h.running y hy e he
  · intro y hy himmediate
    by_cases hyx : y = x
    · rw [hyx, hself]
      simp
    · rw [requestsAt_board_of_ne s request (hother y hy hyx)]
      exact h.started y hy himmediate

/-- A new phase of a request at another position, `p ≠ task.job.position`, leaves `requestsAt p` as
it is. -/
theorem requestsAt_setPhase_of_ne {id : TaskId} {task : Task} (h : (id, task) ∈ s.requests)
    (phase : Phase) {p : Position} (hp : p ≠ task.job.position) :
    (s.mapHost (·.setPhase id phase)).requestsAt p = s.requestsAt p := by
  have hsame : ∀ r ∈ s.requestsAt p, withPhase id phase r = r := by
    rintro ⟨id', task'⟩ hr
    obtain ⟨hr, hpos⟩ := List.mem_filter.mp hr
    rw [withPhase, if_neg]
    rintro rfl
    rw [eq_of_mem_requests h hr] at hpos
    exact hp (of_decide_eq_true hpos).symm
  rw [requestsAt_setPhase, List.map_congr_left hsame, List.map_id']

/-- The end of the one request of a placeholder that goes on keeps `Flights`. -/
theorem flights_finish (h : Flights t home s) (hflow : Flow t home s) {id : TaskId} {task : Task}
    (hmem : (id, task) ∈ s.requests) (hunended : task.isEnded = false)
    (result : Except RequestError Unit) : Flights t home (s.finish id task.job result) := by
  obtain ⟨y, hy, hjob⟩ := hflow.jobs _ hmem
  have hbooks := sameBooks_setRunning s task.job false
  have hmem' : (id, task) ∈ (s.mapInst (·.setRunning task.job false)).requests := by
    rwa [hbooks.requests_eq]
  have hother : ∀ p, p ≠ task.job.position →
      (s.finish id task.job result).requestsAt p = s.requestsAt p := fun p hp =>
    (requestsAt_setPhase_of_ne hmem' (.ended result) hp).trans (hbooks.requestsAt_eq p)
  have halone := h.alone y hy
  rw [← hjob.position] at halone
  -- It had this one request to finish and no other.
  have hnone : (s.finish id task.job result).unfinished task.job.position = [] :=
    unfinished_finish (fun r hr => by
      rw [← eq_of_length_le_one halone (mem_unfinished hmem hunended) hr]) task.job result
  constructor
  · intro x hx
    by_cases hp : x.position = task.job.position
    · rw [hp, hnone]
      exact Nat.zero_le 1
    · rw [unfinished, hother _ hp]
      exact h.alone x hx
  · intro x hx e he
    change (s.inst.setRunning task.job false).isRunning x.position = true ↔ _
    by_cases hp : x.position = task.job.position
    · have hdestination : task.job.destination = .element e := by
        rw [hjob.destination, ← hjob.position, ← hp, he]
      rw [hp, hnone, Instance.isRunning_setRunning hdestination, if_pos rfl, Bool.and_false]
      simp
    · rw [unfinished, hother _ hp, Instance.isRunning_eq, Instance.flight?_setRunning_of_ne hp,
        ← Instance.isRunning_eq]
      exact h.running x hx e he
  · intro x hx himmediate
    by_cases hp : x.position = task.job.position
    · rw [hp, requestsAt_finish, ne_eq, List.map_eq_nil_iff]
      exact requestsAt_ne_nil hmem
    · rw [hother _ hp]
      exact h.started x hx himmediate

/-- A request that begins to wait goes on, which keeps `Flights`. -/
theorem flights_wait (h : Flights t home s) {id : TaskId} {task : Task}
    (hmem : (id, task) ∈ s.requests) (hunended : task.isEnded = false) (due : Nat) (r : Response) :
    Flights t home (s.mapHost (·.setPhase id (.waiting due r))) := by
  have hunfinished := unfinished_wait hmem hunended due r
  constructor
  · intro x hx
    rw [hunfinished, List.length_map]
    exact h.alone x hx
  · intro x hx e he
    rw [hunfinished, ne_eq, List.map_eq_nil_iff]
    exact h.running x hx e he
  · intro x hx himmediate
    rw [requestsAt_setPhase, ne_eq, List.map_eq_nil_iff]
    exact h.started x hx himmediate

/-! ### Steps -/

/-- Firing a placeholder `Continues`, if observers are patient. -/
theorem continues_fire (hobserve : Tame t home observe) (hsteady : Steady t home observe)
    (hpatient : Patient observe) (ht : t.Housed home) (p : Position) (s : Scene σ)
    (hflow : Flow t home s) (h : Flights t home s) :
    Continues t home s (stateAfter (fire observe p) s) := by
  have hfired := fired_fire observe p s
  generalize stateAfter (fire observe p) s = s' at hfired ⊢
  have hhost : ∀ {host : Host}, host.tasks = s.host.tasks → Continues t home s { s with host } :=
    fun hhost => h.continues (sameBooks_of_tasks s hhost).requests_eq fun _ => rfl
  -- in both cases in which a request is started
  have hboard : ∀ {b : Standby} {request : Outgoing} {host : Host}, s.inst.standby? p = some b →
      s.inst.isRunning p = false → host.tasks = s.host.tasks →
      Continues t home s (({ s with host }.changeStatus observe b.job 0).board b.job request) := by
    intro b request host hb hidle htasks
    obtain ⟨hmem, hpos⟩ := Instance.standby?_mem hb
    obtain ⟨x, hx, hjob, hdeferred, -⟩ := hflow.standbys b hmem
    obtain ⟨id, hid⟩ := ht.home_element x hx (Or.inr hdeferred)
    have h₁ := hhost htasks
    have hflow₁ := (flow_of_tasks hflow htasks).1
    have hflow₂ := (flow_changeStatus hobserve hflow₁ b.job 0 (Or.inr rfl)).1
    have h₂ := continues_changeStatus hsteady hflow₁ h₁.flights b.job 0 (Or.inr rfl)
    -- the observer has started nothing for the placeholder, so nothing is running for it yet
    have hsame : ({ s with host }.changeStatus observe b.job 0).requestsAt x.position =
        ({ s with host } : Scene σ).requestsAt x.position := by
      rw [← hjob.position]
      exact requestsAt_changeStatus hpatient (hjob.destination.trans hid) { s with host }
    have hnone : ¬ ({ s with host } : Scene σ).unfinished x.position ≠ [] := by
      rw [← h₁.flights.running x hx id hid, ← hjob.position, hpos]
      exact fun hrunning => absurd (hrunning.symm.trans hidle) (by simp)
    have hidle₂ :
        ({ s with host }.changeStatus observe b.job 0).inst.isRunning x.position = false := by
      rw [← Bool.not_eq_true, h₂.flights.running x hx id hid, unfinished, hsame, ← unfinished]
      exact hnone
    refine h₁.trans (h₂.trans
      ⟨flights_board h₂.flights hflow₂ ht hx hjob hid hidle₂ request, fun r hr => ?_⟩)
    rw [requests_board]
    exact List.mem_append_left _ hr
  cases hfired with
  | passed host hequips => exact hhost hequips.tasks_eq
  | once b request host hb hidle hequips =>
    have h₁ : Continues t home s
        (({ s with host }.changeStatus observe b.job 0).board b.job request) :=
      hboard hb hidle hequips.tasks_eq
    exact h₁.trans (h₁.flights.continues rfl fun _ => rfl)
  | again b request host hb hidle hequips => exact hboard hb hidle hequips.tasks_eq

/-- What considerate observers do `Continues`, however deep it is nested. -/
theorem Behaves.continues (hbehaves : Behaves s s') (ht : t.Housed home) (hflow : Flow t home s)
    (h : Flights t home s) : Continues t home s s' := by
  induction hbehaves with
  | refl s => exact h.continues rfl fun _ => rfl
  | trans hfirst _ ih ih' =>
    have h₁ := ih hflow h
    exact h₁.trans (ih' (acts_flow ht hfirst.acts hflow).1 h₁.flights)
  | remember s memory => exact h.continues rfl fun _ => rfl
  | elsewhere s host hhost => exact h.continues hhost fun _ => rfl
  | collect s => exact h.continues rfl fun _ => rfl
  | dispatch inner s target event hinner hpatient ih =>
    have htame : Tame t home inner := Lawful.tame (fun label n s => (hinner label n s).acts) ht
    have hstep : ∀ p s₁, Flow t home s₁ → Quiet t s₁ (stateAfter (fire inner p) s₁) →
        Continues t home s s₁ → Continues t home s (stateAfter (fire inner p) s₁) :=
      fun p s₁ hflow₁ _ h₁ => h₁.trans
        (continues_fire htame (fun label n s => ih label n s) hpatient ht p s₁ hflow₁ h₁.flights)
    exact (flow_dispatch htame ht hstep hflow (h.continues rfl fun _ => rfl) target event).2.2

theorem Considerate.steady (h : Considerate observe) (ht : t.Housed home) :
    Steady t home observe :=
  fun label n s hflow hflights => (h.behaves label n s).continues ht hflow hflights

theorem flights_receive (hobserve : Tame t home observe) (hsteady : Steady t home observe)
    (hflow : Flow t home s) (h : Flights t home s) {id : TaskId} {task : Task}
    (hmem : (id, task) ∈ s.requests) (hunended : task.isEnded = false) (r : Response) :
    Flights t home (s.receive observe id task.job r) := by
  have hnonempty : s.requestsAt task.job.position ≠ [] := requestsAt_ne_nil hmem
  have hflow₁ := (flow_changeStatus hobserve hflow task.job r.status (Or.inl hnonempty)).1
  obtain ⟨h₁, hkept⟩ := continues_changeStatus hsteady hflow h task.job r.status (Or.inl hnonempty)
  have hmem₁ := hkept _ hmem
  have hreceived := received_receive observe id task.job r s
  generalize s.receive observe id task.job r = s' at hreceived ⊢
  generalize s.changeStatus observe task.job r.status = s₁ at hreceived h₁ hflow₁ hmem₁
  -- Putting in the response takes no request in and ends none.
  have hreworked : ∀ {j}, Instance.Reworked s₁.inst j → Flights t home { s₁ with inst := j } ∧
      (id, task) ∈ ({ s₁ with inst := j } : Scene σ).requests := by
    intro j hj
    have hrequests := (sameBooks_of_reworked hj).requests_eq
    refine ⟨h₁.congr hrequests fun p => ?_, by rwa [hrequests]⟩
    rw [Instance.isRunning_eq, hj.flight_eq, ← Instance.isRunning_eq]
  cases hreceived with
  | refused => exact flights_finish h₁ hflow₁ hmem₁ hunended _
  | failed cause j _ _ hj =>
    obtain ⟨h₂, hmem₂⟩ := hreworked hj
    exact flights_finish h₂ (flow_of_reworked hflow₁ hj) hmem₂ hunended _
  | inserted ns j _ _ hj =>
    obtain ⟨h₂, hmem₂⟩ := hreworked hj
    have hflow₂ := flow_of_reworked hflow₁ hj
    obtain ⟨h₃, hkept₃⟩ := continues_notifyAll hobserve hsteady task.job ns hflow₂ h₂
    have hflow₃ := (flow_notifyAll hobserve task.job ns hflow₂).1
    exact flights_finish h₃ hflow₃ (hkept₃ _ hmem₂) hunended _

/-- A turn keeps `Flights`. -/
theorem flights_turn (hobserve : Tame t home observe) (hsteady : Steady t home observe)
    (hflow : Flow t home s) (h : Flights t home s) {id : TaskId} {task : Task}
    (hmem : (id, task) ∈ s.requests) : Flights t home (s.turn observe id task) := by
  have hturned := turned_turn observe id task s
  have hhost : ∀ {host : Host}, host.tasks = s.host.tasks → Flow t home { s with host } ∧
      Flights t home { s with host } ∧ (id, task) ∈ ({ s with host } : Scene σ).requests :=
    fun hhost => by
      have hrequests := (sameBooks_of_tasks s hhost).requests_eq
      exact ⟨(flow_of_tasks hflow hhost).1, h.congr hrequests fun _ => rfl, by rwa [hrequests]⟩
  generalize s.turn observe id task = s' at hturned ⊢
  cases hturned with
  | received host r htasks hunended =>
    obtain ⟨hflow₁, h₁, hmem₁⟩ := hhost htasks
    exact flights_receive hobserve hsteady hflow₁ h₁ hmem₁ hunended r
  | finished host error htasks hunended =>
    obtain ⟨hflow₁, h₁, hmem₁⟩ := hhost htasks
    exact flights_finish h₁ hflow₁ hmem₁ hunended _
  | asked host due r htasks hunended =>
    obtain ⟨-, h₁, hmem₁⟩ := hhost htasks
    exact flights_wait h₁ hmem₁ hunended due r
  | idle host htasks => exact (hhost htasks).2.1

/-! ### Runs -/

/-- In a new instance one request runs for each placeholder without a trigger, and `isRunning` is
set for it. -/
theorem Opened.flights {i : Instance} (h : Opened t home i [] s) : Flights t home s := by
  have hunfinished : ∀ p, s.unfinished p = s.requestsAt p := fun p =>
    List.filter_eq_self.mpr fun r hr => by
      rw [h.unended r (List.mem_of_mem_filter hr)]
      rfl
  constructor
  · intro x hx
    rw [hunfinished]
    cases hdeferred : x.isDeferred with
    | false =>
      rw [Placeholder.isDeferred] at hdeferred
      exact h.flow.once x hx (by rw [Placeholder.isTracked, hdeferred, Bool.false_and])
    | true =>
      have hnone : s.requestsAt x.position = [] := by
        by_contra hne
        rw [((h.started x hx).mp hne).2] at hdeferred
        exact absurd hdeferred (by simp)
      rw [hnone]
      exact Nat.zero_le 1
  · intro x hx id hid
    rw [hunfinished]
    exact h.running x hx id hid
  · intro x hx himmediate
    exact (h.started x hx).mpr ⟨List.not_mem_nil, himmediate⟩

/-- With considerate observers `Flights` holds after every run. -/
theorem invariant_flights_of_considerate (hobserve : Considerate observe) :
    Invariant observe t fun home _ s => Flights t home s where
  opened _ _ hopened := hopened.flights
  fire p ht hflow _ h :=
    (continues_fire (hobserve.lawful.tame ht) (hobserve.steady ht) hobserve.patient ht p _ hflow
      h).flights
  turn ht hflow hmem h :=
    flights_turn (hobserve.lawful.tame ht) (hobserve.steady ht) hflow h hmem
  elsewhere _ _ _ hhost h := h.congr hhost fun _ => rfl

theorem invariant_flights (hobserve : Recording observe) :
    Invariant observe t fun home _ s => Flights t home s :=
  invariant_flights_of_considerate hobserve.considerate

/-- What is promised about the requests of a placeholder. -/
structure Orderly (s : Scene σ) (single : Bool) (x : Placeholder) : Prop where
  one_at_a_time : (s.unfinished x.position).length ≤ 1
  running_iff : single = false →
    (s.inst.isRunning x.position = true ↔ s.unfinished x.position ≠ [])
  exactly_once : x.trigger = none → (s.requestsAt x.position).length = 1
  at_most_once : x.mode = .one → (s.requestsAt x.position).length ≤ 1
  deaf : x.mode = .one → s.requestsAt x.position ≠ [] → s.inst.Deaf x.position

/-- **Whatever happens to an instance in whatever order, the requests of its placeholders are in
order**: never two at a time, and no more than there should be. -/
theorem orderly_of_run {source : String} {ds ds' : List Diagnostic}
    (hcompile : (Template.compile source).run ds = .ok t ds') (hobserve : Recording observe)
    {responses : List (Position × Response)} (hrun : Run observe t responses s) (x : Placeholder)
    (hx : x ∈ t.placeholders) : s.Orderly t.single x := by
  obtain ⟨home, ht, hflow, hsettled, h⟩ := (invariant_flights hobserve).of_run
    (Template.compiled_compile hcompile) hobserve.lawful hrun
  refine ⟨h.alone x hx, fun hsingle => ?_, fun htrigger => ?_, fun hone => ?_, hsettled x hx⟩
  · obtain ⟨id, hid⟩ := ht.home_element x hx (Or.inl hsingle)
    exact h.running x hx id hid
  · have himmediate : x.isDeferred = false := by rw [Placeholder.isDeferred, htrigger]; rfl
    have hlength := hflow.once x hx (by rw [Placeholder.isTracked, htrigger]; rfl)
    have hpos := List.length_pos_iff.mpr (h.started x hx himmediate)
    omega
  · exact hflow.once x hx (Placeholder.isTracked_of_one hone)

/-- Three placeholders: one that has had its response, one that waits for every click and has been
started again after its first response, and one that waited for a click and does not listen to a
second one. -/
theorem orderly_once_answered : ∃ (t : Template) (ds : List Diagnostic) (s : Scene Unit),
    (Template.compile ("<i><b></b><u></u><request src=a></request>" ++
      "<request src=c after=click:b></request>" ++
      "<request src=e after=click:u mode=one></request></i>")).run [] = .ok t ds ∧
    Run (fun _ _ s => s) t [(2, ⟨200, "x"⟩), (3, ⟨200, "y"⟩)] s ∧
    t.placeholders.map (·.position) = [2, 3, 4] ∧ t.placeholders.map (·.mode) = [.all, .all, .one] ∧
    [2, 3, 4].map (fun p => (s.requestsAt p).length) = [1, 2, 1] ∧
    [2, 3, 4].map s.inst.isRunning = [false, true, true] ∧
    ∀ x ∈ t.placeholders, s.Orderly t.single x := by
  let reply : String → List Reply := fun body => [⟨⟨200, body⟩, 0⟩]
  obtain ⟨t, ds, used, s, hcompile, hrun, hplayed⟩ := exists_run_of_perform
    (fun _ _ (s : Scene Unit) => s) ("<i><b></b><u></u><request src=a></request>" ++
      "<request src=c after=click:b></request>" ++
      "<request src=e after=click:u mode=one></request></i>")
    (.plain {}) { Host.empty with
      transport := ⟨[(⟨.get, "a"⟩, reply "x"), (⟨.get, "c"⟩, reply "y")], []⟩ } ()
    [.turn 0, .event [0] "click", .turn 1, .event [0] "click", .event [1] "click",
      .event [1] "click"]
    (fun (t, used, s) => decide (used = [(2, ⟨200, "x"⟩), (3, ⟨200, "y"⟩)] ∧
      t.placeholders.map (·.position) = [2, 3, 4] ∧
      t.placeholders.map (·.mode) = [.all, .all, .one] ∧
      [2, 3, 4].map (fun p => (s.requestsAt p).length) = [1, 2, 1] ∧
      [2, 3, 4].map s.inst.isRunning = [false, true, true])) rfl (by decide +kernel)
  obtain ⟨rfl, hpositions, hmodes, hlengths, hrunning⟩ := of_decide_eq_true hplayed
  exact ⟨t, ds, s, hcompile, hrun, hpositions, hmodes, hlengths, hrunning,
    orderly_of_run hcompile (fun _ _ s => ⟨s.memory, rfl⟩) hrun⟩

end Inlay.Scene
