import Inlay.Proofs.Scene.InFlight

/-!
# When observers are told

An observer that is told something about a placeholder is told it while a request of the placeholder
runs, unless the status goes back to zero: that is told before the request counts as running. What
an observer would do at any other moment makes no difference (`told_while_running`). A considerate
observer does not use the exception, so requests never overlap (`alone_of_run`); another one can
(`overlap_once_dispatched`).
-/

namespace Inlay

/-- The placeholder that a notification is about. -/
def Notification.position? : Notification → Option Position
  | status _ p => p
  | nodes _ p => some p
  | fragment _ | root _ => none

/-- The request of the placeholder runs, or its status has become zero. -/
def Notification.Timely (n : Notification) (i : Instance) : Prop :=
  ∀ p, n.position? = some p → n = status 0 (some p) ∨ i.isRunning p = true

/-- The positions in what is told about a response are `job.position`. -/
theorem Instance.position?_of_insertResponse {job : Job} {body : String} {id : NodeId}
    {i j : Instance} {ns : List Notification} (hjob : job.destination = .element id)
    (h : (insertResponse job body).run i = .ok ns j) :
    ∀ n ∈ ns, ∀ p, n.position? = some p → p = job.position := by
  rw [insertResponse_eq hjob] at h
  obtain ⟨fragment, _, -, h⟩ := exists_of_run_bind_eq_ok h
  obtain ⟨_, _, -, h⟩ := exists_of_run_bind_eq_ok h
  obtain ⟨i₃, _, -, h⟩ := exists_of_run_bind_eq_ok h
  obtain ⟨_, _, -, h⟩ := exists_of_run_bind_eq_ok h
  unfold conclude at h
  obtain ⟨_, _, -, h⟩ := exists_of_run_bind_eq_ok h
  obtain ⟨_, _, -, h⟩ := exists_of_run_bind_eq_ok h
  obtain ⟨i₄, _, -, h⟩ := exists_of_run_bind_eq_ok h
  injection h with hns
  intro n hn p hp
  rw [← hns, List.mem_cons, List.mem_singleton] at hn
  rcases hn with rfl | rfl
  · exact (Option.some.inj hp).symm
  · exact absurd hp (by simp [Notification.position?])

namespace Scene

variable {σ : Type} {t : Template} {home : Position → Destination} {s s' : Scene σ}
  {observe other : Observer σ} {x : Placeholder}

/-- The observers do the same whenever a notification comes in time. -/
def Agree (observe other : Observer σ) : Prop :=
  ∀ label n s, n.Timely s.inst → other label n s = observe label n s

/-- Observers that agree do the same on any `n` that is timely. -/
theorem notify_congr (hagree : Agree observe other) {n : Notification} (h : n.Timely s.inst)
    (job : Job) : s.notify other job n = s.notify observe job n := by
  unfold notify
  split
  · exact hagree _ n s h
  · rfl

/-! ### Events -/

/-- A status `0` is timely. -/
theorem timely_zero (job : Job) (i : Instance) :
    (Notification.status 0 job.shownPosition).Timely i := fun p hp => by
  rw [show job.shownPosition = some p from hp]
  exact Or.inl rfl

/-- Launching a request tells nothing but a status `0`. -/
theorem launch_congr (hagree : Agree observe other) (job : Job) :
    launch other job = launch observe job := by
  have hstatus : ∀ s : Scene σ, s.changeStatus other job 0 = s.changeStatus observe job 0 := by
    intro s
    unfold changeStatus
    split
    · rfl
    · exact notify_congr hagree (timely_zero job _) job
  rw [launch_eq, launch_eq]
  simp only [hstatus]

theorem fire_congr (hagree : Agree observe other) (p : Position) :
    fire other p = fire observe p := by
  unfold fire
  simp only [launch_congr hagree]

theorem fireAll_congr (hagree : Agree observe other) : ∀ ps : List Position,
    fireAll other ps = fireAll observe ps
  | [] => rfl
  | p :: ps => by
    unfold fireAll
    rw [fire_congr hagree p, fireAll_congr hagree ps]

/-- So an event is the same with `other` as with `observe`. -/
theorem dispatch_congr (hagree : Agree observe other) (target : NodeId) (event : String) :
    dispatch other target event = dispatch observe target event := by
  unfold dispatch
  simp only [fireAll_congr hagree]

/-! ### Turns -/

section Turns

variable {id : TaskId} {task : Task} {e : NodeId}

/-- A request that goes on is marked, `isRunning task.job.position = true`. -/
theorem Flights.isRunning (h : Flights t home s) (hflow : Flow t home s)
    (hmem : (id, task) ∈ s.requests) (hunended : task.isEnded = false)
    (hjob : task.job.destination = .element e) : s.inst.isRunning task.job.position = true := by
  obtain ⟨x, hx, hdescribes⟩ := hflow.jobs _ hmem
  have hhome : home x.position = .element e := hdescribes.destination.symm.trans hjob
  have hne : s.unfinished task.job.position ≠ [] :=
    List.ne_nil_of_mem (mem_unfinished hmem hunended)
  rw [hdescribes.position] at hne ⊢
  exact (h.running x hx e hhome).mpr hne

/-- What is told of a request that goes on is timely, since `isRunning` is set. -/
theorem notifyAll_congr (hagree : Agree observe other) (hobserve : Tame t home observe)
    (hsteady : Steady t home observe) (hunended : task.isEnded = false)
    (hjob : task.job.destination = .element e) : ∀ (ns : List Notification) {s : Scene σ},
    Flow t home s → Flights t home s → (id, task) ∈ s.requests →
    (∀ n ∈ ns, ∀ p, n.position? = some p → p = task.job.position) →
    s.notifyAll other task.job ns = s.notifyAll observe task.job ns
  | [], _, _, _, _, _ => rfl
  | n :: ns, s, hflow, h, hmem, hns => by
    have htimely : n.Timely s.inst := fun p hp => by
      rw [hns n List.mem_cons_self p hp]
      exact Or.inr (h.isRunning hflow hmem hunended hjob)
    have h₁ := continues_notify hsteady hflow h task.job n
    have hrest := notifyAll_congr hagree hobserve hsteady hunended hjob ns
      (flow_notify hobserve hflow task.job n).1 h₁.flights (h₁.requests _ hmem)
      fun m hm => hns m (List.mem_cons_of_mem n hm)
    unfold notifyAll at hrest ⊢
    rw [List.foldl_cons, List.foldl_cons, notify_congr hagree htimely, hrest]

theorem receive_congr (hagree : Agree observe other) (hobserve : Tame t home observe)
    (hsteady : Steady t home observe) (hflow : Flow t home s) (h : Flights t home s)
    (hmem : (id, task) ∈ s.requests) (hunended : task.isEnded = false)
    (hjob : task.job.destination = .element e) (r : Response) :
    s.receive other id task.job r = s.receive observe id task.job r := by
  have hcode : s.requestsAt task.job.position ≠ [] := requestsAt_ne_nil hmem
  have hstatus : s.changeStatus other task.job r.status =
      s.changeStatus observe task.job r.status := by
    have hset := continues_setStatus h task.job r.status
    have hflowset := (flow_setStatus hflow task.job r.status (Or.inl hcode)).1
    have hrunning := hset.flights.isRunning hflowset (hset.requests _ hmem) hunended hjob
    have hshown : task.job.shownPosition = some task.job.position := by rw [Job.shownPosition, hjob]
    unfold changeStatus
    split
    · rfl
    · -- The observers may differ over a placeholder that is idle, and this one is running.
      refine notify_congr hagree (fun p hp => Or.inr ?_) task.job
      rw [Notification.position?, hshown, Option.some.injEq] at hp
      rwa [← hp]
  have hflow₁ := (flow_changeStatus hobserve hflow task.job r.status (Or.inl hcode)).1
  have h₁ := continues_changeStatus hsteady hflow h task.job r.status (Or.inl hcode)
  have hmem₁ := h₁.requests _ hmem
  unfold receive
  rw [hstatus]
  generalize s.changeStatus observe task.job r.status = s₁ at h₁ hflow₁ hmem₁
  simp only
  split
  · have hreworked := Instance.confined_insertResponse task.job r.body s₁.inst
    cases hrun : (Instance.insertResponse task.job r.body).run s₁.inst with
    | error cause j => rfl
    | ok ns j =>
      rw [stateAfter_of_ok hrun] at hreworked
      have hrequests := (sameBooks_of_reworked hreworked).requests_eq
      -- Putting in the response leaves the flights alone: the request runs when it is told.
      have hsame : ∀ p, j.isRunning p = s₁.inst.isRunning p := fun p => by
        rw [Instance.isRunning_eq, hreworked.flight_eq, ← Instance.isRunning_eq]
      have htold := notifyAll_congr hagree hobserve hsteady hunended hjob ns
        (flow_of_reworked hflow₁ hreworked) (h₁.flights.congr hrequests hsame)
        (by rwa [hrequests]) (Instance.position?_of_insertResponse hjob hrun)
      simp only
      rw [htold]
  · rfl

/-- So a turn is the same with `other` as with `observe`. -/
theorem turn_congr (hagree : Agree observe other) (hobserve : Tame t home observe)
    (hsteady : Steady t home observe) (hflow : Flow t home s) (h : Flights t home s)
    (hmem : (id, task) ∈ s.requests) (hjob : task.job.destination = .element e) :
    s.turn other id task = s.turn observe id task := by
  unfold turn
  cases hended : task.isEnded with
  | true => rfl
  | false =>
    -- until the response is used only the signals and the transport change
    have hreceive : ∀ (host : Host) (r : Response), host.tasks = s.host.tasks →
        ({ s with host } : Scene σ).receive other id task.job r =
          ({ s with host } : Scene σ).receive observe id task.job r := fun host r hhost => by
      have hrequests := (sameBooks_of_tasks s hhost).requests_eq
      exact receive_congr hagree hobserve hsteady (flow_of_tasks hflow hhost).1
        (h.congr hrequests fun _ => rfl) (by rwa [hrequests]) hended hjob r
    obtain ⟨signals, -, hlook⟩ := lookAtSignal_eq task s
    rw [if_neg (by simp), if_neg (by simp)]
    cases hsignal : s.lookAtSignal task with
    | mk reason s₁ =>
      rw [hsignal] at hlook
      obtain rfl : s₁ = _ := hlook
      cases reason with
      | some reason => rfl
      | none =>
        cases task.phase with
        | ended result => rfl
        | waiting due r => simp only [hreceive { s.host with signals } r rfl]
        | started =>
          simp only [ask]
          cases hfetch : s.host.transport.fetch task.request with
          | mk answer transport =>
            cases answer with
            | error cause => rfl
            | ok reply =>
              have hused := hreceive { s.host with signals, transport } reply.response rfl
              simp only [mapHost]
              rw [hused]

end Turns

/-! ### Runs -/

variable {source : String} {ds ds' : List Diagnostic} {responses : List (Position × Response)}

/-- **Observers are told about a placeholder while its request runs, or else that its status is
zero.** An observer that does anything else at other moments makes no difference to any step. -/
theorem told_while_running (hcompile : (Template.compile source).run ds = .ok t ds')
    (hsingle : t.single = false) (hobserve : Considerate observe) (hrun : Run observe t responses s)
    (hagree : Agree observe other) :
    (∀ target event, (dispatch other target event).run s = (dispatch observe target event).run s) ∧
      ∀ id task, (id, task) ∈ s.requests → s.turn other id task = s.turn observe id task := by
  obtain ⟨home, ht, hflow, -, h⟩ := (invariant_flights_of_considerate hobserve).of_run
    (Template.compiled_compile hcompile) hobserve.lawful hrun
  refine ⟨fun target event => by rw [dispatch_congr hagree], fun id task hmem => ?_⟩
  obtain ⟨x, hx, hdescribes⟩ := hflow.jobs _ hmem
  obtain ⟨e, he⟩ := ht.home_element x hx (Or.inl hsingle)
  exact turn_congr hagree (hobserve.lawful.tame ht) (hobserve.steady ht) hflow h hmem
    (hdescribes.destination.trans he)

/-- **With considerate observers no two requests of a placeholder overlap**, and a request is marked
as running exactly while there is one. -/
theorem alone_of_run (hcompile : (Template.compile source).run ds = .ok t ds')
    (hsingle : t.single = false) (hobserve : Considerate observe) (hrun : Run observe t responses s)
    (hx : x ∈ t.placeholders) : (s.unfinished x.position).length ≤ 1 ∧
      (s.inst.isRunning x.position = true ↔ s.unfinished x.position ≠ []) := by
  obtain ⟨home, ht, -, -, h⟩ := (invariant_flights_of_considerate hobserve).of_run
    (Template.compiled_compile hcompile) hobserve.lawful hrun
  obtain ⟨e, he⟩ := ht.home_element x hx (Or.inl hsingle)
  exact ⟨h.alone x hx, h.running x hx e he⟩

/-- An observer that fires the event again when it is told that the status is zero: it is told so
while no request is marked as running, and then two of them overlap. -/
theorem overlap_once_dispatched : ∃ (t : Template) (ds : List Diagnostic)
    (responses : List (Position × Response)) (s : Scene Watch),
    (Template.compile "<i><b></b><request src=a after=click:b></request></i>").run [] = .ok t ds ∧
    Run (watching 1) t responses s ∧ t.single = false ∧
    (∃ id label html record, record.running = false ∧
      .seen id label (.status 0 (some 1)) html (some record) ∈ s.memory.log) ∧
    (s.unfinished 1).length = 2 := by
  let host : Host := { Host.empty with transport := ⟨[(⟨.get, "a"⟩, [⟨⟨200, "c"⟩, 0⟩])], []⟩ }
  let again : Reaction := ⟨.status 0, 1, .fire (.select "b" 0) "click"⟩
  let memory : Watch := { Watch.empty with reactions := [((0, "o"), [again])] }
  -- the first event starts the request, its turn ends it, and the second event starts two
  obtain ⟨t, ds, responses, s, hcompile, hrun, hplayed⟩ := exists_run_of_perform (watching 1)
    "<i><b></b><request src=a after=click:b></request></i>" (.plain { observer := some "o" }) host
    memory [.event [0] "click", .turn 0, .event [0] "click"]
    (fun (t, _, s) => decide (t.single = false ∧
      (s.memory.log.any fun
        | .seen _ _ n _ record =>
          decide (n = .status 0 (some 1) ∧ record.map (·.running) = some false)
        | .reacted _ _ _ => false) = true ∧ (s.unfinished 1).length = 2)) rfl (by decide +kernel)
  obtain ⟨hsingle, hlog, hlength⟩ := of_decide_eq_true hplayed
  refine ⟨t, ds, responses, s, hcompile, hrun, hsingle, ?_, hlength⟩
  obtain ⟨entry, hentry, htold⟩ := List.any_eq_true.mp hlog
  split at htold
  · rename_i id label n html record
    obtain ⟨rfl, hidle⟩ := of_decide_eq_true htold
    obtain ⟨r, rfl, hmark⟩ := Option.map_eq_some_iff.mp hidle
    exact ⟨id, label, html, r, hmark, hentry⟩
  · exact absurd htold (by simp)

end Scene

end Inlay
