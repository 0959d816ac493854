import Inlay.Proofs.Instance.Insert
import Inlay.Proofs.Scene.Run

/-!
# How requests come about

`Flow t home s` ties together what an instance keeps about requests: every request and every standby
belongs to a placeholder of the template, a placeholder that does not track its output has at most
one request, and one that fires once only stops listening when it has fired.

An observer can dispatch events while a request is being started, so a step is more than what it
does itself. `Quiet` is what holds of everything that observers can do in the meantime; `acts_flow`
shows it for all actions of lawful observers at once.
-/

namespace Inlay

/-- The request is made for the job, with a signal of its options. -/
def Job.Makes (job : Job) (request : Outgoing) : Prop :=
  ∃ signals : Signals, request = job.outgoing (signals.forRequest job.options).1

namespace Signals

/-- A new signal takes no time, `now` stays. -/
theorem now_forRequest (signals : Signals) (o : RequestOptions) :
    (signals.forRequest o).2.now = signals.now := by
  unfold forRequest
  split <;> rfl

/-- Whether a request can get its signal depends on `now` alone. -/
theorem grants_congr {signals signals' : Signals} (h : signals'.now = signals.now)
    (o : RequestOptions) : signals'.grants o = signals.grants o := by
  have hreaches : signals'.reaches = signals.reaches := by
    funext time
    rw [reaches, reaches, h]
  rw [grants, grants, hreaches]

/-- Options with `time ≤ limit` for every timeout are granted until `limit` before the `horizon`. -/
theorem grants_of_le {signals : Signals} {o : RequestOptions} {limit : Nat}
    (hclock : signals.now + limit ≤ horizon) (htimeout : ∀ time ∈ o.timeout, time ≤ limit) :
    signals.grants o = true := by
  have hall : o.effectiveTimeout.all signals.reaches = true := by
    rw [Option.all_eq_true]
    intro time htime
    have hle := htimeout time (Option.mem_def.mpr (Option.filter_eq_some_iff.mp htime).1)
    exact decide_eq_true (by omega)
  rw [grants, hall, Bool.or_true]

end Signals

/-- The job is that of the placeholder, whose responses go where `home` says. -/
structure Placeholder.Describes (x : Placeholder) (home : Position → Destination) (job : Job) :
    Prop where
  position : job.position = x.position
  tracked : job.tracked = x.isTracked
  destination : job.destination = home x.position

/-- Placeholders are told apart by their positions, and they have a place in the tree of an
instance, unless the template is a single one without a trigger. -/
structure Template.Housed (t : Template) (home : Position → Destination) : Prop where
  nodup : (t.placeholders.map (·.position)).Nodup
  deferred_of_one : ∀ x ∈ t.placeholders, x.mode = .one → x.isDeferred = true
  home_element : ∀ x ∈ t.placeholders, t.single = false ∨ x.isDeferred = true →
    ∃ id, home x.position = .element id

/-- Placeholders of a template are told apart by `position`. -/
theorem Template.Housed.eq_of_position {t : Template} {home : Position → Destination}
    (h : t.Housed home) {x y : Placeholder} (hx : x ∈ t.placeholders) (hy : y ∈ t.placeholders)
    (he : x.position = y.position) : x = y :=
  List.inj_on_of_nodup_map h.nodup hx hy he

/-- A placeholder with `mode = .one` keeps no track of its output. -/
theorem Placeholder.isTracked_of_one {x : Placeholder} (h : x.mode = .one) :
    x.isTracked = false := by
  rw [isTracked, h]
  simp

/-- No active subscription belongs to the placeholder. -/
def Instance.Deaf (i : Instance) (p : Position) : Prop :=
  ∀ l ∈ i.listeners.active, l.listener ≠ p

namespace Scene

variable {σ : Type} {t : Template} {home : Position → Destination} {s s' s'' : Scene σ}
  {observe : Observer σ}

/-- The placeholder has not fired or does not listen any more. -/
def Settled (s : Scene σ) (p : Position) : Prop :=
  s.requestsAt p ≠ [] → s.inst.Deaf p

/-- What holds of the requests of an instance at every moment. -/
structure Flow (t : Template) (home : Position → Destination) (s : Scene σ) : Prop where
  jobs : ∀ r ∈ s.requests, ∃ x ∈ t.placeholders, x.Describes home r.2.job
  standbys : ∀ b ∈ s.inst.standbys, ∃ x ∈ t.placeholders,
    x.Describes home b.job ∧ x.isDeferred = true ∧ b.mode = x.mode
  attended : s.inst.Attended
  once : ∀ x ∈ t.placeholders, x.isTracked = false → (s.requestsAt x.position).length ≤ 1
  /-- Between firing and unsubscribing the request is running already. -/
  spent : ∀ x ∈ t.placeholders, x.mode = .one → s.requestsAt x.position ≠ [] →
    s.inst.isRunning x.position = true ∨ s.inst.Deaf x.position
  calm : ∀ x ∈ t.placeholders, x.isTracked = false → s.requestsAt x.position = [] →
    ∀ f, s.inst.flight? x.position = some f → f.1 = 0
  recorded : ∀ x ∈ t.placeholders, ∀ id, home x.position = .element id →
    (s.inst.flight? x.position).isSome

/-- The tree and what goes with it is the same. -/
structure SameTree (i j : Instance) : Prop where
  id_eq : j.id = i.id
  arena_eq : j.arena = i.arena
  root_eq : j.root = i.root
  regions_eq : j.regions = i.regions

theorem SameTree.refl (i : Instance) : SameTree i i :=
  ⟨rfl, rfl, rfl, rfl⟩

theorem SameTree.trans {i j k : Instance} (h : SameTree i j) (h' : SameTree j k) : SameTree i k :=
  ⟨h'.id_eq.trans h.id_eq, h'.arena_eq.trans h.arena_eq, h'.root_eq.trans h.root_eq,
    h'.regions_eq.trans h.regions_eq⟩

/-- The tree is the same, and so is what is known about the responses in it. -/
structure SameContents (i j : Instance) : Prop extends SameTree i j where
  fragment_eq : j.fragment = i.fragment
  responses_eq : ∀ p, j.response? p = i.response? p

theorem SameContents.refl (i : Instance) : SameContents i i :=
  ⟨SameTree.refl i, rfl, fun _ => rfl⟩

theorem SameContents.trans {i j k : Instance} (h : SameContents i j) (h' : SameContents j k) :
    SameContents i k where
  toSameTree := h.toSameTree.trans h'.toSameTree
  fragment_eq := h'.fragment_eq.trans h.fragment_eq
  responses_eq p := (h'.responses_eq p).trans (h.responses_eq p)

/-- What lies between `s` and `s'` does not touch the tree, ends no request, and starts none for a
placeholder that does not track its output, unless it had none and has one running now. -/
structure Quiet (t : Template) (s s' : Scene σ) : Prop where
  tree : SameContents s.inst s'.inst
  running : ∀ p, s.inst.isRunning p = true → s'.inst.isRunning p = true
  requests : ∀ x ∈ t.placeholders, x.isTracked = false →
    s'.requestsAt x.position = s.requestsAt x.position ∨
      s.requestsAt x.position = [] ∧ s'.inst.isRunning x.position = true
  settled : ∀ x ∈ t.placeholders, x.mode = .one → s.Settled x.position → s'.Settled x.position

theorem Quiet.refl (t : Template) (s : Scene σ) : Quiet t s s where
  tree := SameContents.refl s.inst
  running _ h := h
  requests _ _ _ := Or.inl rfl
  settled _ _ _ h := h

theorem Quiet.trans (h : Quiet t s s') (h' : Quiet t s' s'') : Quiet t s s'' where
  tree := h.tree.trans h'.tree
  running p hp := h'.running p (h.running p hp)
  requests x hx htracked := by
    rcases h.requests x hx htracked with he | ⟨hnone, hrunning⟩
    · rw [← he]
      exact h'.requests x hx htracked
    · exact Or.inr ⟨hnone, h'.running _ hrunning⟩
  settled x hx hone hs := h'.settled x hx hone (h.settled x hx hone hs)

/-- If a placeholder that fires only once has no request or runs, so it does after what is
`Quiet`. -/
theorem Quiet.fresh (h : Quiet t s s') {x : Placeholder} (hx : x ∈ t.placeholders)
    (hone : x.mode = .one) {p : Position} (hp : x.position = p)
    (hfresh : s.requestsAt p = [] ∨ s.inst.isRunning p = true) :
    s'.requestsAt p = [] ∨ s'.inst.isRunning p = true := by
  subst hp
  rcases hfresh with hnone | hrunning
  · rcases h.requests x hx (Placeholder.isTracked_of_one hone) with he | ⟨-, hrunning⟩
    · exact Or.inl (he.trans hnone)
    · exact Or.inr hrunning
  · exact Or.inr (h.running _ hrunning)

/-! ### Changes that start nothing -/

/-- The requests of the instance and what waits for events are the same. -/
structure SameBooks (s s' : Scene σ) : Prop where
  requests_eq : s'.requests = s.requests
  standbys_eq : s'.inst.standbys = s.inst.standbys
  listeners_eq : s'.inst.listeners = s.inst.listeners

namespace SameBooks

theorem requestsAt_eq (h : SameBooks s s') (p : Position) : s'.requestsAt p = s.requestsAt p := by
  rw [requestsAt, h.requests_eq, ← requestsAt]

theorem deaf_iff (h : SameBooks s s') (p : Position) : s'.inst.Deaf p ↔ s.inst.Deaf p := by
  rw [Instance.Deaf, h.listeners_eq, ← Instance.Deaf]

theorem settled_iff (h : SameBooks s s') (p : Position) : s'.Settled p ↔ s.Settled p := by
  rw [Settled, h.requestsAt_eq, h.deaf_iff, ← Settled]

/-- `Flow` is kept if what runs goes on, records stay, and a status other than `0` belongs to a
placeholder with requests. -/
theorem flow (h : SameBooks s s') (hflow : Flow t home s)
    (hrunning : ∀ x ∈ t.placeholders, x.mode = .one → s.inst.isRunning x.position = true →
      s'.inst.isRunning x.position = true ∨ s.Settled x.position)
    (hstatus : ∀ x ∈ t.placeholders, s.requestsAt x.position = [] →
      ∀ f', s'.inst.flight? x.position = some f' →
        f'.1 = 0 ∨ ∃ f, s.inst.flight? x.position = some f ∧ f'.1 = f.1)
    (hsome : ∀ p, (s'.inst.flight? p).isSome = (s.inst.flight? p).isSome) : Flow t home s' where
  jobs := by
    rw [h.requests_eq]
    exact hflow.jobs
  standbys := by
    rw [h.standbys_eq]
    exact hflow.standbys
  attended := hflow.attended.congr h.standbys_eq h.listeners_eq
  once x hx htracked := by
    rw [h.requestsAt_eq]
    exact hflow.once x hx htracked
  spent x hx hone hne := by
    rw [h.requestsAt_eq] at hne
    rw [h.deaf_iff]
    -- A placeholder that fired its only time is running, or has stopped listening.
    rcases hflow.spent x hx hone hne with hr | hdeaf
    · exact (hrunning x hx hone hr).imp_right fun hs => hs hne
    · exact Or.inr hdeaf
  calm x hx htracked hnone f' hf' := by
    rw [h.requestsAt_eq] at hnone
    rcases hstatus x hx hnone f' hf' with hzero | ⟨f, hf, he⟩
    · exact hzero
    · exact he.trans (hflow.calm x hx htracked hnone f hf)
  recorded x hx id hid := by
    rw [hsome]
    exact hflow.recorded x hx id hid

/-- A change of the instance that keeps its books, its tree and the marks of running requests is
`Quiet`. -/
theorem quiet (h : SameBooks s s') (htree : SameContents s.inst s'.inst)
    (hrunning : ∀ p, s.inst.isRunning p = true → s'.inst.isRunning p = true) : Quiet t s s' where
  tree := htree
  running := hrunning
  requests x _ _ := Or.inl (h.requestsAt_eq x.position)
  settled x _ _ hs := (h.settled_iff x.position).mpr hs

/-- `Flow` is kept if `flight?`, the status and the mark of each record, is the same. -/
theorem flow_of_flight (h : SameBooks s s') (hflight : ∀ p, s'.inst.flight? p = s.inst.flight? p)
    (hflow : Flow t home s) : Flow t home s' := by
  refine h.flow hflow (fun x _ _ hr => Or.inl ?_) (fun x _ _ f hf => Or.inr ⟨f, ?_, rfl⟩)
    fun p => ?_
  · rwa [Instance.isRunning_eq, hflight, ← Instance.isRunning_eq]
  · rwa [← hflight]
  · rw [hflight]

theorem quiet_of_flight (h : SameBooks s s') (hflight : ∀ p, s'.inst.flight? p = s.inst.flight? p)
    (htree : SameContents s.inst s'.inst) : Quiet t s s' :=
  h.quiet htree fun p hp => by rwa [Instance.isRunning_eq, hflight, ← Instance.isRunning_eq]

end SameBooks

/-- What is on the host does not concern `Flow`, except for the requests of the instance; nor does
it matter what nobody has taken. -/
theorem flow_elsewhere (h : Flow t home s) {host : Host}
    (hhost : s.host.SameRequests s.inst.id host) (memory : σ)
    (pending : List (Position × TaskId)) :
    Flow t home { inst := { s.inst with pending }, host, memory } ∧
      Quiet t s { inst := { s.inst with pending }, host, memory } := by
  have hbooks : SameBooks s { inst := { s.inst with pending }, host, memory } := ⟨hhost, rfl, rfl⟩
  exact ⟨hbooks.flow_of_flight (fun _ => rfl) h,
    hbooks.quiet_of_flight (fun _ => rfl) ⟨⟨rfl, rfl, rfl, rfl⟩, rfl, fun _ => rfl⟩⟩

/-! ### Telling observers -/

/-- Whatever the observer does when it is told something, it keeps to this. -/
def Tame (t : Template) (home : Position → Destination) (observe : Observer σ) : Prop :=
  ∀ label n s, Flow t home s → Flow t home (observe label n s) ∧ Quiet t s (observe label n s)

/-- Telling a tame observer one thing keeps `Flow` and is `Quiet`. -/
theorem flow_notify (hobserve : Tame t home observe) (h : Flow t home s) (job : Job)
    (n : Notification) :
    Flow t home (s.notify observe job n) ∧ Quiet t s (s.notify observe job n) := by
  unfold notify
  split
  · exact hobserve _ _ _ h
  · exact ⟨h, Quiet.refl t s⟩

/-- Telling a tame observer several things, one after the other, keeps `Flow` and is `Quiet`. -/
theorem flow_notifyAll (hobserve : Tame t home observe) (job : Job) : ∀ (ns : List Notification)
    {s : Scene σ}, Flow t home s →
    Flow t home (s.notifyAll observe job ns) ∧ Quiet t s (s.notifyAll observe job ns)
  | [], s, h => ⟨h, Quiet.refl t s⟩
  | n :: ns, s, h => by
    obtain ⟨h₁, hquiet₁⟩ := flow_notify hobserve h job n
    obtain ⟨h₂, hquiet₂⟩ := flow_notifyAll hobserve job ns h₁
    exact ⟨h₂, hquiet₁.trans hquiet₂⟩

/-- A change of `flight?` that leaves its second component alone leaves `isRunning p` alone. -/
theorem isRunning_of_flight?_map {i j : Instance} {f : Nat × Bool → Nat × Bool} {p : Position}
    (h : j.flight? p = (i.flight? p).map f) (hf : ∀ x, (f x).2 = x.2) :
    j.isRunning p = i.isRunning p := by
  rw [Instance.isRunning_eq, Instance.isRunning_eq, h]
  cases i.flight? p with
  | none => rfl
  | some x => exact hf x

theorem sameContents_setStatus (i : Instance) (job : Job) (code : Nat) :
    SameContents i (i.setStatus job code) := by
  unfold Instance.setStatus
  split
  · exact ⟨⟨rfl, rfl, rfl, rfl⟩, rfl, fun _ => rfl⟩
  · exact ⟨⟨rfl, rfl, rfl, rfl⟩, rfl,
      Instance.response?_updateRecord (by simp) (by simp) i job.position⟩

theorem sameBooks_setStatus (s : Scene σ) (job : Job) (code : Nat) :
    SameBooks s (s.mapInst (·.setStatus job code)) := by
  unfold mapInst Instance.setStatus
  split <;> exact ⟨rfl, rfl, rfl⟩

/-- Setting a status keeps `Flow` if the placeholder has a request or the status becomes `0`. -/
theorem flow_setStatus (h : Flow t home s) (job : Job) (code : Nat)
    (hcode : s.requestsAt job.position ≠ [] ∨ code = 0) :
    Flow t home (s.mapInst (·.setStatus job code)) ∧
      Quiet t s (s.mapInst (·.setStatus job code)) := by
  have hbooks := sameBooks_setStatus s job code
  have htree := sameContents_setStatus s.inst job code
  cases hjob : job.destination with
  | whole =>
    have hflight : ∀ p, (s.mapInst (·.setStatus job code)).inst.flight? p = s.inst.flight? p := by
      intro p
      unfold mapInst Instance.setStatus
      rw [hjob]
      rfl
    exact ⟨hbooks.flow_of_flight hflight h, hbooks.quiet_of_flight hflight htree⟩
  | element id =>
    have hflight : ∀ p, (s.mapInst (·.setStatus job code)).inst.flight? p = _ :=
      Instance.flight?_setStatus hjob s.inst code
    have hrunning : ∀ p, (s.mapInst (·.setStatus job code)).inst.isRunning p = s.inst.isRunning p :=
      fun p => isRunning_of_flight?_map (hflight p) fun x => by split <;> rfl
    have hsome : ∀ p, ((s.mapInst (·.setStatus job code)).inst.flight? p).isSome
        = (s.inst.flight? p).isSome := fun p => by rw [hflight, Option.isSome_map]
    constructor
    · refine hbooks.flow h (fun x _ _ hr => Or.inl ((hrunning _).trans hr)) ?_ hsome
      intro x _ hnone f' hf'
      rw [hflight, Option.map_eq_some_iff] at hf'
      obtain ⟨f, hf, rfl⟩ := hf'
      by_cases hp : x.position = job.position
      · -- a placeholder without requests gets no status but zero
        rw [if_pos hp]
        exact Or.inl (hcode.resolve_left fun hne => hne (hp ▸ hnone))
      · rw [if_neg hp]
        exact Or.inr ⟨f, hf, rfl⟩
    · exact hbooks.quiet htree fun p hp => (hrunning p).trans hp

theorem flow_changeStatus (hobserve : Tame t home observe) (h : Flow t home s) (job : Job)
    (code : Nat) (hcode : s.requestsAt job.position ≠ [] ∨ code = 0) :
    Flow t home (s.changeStatus observe job code) ∧
      Quiet t s (s.changeStatus observe job code) := by
  unfold changeStatus
  split
  · exact ⟨h, Quiet.refl t s⟩
  · obtain ⟨h₁, hquiet₁⟩ := flow_setStatus h job code hcode
    obtain ⟨h₂, hquiet₂⟩ := flow_notify hobserve h₁ job (.status code job.shownPosition)
    exact ⟨h₂, hquiet₁.trans hquiet₂⟩

/-! ### Starting requests -/

/-- The scene with a request taken in by the host. -/
def board (job : Job) (request : Outgoing) (s : Scene σ) : Scene σ :=
  let inst := s.inst.setRunning job true
  let (id, host) := s.host.enqueue ⟨inst.id, job, request, .started⟩
  { s with inst := inst.addPending job.position id, host }

/-- To start a request is to make it, to set the status to `0`, and to take the request in. -/
theorem launch_eq (observe : Observer σ) (job : Job) : launch observe job = (do
    let request ← makeOutgoing job
    modify fun s => (s.changeStatus observe job 0).board job request) := by
  unfold launch start
  rw [bind_assoc]
  rfl

/-- The signal of a request is one of those there are, or a new one, so signals go `Onward`. -/
theorem onward_forRequest (signals : Signals) (o : RequestOptions) :
    signals.Onward (signals.forRequest o).2 := by
  unfold Signals.forRequest
  split
  · exact .refl signals
  · exact .create _ (.refl signals)
  · exact .refl signals

/-- A request was made ready on the host: nothing is different but the signals, which have gone on,
and the diagnostics. -/
structure Equips (h h' : Host) : Prop where
  tasks_eq : h'.tasks = h.tasks
  ready_eq : h'.ready = h.ready
  transport_eq : h'.transport = h.transport
  onward : h.signals.Onward h'.signals

theorem Equips.refl (h : Host) : Equips h h :=
  ⟨rfl, rfl, rfl, .refl h.signals⟩

/-- The scene when what the options cause has been reported and the request has its signal. -/
def equipped (job : Job) (s : Scene σ) : Scene σ :=
  let host := s.host.report job.options.diagnostics
  { s with host := { host with signals := (host.signals.forRequest job.options).2 } }

/-- Making a request reports the diagnostics of the job and adds a signal, as `Equips` allows. -/
theorem equips_equipped (job : Job) (s : Scene σ) : Equips s.host (s.equipped job).host :=
  ⟨rfl, rfl, rfl, onward_forRequest s.host.signals job.options⟩

theorem equips_report (h : Host) (ds : List Diagnostic) : Equips h (h.report ds) :=
  ⟨rfl, rfl, rfl, .refl h.signals⟩

/-- A request with headers that can be sent is started, if `grants` holds. -/
theorem run_launch (observe : Observer σ) {job : Job}
    (hvalid : Options.validateHeaders job.options.headers = .ok ()) {s : Scene σ}
    (hgrants : s.host.signals.grants job.options = true) :
    (launch observe job).run s = .ok () (((s.equipped job).changeStatus observe job 0).board job
      (job.outgoing (s.host.signals.forRequest job.options).1)) := by
  have hmake : (makeOutgoing job).run s =
      .ok (job.outgoing (s.host.signals.forRequest job.options).1) (s.equipped job) := by
    have hgrants' : (s.mapHost (·.report job.options.diagnostics)).host.signals.grants
        job.options = true := hgrants
    simp only [makeOutgoing, hvalid, EStateM.run_bind, EStateM.run_modify, EStateM.run_get]
    rw [if_pos hgrants']
    rfl
  rw [launch_eq, run_bind_of_ok hmake]
  rfl

/-- One with headers that cannot be sent is refused with `.template e`, and all is as before. -/
theorem run_launch_of_invalid (observe : Observer σ) {job : Job} {e : TemplateError}
    (hinvalid : Options.validateHeaders job.options.headers = .error e) (s : Scene σ) :
    (launch observe job).run s = .error (.template e) s := by
  have hmake : (makeOutgoing job).run s = .error (.template e) s := by
    unfold makeOutgoing
    rw [hinvalid]
    rfl
  rw [launch_eq, run_bind_of_error hmake]

/-- One whose deadline would lie beyond the `horizon` is not started either, but its diagnostics
have been reported. -/
theorem run_launch_of_overflow (observe : Observer σ) {job : Job}
    (hvalid : Options.validateHeaders job.options.headers = .ok ()) {s : Scene σ}
    (hgrants : s.host.signals.grants job.options = false) :
    (launch observe job).run s = .error (.arithmetic .momentOverflow)
      { s with host := s.host.report job.options.diagnostics } := by
  have hmake : (makeOutgoing job).run s = .error (.arithmetic .momentOverflow)
      { s with host := s.host.report job.options.diagnostics } := by
    have hgrants' : ¬ (s.mapHost (·.report job.options.diagnostics)).host.signals.grants
        job.options = true := Bool.eq_false_iff.mp hgrants
    simp only [makeOutgoing, hvalid, EStateM.run_bind, EStateM.run_modify, EStateM.run_get]
    rw [if_neg hgrants']
    rfl
  rw [launch_eq, run_bind_of_error hmake]

/-- Starting a request either fails, and nothing happened to the instance, or it changes the status
to `0` and takes the request in. -/
theorem launch_cases (observe : Observer σ) (job : Job) (s : Scene σ) :
    (∃ f host, Equips s.host host ∧ (launch observe job).run s = .error f { s with host }) ∨
      ∃ request host, Equips s.host host ∧ job.Makes request ∧ (launch observe job).run s =
        .ok () (({ s with host }.changeStatus observe job 0).board job request) := by
  cases hvalid : Options.validateHeaders job.options.headers with
  | error error => exact Or.inl ⟨_, s.host, .refl _, run_launch_of_invalid observe hvalid s⟩
  | ok _ =>
    cases hgrants : s.host.signals.grants job.options with
    | false => exact Or.inl ⟨_, _, equips_report _ _, run_launch_of_overflow observe hvalid hgrants⟩
    | true =>
      exact Or.inr ⟨_, (s.equipped job).host, s.equips_equipped job, ⟨s.host.signals, rfl⟩,
        run_launch observe hvalid hgrants⟩

theorem sameContents_setRunning (i : Instance) (job : Job) (flag : Bool) :
    SameContents i (i.setRunning job flag) := by
  unfold Instance.setRunning
  split
  · exact SameContents.refl i
  · exact ⟨⟨rfl, rfl, rfl, rfl⟩, rfl,
      Instance.response?_updateRecord (by simp) (by simp) i job.position⟩

theorem sameBooks_setRunning (s : Scene σ) (job : Job) (flag : Bool) :
    SameBooks s (s.mapInst (·.setRunning job flag)) := by
  unfold mapInst Instance.setRunning
  split <;> exact ⟨rfl, rfl, rfl⟩

theorem isSome_flight?_setRunning (i : Instance) (job : Job) (flag : Bool) (p : Position) :
    ((i.setRunning job flag).flight? p).isSome = (i.flight? p).isSome := by
  cases hjob : job.destination with
  | whole => rw [Instance.setRunning_of_whole hjob]
  | element id => rw [Instance.flight?_setRunning hjob, Option.isSome_map]

section Board

variable {job : Job} {request : Outgoing}

/-- The request that is taken in is the last one, with the next free id, `⟨s.host.tasks.length⟩`. -/
theorem requests_board (s : Scene σ) (job : Job) (request : Outgoing) :
    (s.board job request).requests =
      s.requests ++ [(⟨s.host.tasks.length⟩, ⟨s.inst.id, job, request, .started⟩)] := by
  have hid := (sameContents_setRunning s.inst job true).id_eq
  have hinst : (s.board job request).inst.id = s.inst.id := hid
  have hhost : (s.board job request).host =
      (s.host.enqueue ⟨(s.inst.setRunning job true).id, job, request, .started⟩).2 := rfl
  rw [requests, hinst, hhost, hid, Host.requestsOf_enqueue, if_pos rfl]
  rfl

theorem requestsAt_board_self (s : Scene σ) (job : Job) (request : Outgoing) :
    (s.board job request).requestsAt job.position = s.requestsAt job.position ++
      [(⟨s.host.tasks.length⟩, ⟨s.inst.id, job, request, .started⟩)] := by
  rw [requestsAt, requests_board, List.filter_append, requestsAt]
  simp

theorem requestsAt_board_of_ne (s : Scene σ) (request : Outgoing) {p : Position}
    (hp : p ≠ job.position) : (s.board job request).requestsAt p = s.requestsAt p := by
  rw [requestsAt, requests_board, List.filter_append, requestsAt]
  simp [Ne.symm hp]

theorem isRunning_board_of_ne (s : Scene σ) (request : Outgoing) {p : Position}
    (hp : p ≠ job.position) : (s.board job request).inst.isRunning p = s.inst.isRunning p := by
  change (s.inst.setRunning job true).isRunning p = _
  rw [Instance.isRunning_eq, Instance.flight?_setRunning_of_ne hp, ← Instance.isRunning_eq]

/-- The placeholder of the job runs from then on, if `flight?` is there. -/
theorem isRunning_board_self {id : NodeId} (hjob : job.destination = .element id) (s : Scene σ)
    (request : Outgoing) (hsome : (s.inst.flight? job.position).isSome) :
    (s.board job request).inst.isRunning job.position = true := by
  change (s.inst.setRunning job true).isRunning job.position = true
  rw [Instance.isRunning_setRunning hjob, if_pos rfl, hsome]
  rfl

theorem isRunning_board (s : Scene σ) (job : Job) (request : Outgoing) {p : Position}
    (h : s.inst.isRunning p = true) : (s.board job request).inst.isRunning p = true := by
  by_cases hp : p = job.position
  · subst hp
    cases hjob : job.destination with
    | whole =>
      change (s.inst.setRunning job true).isRunning job.position = true
      rwa [Instance.setRunning_of_whole hjob]
    | element id => exact isRunning_board_self hjob s request (Instance.isSome_of_isRunning h)
  · rwa [isRunning_board_of_ne s request hp]

/-- Taking in a request for `x` keeps `Flow` if `x` tracks its output or had no request. -/
theorem flow_board (h : Flow t home s) (ht : t.Housed home) {x : Placeholder}
    (hx : x ∈ t.placeholders) (hjob : x.Describes home job)
    (hfree : x.isTracked = false → s.requestsAt x.position = []) (request : Outgoing) :
    Flow t home (s.board job request) := by
  have hother : ∀ y ∈ t.placeholders, y ≠ x → y.position ≠ job.position := fun y hy hne he =>
    hne (ht.eq_of_position hy hx (he.trans hjob.position))
  have hself := requestsAt_board_self s job request
  rw [hjob.position] at hself
  have hsome : ∀ p, ((s.board job request).inst.flight? p).isSome = (s.inst.flight? p).isSome :=
    isSome_flight?_setRunning s.inst job true
  have hstandbys : (s.board job request).inst.standbys = s.inst.standbys :=
    (sameBooks_setRunning s job true).standbys_eq
  have hlisteners : (s.board job request).inst.listeners = s.inst.listeners :=
    (sameBooks_setRunning s job true).listeners_eq
  constructor
  case jobs =>
    rw [requests_board]
    intro r hr
    rcases List.mem_append.mp hr with hr | hr
    · exact h.jobs r hr
    · obtain rfl := List.mem_singleton.mp hr
      exact ⟨x, hx, hjob⟩
  case standbys =>
    rw [hstandbys]
    exact h.standbys
  case attended => exact h.attended.congr hstandbys hlisteners
  case once =>
    intro y hy htracked
    by_cases he : y = x
    · subst he
      rw [hself, hfree htracked]
      exact Nat.le_refl 1
    · rw [requestsAt_board_of_ne s request (hother y hy he)]
      exact h.once y hy htracked
  case spent =>
    intro y hy hone hne
    by_cases he : y = x
    · -- it still listens, but a placeholder that fires once has a record, and that says it runs
      subst he
      obtain ⟨id, hid⟩ := ht.home_element y hy (Or.inr (ht.deferred_of_one y hy hone))
      have hsome' := h.recorded y hy id hid
      rw [← hjob.position] at hsome' ⊢
      exact Or.inl (isRunning_board_self (hjob.destination.trans hid) s request hsome')
    · rw [requestsAt_board_of_ne s request (hother y hy he)] at hne
      rw [isRunning_board_of_ne s request (hother y hy he), Instance.Deaf, hlisteners]
      exact h.spent y hy hone hne
  case calm =>
    intro y hy htracked hnone f hf
    by_cases he : y = x
    · subst he
      rw [hself] at hnone
      exact absurd hnone (by simp)
    · have hp := hother y hy he
      rw [requestsAt_board_of_ne s request hp] at hnone
      refine h.calm y hy htracked hnone f ?_
      rw [← hf]
      exact (Instance.flight?_setRunning_of_ne hp s.inst true).symm
  case recorded =>
    intro y hy id hid
    rw [hsome]
    exact h.recorded y hy id hid

theorem sameContents_board (s : Scene σ) (job : Job) (request : Outgoing) :
    SameContents s.inst (s.board job request).inst := by
  obtain ⟨⟨hid, harena, hroot, hregions⟩, hfragment, hresponses⟩ :=
    sameContents_setRunning s.inst job true
  exact ⟨⟨hid, harena, hroot, hregions⟩, hfragment, hresponses⟩

/-- Taking in a request for a placeholder that tracks its output is `Quiet`. -/
theorem quiet_board_of_tracked (ht : t.Housed home) {x : Placeholder} (hx : x ∈ t.placeholders)
    (hjob : x.Describes home job) (htracked : x.isTracked = true) (s : Scene σ)
    (request : Outgoing) : Quiet t s (s.board job request) := by
  have hother : ∀ y ∈ t.placeholders, y.isTracked = false → y.position ≠ job.position := by
    rintro y hy hy' he
    obtain rfl := ht.eq_of_position hy hx (he.trans hjob.position)
    rw [htracked] at hy'
    exact absurd hy' (by simp)
  constructor
  case tree => exact sameContents_board s job request
  case running => exact fun p hp => isRunning_board s job request hp
  case requests =>
    intro y hy hy'
    exact Or.inl (requestsAt_board_of_ne s request (hother y hy hy'))
  case settled =>
    intro y hy hone hsettled hne
    have hp := hother y hy (Placeholder.isTracked_of_one hone)
    rw [requestsAt_board_of_ne s request hp] at hne
    have hlisteners : (s.board job request).inst.listeners = s.inst.listeners :=
      (sameBooks_setRunning s job true).listeners_eq
    rw [Instance.Deaf, hlisteners]
    exact hsettled hne

/-- Taking in the first request of a placeholder that then stops listening is `Quiet`. -/
theorem quiet_board_standDown {id : NodeId}
    (hjob : job.destination = .element id) (hsome : (s.inst.flight? job.position).isSome)
    (hfree : s.requestsAt job.position = []) (request : Outgoing)
    (hboard : Flow t home (s.board job request)) :
    Quiet t s ((s.board job request).mapInst (·.standDown job.position)) := by
  have hlisteners : (s.board job request).inst.listeners = s.inst.listeners :=
    (sameBooks_setRunning s job true).listeners_eq
  constructor
  case tree =>
    obtain ⟨⟨hid, harena, hroot, hregions⟩, hfragment, hresponses⟩ :=
      sameContents_board s job request
    exact ⟨⟨hid, harena, hroot, hregions⟩, hfragment, hresponses⟩
  case running => exact fun p hp => isRunning_board s job request hp
  case requests =>
    intro y _ _
    by_cases hp : y.position = job.position
    · rw [hp]
      exact Or.inr ⟨hfree, isRunning_board_self hjob s request hsome⟩
    · exact Or.inl (requestsAt_board_of_ne s request hp)
  case settled =>
    intro y _ _ hsettled hne l hl
    -- what still listens did so before, and does not belong to the placeholder that fired
    obtain ⟨hl', hlp⟩ := Instance.mem_active_standDown hboard.attended hl
    by_cases hp : y.position = job.position
    · rw [hp]
      exact hlp
    · rw [hlisteners] at hl'
      refine hsettled ?_ l hl'
      rw [← requestsAt_board_of_ne s request hp]
      exact hne

end Board

/-! ### Firing -/

/-- That a placeholder stops listening keeps `Flow`. -/
theorem flow_standDown (h : Flow t home s) (p : Position) :
    Flow t home (s.mapInst (·.standDown p)) where
  jobs := h.jobs
  standbys b hb := by
    obtain ⟨b', hb', rfl⟩ := List.mem_map.mp hb
    by_cases hp : b'.job.position = p
    · rw [if_pos hp]
      exact h.standbys b' hb'
    · rw [if_neg hp]
      exact h.standbys b' hb'
  attended := h.attended.standDown p
  once := h.once
  spent x hx hone hne := (h.spent x hx hone hne).imp_right fun hdeaf l hl =>
    hdeaf l (Instance.mem_active_standDown h.attended hl).1
  calm := h.calm
  recorded := h.recorded

/-- What firing a placeholder comes to. -/
inductive Fired (observe : Observer σ) (p : Position) (s : Scene σ) : Scene σ → Prop where
  /-- Nothing is started. -/
  | passed (host : Host) : Equips s.host host → Fired observe p s { s with host }
  | once (b : Standby) (request : Outgoing) (host : Host) : s.inst.standby? p = some b →
    s.inst.isRunning p = false → Equips s.host host → b.mode = .one → b.job.Makes request →
    Fired observe p s
      ((({ s with host }.changeStatus observe b.job 0).board b.job request).mapInst (·.standDown p))
  | again (b : Standby) (request : Outgoing) (host : Host) : s.inst.standby? p = some b →
    s.inst.isRunning p = false → Equips s.host host → b.mode = .all → b.job.Makes request →
    Fired observe p s (({ s with host }.changeStatus observe b.job 0).board b.job request)

/-- Firing a placeholder comes to one of the ends that `Fired` lists. -/
theorem fired_fire (observe : Observer σ) (p : Position) (s : Scene σ) :
    Fired observe p s (stateAfter (fire observe p) s) := by
  unfold fire
  rw [stateAfter_bind_of_ok (EStateM.run_get ..)]
  cases hb : s.inst.standby? p with
  | none => exact .passed s.host (.refl s.host)
  | some b =>
    simp only
    rw [stateAfter_bind_of_ok (EStateM.run_get ..)]
    cases hrunning : s.inst.isRunning p with
    | true =>
      rw [if_pos rfl]
      exact .passed (s.host.report [.triggerDropped p]) (equips_report _ _)
    | false =>
      rw [if_neg (by simp)]
      rcases launch_cases observe b.job s with ⟨f, host, hhost, hrun⟩ |
        ⟨request, host, hhost, hmakes, hrun⟩
      · rw [stateAfter_bind_of_error hrun]
        exact .passed host hhost
      · rw [stateAfter_bind_of_ok hrun]
        cases hmode : b.mode with
        | one => exact .once b request host hb hrunning hhost hmode hmakes
        | all => exact .again b request host hb hrunning hhost hmode hmakes

theorem sameBooks_of_tasks (s : Scene σ) {host : Host} (hhost : host.tasks = s.host.tasks) :
    SameBooks s { s with host } :=
  ⟨Host.requestsOf_of_tasks hhost s.inst.id, rfl, rfl⟩

/-- A change on the host that leaves `tasks` alone keeps `Flow` and is `Quiet`. -/
theorem flow_of_tasks (h : Flow t home s) {host : Host} (hhost : host.tasks = s.host.tasks) :
    Flow t home { s with host } ∧ Quiet t s { s with host } :=
  flow_elsewhere h (Host.requestsOf_of_tasks hhost s.inst.id) s.memory s.inst.pending

/-- If the status is `0` already, `changeStatus` to `0` leaves everything as it is. -/
theorem changeStatus_of_calm {job : Job} {id : NodeId} (hjob : job.destination = .element id)
    (hcalm : ∀ f, s.inst.flight? job.position = some f → f.1 = 0) (observe : Observer σ) :
    s.changeStatus observe job 0 = s := by
  have hstatus : s.inst.statusOf job = 0 := by
    rw [Instance.statusOf_eq hjob]
    cases hf : s.inst.flight? job.position with
    | none => rfl
    | some f => exact hcalm f hf
  rw [changeStatus, if_pos hstatus]

/-- Firing keeps `Flow` and is `Quiet` if the placeholder, where it fires only once, has no request
or runs. -/
theorem flow_fire (hobserve : Tame t home observe) (h : Flow t home s) (ht : t.Housed home)
    {p : Position} (hpre : ∀ x ∈ t.placeholders, x.mode = .one → x.position = p →
      s.requestsAt p = [] ∨ s.inst.isRunning p = true) :
    Flow t home (stateAfter (fire observe p) s) ∧ Quiet t s (stateAfter (fire observe p) s) := by
  have hfired := fired_fire observe p s
  generalize stateAfter (fire observe p) s = s' at hfired ⊢
  cases hfired with
  | passed host hhost => exact flow_of_tasks h hhost.tasks_eq
  | once b request host hb hrunning hhost hmode =>
    obtain ⟨hmem, hpos⟩ := Instance.standby?_mem hb
    obtain ⟨x, hx, hjob, hdeferred, hxmode⟩ := h.standbys b hmem
    obtain ⟨id, hid⟩ := ht.home_element x hx (Or.inr hdeferred)
    have hone : x.mode = .one := hxmode.symm.trans hmode
    have hxp : x.position = p := hjob.position.symm.trans hpos
    have hfree : s.requestsAt x.position = [] := by
      rw [hxp]
      refine (hpre x hx hone hxp).resolve_right fun hr => ?_
      rw [hrunning] at hr
      exact absurd hr (by simp)
    obtain ⟨h₁, hquiet₁⟩ := flow_of_tasks h hhost.tasks_eq
    have hfree₁ : ({ s with host } : Scene σ).requestsAt x.position = [] :=
      ((sameBooks_of_tasks s hhost.tasks_eq).requestsAt_eq x.position).trans hfree
    have hcalm := h₁.calm x hx (Placeholder.isTracked_of_one hone) hfree₁
    have hsome := h₁.recorded x hx id hid
    have hjob' : b.job.destination = .element id := hjob.destination.trans hid
    have hboard := flow_board h₁ ht hx hjob (fun _ => hfree₁) request
    -- its status is zero still, so no observer comes between the check and the start
    rw [← hjob.position] at hfree₁ hcalm hsome
    rw [changeStatus_of_calm hjob' hcalm, ← hpos]
    exact ⟨flow_standDown hboard b.job.position,
      hquiet₁.trans (quiet_board_standDown hjob' hsome hfree₁ request hboard)⟩
  | again b request host hb hrunning hhost hmode =>
    obtain ⟨hmem, -⟩ := Instance.standby?_mem hb
    obtain ⟨x, hx, hjob, hdeferred, hxmode⟩ := h.standbys b hmem
    have htracked : x.isTracked = true := by
      rw [Placeholder.isTracked, ← hxmode, hmode]
      simpa [Placeholder.isDeferred] using hdeferred
    -- an observer may start requests for it when the status changes; a tracked one can have several
    obtain ⟨h₁, hquiet₁⟩ := flow_of_tasks h hhost.tasks_eq
    obtain ⟨h₂, hquiet₂⟩ := flow_changeStatus hobserve h₁ b.job 0 (Or.inr rfl)
    refine ⟨flow_board h₂ ht hx hjob (fun hfalse => ?_) request,
      hquiet₁.trans (hquiet₂.trans (quiet_board_of_tracked ht hx hjob htracked _ request))⟩
    rw [htracked] at hfalse
    exact absurd hfalse (by simp)

/-- Firing placeholders in turn keeps `Flow` and is `Quiet`, and it keeps any `P` that each firing
keeps. -/
theorem flow_fireAll (hobserve : Tame t home observe) (ht : t.Housed home) {P : Scene σ → Prop}
    (hP : ∀ p s, Flow t home s → Quiet t s (stateAfter (fire observe p) s) → P s →
      P (stateAfter (fire observe p) s)) :
    ∀ (ps : List Position) {s : Scene σ}, Flow t home s → P s →
    (∀ p ∈ ps, ∀ x ∈ t.placeholders, x.mode = .one → x.position = p →
      s.requestsAt p = [] ∨ s.inst.isRunning p = true) →
    Flow t home (stateAfter (fireAll observe ps) s) ∧
      Quiet t s (stateAfter (fireAll observe ps) s) ∧ P (stateAfter (fireAll observe ps) s)
  | [], s, h, hs, _ => ⟨h, Quiet.refl t s, hs⟩
  | p :: ps, s, h, hs, hpre => by
    obtain ⟨h₁, hquiet₁⟩ := flow_fire hobserve h ht (hpre p List.mem_cons_self)
    have hs₁ := hP p s h hquiet₁ hs
    unfold fireAll
    cases hrun : (fire observe p).run s with
    | error f s₁ =>
      rw [stateAfter_of_error hrun] at h₁ hquiet₁ hs₁
      rw [stateAfter_bind_of_error hrun]
      exact ⟨h₁, hquiet₁, hs₁⟩
    | ok fired s₁ =>
      rw [stateAfter_of_ok hrun] at h₁ hquiet₁ hs₁
      rw [stateAfter_bind_of_ok hrun]
      -- what has been fired in the meantime is running
      obtain ⟨h₂, hquiet₂, hs₂⟩ := flow_fireAll hobserve ht hP ps h₁ hs₁ fun q hq x hx hone hxq =>
        hquiet₁.fresh hx hone hxq (hpre q (List.mem_cons_of_mem p hq) x hx hone hxq)
      have hrest : stateAfter (do return (← fireAll observe ps) + if fired then 1 else 0) s₁
          = stateAfter (fireAll observe ps) s₁ := by
        cases hrun' : (fireAll observe ps).run s₁ with
        | ok n s₂ => rw [stateAfter_bind_of_ok hrun', stateAfter_of_ok hrun']; rfl
        | error f s₂ => rw [stateAfter_bind_of_error hrun', stateAfter_of_error hrun']
      rw [hrest]
      exact ⟨h₂, hquiet₁.trans hquiet₂, hs₂⟩

/-- A placeholder in `reachedBy` is not `Deaf`. -/
theorem mem_reachedBy {i : Instance} {target : NodeId} {event : String} {p : Position}
    (h : p ∈ i.reachedBy target event) : ¬ i.Deaf p := by
  intro hdeaf
  rw [Instance.reachedBy, List.mem_eraseDups, List.mem_map] at h
  obtain ⟨l, hl, rfl⟩ := h
  obtain ⟨n, -, hl⟩ := List.mem_flatMap.mp hl
  exact hdeaf l (List.mem_of_mem_filter hl) rfl

/-- Dispatching an event keeps `Flow` and is `Quiet`, and it keeps any `P` that each firing
keeps. -/
theorem flow_dispatch (hobserve : Tame t home observe) (ht : t.Housed home) {P : Scene σ → Prop}
    (hP : ∀ p s, Flow t home s → Quiet t s (stateAfter (fire observe p) s) → P s →
      P (stateAfter (fire observe p) s)) (h : Flow t home s) (hs : P s) (target : NodeId)
    (event : String) :
    Flow t home (stateAfter (dispatch observe target event) s) ∧
      Quiet t s (stateAfter (dispatch observe target event) s) ∧
      P (stateAfter (dispatch observe target event) s) := by
  refine flow_fireAll hobserve ht hP (s.inst.reachedBy target event) h hs ?_
  intro p hp x hx hone hxp
  -- a placeholder that is reached still listens
  by_cases hnone : s.requestsAt p = []
  · exact Or.inl hnone
  · subst hxp
    exact Or.inr ((h.spent x hx hone hnone).resolve_right (mem_reachedBy hp))

/-- All that lawful observers do keeps `Flow` and is `Quiet`. -/
theorem acts_flow (ht : t.Housed home) (hacts : Acts s s') (h : Flow t home s) :
    Flow t home s' ∧ Quiet t s s' := by
  induction hacts with
  | refl s => exact ⟨h, Quiet.refl t s⟩
  | trans _ _ ih ih' =>
    obtain ⟨h₁, hquiet₁⟩ := ih h
    obtain ⟨h₂, hquiet₂⟩ := ih' h₁
    exact ⟨h₂, hquiet₁.trans hquiet₂⟩
  | remember s memory => exact flow_elsewhere h rfl memory s.inst.pending
  | elsewhere s host hhost => exact flow_elsewhere h hhost s.memory s.inst.pending
  | collect s => exact flow_elsewhere h rfl s.memory []
  | dispatch inner s target event _ ih =>
    obtain ⟨h₁, hquiet₁, -⟩ := flow_dispatch (P := fun _ => True) (fun label n s => ih label n s) ht
      (fun _ _ _ _ _ => trivial) h trivial target event
    exact ⟨h₁, hquiet₁⟩

theorem Lawful.tame (hobserve : Lawful observe) (ht : t.Housed home) : Tame t home observe :=
  fun label n s => acts_flow ht (hobserve label n s)

end Scene

end Inlay
