import Inlay.Proofs.Scene.Course

/-!
# Later scenes

`Later observe s s'` says that `s'` comes after `s`, with any events, turns and other things in
between. What holds across the few changes that turns and events are made of (`Passive`, `Eventful`)
holds across turns and events, whatever observers do meanwhile (`Enduring`, `Lasting`). Such
relations are that requests stay, the same but for their phases (`lasting_retains`), that an event
only adds others (`enduring_requests`), that the same placeholders wait for events
(`enduring_becomes`), and that signals go on (`SignalKeeping.dispatch`, `SignalKeeping.turn`).
-/

namespace Inlay

/-- `j` is what has become of `i`. The same placeholders wait for events, at no more elements. -/
structure Instance.Becomes (i j : Instance) : Prop where
  id_eq : j.id = i.id
  waiting_eq : (j.standbys.map fun b => (b.job, b.mode)) = i.standbys.map fun b => (b.job, b.mode)
  next_eq : j.listeners.next = i.listeners.next
  active : j.listeners.active.Sublist i.listeners.active
  /-- What a standby would cancel, it would have cancelled before. -/
  owned : ∀ b ∈ j.standbys, ∃ b' ∈ i.standbys, b.job = b'.job ∧ b.subscriptions ⊆ b'.subscriptions

namespace Instance.Becomes

variable {i j k : Instance}

theorem refl (i : Instance) : i.Becomes i :=
  ⟨rfl, rfl, rfl, .refl _, fun b hb => ⟨b, hb, rfl, List.Subset.refl _⟩⟩

theorem trans (h : i.Becomes j) (h' : j.Becomes k) : i.Becomes k where
  id_eq := h'.id_eq.trans h.id_eq
  waiting_eq := h'.waiting_eq.trans h.waiting_eq
  next_eq := h'.next_eq.trans h.next_eq
  active := h'.active.trans h.active
  owned b hb := by
    obtain ⟨b', hb', hjob', hsubset'⟩ := h'.owned b hb
    obtain ⟨b'', hb'', hjob, hsubset⟩ := h.owned b' hb'
    exact ⟨b'', hb'', hjob'.trans hjob, List.Subset.trans hsubset' hsubset⟩

theorem jobs_eq (h : i.Becomes j) : j.standbys.map (·.job) = i.standbys.map (·.job) := by
  have hjobs := congrArg (List.map Prod.fst) h.waiting_eq
  rwa [List.map_map, List.map_map] at hjobs

theorem map_position (h : i.Becomes j) :
    j.standbys.map (·.job.position) = i.standbys.map (·.job.position) := by
  have hpositions := congrArg (List.map Job.position) h.jobs_eq
  rwa [List.map_map, List.map_map] at hpositions

/-- What waits at `p` is there for the same job, and in the same mode. -/
theorem standby?_eq (h : i.Becomes j) (p : Position) :
    ((j.standby? p).map fun b => (b.job, b.mode)) =
      (i.standby? p).map fun b => (b.job, b.mode) := by
  have hfound := congrArg (List.find? fun x : Job × Mode => x.1.position == p) h.waiting_eq
  rwa [List.find?_map, List.find?_map] at hfound

/-- What waits at `p` waited there before, for the same job and in the same mode. -/
theorem exists_standby? (h : i.Becomes j) {p : Position} {b : Standby}
    (hb : j.standby? p = some b) :
    ∃ b', i.standby? p = some b' ∧ b'.job = b.job ∧ b'.mode = b.mode := by
  have hfound := h.standby?_eq p
  rw [hb, Option.map_some, eq_comm, Option.map_eq_some_iff] at hfound
  obtain ⟨b', hb', he⟩ := hfound
  obtain ⟨hjob, hmode⟩ := Prod.mk.inj he
  exact ⟨b', hb', hjob, hmode⟩

/-- A placeholder that is `Deaf` stays so. -/
theorem deaf (h : i.Becomes j) {p : Position} (hdeaf : i.Deaf p) : j.Deaf p :=
  fun l hl => hdeaf l (h.active.subset hl)

end Instance.Becomes

theorem Instance.Reworked.becomes {i j : Instance} (h : i.Reworked j) : i.Becomes j := by
  rw [h.rest]
  exact ⟨rfl, rfl, rfl, .refl _, fun b hb => ⟨b, hb, rfl, List.Subset.refl _⟩⟩

theorem Instance.becomes_collect (i : Instance) : i.Becomes i.collect.2 :=
  ⟨rfl, rfl, rfl, .refl _, fun b hb => ⟨b, hb, rfl, List.Subset.refl _⟩⟩

theorem Instance.becomes_standDown (i : Instance) (p : Position) : i.Becomes (i.standDown p) where
  id_eq := rfl
  waiting_eq := by
    refine List.map_map.trans (List.map_congr_left fun b _ => ?_)
    rw [Function.comp_apply]
    split <;> rfl
  next_eq := next_cancelAll _ i.listeners
  active := by
    rw [active_standDown]
    exact List.filter_sublist
  owned b hb := by
    obtain ⟨b', hb', rfl⟩ := List.mem_map.mp hb
    refine ⟨b', hb', ?_⟩
    split
    · exact ⟨rfl, List.nil_subset _⟩
    · exact ⟨rfl, List.Subset.refl _⟩

namespace Scene

variable {σ : Type} {s s' s'' : Scene σ} {observe : Observer σ}

theorem SameBooks.becomes (h : SameBooks s s') (hid : s'.inst.id = s.inst.id) :
    s.inst.Becomes s'.inst where
  id_eq := hid
  waiting_eq := congrArg _ h.standbys_eq
  next_eq := congrArg _ h.listeners_eq
  active := by rw [h.listeners_eq]
  owned b hb := ⟨b, h.standbys_eq ▸ hb, rfl, List.Subset.refl _⟩

theorem becomes_board (s : Scene σ) (job : Job) (request : Outgoing) :
    s.inst.Becomes (s.board job request).inst := by
  have hmark := (sameBooks_setRunning s job true).becomes
    (sameContents_setRunning s.inst job true).id_eq
  exact ⟨hmark.id_eq, hmark.waiting_eq, hmark.next_eq, hmark.active, hmark.owned⟩

/-! ### What steps are made of -/

/-- A relation between a scene and later ones that holds across changes of the instance and across
what observers do when they are told of them. -/
structure Attentive (R : Scene σ → Scene σ → Prop) (observe : Observer σ) : Prop where
  refl : ∀ s, R s s
  trans : ∀ {s s' s''}, R s s' → R s' s'' → R s s''
  told : ∀ label n s, R s (observe label n s)
  inst : ∀ s (inst : Instance), s.inst.Becomes inst → R s { s with inst }

/-- The relation holds across every change that turns of one request are made of, apart from what
they ask the host. -/
structure Passive (R : Scene σ → Scene σ → Prop) (observe : Observer σ) (id : TaskId) : Prop
    extends Attentive R observe where
  phase : ∀ s phase, R s (s.mapHost (·.setPhase id phase))

/-- The relation holds across what events bring about, which gives no request another phase. -/
structure Eventful (R : Scene σ → Scene σ → Prop) (observe : Observer σ) : Prop
    extends Attentive R observe where
  host : ∀ s (host : Host), Equips s.host host → R s { s with host }
  board : ∀ {s s'} b request, b ∈ s.inst.standbys → b.job.Makes request → R s s' →
    R s (s'.board b.job request)

/-- The relation holds across both, whichever requests have turns. -/
structure Persistent (R : Scene σ → Scene σ → Prop) (observe : Observer σ) : Prop
    extends Eventful R observe where
  phase : ∀ s id phase, R s (s.mapHost (·.setPhase id phase))

variable {R : Scene σ → Scene σ → Prop}

namespace Attentive

/-- If `R` holds across one thing that the observer is told, it holds across several. -/
theorem notifyAll (h : Attentive R observe) (job : Job) :
    ∀ (ns : List Notification) (s : Scene σ), R s (s.notifyAll observe job ns)
  | [], s => h.refl s
  | n :: ns, s => by
    have hfirst : R s (s.notify observe job n) := by
      unfold notify
      split
      · exact h.told _ n s
      · exact h.refl s
    exact h.trans hfirst (h.notifyAll job ns (s.notify observe job n))

theorem changeStatus (h : Attentive R observe) (job : Job) (code : Nat) (s : Scene σ) :
    R s (s.changeStatus observe job code) := by
  unfold Scene.changeStatus
  split
  · exact h.refl s
  · have hset : R s (s.mapInst (·.setStatus job code)) :=
      h.inst s _ ((sameBooks_setStatus s job code).becomes
        (sameContents_setStatus s.inst job code).id_eq)
    exact h.trans hset (h.notifyAll job [.status code job.shownPosition] _)

end Attentive

namespace Passive

variable {id : TaskId}

theorem finish (h : Passive R observe id) (job : Job) (result : Except RequestError Unit)
    (s : Scene σ) : R s (s.finish id job result) := by
  have hmark : R s (s.mapInst (·.setRunning job false)) :=
    h.inst s _ ((sameBooks_setRunning s job false).becomes
      (sameContents_setRunning s.inst job false).id_eq)
  exact h.trans hmark (h.phase _ (.ended result))

/-- `R` holds across the use of a response, if it does across its stages. -/
theorem receive (h : Passive R observe id) (job : Job) (r : Response) (s : Scene σ) :
    R s (s.receive observe id job r) := by
  have hstatus := h.changeStatus job r.status s
  have hreceived := received_receive observe id job r s
  have hreworked : ∀ {s : Scene σ} {j : Instance}, Instance.Reworked s.inst j →
      R s { s with inst := j } := fun hj => h.inst _ _ hj.becomes
  generalize s.receive observe id job r = s' at hreceived ⊢
  generalize s.changeStatus observe job r.status = s₁ at hreceived hstatus
  cases hreceived with
  | refused => exact h.trans hstatus (h.finish job _ s₁)
  | failed cause j _ _ hj => exact h.trans hstatus (h.trans (hreworked hj) (h.finish job _ _))
  | inserted ns j _ _ hj =>
    have htold := h.notifyAll job ns { s₁ with inst := j }
    exact h.trans hstatus (h.trans (hreworked hj) (h.trans htold (h.finish job _ _)))

/-- But for a look at the signal and possibly a question to the transport, a turn keeps `R`. -/
theorem turn (h : Passive R observe id) (task : Task) (s : Scene σ) :
    ∃ host : Host, host.tasks = s.host.tasks ∧ s.host.signals.Onward host.signals ∧
      s.Hands task host ∧ R { s with host } (s.turn observe id task) := by
  have hturned := turned_turn observe id task s
  generalize s.turn observe id task = s' at hturned ⊢
  cases hturned with
  | received host r htasks _ _ honward hhands =>
    exact ⟨host, htasks, honward, hhands, h.receive task.job r _⟩
  | finished host error htasks _ _ honward hhands =>
    exact ⟨host, htasks, honward, hhands, h.finish task.job _ _⟩
  | asked host due r htasks _ _ honward hhands =>
    exact ⟨host, htasks, honward, hhands, h.phase _ (.waiting due r)⟩
  | idle host htasks _ honward hhands => exact ⟨host, htasks, honward, hhands, h.refl _⟩

end Passive

theorem Persistent.passive (h : Persistent R observe) (id : TaskId) : Passive R observe id :=
  { h.toAttentive with phase := fun s phase => h.phase s id phase }

namespace Eventful

/-- `R` holds across firing, whether or not it fails, if it does across its stages. -/
theorem fire (h : Eventful R observe) (p : Position) : Keeps R (fire observe p) := by
  intro s
  have hfired := fired_fire observe p s
  -- of the state after it we need no more than what `Fired` says
  generalize stateAfter (Scene.fire observe p) s = s' at hfired ⊢
  have hstarted : ∀ {b : Standby} {request : Outgoing} {host : Host}, s.inst.standby? p = some b →
      Equips s.host host → b.job.Makes request →
      R s (({ s with host }.changeStatus observe b.job 0).board b.job request) := by
    intro b request host hb hhost hmakes
    have hstatus := h.trans (h.host s host hhost) (h.changeStatus b.job 0 _)
    exact h.board b request (Instance.standby?_mem hb).1 hmakes hstatus
  cases hfired with
  | passed host hhost => exact h.host s host hhost
  | once b request host hb _ hhost _ hmakes =>
    exact h.trans (hstarted hb hhost hmakes)
      (h.inst _ _ (Instance.becomes_standDown _ p))
  | again b request host hb _ hhost _ hmakes => exact hstarted hb hhost hmakes

theorem fireAll (h : Eventful R observe) : ∀ ps : List Position, Keeps R (fireAll observe ps)
  | [] => keeps_pure h.refl 0
  | p :: ps => Keeps.bind (R := R) h.trans (h.fire p) fun _ =>
    Keeps.bind (R := R) h.trans (h.fireAll ps) fun _ => keeps_pure h.refl _

/-- So it holds across an event. -/
theorem dispatch (h : Eventful R observe) (target : NodeId) (event : String) :
    Keeps R (dispatch observe target event) :=
  Keeps.bind (R := R) h.trans (keeps_get h.refl) fun s => h.fireAll (s.inst.reachedBy target event)

end Eventful

/-! ### What observers can do meanwhile -/

/-- The relation holds across everything that observers can do, and across everything that happens
outside the instance. -/
structure Enduring (R : Scene σ → Scene σ → Prop) : Prop where
  refl : ∀ s, R s s
  trans : ∀ {s s' s''}, R s s' → R s' s'' → R s s''
  inst : ∀ s (inst : Instance), s.inst.Becomes inst → R s { s with inst }
  board : ∀ {s s'} b request, b ∈ s.inst.standbys → b.job.Makes request → R s s' →
    R s (s'.board b.job request)
  elsewhere : ∀ s host memory, s.host.SameRequests s.inst.id host → R s { s with host, memory }

/-- The relation also holds across turns. -/
structure Lasting (R : Scene σ → Scene σ → Prop) : Prop extends Enduring R where
  phase : ∀ s id phase, R s (s.mapHost (·.setPhase id phase))

namespace Enduring

theorem eventful (h : Enduring R) (hobserve : ∀ label n s, R s (observe label n s)) :
    Eventful R observe where
  refl := h.refl
  trans := h.trans
  told := hobserve
  inst := h.inst
  host s host hhost := h.elsewhere s host s.memory (Host.requestsOf_of_tasks hhost.tasks_eq _)
  board := h.board

/-- `R s s'` holds across all that lawful observers do, since they do it by events. -/
theorem of_acts (h : Enduring R) (hacts : Acts s s') : R s s' := by
  induction hacts with
  | refl s => exact h.refl s
  | trans _ _ ih ih' => exact h.trans ih ih'
  | remember s memory => exact h.elsewhere s s.host memory rfl
  | elsewhere s host hhost => exact h.elsewhere s host s.memory hhost
  | collect s => exact h.inst s _ (Instance.becomes_collect s.inst)
  | dispatch inner s target event _ ih => exact (h.eventful ih).dispatch target event s

theorem lawful (h : Enduring R) (hobserve : Lawful observe) : Eventful R observe :=
  h.eventful fun label n s => h.of_acts (hobserve label n s)

/-- `R s s'` holds across an event, whatever lawful observers do meanwhile. -/
theorem dispatch (h : Enduring R) (hobserve : Lawful observe) (target : NodeId) (event : String)
    (s : Scene σ) : R s (stateAfter (Scene.dispatch observe target event) s) :=
  (h.lawful hobserve).dispatch target event s

end Enduring

namespace Lasting

theorem lawful (h : Lasting R) (hobserve : Lawful observe) : Persistent R observe :=
  { h.toEnduring.lawful hobserve with phase := h.phase }

/-- `R s s'` holds across a turn, whatever lawful observers do meanwhile. -/
theorem turn (h : Lasting R) (hobserve : Lawful observe) (id : TaskId) (task : Task)
    (s : Scene σ) : R s (s.turn observe id task) := by
  obtain ⟨host, htasks, -, -, hturn⟩ := ((h.lawful hobserve).passive id).turn task s
  exact h.trans (h.elsewhere s host s.memory (Host.requestsOf_of_tasks htasks _)) hturn

end Lasting

/-! ### Plans -/

/-- The property survives what is planned for a placeholder, apart from what observers do. -/
def Survives (P : Scene σ → Prop) : Plan → Prop
  | .start job => ∀ (s : Scene σ) request, job.Makes request → P s → P (s.board job request)
  | .standBy job mode event nodes =>
    ∀ s : Scene σ, P s → P (s.mapInst (·.standBy job mode event nodes))

section Plans

variable {P : Scene σ → Prop}

/-- A plan is carried out, which `P` survives. -/
theorem Lasting.carryOut (h : Lasting fun s s' => P s → P s') (hobserve : Lawful observe)
    {plan : Plan} (hplan : Survives P plan) (hs : P s)
    (hrun : (Scene.carryOut observe plan).run s = .ok () s') : P s' := by
  have hpersistent := h.lawful hobserve
  cases plan with
  | start job =>
    -- a plan that fails leaves no instance behind
    obtain ⟨f, _, -, hfailed⟩ | ⟨request, host, hhost, hmakes, hrun'⟩ := launch_cases observe job s
    · rw [Scene.carryOut, hfailed] at hrun
      exact absurd hrun (by simp)
    · rw [Scene.carryOut, hrun'] at hrun
      injection hrun with _ he
      rw [← he]
      have h₁ : P { s with host } := hpersistent.host s host hhost hs
      exact hplan _ request hmakes (hpersistent.changeStatus job 0 { s with host } h₁)
  | standBy job mode event nodes =>
    injection hrun with _ he
    rw [← he]
    exact hplan s hs

/-- If `P` lasts and survives each of `plans`, it holds when all of them have been carried out. -/
theorem Lasting.carryOutAll (h : Lasting fun s s' => P s → P s') (hobserve : Lawful observe) :
    ∀ {plans : List Plan} {s : Scene σ}, (∀ plan ∈ plans, Survives P plan) → P s →
    (Scene.carryOutAll observe plans).run s = .ok () s' → P s'
  | [], s, _, hs, hrun => by
    injection hrun with _ he
    rwa [← he]
  | plan :: plans, s, hplans, hs, hrun => by
    unfold Scene.carryOutAll at hrun
    obtain ⟨_, s₁, hfirst, hrest⟩ := exists_of_run_bind_eq_ok hrun
    have h₁ := h.carryOut hobserve (hplans plan List.mem_cons_self) hs hfirst
    exact h.carryOutAll hobserve (fun p hp => hplans p (List.mem_cons_of_mem plan hp)) h₁ hrest

end Plans

/-! ### Requests stay -/

/-- Every request of `s` is one of `s'`, the same but for its phase. -/
def Retains (s s' : Scene σ) : Prop :=
  ∀ id task, (id, task) ∈ s.requests → ∃ phase, (id, { task with phase }) ∈ s'.requests

theorem Retains.refl (s : Scene σ) : s.Retains s :=
  fun _ task h => ⟨task.phase, h⟩

theorem Retains.trans (h : s.Retains s') (h' : s'.Retains s'') : s.Retains s'' := by
  intro id task hmem
  obtain ⟨phase, hmem'⟩ := h id task hmem
  obtain ⟨phase', hmem''⟩ := h' id _ hmem'
  exact ⟨phase', hmem''⟩

theorem Retains.of_requests (h : s'.requests = s.requests) : s.Retains s' := by
  intro id task hmem
  exact ⟨task.phase, h.symm ▸ hmem⟩

theorem retains_board (s : Scene σ) (job : Job) (request : Outgoing) :
    s.Retains (s.board job request) := by
  intro id task hmem
  rw [requests_board]
  exact ⟨task.phase, List.mem_append_left _ hmem⟩

theorem retains_setPhase (s : Scene σ) (id : TaskId) (phase : Phase) :
    s.Retains (s.mapHost (·.setPhase id phase)) := by
  intro i task hmem
  have hmem' : withPhase id phase (i, task) ∈ (s.mapHost (·.setPhase id phase)).requests := by
    rw [requests_setPhase]
    exact List.mem_map_of_mem hmem
  rw [withPhase] at hmem'
  split at hmem'
  · exact ⟨phase, hmem'⟩
  · exact ⟨task.phase, hmem'⟩

/-- Whatever happens, `Retains` holds: no request goes away and none gets another job. -/
theorem lasting_retains : Lasting (σ := σ) Retains where
  refl := Retains.refl
  trans := Retains.trans
  inst s _ hinst := .of_requests (congrArg s.host.requestsOf hinst.id_eq)
  phase := retains_setPhase
  board b request _ _ h := h.trans (retains_board _ b.job request)
  elsewhere _ _ _ hhost := .of_requests hhost

/-- An event only adds requests: `s.requests <+: s'.requests`. -/
theorem enduring_requests : Enduring fun s s' : Scene σ => s.requests <+: s'.requests where
  refl _ := List.prefix_rfl
  trans := List.IsPrefix.trans
  inst s inst hinst := by
    rw [requests, requests, hinst.id_eq]
  board {_ s'} b request _ _ h := by
    rw [requests_board]
    exact h.trans (List.prefix_append _ _)
  elsewhere s host memory hhost := by
    rw [requests, requests, hhost]

/-- An event leaves what waits for events waiting: `s.inst.Becomes s'.inst`. -/
theorem enduring_becomes : Enduring fun s s' : Scene σ => s.inst.Becomes s'.inst where
  refl s := .refl s.inst
  trans := .trans
  inst _ _ hinst := hinst
  board {_ s'} b request _ _ h := h.trans (becomes_board s' b.job request)
  elsewhere s _ _ _ := .refl s.inst

/-- A request `(id, task)` is not changed by what observers and events do, phase included. -/
theorem enduring_mem (id : TaskId) (task : Task) : Enduring fun s s' : Scene σ =>
    (id, task) ∈ s.requests → (id, task) ∈ s'.requests where
  refl _ := fun hmem => hmem
  trans h h' := fun hmem => h' (h hmem)
  inst s inst hinst := fun hmem => by
    rw [requests, hinst.id_eq]
    exact hmem
  board b request _ _ h := fun hmem => by
    rw [requests_board]
    exact List.mem_append_left _ (h hmem)
  elsewhere s host memory hhost := fun hmem => by
    rw [requests, hhost]
    exact hmem

/-- Nor is it by the turns of other requests, `i ≠ id`. -/
theorem mem_requests_turn_of_ne (hobserve : Lawful observe) {id i : TaskId} {task t : Task}
    (hne : i ≠ id) (hmem : (id, task) ∈ s.requests) :
    (id, task) ∈ (s.turn observe i t).requests := by
  have hattentive := ((enduring_mem id task).lawful hobserve).toAttentive
  have hpassive : Passive _ observe i :=
    { hattentive with
      phase := fun s phase hmem => by
        have hmap := List.mem_map_of_mem (f := withPhase i phase) hmem
        rw [withPhase, if_neg (Ne.symm hne), ← requests_setPhase] at hmap
        exact hmap }
  obtain ⟨host, htasks, -, -, hturn⟩ := hpassive.turn t s
  refine hturn ?_
  rw [(sameBooks_of_tasks s htasks).requests_eq]
  exact hmem

/-! ### Reasons stay -/

/-- The observer does with signals what can be done with signals. -/
def SignalKeeping (observe : Observer σ) : Prop :=
  ∀ label n (s : Scene σ), s.host.signals.Onward (observe label n s).host.signals

theorem persistent_signals (hobserve : SignalKeeping observe) :
    Persistent (fun s s' : Scene σ => s.host.signals.Onward s'.host.signals) observe where
  refl s := .refl s.host.signals
  trans := .trans
  told := hobserve
  inst s _ _ := .refl s.host.signals
  phase s _ _ := .refl s.host.signals
  host _ _ hhost := hhost.onward
  board _ _ _ _ h := h

theorem SignalKeeping.dispatch (hobserve : SignalKeeping observe) (target : NodeId) (event : String)
    (s : Scene σ) :
    s.host.signals.Onward (stateAfter (Scene.dispatch observe target event) s).host.signals :=
  (persistent_signals hobserve).dispatch target event s

/-- Across a turn signals go `Onward`, and so they do across an event. -/
theorem SignalKeeping.turn (hobserve : SignalKeeping observe) (id : TaskId) (task : Task)
    (s : Scene σ) : s.host.signals.Onward (s.turn observe id task).host.signals := by
  obtain ⟨host, -, honward, -, hturn⟩ := ((persistent_signals hobserve).passive id).turn task s
  exact honward.trans hturn

theorem onward_act {observe : Observer Watch} (hobserve : SignalKeeping observe) (s : Scene Watch)
    (action : Action) : s.host.signals.Onward (s.act observe action).2.host.signals := by
  cases action with
  | abort signal => exact .abort signal (.refl _)
  | fire aim event =>
    change s.host.signals.Onward (s.fireAt observe aim event).2.host.signals
    rcases fireAt_cases observe aim event s with he | ⟨target, he⟩
    · rw [he]
      exact .refl _
    · rw [he]
      exact hobserve.dispatch target event s

theorem onward_react {observe : Observer Watch} (hobserve : SignalKeeping observe) (label : String)
    (n : Notification) (s : Scene Watch) (index : Nat) :
    s.host.signals.Onward (s.react observe label n index).host.signals := by
  unfold react
  split
  · exact .refl _
  · rename_i r _
    split
    · exact onward_act hobserve { s with memory := s.memory.spend s.inst.id label index } r.action
    · exact .refl _

/-- The observer `watching depth` keeps a log and reacts, by aborting signals among other things. -/
theorem signalKeeping_watching : ∀ depth : Nat, SignalKeeping (watching depth)
  | 0 => fun _ _ s => .refl _
  | depth + 1 => fun label n s => by
    have hreact := onward_react (signalKeeping_watching depth) label n
    have hfold : ∀ (indices : List Nat) (s : Scene Watch), s.host.signals.Onward
        (indices.foldl (react (watching depth) label n) s).host.signals := by
      intro indices
      induction indices with
      | nil => exact fun s => .refl _
      | cons index indices ih => exact fun s => (hreact s index).trans (ih _)
    exact hfold _ (s.record label n)

/-! ### Later scenes -/

/-- `s'` comes after `s`: events are dispatched and requests get turns in any order, requests are
taken, and on the host anything else happens meanwhile that leaves the requests of the instance
alone. -/
inductive Later (observe : Observer σ) (s : Scene σ) : Scene σ → Prop where
  | refl : Later observe s s
  | dispatch {s' : Scene σ} (target : NodeId) (event : String) : Later observe s s' →
    Later observe s (stateAfter (Scene.dispatch observe target event) s')
  | turn {s' : Scene σ} (id : TaskId) (task : Task) : Later observe s s' →
    (id, task) ∈ s'.requests → Later observe s (s'.turn observe id task)
  | collect {s' : Scene σ} : Later observe s s' → Later observe s (s'.mapInst fun i => i.collect.2)
  | elsewhere {s' : Scene σ} (host : Host) (memory : σ) : Later observe s s' →
    s'.host.SameRequests s'.inst.id host → s'.host.signals.Onward host.signals →
    Later observe s { s' with host, memory }

end Scene

end Inlay
