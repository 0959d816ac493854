import Inlay.Proofs.Scene.Handed
import Inlay.Proofs.Scene.InFlight
import Inlay.Proofs.Scene.Log

/-!
# The log is faithful

With the observer that writes down what it is told, the log of an instance and the instance agree at
all times (`faithful_of_history`). `Logged` says so; it is kept when the status of a request changes
(`Logged.changeStatus`) and when a success is put into the tree (`Logged.inserted`). The second of
these needs that the status was told right before, and so that it has changed: it was zero because
the request had not ended (`Pristine`).
-/

namespace Inlay

/-- The position that goes with notifications about a placeholder. -/
def Template.shownAt (t : Template) (x : Placeholder) : Option Position :=
  if t.single then none else some x.position

namespace Scene

variable {t : Template} {given : InstanceOptions} {home : Position → Destination}
  {s s' : Scene Log} {x y : Placeholder} {job : Job} {code : Nat} {i j : Instance}

theorem recording_hear : Recording hear :=
  fun _ _ _ => ⟨_, rfl⟩

/-! ### Telling the observer -/

/-- What is told is put at the end of the log, as `job.entries ns`. -/
theorem notifyAll_hear (job : Job) : ∀ (ns : List Notification) (s : Scene Log),
    s.notifyAll hear job ns = { s with memory := s.memory ++ job.entries ns }
  | [], s => by
    have hnone : job.entries [] = [] := by
      unfold Job.entries
      split <;> rfl
    rw [hnone, List.append_nil]
    rfl
  | n :: ns, s => by
    have hfirst : s.notify hear job n = { s with memory := s.memory ++ job.entries [n] } := by
      unfold notify
      cases hobserver : job.options.observer with
      | none =>
        rw [job.entries_of_none hobserver, List.append_nil]
      | some label =>
        rw [job.entries_of_some hobserver]
        rfl
    have hrest := notifyAll_hear job ns (s.notify hear job n)
    rw [hfirst] at hrest
    have hentries := job.entries_append [n] ns
    rw [List.singleton_append] at hentries
    rw [hentries, ← List.append_assoc, ← hrest, ← hfirst]
    rfl

/-- The scene when the status of a request has become another one. -/
def withStatus (job : Job) (code : Nat) (s : Scene Log) : Scene Log :=
  { s with inst := s.inst.setStatus job code
           memory := s.memory ++ job.entries [.status code job.shownPosition] }

/-- A status `code` that is shown already changes nothing, and another one is written down. -/
theorem changeStatus_hear (job : Job) (code : Nat) (s : Scene Log) :
    s.changeStatus hear job code =
      if s.inst.statusAt job.shownPosition = code then s else s.withStatus job code := by
  rw [changeStatus, Instance.statusOf_eq_statusAt]
  split
  · rfl
  · exact notifyAll_hear job [.status code job.shownPosition] (s.mapInst (·.setStatus job code))

/-! ### Jobs and their placeholders -/

/-- The template was compiled, and `home` says where in its instance responses go. -/
structure Setting (t : Template) (home : Position → Destination) : Prop where
  compiled : ∃ source, t.Compiled source
  housed : t.Housed home
  whole : t.single = true → ∀ p, home p = .whole

/-- Placeholders are told apart by `t.shownAt`. -/
theorem Setting.eq_of_shownAt (h : Setting t home) (hx : x ∈ t.placeholders)
    (hy : y ∈ t.placeholders) (he : t.shownAt y = t.shownAt x) : y = x := by
  unfold Template.shownAt at he
  cases hsingle : t.single with
  | true =>
    obtain ⟨source, hcompiled⟩ := h.compiled
    obtain ⟨z, hz, -⟩ := hcompiled.single hsingle
    rw [hz] at hx hy
    rw [List.mem_singleton.mp hx, List.mem_singleton.mp hy]
  | false =>
    rw [hsingle, if_neg (by simp), if_neg (by simp)] at he
    exact h.housed.eq_of_position hy hx (Option.some.inj he)

/-- The job is that of the placeholder in the instance. -/
structure Belongs (t : Template) (given : InstanceOptions) (i : Instance) (x : Placeholder)
    (job : Job) : Prop where
  mem : x ∈ t.placeholders
  options : Options.resolve given x = .ok job.options
  position : job.position = x.position
  shown : job.shownPosition = t.shownAt x
  record : i.HasRecord job

theorem Setting.belongs (h : Setting t home) (hflow : Flow t home s) (hx : x ∈ t.placeholders)
    (hdescribes : x.Describes home job) (hjob : ∃ y ∈ t.placeholders, y.Commissions given job) :
    Belongs t given s.inst x job := by
  obtain ⟨y, hy, hcommissions⟩ := hjob
  obtain rfl :=
    h.housed.eq_of_position hx hy (hdescribes.position.symm.trans hcommissions.position)
  refine ⟨hx, hcommissions.options, hcommissions.position, ?_, fun p hp => ?_⟩
  · unfold Template.shownAt Job.shownPosition
    cases hsingle : t.single with
    | true =>
      rw [hdescribes.destination, h.whole hsingle, if_pos rfl]
    | false =>
      obtain ⟨id, hid⟩ := h.housed.home_element x hx (Or.inl hsingle)
      rw [hdescribes.destination, hid, if_neg (by simp), hdescribes.position]
  · cases hdestination : job.destination with
    | whole =>
      rw [Job.shownPosition, hdestination] at hp
      exact absurd hp (by simp)
    | element id =>
      rw [Job.shownPosition, hdestination] at hp
      have hrecorded := hflow.recorded x hx id (hdescribes.destination.symm.trans hdestination)
      rwa [← hdescribes.position, Option.some.inj hp, Instance.flight?, Option.isSome_map]
        at hrecorded

/-- Each request of an instance `Belongs` to one of its placeholders, under the options given. -/
theorem Setting.belongs_of_request (h : Setting t home) (hflow : Flow t home s)
    (hbooked : Booked t given s) {r : TaskId × Task} (hr : r ∈ s.requests) :
    ∃ x, Belongs t given s.inst x r.2.job := by
  obtain ⟨x, hx, hdescribes⟩ := hflow.jobs r hr
  exact ⟨x, h.belongs hflow hx hdescribes (hbooked.requests r hr).1⟩

/-! ### The log and the instance -/

/-- The log is in order, and what it tells of each placeholder that is observed agrees with the
instance. -/
structure Logged (t : Template) (given : InstanceOptions) (s : Scene Log) : Prop where
  ordered : Log.Ordered s.inst.root s.memory
  agrees : ∀ x ∈ t.placeholders, ∀ o, Options.resolve given x = .ok o → ∀ label,
    o.observer = some label → Log.Agrees label (t.shownAt x) s.inst s.memory

theorem Logged.congr (h : Logged t given s) (hinst : s.inst.SameReport s'.inst)
    (hmemory : s'.memory = s.memory) : Logged t given s' where
  ordered := by
    rw [hinst.root_eq, hmemory]
    exact h.ordered
  agrees x hx o ho label hlabel := by
    rw [hmemory]
    exact (h.agrees x hx o ho label hlabel).congr (hinst.statusAt_eq _) (hinst.contentsAt_eq _)

/-- Another status `code` than the one that is shown, written down, keeps the log in agreement. -/
theorem Logged.withStatus (h : Logged t given s) (hset : Setting t home)
    (hjob : Belongs t given s.inst x job) {code : Nat}
    (hne : s.inst.statusAt job.shownPosition ≠ code) : Logged t given (s.withStatus job code) := by
  have hroot : (s.inst.setStatus job code).root = s.inst.root :=
    (sameContents_setStatus s.inst job code).root_eq
  have hstatus := Instance.statusAt_setStatus hjob.record code
  have hcontents := Instance.contentsAt_setStatus s.inst job code
  constructor
  -- without an observer nothing is written down
  case ordered =>
    change Log.Ordered (s.inst.setStatus job code).root (s.memory ++ _)
    rw [hroot]
    cases hobserver : job.options.observer with
    | none =>
      rw [job.entries_of_none hobserver, List.append_nil]
      exact h.ordered
    | some label =>
      rw [job.entries_of_some hobserver]
      exact h.ordered.status label code job.shownPosition
  case agrees =>
    intro y hy o ho label hlabel
    have hbefore := h.agrees y hy o ho label hlabel
    by_cases he : y = x
    · obtain rfl := he
      -- its options were resolved when the instance was made
      obtain rfl : o = job.options := Except.ok.inj (ho.symm.trans hjob.options)
      rw [← hjob.shown] at hbefore ⊢
      exact hbefore.append_status hlabel hne ((hstatus _).trans (if_pos rfl)) (hcontents _)
    · -- the entry is about another placeholder
      have hother : job.shownPosition ≠ t.shownAt y := fun hsame =>
        he (hset.eq_of_shownAt hjob.mem hy (hsame.symm.trans hjob.shown))
      exact (hbefore.congr ((hstatus _).trans (if_neg (Ne.symm hother))) (hcontents _)).append
        (Log.codes_status_of_ne hother job code) (Log.contents_status job code _)

theorem Logged.changeStatus (h : Logged t given s) (hset : Setting t home)
    (hjob : Belongs t given s.inst x job) (code : Nat) :
    Logged t given (s.changeStatus hear job code) := by
  rw [changeStatus_hear]
  split
  · exact h
  · rename_i hne
    exact h.withStatus hset hjob hne

/-- The `nodes` of a success, written down after its status, keep the log in agreement. -/
theorem Logged.inserted (h : Logged t given s) (hset : Setting t home)
    (hjob : Belongs t given s.inst x job) {log : Log} {code : Nat}
    (hsuccess : isSuccess code = true)
    (htold : s.memory = log ++ job.entries [.status code job.shownPosition]) {nodes : List NodeId}
    (hwhole : job.shownPosition = none →
      s.inst.contentsAt none = none ∧ ∃ fragment, nodes = [fragment])
    (hreworked : s.inst.Reworked j) (hcontents : ∀ q, j.contentsAt q =
      if q = job.shownPosition then some nodes else s.inst.contentsAt q) :
    Logged t given { s with inst := j
                            memory := s.memory ++ job.entries (s.inst.report job nodes) } := by
  constructor
  case ordered =>
    change Log.Ordered j.root (s.memory ++ _)
    rw [hreworked.root_eq]
    cases hobserver : job.options.observer with
    | none =>
      rw [job.entries_of_none hobserver, List.append_nil]
      exact h.ordered
    | some label =>
      have hordered := h.ordered
      rw [job.entries_of_some hobserver] at htold ⊢
      rw [htold] at hordered ⊢
      exact hordered.report hsuccess fun hnone => (hwhole hnone).2
  case agrees =>
    intro y hy o ho label hlabel
    have hbefore := h.agrees y hy o ho label hlabel
    -- Each placeholder shows a place of its own, so the report is about the place of `x` alone.
    by_cases he : y = x
    · obtain rfl := he
      obtain rfl : o = job.options := Except.ok.inj (ho.symm.trans hjob.options)
      rw [← hjob.shown] at hbefore ⊢
      exact hbefore.append_report hlabel hwhole (hreworked.statusAt_eq _)
        ((hcontents _).trans (if_pos rfl))
    · have hother : job.shownPosition ≠ t.shownAt y := fun hsame =>
        he (hset.eq_of_shownAt hjob.mem hy (hsame.symm.trans hjob.shown))
      have hkept := hbefore.congr (hreworked.statusAt_eq _)
        ((hcontents (t.shownAt y)).trans (if_neg (Ne.symm hother)))
      exact hkept.append (Log.codes_report s.inst job nodes)
        (Log.contents_report_of_ne hother s.inst nodes)

/-! ### Changes of the status -/

theorem requests_changeStatus_hear (job : Job) (code : Nat) (s : Scene Log) :
    (s.changeStatus hear job code).requests = s.requests := by
  rw [changeStatus_hear]
  split
  · rfl
  · exact (sameBooks_setStatus s job code).requests_eq

/-- The status of the one placeholder is `code` then, and others are as they were. -/
theorem statusAt_changeStatus_hear (hrecord : s.inst.HasRecord job) (code : Nat)
    (q : Option Position) : (s.changeStatus hear job code).inst.statusAt q =
      if q = job.shownPosition then code else s.inst.statusAt q := by
  rw [changeStatus_hear]
  split
  · rename_i hcode
    split
    · rename_i hq
      rw [hq, hcode]
    · rfl
  · exact Instance.statusAt_setStatus hrecord code q

theorem contentsAt_changeStatus_hear (job : Job) (code : Nat) (s : Scene Log)
    (q : Option Position) :
    (s.changeStatus hear job code).inst.contentsAt q = s.inst.contentsAt q := by
  rw [changeStatus_hear]
  split
  · rfl
  · exact Instance.contentsAt_setStatus s.inst job code q

/-- A change of status adds at most `job.entries [.status code job.shownPosition]` to the log. -/
theorem memory_changeStatus_hear (job : Job) (code : Nat) (s : Scene Log) :
    (s.changeStatus hear job code).memory = s.memory ∨ (s.changeStatus hear job code).memory =
      s.memory ++ job.entries [.status code job.shownPosition] := by
  rw [changeStatus_hear]
  split
  · exact Or.inl rfl
  · exact Or.inr rfl

/-- After a status `0` that of a success is added to the log. -/
theorem memory_changeStatus_hear_of_isSuccess (hzero : s.inst.statusAt job.shownPosition = 0)
    (hsuccess : isSuccess code = true) : (s.changeStatus hear job code).memory =
      s.memory ++ job.entries [.status code job.shownPosition] := by
  have hne : s.inst.statusAt job.shownPosition ≠ code := by
    rw [hzero]
    rintro rfl
    exact absurd hsuccess (by decide)
  rw [changeStatus_hear, if_neg hne]
  rfl

theorem sameReport_board (s : Scene Log) (job : Job) (request : Outgoing) :
    s.inst.SameReport (s.board job request).inst := by
  have hpending : ∀ (i : Instance) p id, i.SameReport (i.addPending p id) := fun i p id =>
    ⟨rfl, fun q => by cases q <;> rfl, fun q => by cases q <;> rfl, fun _ => rfl⟩
  exact (Instance.sameReport_setRunning s.inst job true).trans (hpending _ _ _)

theorem sameReport_standDown (i : Instance) (p : Position) : i.SameReport (i.standDown p) :=
  ⟨rfl, fun q => by cases q <;> rfl, fun q => by cases q <;> rfl, fun _ => rfl⟩

/-! ### Requests that have not ended -/

/-- A request that has not ended shows nothing. -/
def Pristine (s : Scene Log) : Prop :=
  ∀ r ∈ s.requests, r.2.isEnded = false → s.inst.statusAt r.2.job.shownPosition = 0 ∧
    (r.2.job.shownPosition = none → s.inst.contentsAt none = none)

theorem Pristine.congr (h : Pristine s) (hrequests : s'.requests = s.requests)
    (hinst : s.inst.SameReport s'.inst) : Pristine s' := by
  intro r hr hunended
  rw [hinst.statusAt_eq, hinst.contentsAt_eq]
  rw [hrequests] at hr
  exact h r hr hunended

/-- A placeholder whose status becomes `0` before its request is taken in leaves things pristine. -/
theorem Pristine.board (h : Pristine s) (hrecord : s.inst.HasRecord job)
    (hshown : job.shownPosition ≠ none) (request : Outgoing) :
    Pristine ((s.changeStatus hear job 0).board job request) := by
  have hreport := sameReport_board (s.changeStatus hear job 0) job request
  intro r hr hunended
  rw [requests_board, requests_changeStatus_hear] at hr
  rw [hreport.statusAt_eq, hreport.contentsAt_eq, statusAt_changeStatus_hear hrecord,
    contentsAt_changeStatus_hear]
  rcases List.mem_append.mp hr with hr | hr
  · obtain ⟨hstatus, hcontents⟩ := h r hr hunended
    refine ⟨?_, hcontents⟩
    split
    · rfl
    · exact hstatus
  · obtain rfl := List.mem_singleton.mp hr
    exact ⟨if_pos rfl, fun hnone => absurd hnone hshown⟩

/-- What holds while the observer writes down what it is told. -/
structure Underway (t : Template) (given : InstanceOptions) (home : Position → Destination)
    (s : Scene Log) : Prop where
  flights : Flights t home s
  booked : Booked t given s
  logged : Logged t given s
  pristine : Pristine s

theorem Underway.elsewhere (h : Underway t given home s) {host : Host}
    (hhost : s.host.SameRequests s.inst.id host) : Underway t given home { s with host } where
  flights := h.flights.congr hhost fun _ => rfl
  booked := lasting_booked.elsewhere s host s.memory hhost h.booked
  logged := h.logged.congr (.refl _) rfl
  pristine := h.pristine.congr hhost (.refl _)

/-- Two requests that go on, `id' ≠ id`, are shown at different positions. -/
theorem Underway.shownPosition_ne (h : Underway t given home s) (hset : Setting t home)
    (hflow : Flow t home s) {id id' : TaskId} {task task' : Task} (hmem : (id, task) ∈ s.requests)
    (hunended : task.isEnded = false) (hmem' : (id', task') ∈ s.requests)
    (hunended' : task'.isEnded = false) (hne : id' ≠ id) :
    task'.job.shownPosition ≠ task.job.shownPosition := by
  intro he
  -- otherwise the placeholder would have two at a time
  obtain ⟨x, hx⟩ := hset.belongs_of_request hflow h.booked hmem
  obtain ⟨y, hy⟩ := hset.belongs_of_request hflow h.booked hmem'
  obtain rfl := hset.eq_of_shownAt hx.mem hy.mem (hy.shown.symm.trans (he.trans hx.shown))
  have hmine := mem_unfinished hmem hunended
  have hother := mem_unfinished hmem' hunended'
  rw [hx.position] at hmine
  rw [hy.position] at hother
  exact hne (congrArg Prod.fst (eq_of_length_le_one (h.flights.alone _ hx.mem) hother hmine))

/-! ### Steps -/

theorem underway_fire (hset : Setting t home) (p : Position) (s : Scene Log)
    (hflow : Flow t home s) (h : Underway t given home s) :
    Underway t given home (stateAfter (fire hear p) s) := by
  have hobserve := recording_hear.considerate
  have htame := hobserve.lawful.tame hset.housed
  have hflights := (continues_fire htame (hobserve.steady hset.housed) hobserve.patient hset.housed
    p s hflow h.flights).flights
  have hbooked := (lasting_booked.lawful hobserve.lawful).fire p s h.booked
  have hfired := fired_fire hear p s
  generalize stateAfter (fire hear p) s = s' at hfired hflights hbooked ⊢
  -- in both cases in which a request is started
  have hboard : ∀ {b : Standby} (request : Outgoing) {host : Host},
      s.inst.standby? p = some b → host.tasks = s.host.tasks →
      Logged t given (({ s with host }.changeStatus hear b.job 0).board b.job request) ∧
        Pristine (({ s with host }.changeStatus hear b.job 0).board b.job request) := by
    intro b request host hb htasks
    obtain ⟨hmem, -⟩ := Instance.standby?_mem hb
    obtain ⟨x, hx, hdescribes, hdeferred, -⟩ := hflow.standbys b hmem
    obtain ⟨id, hid⟩ := hset.housed.home_element x hx (Or.inr hdeferred)
    have hjob := hset.belongs hflow hx hdescribes (h.booked.standbys b hmem)
    have h₁ := h.elsewhere (Host.requestsOf_of_tasks htasks s.inst.id)
    have hlogged := h₁.logged.changeStatus hset hjob 0
    refine ⟨hlogged.congr (sameReport_board _ b.job request) rfl,
      h₁.pristine.board hjob.record ?_ request⟩
    rw [Job.shownPosition, hdescribes.destination, hid]
    simp
  cases hfired with
  | passed host hhost => exact h.elsewhere (Host.requestsOf_of_tasks hhost.tasks_eq s.inst.id)
  | once b request host hb _ hhost =>
    obtain ⟨hlogged, hpristine⟩ := hboard request hb hhost.tasks_eq
    have hstandDown := sameReport_standDown
      (({ s with host }.changeStatus hear b.job 0).board b.job request).inst p
    exact ⟨hflights, hbooked, hlogged.congr hstandDown rfl, hpristine.congr rfl hstandDown⟩
  | again b request host hb _ hhost =>
    obtain ⟨hlogged, hpristine⟩ := hboard request hb hhost.tasks_eq
    exact ⟨hflights, hbooked, hlogged, hpristine⟩

section Turn

variable {id : TaskId} {task : Task}

/-- A request `id` ends that was the only one of which anything new was shown. -/
theorem Underway.finish (h : Underway t given home s) (hset : Setting t home)
    (hflow : Flow t home s) (hmem : (id, task) ∈ s.requests) (hunended : task.isEnded = false)
    (hlogged : Logged t given s') (hrequests : s'.requests = s.requests)
    (hothers : ∀ q, q ≠ task.job.shownPosition →
      s'.inst.statusAt q = s.inst.statusAt q ∧ s'.inst.contentsAt q = s.inst.contentsAt q)
    (result : Except RequestError Unit) :
    Logged t given (s'.finish id task.job result) ∧ Pristine (s'.finish id task.job result) ∧
      (id, { task with phase := .ended result }) ∈ (s'.finish id task.job result).requests := by
  have hmark := Instance.sameReport_setRunning s'.inst task.job false
  have hended := requests_finish s' id task.job result
  rw [hrequests] at hended
  refine ⟨hlogged.congr hmark rfl, ?_, ?_⟩
  · intro r hr hunended'
    rw [hended] at hr
    obtain ⟨r', hr', rfl⟩ := List.mem_map.mp hr
    unfold withPhase at hunended' ⊢
    -- the request itself has ended, and others are not concerned
    by_cases he : r'.1 = id
    · rw [if_pos he] at hunended'
      exact absurd hunended' (by simp [Task.isEnded, Task.result?])
    · rw [if_neg he] at hunended' ⊢
      have hne := h.shownPosition_ne hset hflow hmem hunended hr' hunended' he
      obtain ⟨hstatus, hcontents⟩ := hothers _ hne
      obtain ⟨hzero, hempty⟩ := h.pristine r' hr' hunended'
      refine ⟨?_, fun hnone => ?_⟩
      · exact (hmark.statusAt_eq _).trans (hstatus.trans hzero)
      · rw [hnone] at hcontents
        exact (hmark.contentsAt_eq none).trans (hcontents.trans (hempty hnone))
  · have hmap := List.mem_map_of_mem (f := withPhase id (.ended result)) hmem
    rw [withPhase, if_pos rfl] at hmap
    rw [hended]
    exact hmap

/-- What observers are told at a turn, beyond `log`, and what has become of the request. -/
inductive Reported (id : TaskId) (task : Task) (log : Log) (s : Scene Log) : Prop where
  /-- The request goes on, or it had ended before. -/
  | silent (task' : Task) : (id, task') ∈ s.requests → task'.isEnded = task.isEnded →
    s.memory = log → Reported id task log s
  /-- It has failed, and no more is told than the status. -/
  | failed (error : RequestError) : task.isEnded = false →
    (id, { task with phase := .ended (.error error) }) ∈ s.requests →
    (s.memory = log ∨
      ∃ code, s.memory = log ++ task.job.entries [.status code task.job.shownPosition]) →
    Reported id task log s
  /-- It has succeeded. What is told is what is shown from then on. -/
  | succeeded (code : Nat) (nodes : List NodeId) : task.isEnded = false →
    (id, { task with phase := .ended (.ok ()) }) ∈ s.requests → isSuccess code = true →
    s.inst.statusAt task.job.shownPosition = code →
    s.inst.contentsAt task.job.shownPosition = some nodes →
    s.memory = log ++
      task.job.entries (.status code task.job.shownPosition :: s.inst.report task.job nodes) →
    Reported id task log s

/-- When `r` was used, what its request reports is in the log. -/
theorem Underway.receive (h : Underway t given home s) (hset : Setting t home)
    (hflow : Flow t home s) (hmem : (id, task) ∈ s.requests) (hunended : task.isEnded = false)
    (r : Response) : Logged t given (s.receive hear id task.job r) ∧
      Pristine (s.receive hear id task.job r) ∧
      Reported id task s.memory (s.receive hear id task.job r) := by
  obtain ⟨x, hx, hdescribes⟩ := hflow.jobs _ hmem
  obtain ⟨hzero, hempty⟩ := h.pristine _ hmem hunended
  have hcommissioned := (h.booked.requests _ hmem).1
  have hjob := hset.belongs hflow hx hdescribes hcommissioned
  have hflow₁ := (flow_changeStatus (recording_hear.lawful.tame hset.housed) hflow task.job r.status
    (Or.inl (requestsAt_ne_nil hmem))).1
  have hjob₁ := hset.belongs hflow₁ hx hdescribes hcommissioned
  have hlogged₁ := h.logged.changeStatus hset hjob r.status
  have hrequests₁ := requests_changeStatus_hear task.job r.status s
  have hstatus₁ := statusAt_changeStatus_hear hjob.record r.status
  have hcontents₁ := contentsAt_changeStatus_hear task.job r.status s
  have hmemory₁ := memory_changeStatus_hear task.job r.status s
  have htold := @memory_changeStatus_hear_of_isSuccess s task.job r.status hzero
  have hreceived := received_receive hear id task.job r s
  generalize s.receive hear id task.job r = s' at hreceived ⊢
  generalize s.changeStatus hear task.job r.status = s₁ at *
  have hothers₁ : ∀ q, q ≠ task.job.shownPosition →
      s₁.inst.statusAt q = s.inst.statusAt q ∧ s₁.inst.contentsAt q = s.inst.contentsAt q :=
    fun q hq => ⟨(hstatus₁ q).trans (if_neg hq), hcontents₁ q⟩
  have hempty₁ : task.job.shownPosition = none → s₁.inst.contentsAt none = none := fun hnone =>
    (hcontents₁ none).trans (hempty hnone)
  have hstatusOnly : s₁.memory = s.memory ∨
      ∃ code, s₁.memory = s.memory ++ task.job.entries [.status code task.job.shownPosition] :=
    hmemory₁.imp_right fun h => ⟨r.status, h⟩
  have hnone₁ : task.job.shownPosition = none → s₁.inst.fragment = none := fun hnone =>
    Option.map_eq_none_iff.mp (hempty₁ hnone)
  cases hreceived with
  | refused =>
    obtain ⟨hlogged, hpristine, hended⟩ := h.finish hset hflow hmem hunended hlogged₁ hrequests₁
      hothers₁ (.error (.failed r.status))
    exact ⟨hlogged, hpristine, .failed _ hunended hended hstatusOnly⟩
  | failed cause j _ hrun hreworked =>
    -- whatever has become of the tree, nothing is shown of it
    have hsame := Instance.sameReport_of_insertResponse_error hnone₁ hrun
    have hlogged₂ : Logged t given { s₁ with inst := j } := hlogged₁.congr hsame rfl
    have hrequests₂ := (sameBooks_of_reworked hreworked).requests_eq.trans hrequests₁
    obtain ⟨hlogged, hpristine, hended⟩ := h.finish hset hflow hmem hunended hlogged₂ hrequests₂
      (fun q hq => ⟨(hsame.statusAt_eq q).trans (hothers₁ q hq).1,
        (hsame.contentsAt_eq q).trans (hothers₁ q hq).2⟩) (.error (.insertion cause))
    exact ⟨hlogged, hpristine, .failed _ hunended hended hstatusOnly⟩
  | inserted ns j hsuccess hrun hreworked =>
    obtain ⟨nodes, rfl, hwhole, hcontents₂⟩ :=
      Instance.contentsAt_of_insertResponse hjob₁.record hnone₁ hrun
    have hstatus₂ := hreworked.statusAt_eq
    have hlogged₂ := hlogged₁.inserted hset hjob₁ hsuccess (htold hsuccess)
      (fun hnone => ⟨hempty₁ hnone, hwhole hnone⟩) hreworked hcontents₂
    have hrequests₂ := (sameBooks_of_reworked hreworked).requests_eq.trans hrequests₁
    rw [notifyAll_hear]
    obtain ⟨hlogged, hpristine, hended⟩ := h.finish hset hflow hmem hunended hlogged₂ hrequests₂
      (fun q hq => ⟨(hstatus₂ q).trans (hothers₁ q hq).1,
        ((hcontents₂ q).trans (if_neg hq)).trans (hothers₁ q hq).2⟩) (.ok ())
    have hmark := Instance.sameReport_setRunning j task.job false
    refine ⟨hlogged, hpristine, .succeeded r.status nodes hunended hended hsuccess ?_ ?_ ?_⟩
    · exact (hmark.statusAt_eq _).trans ((hstatus₂ _).trans ((hstatus₁ _).trans (if_pos rfl)))
    · exact (hmark.contentsAt_eq _).trans ((hcontents₂ _).trans (if_pos rfl))
    · have hreport : (j.setRunning task.job false).report task.job nodes =
          s₁.inst.report task.job nodes :=
        Instance.report_congr (hmark.root_eq.trans hreworked.root_eq) task.job nodes
      change s₁.memory ++ _ = s.memory ++
        task.job.entries ([_] ++ (j.setRunning task.job false).report task.job nodes)
      rw [htold hsuccess, hreport, Job.entries_append, List.append_assoc]

/-- A turn keeps `Underway`, and what it reports is in the log. -/
theorem underway_turn (hset : Setting t home) (hflow : Flow t home s) (h : Underway t given home s)
    (hmem : (id, task) ∈ s.requests) : Underway t given home (s.turn hear id task) ∧
      Reported id task s.memory (s.turn hear id task) := by
  have hobserve := recording_hear.considerate
  have hflights := flights_turn (hobserve.lawful.tame hset.housed) (hobserve.steady hset.housed)
    hflow h.flights hmem
  have hbooked := lasting_booked.turn hobserve.lawful id task s h.booked
  have hturned := turned_turn hear id task s
  have hhost : ∀ {host : Host}, host.tasks = s.host.tasks → Flow t home { s with host } ∧
      Underway t given home { s with host } ∧
      (id, task) ∈ ({ s with host } : Scene Log).requests := by
    intro host htasks
    have hrequests := (sameBooks_of_tasks s htasks).requests_eq
    exact ⟨(flow_of_tasks hflow htasks).1, h.elsewhere hrequests, by rwa [hrequests]⟩
  generalize s.turn hear id task = s' at hturned hflights hbooked ⊢
  cases hturned with
  | received host r htasks hunended =>
    obtain ⟨hflow₁, h₁, hmem₁⟩ := hhost htasks
    obtain ⟨hlogged, hpristine, hreported⟩ := h₁.receive hset hflow₁ hmem₁ hunended r
    exact ⟨⟨hflights, hbooked, hlogged, hpristine⟩, hreported⟩
  | finished host error htasks hunended =>
    obtain ⟨hflow₁, h₁, hmem₁⟩ := hhost htasks
    obtain ⟨hlogged, hpristine, hended⟩ := h₁.finish hset hflow₁ hmem₁ hunended h₁.logged rfl
      (fun _ _ => ⟨rfl, rfl⟩) (.error error)
    exact ⟨⟨hflights, hbooked, hlogged, hpristine⟩, .failed error hunended hended (Or.inl rfl)⟩
  | asked host due r htasks hunended =>
    obtain ⟨-, h₁, hmem₁⟩ := hhost htasks
    have hrequests := requests_setPhase { s with host } id (.waiting due r)
    have hwaits := List.mem_map_of_mem (f := withPhase id (.waiting due r)) hmem₁
    rw [withPhase, if_pos rfl, ← hrequests] at hwaits
    refine ⟨⟨hflights, hbooked, h₁.logged.congr (.refl _) rfl, ?_⟩,
      .silent _ hwaits hunended.symm rfl⟩
    intro r' hr hunended'
    rw [hrequests] at hr
    obtain ⟨r₁, hr₁, rfl⟩ := List.mem_map.mp hr
    rw [withPhase_job]
    refine h₁.pristine r₁ hr₁ ?_
    -- a request that waits had not ended before either
    unfold withPhase at hunended'
    split at hunended'
    · rename_i he
      obtain ⟨id', task'⟩ := r₁
      obtain rfl : id' = id := he
      rw [eq_of_mem_requests hmem₁ hr₁]
      exact hunended
    · exact hunended'
  | idle host htasks =>
    obtain ⟨-, h₁, hmem₁⟩ := hhost htasks
    exact ⟨h₁, .silent task hmem₁ rfl rfl⟩

end Turn

/-! ### Histories -/

section Begun

variable {host : Host} {memory : Log}

theorem Begun.record?_eq (h : Begun t given i host memory t.placeholders s) {p : Position}
    {r : RequestRecord} (hr : s.inst.record? p = some r) : r.status = 0 ∧ r.response = none := by
  have hmem := List.mem_of_find?_eq_some hr
  rw [h.records] at hmem
  split at hmem
  · exact absurd hmem List.not_mem_nil
  · obtain ⟨y, -, rfl⟩ := List.mem_map.mp hmem
    exact ⟨rfl, rfl⟩

/-- In a new instance every status is `0`. -/
theorem Begun.statusAt_eq (h : Begun t given i host memory t.placeholders s) (q : Option Position) :
    s.inst.statusAt q = 0 := by
  cases q with
  | none => exact h.status
  | some p =>
    rw [Instance.statusAt]
    cases hr : s.inst.record? p with
    | none => rfl
    | some r => exact (h.record?_eq hr).1

/-- In a new instance there is no response: `s.inst.contentsAt q = none`. -/
theorem Begun.contentsAt_eq (h : Begun t given i host memory t.placeholders s)
    (q : Option Position) : s.inst.contentsAt q = none := by
  cases q with
  | none => rw [Instance.contentsAt, h.fragment, Option.map_none]
  | some p =>
    rw [Instance.contentsAt, Instance.response?, Option.bind_eq_none_iff]
    exact fun r hr => (h.record?_eq hr).2

/-- The log `[]` agrees with a new instance. -/
theorem Begun.logged (h : Begun t given i host [] t.placeholders s) : Logged t given s where
  ordered := by
    rw [h.memory]
    exact Log.ordered_nil s.inst.root
  agrees x _ o _ label _ := by
    rw [h.memory]
    exact ⟨List.isChain_singleton 0, h.statusAt_eq _, h.contentsAt_eq _, fun _ => Nat.zero_le 1⟩

theorem Begun.pristine (h : Begun t given i host memory t.placeholders s) : Pristine s :=
  fun _ _ _ => ⟨h.statusAt_eq _, fun _ => h.contentsAt_eq none⟩

end Begun

variable {sent : List (Position × Outgoing)} {source : String} {ds ds' : List Diagnostic}

/-- `Underway` holds after every history. -/
theorem underway_of_history (hcompiled : t.Compiled source)
    (h : History hear t given Eq [] sent s) :
    ∃ home, Setting t home ∧ Flow t home s ∧ AllSettled t s ∧ Underway t given home s := by
  have hobserve := recording_hear.lawful
  induction h with
  | instantiate id hfresh hmade =>
    have hnew : History hear t given Eq [] [] ⟨_, _, _⟩ := .instantiate id hfresh hmade
    obtain ⟨i, hcopy, ht, hopened⟩ :=
      opened_instantiate hcompiled.nodup hcompiled.deferred_of_one hfresh hmade
    obtain ⟨i', -, hbegun⟩ := begun_instantiate hmade
    exact ⟨i.home, ⟨⟨source, hcompiled⟩, ht, hcopy.home_eq_whole⟩, hopened.flow,
      hopened.allSettled ht, hopened.flights, (booked_of_history hobserve hnew).1, hbegun.logged,
      hbegun.pristine⟩
  | dispatch target event _ ih =>
    obtain ⟨home, hset, hflow, hsettled, h⟩ := ih
    obtain ⟨hflow₁, hquiet, h₁⟩ := flow_dispatch (hobserve.tame hset.housed) hset.housed
      (fun p s hflow _ h => underway_fire hset p s hflow h) hflow h target event
    exact ⟨home, hset, hflow₁, hsettled.quiet hquiet, h₁⟩
  | turn id task _ hmem ih =>
    obtain ⟨home, hset, hflow, hsettled, h⟩ := ih
    obtain ⟨hflow₁, hsettled₁⟩ := flow_turn (hobserve.tame hset.housed) hflow hsettled hmem
    exact ⟨home, hset, hflow₁, hsettled₁, (underway_turn hset hflow h hmem).1⟩
  | @collect _ s _ ih =>
    obtain ⟨home, hset, hflow, hsettled, h⟩ := ih
    obtain ⟨hflow₁, hquiet⟩ := flow_elsewhere hflow rfl s.memory []
    -- Collecting empties the pending tasks, and no report reads them.
    have hsame : s.inst.SameReport s.inst.collect.2 :=
      ⟨rfl, fun q => by cases q <;> rfl, fun q => by cases q <;> rfl, fun _ => rfl⟩
    exact ⟨home, hset, hflow₁, hsettled.quiet hquiet, h.flights.congr rfl fun _ => rfl,
      lasting_booked.inst s _ (Instance.becomes_collect _) h.booked, h.logged.congr hsame rfl,
      h.pristine.congr rfl hsame⟩
  | @elsewhere _ s host memory _ hhost hmemory ih =>
    obtain ⟨home, hset, hflow, hsettled, h⟩ := ih
    obtain ⟨hflow₁, hquiet⟩ := flow_elsewhere hflow hhost memory s.inst.pending
    subst hmemory
    exact ⟨home, hset, hflow₁, hsettled.quiet hquiet, h.elsewhere hhost⟩

/-- What is promised about the log of an instance whose observer writes down what it is told. -/
structure Faithful (t : Template) (given : InstanceOptions) (s : Scene Log) : Prop where
  /-- The statuses that are told of a placeholder are changes, and its status is the last of them;
  so is what it shows the last that a success brought. A single placeholder has one success at
  most. -/
  agrees : ∀ x ∈ t.placeholders, ∀ o, Options.resolve given x = .ok o → ∀ label,
    o.observer = some label → Log.Agrees label (t.shownAt x) s.inst s.memory
  /-- The nodes of a success are told right after its status and right before the root. -/
  nodes : ∀ before after label ids p, s.memory = before ++ (label, .nodes ids p) :: after →
    (∃ before' code, before = before' ++ [(label, .status code (some p))] ∧
      isSuccess code = true) ∧ ∃ after', after = (label, .root s.inst.root) :: after'
  /-- The root is told for no other reason. -/
  root : ∀ before after label r, s.memory = before ++ (label, .root r) :: after →
    r = s.inst.root ∧ ∃ before' ids p, before = before' ++ [(label, .nodes ids p)]
  /-- A fragment is told right after the status of its success. -/
  fragment : ∀ before after label id, s.memory = before ++ (label, .fragment id) :: after →
    ∃ before' code, before = before' ++ [(label, .status code none)] ∧ isSuccess code = true
  /-- A turn is told as what becomes of the request, and of a failure no more than the status. -/
  turns : ∀ id task, (id, task) ∈ s.requests → Reported id task s.memory (s.turn hear id task)

/-- **The log of an observer that writes down what it is told agrees with the instance at all
times.** -/
theorem faithful_of_history (hcompile : (Template.compile source).run ds = .ok t ds')
    (h : History hear t given Eq [] sent s) : s.Faithful t given := by
  obtain ⟨home, hset, hflow, -, hunderway⟩ :=
    underway_of_history (Template.compiled_compile hcompile) h
  have hordered := hunderway.logged.ordered
  constructor
  case agrees => exact hunderway.logged.agrees
  case nodes =>
    intro before after label ids p hlog
    rw [hlog] at hordered
    exact hordered.around_nodes
  case root =>
    intro before after label r hlog
    rw [hlog] at hordered
    obtain ⟨before', a, rfl, rfl, ids, p, rfl⟩ :=
      hordered.exists_before (by simp [Notification.IsStatus])
    exact ⟨rfl, before', ids, p, rfl⟩
  case fragment =>
    intro before after label id hlog
    rw [hlog] at hordered
    obtain ⟨before', a, rfl, code, rfl, hsuccess⟩ :=
      hordered.exists_before (by simp [Notification.IsStatus])
    exact ⟨before', code, rfl, hsuccess⟩
  case turns => exact fun id task hmem => (underway_turn hset hflow hunderway hmem).2

/-- A placeholder that is fired twice: the first response is a success and the second is not. In
between the status goes back to zero. -/
theorem faithful_once_refused : ∃ (t : Template) (ds : List Diagnostic) (given : InstanceOptions)
    (sent : List (Position × Outgoing)) (s : Scene Log),
    (Template.compile "<i><b></b><request src=a after=click:b></request></i>").run [] = .ok t ds ∧
    History hear t given Eq [] sent s ∧ s.memory.length = 5 ∧
    Log.codes "log" (some 1) s.memory = [200, 0, 500] ∧
    (Log.contents "log" (some 1) s.memory).map (·.length) = [1] ∧
    s.inst.arena.html s.inst.root = "<i><b></b>x</i>" ∧ s.Faithful t given := by
  let given : InstanceOptions := .plain { observer := some "log" }
  let responses : List Response := [⟨200, "x"⟩, ⟨500, "y"⟩]
  let transport : CannedTransport := ⟨[(⟨.get, "a"⟩, responses.map fun r => ⟨r, 0⟩)], []⟩
  let host : Host := { Host.empty with transport }
  have hplayed : (outcome (Template.compile
      "<i><b></b><request src=a after=click:b></request></i>") []).toOption.any (fun t =>
        (playTwice hear t given host []).any fun played =>
          decide (played.2.memory.length = 5 ∧
            Log.codes "log" (some 1) played.2.memory = [200, 0, 500] ∧
            (Log.contents "log" (some 1) played.2.memory).map (·.length) = [1] ∧
            played.2.inst.arena.html played.2.inst.root = "<i><b></b>x</i>")) = true := by
    decide +kernel
  obtain ⟨t, ds, hcompile, hplayed⟩ := exists_of_any_outcome hplayed
  obtain ⟨⟨sent, s⟩, hclicked, htold⟩ := (Option.any_eq_true ..).mp hplayed
  obtain ⟨hlength, hcodes, hcontents, hhtml⟩ := of_decide_eq_true htold
  have hrefused : History hear t given Eq [] sent s := .of_playTwice rfl hclicked
  exact ⟨t, ds, given, sent, s, hcompile, hrefused, hlength, hcodes, hcontents, hhtml,
    faithful_of_history hcompile hrefused⟩

end Scene

end Inlay
