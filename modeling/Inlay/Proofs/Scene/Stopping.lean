import Inlay.Proofs.Scene.Later

/-!
# Requests that are told to stop

A request looks at its signal when it has its first turn, and from then on whenever the signal
stirs: when somebody has noticed a reason, or the timer of the deadline has rung. If there is a
reason then, the request ends at that turn and brings nothing about (`stopsAt_of_reason`), and since
neither the reason nor the stirring goes away (`ToldToStop.later`), it never does later
(`stopped_of_reason`).

What comes after the look is too late. An observer that is told of the status of a response can
abort the signal, and a deadline can pass whose timer has not rung yet; the response is used all the
same (`used_despite_reason`).
-/

namespace Inlay

/-- What requests bring about in an instance is the same: statuses, responses, regions and the
tree. -/
structure Instance.SameOutput (i j : Instance) : Prop where
  arena_eq : j.arena = i.arena
  root_eq : j.root = i.root
  regions_eq : j.regions = i.regions
  status_eq : j.status = i.status
  fragment_eq : j.fragment = i.fragment
  records_eq : j.requests.map (fun r => (r.position, r.status, r.response)) =
    i.requests.map fun r => (r.position, r.status, r.response)

theorem Instance.sameOutput_setRunning (i : Instance) (job : Job) (flag : Bool) :
    i.SameOutput (i.setRunning job flag) := by
  unfold setRunning
  split
  · exact ⟨rfl, rfl, rfl, rfl, rfl, rfl⟩
  · refine ⟨rfl, rfl, rfl, rfl, rfl, ?_⟩
    rw [updateRecord, List.map_map]
    refine List.map_congr_left fun r _ => ?_
    by_cases hp : r.position = job.position
    · simp [hp]
    · simp [hp]

namespace Scene

variable {σ : Type} {s : Scene σ} {observe : Observer σ}

/-- A turn that finds a `reason` ends the request, with that as its error, and does nothing else. -/
theorem turn_of_reason (observe : Observer σ) (id : TaskId) {task : Task} {signal : SignalId}
    {reason : StopReason} (hunended : task.isEnded = false)
    (hsignal : task.request.signal = some signal)
    (hreason : s.host.signals.reason signal = some reason)
    (hstirs : task.hasAsked = true → s.host.signals.stirs signal = true) :
    s.turn observe id task = ({ s with
      host := { s.host with signals := (s.host.signals.look signal).2 } } : Scene σ).finish id
        task.job (.error reason.error) := by
  have hlooks : (task.hasAsked && !s.host.signals.stirs signal) = false := by
    cases hasked : task.hasAsked with
    | false => rfl
    | true => rw [hstirs hasked]; rfl
  have hlook : s.lookAtSignal task = (some reason, { s with
      host := { s.host with signals := (s.host.signals.look signal).2 } }) := by
    rw [lookAtSignal, hsignal]
    simp only
    rw [hlooks, if_neg Bool.false_ne_true, Signals.look, hreason]
    rfl
  rw [turn, if_neg (by simp [hunended]), hlook]

/-- A turn brings nothing about, and nobody is told or asked anything. A request that had not ended
has done so, for the reason. -/
structure StopsAt (observe : Observer σ) (id : TaskId) (reason : StopReason) (task : Task)
    (s : Scene σ) : Prop where
  output : s.inst.SameOutput (s.turn observe id task).inst
  memory_eq : (s.turn observe id task).memory = s.memory
  transport_eq : (s.turn observe id task).host.transport = s.host.transport
  ended : task.isEnded = false → (id, { task with phase := .ended (.error reason.error) }) ∈
    (s.turn observe id task).requests

/-- The signal of a request has a reason, and the request will see it: it has yet to look at the
signal for the first time, or the signal stirs. -/
structure ToldToStop (s : Scene σ) (id : TaskId) (reason : StopReason) (task : Task)
    (signal : SignalId) : Prop where
  mem : (id, task) ∈ s.requests
  signal_eq : task.request.signal = some signal
  reason_eq : s.host.signals.reason signal = some reason
  stirs : task.hasAsked = true → s.host.signals.stirs signal = true

variable {id : TaskId} {task : Task} {signal : SignalId} {reason : StopReason}

theorem turn_of_isEnded (observe : Observer σ) (id : TaskId) (hended : task.isEnded = true)
    (s : Scene σ) : s.turn observe id task = s := by
  rw [turn, if_pos hended]

/-- A request that is told to stop does so at its next turn, as `StopsAt` says. -/
theorem ToldToStop.stopsAt (h : s.ToldToStop id reason task signal) (observe : Observer σ) :
    s.StopsAt observe id reason task := by
  cases hended : task.isEnded with
  | true =>
    have hidle := turn_of_isEnded observe id hended s
    refine ⟨?_, ?_, ?_, fun hfalse => absurd (hended.symm.trans hfalse) (by simp)⟩
    · rw [hidle]
      exact ⟨rfl, rfl, rfl, rfl, rfl, rfl⟩
    · rw [hidle]
    · rw [hidle]
  | false =>
    have hturn := turn_of_reason observe id hended h.signal_eq h.reason_eq h.stirs
    refine ⟨?_, ?_, ?_, fun _ => ?_⟩
    · rw [hturn]
      exact Instance.sameOutput_setRunning s.inst task.job false
    · rw [hturn]
      rfl
    · rw [hturn]
      rfl
    · have hmap := List.mem_map_of_mem (f := withPhase id (.ended (.error reason.error))) h.mem
      rw [withPhase, if_pos rfl] at hmap
      rw [hturn, requests_finish]
      exact hmap

/-! ### Later turns -/

/-- A request is told to stop as long as it is in `requests`, since reasons and stirring do not go
away. -/
theorem ToldToStop.of_mem (h : s.ToldToStop id reason task signal) {s' : Scene σ}
    (hmem : (id, task) ∈ s'.requests) (honward : s.host.signals.Onward s'.host.signals) :
    s'.ToldToStop id reason task signal where
  mem := hmem
  signal_eq := h.signal_eq
  reason_eq := honward.reason_eq h.reason_eq
  stirs hasked := honward.stirs (h.stirs hasked)

theorem ToldToStop.turn (h : s.ToldToStop id reason task signal) (observe : Observer σ) :
    ∃ task', (s.turn observe id task).ToldToStop id reason task' signal := by
  cases hended : task.isEnded with
  | true =>
    rw [turn_of_isEnded observe id hended]
    exact ⟨task, h⟩
  | false =>
    have hturn := turn_of_reason observe id hended h.signal_eq h.reason_eq h.stirs
    refine ⟨_, (h.stopsAt observe).ended hended, h.signal_eq, ?_, fun hasked => ?_⟩
    · rw [hturn]
      exact (Signals.Onward.look signal (.refl _)).reason_eq h.reason_eq
    · exact absurd hasked (by simp [Task.hasAsked])

/-- Whatever happens, the request is `ToldToStop`. -/
theorem ToldToStop.later (h : s.ToldToStop id reason task signal) (hobserve : Lawful observe)
    (hsignals : SignalKeeping observe) {s' : Scene σ} (hlater : Later observe s s') :
    ∃ task', s'.ToldToStop id reason task' signal := by
  induction hlater with
  | refl => exact ⟨task, h⟩
  | dispatch target event _ ih =>
    obtain ⟨task', h'⟩ := ih
    exact ⟨task', h'.of_mem ((enduring_mem id task').dispatch hobserve target event _ h'.mem)
      (hsignals.dispatch target event _)⟩
  | turn i t _ hmem ih =>
    obtain ⟨task', h'⟩ := ih
    by_cases hi : i = id
    · subst hi
      obtain rfl : t = task' := eq_of_mem_requests h'.mem hmem
      exact h'.turn observe
    · exact ⟨task', h'.of_mem (mem_requests_turn_of_ne hobserve hi h'.mem)
        (hsignals.turn i t _)⟩
  | collect _ ih =>
    obtain ⟨task', h'⟩ := ih
    exact ⟨task', h'.of_mem h'.mem (.refl _)⟩
  | elsewhere host memory _ hhost honward ih =>
    obtain ⟨task', h'⟩ := ih
    refine ⟨task', h'.of_mem ?_ honward⟩
    rw [requests, hhost]
    exact h'.mem

/-- So each of its turns, whenever it comes, `StopsAt` the reason. -/
theorem ToldToStop.stopsAt_of_later (h : s.ToldToStop id reason task signal)
    (hobserve : Lawful observe) (hsignals : SignalKeeping observe) {s' : Scene σ}
    (hlater : Later observe s s') {task' : Task} (hmem : (id, task') ∈ s'.requests) :
    s'.StopsAt observe id reason task' := by
  obtain ⟨task'', h'⟩ := h.later hobserve hsignals hlater
  obtain rfl : task' = task'' := eq_of_mem_requests h'.mem hmem
  exact h'.stopsAt observe

/-- **A request that is told to stop brings nothing about any more**, however ready its answer is
and whatever else happens: neither its next turn nor any turn after that changes a status, a
response, a region or the tree, or asks the transport. It is told to stop

* when there is a reason at its first turn, or when it waits and its signal stirs;
* from the moment its signal was aborted;
* from the moment `d ≤ rung` at which the timer of its deadline `d` has rung;
* from its deadline `d ≤ now` on, as long as it has not asked the transport. -/
theorem stopped_of_reason (hobserve : Lawful observe) (hsignals : SignalKeeping observe)
    {id : TaskId} {task : Task} {signal : SignalId} (hmem : (id, task) ∈ s.requests)
    (hsignal : task.request.signal = some signal) :
    (∀ reason, s.host.signals.reason signal = some reason →
      (task.hasAsked = true → s.host.signals.stirs signal = true) →
      ∀ s', Later observe s s' → ∀ task', (id, task') ∈ s'.requests →
        s'.StopsAt observe id reason task') ∧
    ((s.host.signals.get? signal).isSome → ∃ reason,
      (s.host.signals.abort signal).reason signal = some reason ∧
      ∀ s', Later observe (s.mapHost (·.abort signal)) s' → ∀ task', (id, task') ∈ s'.requests →
        s'.StopsAt observe id reason task') ∧
    (∀ x d, s.host.signals.get? signal = some x → x.deadline = some d →
      d ≤ s.host.rung ∨ task.hasAsked = false ∧ d ≤ s.host.now → ∃ reason,
      s.host.signals.reason signal = some reason ∧
      ∀ s', Later observe s s' → ∀ task', (id, task') ∈ s'.requests →
        s'.StopsAt observe id reason task') := by
  refine ⟨fun reason hreason hstirs s' hlater task' hmem' => ?_, fun hknown => ?_,
    fun x d hx hd hpassed => ?_⟩
  · have htold : s.ToldToStop id reason task signal := ⟨hmem, hsignal, hreason, hstirs⟩
    exact htold.stopsAt_of_later hobserve hsignals hlater hmem'
  · have hstirs := Signals.stirs_abort (s := s.host.signals) hknown
    obtain ⟨reason, hreason⟩ := Signals.exists_reason_of_stirs hstirs
    have htold : (s.mapHost (·.abort signal)).ToldToStop id reason task signal :=
      ⟨hmem, hsignal, hreason, fun _ => hstirs⟩
    exact ⟨reason, hreason, fun s' hlater task' hmem' =>
      htold.stopsAt_of_later hobserve hsignals hlater hmem'⟩
  · have hnow : d ≤ s.host.now := by
      rcases hpassed with hrung | ⟨-, hnow⟩
      · exact Nat.le_trans hrung s.host.signals.rung_le_now
      · exact hnow
    obtain ⟨reason, hreason⟩ :=
      Option.isSome_iff_exists.mp (Signals.isSome_reason_of_deadline hx hd hnow)
    have htold : s.ToldToStop id reason task signal := by
      refine ⟨hmem, hsignal, hreason, fun hasked => ?_⟩
      rcases hpassed with hrung | ⟨hunasked, -⟩
      · exact Signals.stirs_of_deadline hx hd hrung
      · exact absurd (hasked.symm.trans hunasked) (by simp)
    exact ⟨reason, hreason, fun s' hlater task' hmem' =>
      htold.stopsAt_of_later hobserve hsignals hlater hmem'⟩

/-- A request whose signal is aborted before its first turn; and one that waits when both its answer
is there and the timer of its deadline has rung. -/
theorem stopped_once_aborted : ∃ (t : Template) (ds : List Diagnostic) (s s' : Scene Watch)
    (task task' : Task),
    (Template.compile "<i><request src=a></request></i>").run [] = .ok t ds ∧
    Run (watching 1) t [] s ∧ (⟨0⟩, task) ∈ s.requests ∧ task.isEnded = false ∧
    s.host.transport.calls = [] ∧ s.StopsAt (watching 1) ⟨0⟩ .aborted task ∧
    Run (watching 1) t [] s' ∧ (⟨0⟩, task') ∈ s'.requests ∧ task'.hasAsked = true ∧
    task'.isWaiting s'.host.rung = false ∧ s'.StopsAt (watching 1) ⟨0⟩ .timedOut task' := by
  let transport : CannedTransport := ⟨[(⟨.get, "a"⟩, [⟨⟨200, "b"⟩, 7⟩])], []⟩
  let signals := (Signals.empty.create none).2
  -- both are performed on the same template, the one with a signal and the other with a timeout
  obtain ⟨t, ds, used, s, hcompile, hrun, hplayed⟩ := exists_run_of_perform (watching 1)
    "<i><request src=a></request></i>" (.plain { signal := some ⟨0⟩ })
    { Host.empty with signals, transport } .empty [.abort ⟨0⟩]
    (fun (_, used, s) => (s.host.task? ⟨0⟩).any fun task => decide (used = [] ∧
      task.owner = s.inst.id ∧ task.isEnded = false ∧ s.host.transport.calls = [] ∧
      task.request.signal = some ⟨0⟩ ∧ task.hasAsked = false ∧
      s.host.signals.reason ⟨0⟩ = some .aborted)) rfl (by decide +kernel)
  obtain ⟨t', ds', used', s', hcompile', hrun', hplayed'⟩ := exists_run_of_perform (watching 1)
    "<i><request src=a></request></i>" (.plain { timeout := some 5 })
    { Host.empty with transport } .empty [.turn 0, .pass 20 20]
    (fun (_, used, s) => (s.host.task? ⟨0⟩).any fun task => decide (used = [] ∧
      task.owner = s.inst.id ∧ task.hasAsked = true ∧ task.isWaiting s.host.rung = false ∧
      task.request.signal = some ⟨0⟩ ∧ s.host.signals.stirs ⟨0⟩ = true ∧
      s.host.signals.reason ⟨0⟩ = some .timedOut)) rfl (by decide +kernel)
  obtain ⟨rfl, rfl⟩ := eq_of_run_eq_ok hcompile hcompile'
  obtain ⟨task, htask, hdecided⟩ := (Option.any_eq_true ..).mp hplayed
  obtain ⟨task', htask', hdecided'⟩ := (Option.any_eq_true ..).mp hplayed'
  obtain ⟨rfl, howner, hunended, hcalls, hsignal, hunasked, hreason⟩ := of_decide_eq_true hdecided
  obtain ⟨rfl, howner', hasked, hdue, hsignal', hstirs, hreason'⟩ := of_decide_eq_true hdecided'
  have hmem : (⟨0⟩, task) ∈ s.requests := Host.mem_requestsOf.mpr ⟨htask, howner⟩
  have hmem' : (⟨0⟩, task') ∈ s'.requests := Host.mem_requestsOf.mpr ⟨htask', howner'⟩
  have hstopped :=
    (stopped_of_reason (lawful_watching 1) (signalKeeping_watching 1) hmem hsignal).1
  have hstopped' :=
    (stopped_of_reason (lawful_watching 1) (signalKeeping_watching 1) hmem' hsignal').1
  exact ⟨t, ds, s, s', task, task', hcompile, hrun, hmem, hunended, hcalls,
    hstopped .aborted hreason (fun h => absurd (h.symm.trans hunasked) (by simp)) s .refl task hmem,
    hrun', hmem', hasked, hdue,
    hstopped' .timedOut hreason' (fun _ => hstirs) s' .refl task' hmem'⟩

/-! ### Too late -/

/-- The host of a request that has looked at its signal and asked the transport. -/
def hostAfterAsking (s : Scene σ) (task : Task) : Host :=
  { (s.lookAtSignal task).2.host with transport := (s.host.transport.fetch task.request).2 }

/-- A request that is not stopped at its first turn uses a reply with `delay = 0` right then. -/
theorem turn_of_reply (observe : Observer σ) (id : TaskId) {reply : Reply}
    (hphase : task.phase = .started) (hlook : (s.lookAtSignal task).1 = none)
    (hreply : (s.host.transport.fetch task.request).1 = .ok reply) (hdelay : reply.delay = 0) :
    s.turn observe id task =
      { s with host := s.hostAfterAsking task }.receive observe id task.job reply.response := by
  obtain ⟨signals, -, hafter⟩ := lookAtSignal_eq task s
  have hlooked : s.lookAtSignal task = (none, { s with host := { s.host with signals } }) :=
    Prod.ext hlook hafter
  have hunended : task.isEnded = false := by rw [Task.isEnded, Task.result?, hphase]; rfl
  unfold hostAfterAsking
  rw [turn, if_neg (by simp [hunended]), hlooked, hphase]
  simp only [ask]
  cases hfetch : s.host.transport.fetch task.request with
  | mk answer transport =>
    rw [hfetch] at hreply
    obtain rfl : answer = .ok reply := hreply
    simp only [if_pos hdelay]
    rfl

/-- A response is used although the signal has a reason. In the first run the observer aborts it
when it is told of the status, right before the response is put into the tree. In the second one the
deadline of a request that waits has passed, but its timer has not rung, at the turn at which the
answer is there. -/
theorem used_despite_reason : ∃ (t : Template) (ds : List Diagnostic) (s told s' : Scene Watch)
    (task task' : Task),
    (Template.compile "<i><request src=a></request></i>").run [] = .ok t ds ∧
    (Run (watching 2) t [] s ∧ (⟨0⟩, task) ∈ s.requests ∧ task.request.signal = some ⟨0⟩ ∧
      told = { s with host := s.hostAfterAsking task }.changeStatus (watching 2) task.job 200 ∧
      s.turn (watching 2) ⟨0⟩ task =
        { s with host := s.hostAfterAsking task }.receive (watching 2) ⟨0⟩ task.job ⟨200, "b"⟩ ∧
      told.host.signals.reason ⟨0⟩ = some .aborted ∧
      told.inst.arena.html told.inst.root = "<i><request src=\"a\"></request></i>" ∧
      (s.turn (watching 2) ⟨0⟩ task).inst.arena.html s.inst.root = "<i>b</i>") ∧
    (Run (watching 2) t [] s' ∧ (⟨0⟩, task') ∈ s'.requests ∧ task'.request.signal = some ⟨0⟩ ∧
      s'.host.signals.reason ⟨0⟩ = some .timedOut ∧
      s'.inst.arena.html s'.inst.root = "<i><request src=\"a\"></request></i>" ∧
      (s'.turn (watching 2) ⟨0⟩ task').inst.arena.html s'.inst.root = "<i>b</i>") := by
  let reply : Reply := ⟨⟨200, "b"⟩, 0⟩
  let aborting : Watch :=
    { Watch.empty with reactions := [((0, "o"), [⟨.status 200, 1, .abort ⟨0⟩⟩])] }
  obtain ⟨t, ds, used, s, hcompile, hrun, hplayed⟩ := exists_run_of_perform (watching 2)
    "<i><request src=a></request></i>" (.plain { signal := some ⟨0⟩, observer := some "o" })
    { Host.empty with
      signals := (Signals.empty.create none).2, transport := ⟨[(⟨.get, "a"⟩, [reply])], []⟩ }
    aborting []
    (fun (_, used, s) => (s.host.task? ⟨0⟩).any fun task =>
      let asked : Scene Watch := { s with host := s.hostAfterAsking task }
      let told := asked.changeStatus (watching 2) task.job 200
      decide (used = [] ∧ task.owner = s.inst.id ∧ task.request.signal = some ⟨0⟩ ∧
        task.hasAsked = false ∧ task.isEnded = false ∧ (s.lookAtSignal task).1 = none ∧
        (s.host.transport.fetch task.request).1.toOption = some reply ∧
        told.host.signals.reason ⟨0⟩ = some .aborted ∧
        told.inst.arena.html told.inst.root = "<i><request src=\"a\"></request></i>" ∧
        (s.turn (watching 2) ⟨0⟩ task).inst.arena.html s.inst.root = "<i>b</i>")) rfl
    (by decide +kernel)
  obtain ⟨t', ds', used', s', hcompile', hrun', hplayed'⟩ := exists_run_of_perform (watching 2)
    "<i><request src=a></request></i>" (.plain { timeout := some 5 })
    { Host.empty with transport := ⟨[(⟨.get, "a"⟩, [{ reply with delay := 3 }])], []⟩ } .empty
    [.turn 0, .pass 6 4]
    (fun (_, used, s) => (s.host.task? ⟨0⟩).any fun task => decide (used = [] ∧
      task.owner = s.inst.id ∧ task.request.signal = some ⟨0⟩ ∧
      s.host.signals.reason ⟨0⟩ = some .timedOut ∧
      s.inst.arena.html s.inst.root = "<i><request src=\"a\"></request></i>" ∧
      (s.turn (watching 2) ⟨0⟩ task).inst.arena.html s.inst.root = "<i>b</i>")) rfl
    (by decide +kernel)
  obtain ⟨rfl, rfl⟩ := eq_of_run_eq_ok hcompile hcompile'
  obtain ⟨task, htask, hdecided⟩ := (Option.any_eq_true ..).mp hplayed
  obtain ⟨task', htask', hdecided'⟩ := (Option.any_eq_true ..).mp hplayed'
  obtain ⟨rfl, howner, hsignal, hunasked, hunended, hlook, hreply, haborted⟩ :=
    of_decide_eq_true hdecided
  obtain ⟨rfl, howner', hsignal', hpassed⟩ := of_decide_eq_true hdecided'
  have hphase : task.phase = .started := by
    cases hphase : task.phase with
    | started => rfl
    | waiting due r => exact absurd hunasked (by simp [Task.hasAsked, hphase])
    | ended result => exact absurd hunended (by simp [Task.isEnded, Task.result?, hphase])
  exact ⟨t, ds, s, _, s', task, task', hcompile,
    ⟨hrun, Host.mem_requestsOf.mpr ⟨htask, howner⟩, hsignal, rfl,
      turn_of_reply (watching 2) ⟨0⟩ hphase hlook (eq_ok_of_toOption hreply) rfl, haborted⟩,
    hrun', Host.mem_requestsOf.mpr ⟨htask', howner'⟩, hsignal', hpassed⟩

end Scene

end Inlay
