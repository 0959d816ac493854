import Inlay.Proofs.Scene.Course

/-!
# Turns that are only recorded

Where observers only record, a turn changes nothing on the host but the signals that are looked at,
the transport, and the phase of the request itself (`Host.Turned`), and it leaves alone which
requests nobody has taken (`Recording.turn`).
-/

namespace Inlay

/-! ### The host -/

namespace Host

variable {h h' : Host} {id : TaskId} {t : Task}

/-- The same requests in the same queue; timers have rung up to the same moment, and the deadlines
of signals are the same. -/
structure Beside (h h' : Host) : Prop where
  tasks_eq : h'.tasks = h.tasks
  ready_eq : h'.ready = h.ready
  rung_eq : h'.rung = h.rung
  deadline_eq : ∀ i, (h'.signals.get? i).bind (·.deadline) = (h.signals.get? i).bind (·.deadline)

/-- What a turn of a request makes of the host. -/
inductive Turned (h : Host) (id : TaskId) (t : Task) : Host → Prop where
  /-- The request has ended before, or it goes on waiting. -/
  | idle {h' : Host} : h.Beside h' →
    (t.isEnded = true ∨ ∃ time, h.wakeTime t = some time ∧ h.rung < time) → Turned h id t h'
  | ended {h' : Host} (result : Except RequestError Unit) : h.Beside h' → t.isEnded = false →
    Turned h id t (h'.setPhase id (.ended result))
  /-- A request that was started waits from now on. -/
  | asked {h' : Host} (due : Nat) (r : Response) : h.Beside h' → t.phase = .started →
    Turned h id t (h'.setPhase id (.waiting due r))

end Host

/-- Looking at the signal `id` changes no deadline, neither its own nor any other one. -/
theorem Signals.deadline_look (s : Signals) (id i : SignalId) :
    ((s.look id).2.get? i).bind (·.deadline) = (s.get? i).bind (·.deadline) := by
  rw [get?, get?, look, List.getElem?_modify]
  cases s.table[i.number]? with
  | none => rfl
  | some x => by_cases h : id.number = i.number <;> simp [h, Signal.look]

namespace Scene

variable {σ : Type} {s : Scene σ} {observe : Observer σ} {id : TaskId} {t : Task}

/-- Looking at a signal changes nothing but `signals`, and no deadline there. -/
theorem beside_lookAtSignal (t : Task) (s : Scene σ) :
    ∃ signals, (s.lookAtSignal t).2 = { s with host := { s.host with signals } } ∧
      s.host.Beside { s.host with signals } := by
  have hsame : s.host.Beside s.host := ⟨rfl, rfl, rfl, fun _ => rfl⟩
  unfold lookAtSignal
  cases t.request.signal with
  | none => exact ⟨s.host.signals, rfl, hsame⟩
  | some i =>
    simp only
    split
    · exact ⟨s.host.signals, rfl, hsame⟩
    · exact ⟨_, rfl, rfl, rfl, rfl, s.host.signals.deadline_look i⟩

/-- A request that is not stopped has a signal whose timer has not rung: `rung < d`. -/
theorem lt_deadline_of_lookAtSignal (h : (s.lookAtSignal t).1 = none) {d : Nat}
    (hd : (t.request.signal.bind s.host.signals.get?).bind (·.deadline) = some d) :
    s.host.rung < d := by
  obtain ⟨x, hx, hdeadline⟩ := Option.bind_eq_some_iff.mp hd
  obtain ⟨i, hi, hx⟩ := Option.bind_eq_some_iff.mp hx
  by_contra hpast
  have hstirs : s.host.signals.stirs i = true :=
    Signals.stirs_of_deadline hx hdeadline (Nat.le_of_not_lt hpast)
  obtain ⟨reason, hreason⟩ := Signals.exists_reason_of_stirs hstirs
  rw [lookAtSignal, hi] at h
  simp only [hstirs, Bool.not_true, Bool.and_false, Bool.false_eq_true, if_false] at h
  rw [show (s.host.signals.look i).1 = some reason from hreason] at h
  exact absurd h (by simp)

/-- If a request waits, `rung < due` and its signal has no reason, then its time to go on is after
`rung`. -/
theorem exists_wakeTime {due : Nat} {r : Response} (hphase : t.phase = .waiting due r)
    (hdue : s.host.rung < due) (hlook : (s.lookAtSignal t).1 = none) :
    ∃ time, s.host.wakeTime t = some time ∧ s.host.rung < time := by
  unfold Host.wakeTime
  rw [hphase]
  simp only
  split
  · rename_i d hd
    exact ⟨_, rfl, lt_min hdue (lt_deadline_of_lookAtSignal hlook hd)⟩
  · exact ⟨due, rfl, hdue⟩

/-! ### Observers that only record -/

theorem pending_setStatus (i : Instance) (job : Job) (code : Nat) :
    (i.setStatus job code).pending = i.pending := by
  unfold Instance.setStatus
  split <;> rfl

theorem pending_setRunning (i : Instance) (job : Job) (flag : Bool) :
    (i.setRunning job flag).pending = i.pending := by
  unfold Instance.setRunning
  split <;> rfl

/-- The instance and what it has in `pending` are the same. -/
structure SamePending (i j : Instance) : Prop where
  id_eq : j.id = i.id
  pending_eq : j.pending = i.pending

namespace Recording

/-- Observers that only record change nothing but `memory`. -/
theorem notifyAll (hobserve : Recording observe) (job : Job) : ∀ (ns : List Notification)
    (s : Scene σ), ∃ memory, s.notifyAll observe job ns = { s with memory }
  | [], s => ⟨s.memory, rfl⟩
  | n :: ns, s => by
    have hfirst : ∃ memory, s.notify observe job n = { s with memory } := by
      unfold notify
      split
      · exact hobserve _ n s
      · exact ⟨s.memory, rfl⟩
    obtain ⟨memory, hmemory⟩ := hfirst
    obtain ⟨memory', hmemory'⟩ := hobserve.notifyAll job ns { s with memory }
    refine ⟨memory', ?_⟩
    unfold Scene.notifyAll at hmemory' ⊢
    rw [List.foldl_cons, hmemory, hmemory']

theorem changeStatus (hobserve : Recording observe) (job : Job) (code : Nat) (s : Scene σ) :
    ∃ inst memory, s.changeStatus observe job code = ⟨inst, s.host, memory⟩ ∧
      SamePending s.inst inst := by
  unfold Scene.changeStatus
  split
  · exact ⟨s.inst, s.memory, rfl, rfl, rfl⟩
  · obtain ⟨memory, hmemory⟩ :=
      hobserve.notifyAll job [.status code job.shownPosition] (s.mapInst (·.setStatus job code))
    have hid := (sameContents_setStatus s.inst job code).id_eq
    exact ⟨_, memory, hmemory, hid, pending_setStatus s.inst job code⟩

/-- A response that is used ends the request `id` and touches no other. -/
theorem receive (hobserve : Recording observe) (id : TaskId) (job : Job) (r : Response)
    (s : Scene σ) : ∃ inst memory result,
      s.receive observe id job r = ⟨inst, s.host.setPhase id (.ended result), memory⟩ ∧
        SamePending s.inst inst := by
  obtain ⟨inst, memory, hstatus, hinst⟩ := hobserve.changeStatus job r.status s
  have hreceived := received_receive observe id job r s
  rw [hstatus] at hreceived
  have hfinish : ∀ (j : Instance), SamePending inst j →
      SamePending s.inst (j.setRunning job false) := fun j hj =>
    ⟨(sameContents_setRunning j job false).id_eq.trans (hj.id_eq.trans hinst.id_eq),
      (pending_setRunning j job false).trans (hj.pending_eq.trans hinst.pending_eq)⟩
  have hreworked : ∀ {j : Instance}, Instance.Reworked inst j → SamePending inst j := fun hj => by
    rw [hj.rest]
    exact ⟨rfl, rfl⟩
  generalize s.receive observe id job r = s' at hreceived ⊢
  cases hreceived with
  | refused => exact ⟨_, memory, _, rfl, hfinish inst ⟨rfl, rfl⟩⟩
  | failed cause j _ _ hj => exact ⟨_, memory, _, rfl, hfinish j (hreworked hj)⟩
  | inserted ns j _ _ hj =>
    obtain ⟨memory', hmemory'⟩ := hobserve.notifyAll job ns ⟨j, s.host, memory⟩
    rw [hmemory']
    exact ⟨_, memory', _, rfl, hfinish j (hreworked hj)⟩

/-- A turn leaves `pending` as it is, and on the host it is as `Turned` says. -/
theorem turn (hobserve : Recording observe) (id : TaskId) (t : Task) (s : Scene σ) :
    SamePending s.inst (s.turn observe id t).inst ∧
      s.host.Turned id t (s.turn observe id t).host := by
  have hended : ∀ {host : Host} (r : Response), s.host.Beside host → t.isEnded = false →
      SamePending s.inst (({ s with host } : Scene σ).receive observe id t.job r).inst ∧
        s.host.Turned id t (({ s with host } : Scene σ).receive observe id t.job r).host := by
    intro host r hbeside hunended
    obtain ⟨inst, memory, result, he, hinst⟩ := hobserve.receive id t.job r { s with host }
    rw [he]
    exact ⟨hinst, .ended result hbeside hunended⟩
  have hfinished : ∀ {host : Host} (result : Except RequestError Unit), s.host.Beside host →
      t.isEnded = false →
      SamePending s.inst (({ s with host } : Scene σ).finish id t.job result).inst ∧
        s.host.Turned id t (({ s with host } : Scene σ).finish id t.job result).host :=
    fun result hbeside hunended =>
      ⟨⟨(sameContents_setRunning s.inst t.job false).id_eq, pending_setRunning s.inst t.job false⟩,
        .ended result hbeside hunended⟩
  have hsame : SamePending s.inst s.inst := ⟨rfl, rfl⟩
  unfold Scene.turn
  cases hunended : t.isEnded with
  | true =>
    rw [if_pos rfl]
    exact ⟨hsame, .idle ⟨rfl, rfl, rfl, fun _ => rfl⟩ (Or.inl hunended)⟩
  | false =>
    obtain ⟨signals, hlook, hbeside⟩ := beside_lookAtSignal t s
    rw [if_neg (by simp)]
    cases hsignal : s.lookAtSignal t with
    | mk reason s₁ =>
      rw [hsignal] at hlook
      obtain rfl : s₁ = _ := hlook
      cases reason with
      | some reason => exact hfinished _ hbeside hunended
      | none =>
        cases hphase : t.phase with
        | ended result => exact absurd hunended (by simp [Task.isEnded, Task.result?, hphase])
        | waiting due r =>
          simp only
          split
          · exact hended r hbeside hunended
          · rename_i hdue
            have hlater : s.host.rung < due := hbeside.rung_eq ▸ Nat.lt_of_not_le hdue
            refine ⟨hsame, .idle hbeside (Or.inr (exists_wakeTime hphase hlater ?_))⟩
            rw [hsignal]
        | started =>
          simp only [ask]
          cases hfetch : s.host.transport.fetch t.request with
          | mk answer transport =>
            -- the transport is no concern of the queue
            have hasked : s.host.Beside { s.host with signals, transport } :=
              ⟨rfl, rfl, hbeside.rung_eq, hbeside.deadline_eq⟩
            cases answer with
            | error cause => exact hfinished _ hasked hunended
            | ok reply =>
              simp only
              split
              · exact hended reply.response hasked hunended
              · exact ⟨hsame, .asked _ reply.response hasked hphase⟩

end Recording

end Scene

end Inlay
