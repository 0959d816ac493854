import Inlay.Proofs.Scene.Recorded

/-!
# The queue of a host

A request that has not ended stands in the queue or waits for its answer (`Host.Attended`). How much
there is to do on a host before all requests have ended can be counted: a turn for each request in
the queue, and two more for each request that has not ended and will not do so at its next turn
(`Host.toil`). Each turn makes this less (`Host.Turned.toil_lt`), and so does the clock when it
moves on to the next time at which something goes on (`Host.toil_advance_lt`).
-/

namespace Inlay

/-- If `p` and `q` both imply `r` and exclude each other, then
`l.countP p + l.countP q ≤ l.countP r`. -/
theorem countP_add_le {α : Type} {p q r : α → Bool} : ∀ {l : List α},
    (∀ x ∈ l, p x = true → r x = true) → (∀ x ∈ l, q x = true → r x = true ∧ p x = false) →
    l.countP p + l.countP q ≤ l.countP r
  | [], _, _ => Nat.le_refl 0
  | x :: l, hp, hq => by
    have hrest := countP_add_le (fun y hy => hp y (List.mem_cons_of_mem x hy))
      fun y hy => hq y (List.mem_cons_of_mem x hy)
    have hpx := hp x List.mem_cons_self
    have hqx := hq x List.mem_cons_self
    by_cases hpos : p x = true
    · have hneg : ¬ q x = true := fun hq' => by
        rw [(hqx hq').2] at hpos
        exact absurd hpos (by simp)
      rw [List.countP_cons_of_pos hpos, List.countP_cons_of_neg hneg,
        List.countP_cons_of_pos (hpx hpos)]
      omega
    · rw [List.countP_cons_of_neg hpos]
      by_cases hpos' : q x = true
      · rw [List.countP_cons_of_pos hpos', List.countP_cons_of_pos (hqx hpos').1]
        omega
      · have hle : l.countP r ≤ (x :: l).countP r := (List.sublist_cons_self x l).countP_le
        rw [List.countP_cons_of_neg hpos']
        omega

namespace Host

variable {h h' : Host} {id : TaskId} {t : Task} {rest : List TaskId}

/-! ### Requests that go on -/

/-- Every request that has not ended is in the queue or waits for an answer. -/
def Attended (h : Host) : Prop :=
  ∀ id t, h.task? id = some t → t.isEnded = false →
    id ∈ h.ready ∨ ∃ due r, t.phase = .waiting due r

theorem Beside.wakeTime_eq (hb : h.Beside h') (t : Task) : h'.wakeTime t = h.wakeTime t := by
  have hdeadline : (t.request.signal.bind h'.signals.get?).bind (·.deadline) =
      (t.request.signal.bind h.signals.get?).bind (·.deadline) := by
    cases t.request.signal with
    | none => rfl
    | some i => exact hb.deadline_eq i
  unfold wakeTime
  rw [hdeadline]

/-- Just the requests with `phase = .waiting due r` go on by themselves some time. -/
theorem isSome_wakeTime (h : Host) (t : Task) :
    (h.wakeTime t).isSome = true ↔ ∃ due r, t.phase = .waiting due r := by
  unfold wakeTime
  cases t.phase with
  | started => simp
  | ended result => simp
  | waiting due r =>
    refine ⟨fun _ => ⟨due, r, rfl⟩, fun _ => ?_⟩
    simp only
    split <;> rfl

/-- What has a `wakeTime` has not ended. -/
theorem isEnded_of_wakeTime {time : Nat} (hwake : h.wakeTime t = some time) :
    t.isEnded = false := by
  obtain ⟨due, r, hphase⟩ := (h.isSome_wakeTime t).mp (by rw [hwake]; rfl)
  rw [Task.isEnded, Task.result?, hphase]
  rfl

/-- A new phase is one of the request `id` alone. -/
theorem task?_setPhase (h : Host) (id i : TaskId) (phase : Phase) :
    (h.setPhase id phase).task? i =
      (h.task? i).map fun t => if i = id then { t with phase } else t := by
  obtain ⟨n⟩ := id
  obtain ⟨m⟩ := i
  rw [task?, task?, setPhase, List.getElem?_modify]
  by_cases hm : n = m
  · simp [hm]
  · simp [hm, Ne.symm hm]

/-- After its turn a request has ended or waits, so `Attended` is kept. -/
theorem Turned.attended (hturned : Turned { h with ready := rest } id t h')
    (hready : h.ready = id :: rest) (htask : h.task? id = some t) (hattended : h.Attended) :
    h'.Attended := by
  -- the other requests stand where they stood
  have hothers : ∀ i u, i ≠ id → h.task? i = some u → u.isEnded = false →
      i ∈ rest ∨ ∃ due r, u.phase = .waiting due r := by
    intro i u hne hu hunended
    refine (hattended i u hu hunended).imp_left fun hmem => ?_
    rw [hready, List.mem_cons] at hmem
    exact hmem.resolve_left hne
  have hchanged : ∀ {host : Host} (phase : Phase), Beside { h with ready := rest } host →
      (({ t with phase } : Task).isEnded = true ∨ ∃ due r, phase = .waiting due r) →
      (host.setPhase id phase).Attended := by
    intro host phase hbeside hphase i u hu hunended
    have hsame : host.task? i = h.task? i := by rw [task?, hbeside.tasks_eq, task?]
    have hrest : (host.setPhase id phase).ready = rest := hbeside.ready_eq
    rw [task?_setPhase, hsame] at hu
    rw [hrest]
    by_cases hi : i = id
    · subst hi
      rw [htask, Option.map_some, if_pos rfl] at hu
      obtain rfl := Option.some.inj hu
      rcases hphase with hended | hwaiting
      · rw [hended] at hunended
        exact absurd hunended (by simp)
      · exact Or.inr hwaiting
    · obtain ⟨u', hu', rfl⟩ := Option.map_eq_some_iff.mp hu
      rw [if_neg hi] at hunended ⊢
      exact hothers i u' hi hu' hunended
  cases hturned with
  | idle hbeside hidle =>
    intro i u hu hunended
    rw [task?, hbeside.tasks_eq] at hu
    rw [hbeside.ready_eq]
    by_cases hi : i = id
    · subst hi
      obtain rfl : t = u := Option.some.inj (htask.symm.trans hu)
      rcases hidle with hended | ⟨time, htime, -⟩
      · rw [hended] at hunended
        exact absurd hunended (by simp)
      · exact Or.inr ((isSome_wakeTime _ t).mp (by rw [htime]; rfl))
    · exact hothers i u hi hu hunended
  | ended result hbeside => exact hchanged _ hbeside (Or.inl rfl)
  | asked due r hbeside => exact hchanged _ hbeside (Or.inr ⟨due, r, rfl⟩)

theorem isEnded_iff : h.isEnded id = true ↔ ∃ t, h.task? id = some t ∧ t.isEnded = true := by
  rw [isEnded, Option.any_eq_true]

/-- What has ended stays so, as only `id` gets another phase, and has not ended. -/
theorem Turned.isEnded (hturned : Turned h id t h')
    (htask : h.task? id = some t) {i : TaskId} (hended : h.isEnded i = true) :
    h'.isEnded i = true := by
  obtain ⟨u, hu, hended⟩ := isEnded_iff.mp hended
  have hchanged : ∀ {host : Host} (phase : Phase), h.Beside host →
      (t.isEnded = true → ({ t with phase } : Task).isEnded = true) →
      (host.setPhase id phase).isEnded i = true := by
    intro host phase hbeside hphase
    have hsame : host.task? i = h.task? i := by rw [task?, hbeside.tasks_eq, task?]
    refine isEnded_iff.mpr ⟨_, by rw [task?_setPhase, hsame, hu]; rfl, ?_⟩
    by_cases hi : i = id
    · subst hi
      obtain rfl : t = u := Option.some.inj (htask.symm.trans hu)
      simpa using hphase hended
    · simpa [hi] using hended
  cases hturned with
  | idle hbeside =>
    refine isEnded_iff.mpr ⟨u, ?_, hended⟩
    rw [task?, hbeside.tasks_eq]
    exact hu
  | ended result hbeside => exact hchanged _ hbeside fun _ => rfl
  | asked due r hbeside hphase =>
    refine hchanged _ hbeside fun hended => ?_
    rw [Task.isEnded, Task.result?, hphase] at hended
    exact absurd hended (by simp)

/-- An `id` without a request can be dropped from the queue. -/
theorem Attended.pop (hattended : h.Attended) (hready : h.ready = id :: rest)
    (htask : h.task? id = none) : ({ h with ready := rest } : Host).Attended := by
  intro i u hu hunended
  refine (hattended i u hu hunended).imp_left fun hmem => ?_
  rw [hready, List.mem_cons] at hmem
  refine hmem.resolve_left fun hi => ?_
  rw [hi] at hu
  exact absurd (hu.symm.trans htask) (by simp)

/-- A turn is no change for the requests of another `owner`. -/
theorem Turned.sameRequests (hturned : Turned h id t h') (htask : h.task? id = some t) {owner : Nat}
    (hne : t.owner ≠ owner) : h.SameRequests owner h' := by
  have hchanged : ∀ {host : Host} (phase : Phase), h.Beside host →
      h.SameRequests owner (host.setPhase id phase) := by
    intro host phase hbeside
    rw [SameRequests, requestsOf_setPhase, requestsOf_of_tasks hbeside.tasks_eq]
    refine (List.map_congr_left fun x hx => ?_).trans (List.map_id _)
    obtain ⟨hx, howner⟩ := mem_requestsOf.mp hx
    refine if_neg fun hid => hne ?_
    rw [hid, htask] at hx
    rw [← howner, Option.some.inj hx]
  cases hturned with
  | idle hbeside => exact requestsOf_of_tasks hbeside.tasks_eq owner
  | ended result hbeside => exact hchanged _ hbeside
  | asked due r hbeside => exact hchanged _ hbeside

theorem Turned.length_tasks (hturned : Turned h id t h') : h'.tasks.length = h.tasks.length := by
  cases hturned with
  | idle hbeside => rw [hbeside.tasks_eq]
  | ended result hbeside => rw [setPhase, List.length_modify, hbeside.tasks_eq]
  | asked due r hbeside => rw [setPhase, List.length_modify, hbeside.tasks_eq]

/-! ### Requests that are started -/

/-- Requests of one instance have been started, each of which is in the queue. -/
structure Grown (owner : Nat) (h h' : Host) : Prop where
  tasks : ∃ new : List Task, h'.tasks = h.tasks ++ new ∧ ∀ t ∈ new, t.owner = owner
  ready : ∀ id ∈ h.ready, id ∈ h'.ready
  queued : ∀ id : TaskId, h.tasks.length ≤ id.number → id.number < h'.tasks.length → id ∈ h'.ready

namespace Grown

variable {owner : Nat} {h'' : Host}

theorem of_eq (htasks : h'.tasks = h.tasks) (hready : h'.ready = h.ready) : Grown owner h h' where
  tasks := ⟨[], by rw [htasks, List.append_nil], fun _ ht => absurd ht List.not_mem_nil⟩
  ready _ hid := hready ▸ hid
  queued id hle hlt := by
    rw [htasks] at hlt
    exact absurd hlt (Nat.not_lt_of_le hle)

theorem trans (hg : Grown owner h h') (hg' : Grown owner h' h'') : Grown owner h h'' where
  tasks := by
    obtain ⟨new, htasks, hnew⟩ := hg.tasks
    obtain ⟨new', htasks', hnew'⟩ := hg'.tasks
    refine ⟨new ++ new', by rw [htasks', htasks, List.append_assoc], fun t ht => ?_⟩
    exact (List.mem_append.mp ht).elim (hnew t) (hnew' t)
  ready id hid := hg'.ready id (hg.ready id hid)
  queued id hle hlt := by
    rcases Nat.lt_or_ge id.number h'.tasks.length with hlt' | hge
    · exact hg'.ready id (hg.queued id hle hlt')
    · exact hg'.queued id hge hlt

theorem enqueue (h : Host) {t : Task} (ht : t.owner = owner) : Grown owner h (h.enqueue t).2 where
  tasks := ⟨[t], rfl, fun u hu => by rwa [List.mem_singleton.mp hu]⟩
  ready id hid := List.mem_append_left _ hid
  queued id hle hlt := by
    have hlength : (h.enqueue t).2.tasks.length = h.tasks.length + 1 := List.length_append
    have hnumber : h.tasks.length = id.number := by omega
    refine List.mem_append_right _ (List.mem_singleton.mpr ?_)
    exact congrArg TaskId.mk hnumber.symm

/-- What is started is put into the queue, so `Attended` is kept. -/
theorem attended (hg : Grown owner h h') (hattended : h.Attended) : h'.Attended := by
  intro id t htask hunended
  obtain ⟨new, htasks, -⟩ := hg.tasks
  rcases Nat.lt_or_ge id.number h.tasks.length with hlt | hge
  · rw [task?, htasks, List.getElem?_append_left hlt] at htask
    exact (hattended id t htask hunended).imp_left (hg.ready id)
  · exact Or.inl (hg.queued id hge (List.getElem?_eq_some_iff.mp htask).1)

/-- What is started for one `owner` is no change for the others. -/
theorem sameRequests (hg : Grown owner h h') {k : Nat} (hne : owner ≠ k) : h.SameRequests k h' := by
  obtain ⟨new, htasks, hnew⟩ := hg.tasks
  -- what is new belongs to another instance
  have hnone : (new.zipIdx (0 + h.tasks.length)).filter (fun x => decide (x.1.owner = k)) = [] := by
    refine List.filter_eq_nil_iff.mpr fun x hx howner => hne ?_
    obtain ⟨-, -, hmem⟩ := List.mem_zipIdx hx
    rw [← of_decide_eq_true howner, hmem]
    exact (hnew _ (List.getElem_mem _)).symm
  rw [SameRequests, requestsOf, htasks, List.zipIdx_append, List.filter_append, hnone,
    List.append_nil, requestsOf]

end Grown

/-! ### How much there is to do -/

/-- The request has not ended, and it will not do so at its next turn: either it is not in the
queue, or it does not wait yet, or there is time left until it goes on. -/
def lingers (h : Host) (x : Task × Nat) : Bool :=
  !x.1.isEnded && !(h.ready.contains ⟨x.2⟩ && (h.wakeTime x.1).any (· ≤ h.rung))

/-- A bound for the number of turns until all requests have ended. -/
def toil (h : Host) : Nat :=
  h.ready.length + 2 * h.tasks.zipIdx.countP h.lingers

/-- Each request counts twice at most: `h.toil ≤ h.ready.length + 2 * h.tasks.length`. -/
theorem toil_le (h : Host) : h.toil ≤ h.ready.length + 2 * h.tasks.length := by
  have hle : h.tasks.zipIdx.countP h.lingers ≤ h.tasks.zipIdx.length := List.countP_le_length
  rw [List.length_zipIdx] at hle
  rw [toil]
  omega

/-- A request lingers if it goes on and is not in the queue with `wakeTime ≤ rung`. -/
theorem lingers_iff (h : Host) (t : Task) (n : Nat) : h.lingers (t, n) = true ↔
    t.isEnded = false ∧
      (⟨n⟩ ∈ h.ready → ∀ time, h.wakeTime t = some time → h.rung < time) := by
  rw [lingers, Bool.and_eq_true, Bool.not_eq_true', Bool.not_eq_true', Bool.and_eq_false_imp,
    List.contains_iff_mem]
  refine and_congr_right fun _ => imp_congr_right fun _ => ?_
  cases h.wakeTime t with
  | none => simp
  | some time => simp

theorem Beside.lingers_imp (hbeside : Beside { h with ready := rest } h')
    (hready : h.ready = id :: rest) {n : Nat} (hne : n ≠ id.number)
    (hlingers : h'.lingers (t, n) = true) : h.lingers (t, n) = true := by
  rw [lingers_iff] at hlingers ⊢
  refine ⟨hlingers.1, fun hmem time htime => ?_⟩
  have hmem' : (⟨n⟩ : TaskId) ∈ h'.ready := by
    rw [hready, List.mem_cons] at hmem
    rw [hbeside.ready_eq]
    exact hmem.resolve_left fun he => hne (congrArg TaskId.number he)
  have hlater := hlingers.2 hmem' time (by rw [hbeside.wakeTime_eq]; exact htime)
  rwa [hbeside.rung_eq] at hlater

/-- Dropping an id without a request lowers `toil`. -/
theorem toil_pop_lt (hready : h.ready = id :: rest) (htask : h.task? id = none) :
    ({ h with ready := rest } : Host).toil < h.toil := by
  have hlength : h.ready.length = rest.length + 1 := by rw [hready]; rfl
  have hcount : h.tasks.zipIdx.countP ({ h with ready := rest } : Host).lingers ≤
      h.tasks.zipIdx.countP h.lingers := by
    refine List.countP_mono_left fun x hx hlingers => ?_
    have hbeside : Beside { h with ready := rest } { h with ready := rest } :=
      ⟨rfl, rfl, rfl, fun _ => rfl⟩
    refine hbeside.lingers_imp hready (fun hn => ?_) hlingers
    rw [List.mem_zipIdx_iff_getElem?, hn] at hx
    rw [task?, hx] at htask
    exact absurd htask (by simp)
  rw [toil, toil]
  simp only
  omega

/-- A turn lowers `toil`: the queue is shorter by one, and nothing lingers that did not before. -/
theorem Turned.toil_lt (hturned : Turned { h with ready := rest } id t h')
    (hready : h.ready = id :: rest) (htask : h.task? id = some t) : h'.toil < h.toil := by
  have hlength : h.ready.length = rest.length + 1 := by rw [hready]; rfl
  have hself : ∀ {u : Task} {n : Nat}, (u, n) ∈ h.tasks.zipIdx → n = id.number → u = t := by
    intro u n hmem hn
    rw [List.mem_zipIdx_iff_getElem?] at hmem
    rw [task?, ← hn] at htask
    exact Option.some.inj (hmem.symm.trans htask)
  have hchanged : ∀ {host : Host} (phase : Phase), Beside { h with ready := rest } host →
      (({ t with phase } : Task).isEnded = false → t.phase = .started) →
      (host.setPhase id phase).toil < h.toil := by
    intro host phase hbeside hphase
    have htasks : (host.setPhase id phase).tasks.zipIdx = h.tasks.zipIdx.map fun x =>
        if x.2 = id.number then ({ x.1 with phase }, x.2) else x := by
      rw [setPhase, zipIdx_modify, hbeside.tasks_eq]
    have hcount : (host.setPhase id phase).tasks.zipIdx.countP (host.setPhase id phase).lingers ≤
        h.tasks.zipIdx.countP h.lingers := by
      rw [htasks, List.countP_map]
      refine List.countP_mono_left fun x hx hlingers => ?_
      obtain ⟨u, n⟩ := x
      rw [Function.comp_apply] at hlingers
      by_cases hn : n = id.number
      · obtain rfl := hself hx hn
        rw [if_pos hn, lingers_iff] at hlingers
        have hstarted := hphase hlingers.1
        rw [lingers_iff]
        -- a request that was only started has no time at which it goes on
        refine ⟨by rw [Task.isEnded, Task.result?, hstarted]; rfl, fun _ time htime => ?_⟩
        rw [wakeTime, hstarted] at htime
        exact absurd htime (by simp)
      · rw [if_neg hn] at hlingers
        exact hbeside.lingers_imp hready hn hlingers
    have hrest : (host.setPhase id phase).ready.length = rest.length :=
      congrArg List.length hbeside.ready_eq
    rw [toil, toil, hrest]
    omega
  cases hturned with
  | idle hbeside hidle =>
    have hcount : h'.tasks.zipIdx.countP h'.lingers ≤ h.tasks.zipIdx.countP h.lingers := by
      rw [hbeside.tasks_eq]
      refine List.countP_mono_left fun x hx hlingers => ?_
      obtain ⟨u, n⟩ := x
      by_cases hn : n = id.number
      · obtain rfl := hself hx hn
        have hunended := ((lingers_iff _ _ _).mp hlingers).1
        rcases hidle with hended | ⟨time, htime, hlater⟩
        · rw [hended] at hunended
          exact absurd hunended (by simp)
        · refine (lingers_iff _ _ _).mpr ⟨hunended, fun _ time' htime' => ?_⟩
          obtain rfl : time = time' := Option.some.inj (htime.symm.trans htime')
          exact hlater
      · exact hbeside.lingers_imp hready hn hlingers
    have hrest : h'.ready.length = rest.length := congrArg List.length hbeside.ready_eq
    rw [toil, toil, hrest]
    omega
  | ended result hbeside =>
    exact hchanged _ hbeside fun hunended => absurd hunended (by simp [Task.isEnded, Task.result?])
  | asked due r hbeside hphase => exact hchanged _ hbeside fun _ => hphase

/-! ### Time -/

/-- With `ready = []` a request that goes on has a time at which it does. -/
theorem Attended.exists_nextWake (hattended : h.Attended) (htask : h.task? id = some t)
    (hunended : t.isEnded = false) (hempty : h.ready = []) : ∃ time, h.nextWake = some time := by
  rw [nextWake, ← Option.isSome_iff_exists, List.isSome_min?_iff]
  rcases hattended id t htask hunended with hmem | hwaiting
  · rw [hempty] at hmem
    exact absurd hmem List.not_mem_nil
  · obtain ⟨time, htime⟩ := Option.isSome_iff_exists.mp ((h.isSome_wakeTime t).mpr hwaiting)
    have hmem : time ∈ h.tasks.filterMap h.wakeTime :=
      List.mem_filterMap.mpr ⟨t, List.mem_of_getElem? htask, htime⟩
    exact List.ne_nil_of_mem hmem

theorem length_tasksWhere (h : Host) (p : Task → Bool) :
    (h.tasksWhere p).length = h.tasks.zipIdx.countP fun x => p x.1 := by
  rw [tasksWhere, List.length_map, List.countP_eq_length_filter]

/-- At a later `time` just the requests whose time has come are in the queue. -/
theorem ready_advance (hempty : h.ready = []) (time : Nat) : (h.advance time).ready =
    h.tasksWhere fun t => (h.wakeTime t).any fun at' => decide (at' ≤ max h.rung time) := by
  -- neither the clock nor the queue makes a difference to these
  have hwakeTime : ∀ t, wakeTime { h with signals := h.signals.advance time, ready := [] } t =
      h.wakeTime t := fun _ => rfl
  have htasksWhere : ∀ p, tasksWhere { h with signals := h.signals.advance time, ready := [] } p =
      h.tasksWhere p := fun _ => rfl
  unfold advance wake
  simp only [hempty, List.nil_append, htasksWhere, hwakeTime]
  rw [List.filter_eq_self.mpr (by simp)]
  refine congrArg h.tasksWhere (funext fun t => ?_)
  have hrung : rung { h with signals := h.signals.advance time, ready := [] } = max h.rung time :=
    Signals.rung_advance h.signals time
  rw [hrung]
  cases h.wakeTime t <;> rfl

/-- Going on to the next time lowers `toil`: what goes on then no longer lingers. -/
theorem toil_advance_lt {time : Nat} (hempty : h.ready = []) (hnext : h.nextWake = some time) :
    (h.advance time).toil < h.toil := by
  let woken : Task × Nat → Bool := fun x =>
    (h.wakeTime x.1).any fun at' => decide (at' ≤ max h.rung time)
  have hlength : (h.advance time).ready.length = h.tasks.zipIdx.countP woken := by
    rw [ready_advance hempty, length_tasksWhere]
  have hsum : h.tasks.zipIdx.countP woken + h.tasks.zipIdx.countP (h.advance time).lingers ≤
      h.tasks.zipIdx.countP h.lingers := by
    refine countP_add_le (fun x _ hwoken => ?_) fun x hx hlingers => ?_
    · obtain ⟨at', hat, -⟩ := (Option.any_eq_true _ _).mp hwoken
      refine (h.lingers_iff x.1 x.2).mpr ⟨isEnded_of_wakeTime hat, fun hmem => ?_⟩
      rw [hempty] at hmem
      exact absurd hmem List.not_mem_nil
    · obtain ⟨hunended, hlater⟩ := ((h.advance time).lingers_iff x.1 x.2).mp hlingers
      refine ⟨(h.lingers_iff x.1 x.2).mpr ⟨hunended, fun hmem => ?_⟩, ?_⟩
      · rw [hempty] at hmem
        exact absurd hmem List.not_mem_nil
      · -- what goes on by then is in the queue now
        by_contra hwoken
        rw [Bool.not_eq_false] at hwoken
        have hmem : (⟨x.2⟩ : TaskId) ∈ (h.advance time).ready := by
          rw [ready_advance hempty, tasksWhere]
          exact List.mem_map.mpr ⟨x, List.mem_filter.mpr ⟨hx, hwoken⟩, rfl⟩
        obtain ⟨at', hat, hle⟩ := (Option.any_eq_true _ _).mp hwoken
        have hlate : max h.rung time < at' :=
          Signals.rung_advance h.signals time ▸ hlater hmem at' hat
        exact absurd (of_decide_eq_true hle) (Nat.not_le_of_lt hlate)
  have hpos : 0 < h.tasks.zipIdx.countP woken := by
    rw [nextWake] at hnext
    obtain ⟨t, ht, htime⟩ := List.mem_filterMap.mp (List.min?_mem hnext)
    obtain ⟨n, hn, rfl⟩ := List.getElem_of_mem ht
    refine List.countP_pos_iff.mpr ⟨(h.tasks[n], n), ?_, ?_⟩
    · exact List.mem_zipIdx_iff_getElem?.mpr (List.getElem?_eq_getElem hn)
    · exact (Option.any_eq_true _ _).mpr ⟨time, htime, decide_eq_true (Nat.le_max_right _ _)⟩
  have hbefore : h.toil = 2 * h.tasks.zipIdx.countP h.lingers := by
    rw [toil, hempty, List.length_nil, Nat.zero_add]
  have hafter : (h.advance time).toil = h.tasks.zipIdx.countP woken +
      2 * h.tasks.zipIdx.countP (h.advance time).lingers := by
    rw [toil, hlength]
    rfl
  omega

end Host

end Inlay
