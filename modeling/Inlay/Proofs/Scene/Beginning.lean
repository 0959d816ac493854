import Inlay.Proofs.Scene.Planning

/-!
# Making an instance is all or nothing

Everything in the options that starting a request could find fault with has been looked at when the
plans are made (`run_launch`), and a new instance has the status zero everywhere, so nobody is told
anything on the way. `Begun` says what there is once some of the plans have been carried out, in
terms of their placeholders; each plan keeps it (`Begun.carryOut_cases`), and so do all of them
(`Begun.carryOutAll_cases`).

The clock is what is not looked at beforehand. A timeout that the clock cannot hold (`Host.Grants`)
stops the carrying out half way, with the requests started that come before.
-/

namespace Inlay

/-! ### Subscribing -/

namespace Listeners

variable {α : Type}

/-- Who is subscribed where to what. -/
def entries (r : Listeners α) : List (α × NodeId × String) :=
  r.active.map fun l => (l.listener, l.node, l.event)

/-- No subscription was cancelled, so they are numbered one after the other. -/
def Consecutive (r : Listeners α) : Prop :=
  r.active.map (·.subscription.number) = List.range r.next

/-- There is a new entry for each of `nodes`, in their order. -/
theorem entries_subscribeAll (event : String) (listener : α) : ∀ (nodes : List NodeId)
    (r : Listeners α), (r.subscribeAll event listener nodes).2.entries =
      r.entries ++ nodes.map fun n => (listener, n, event)
  | [], r => by
    rw [List.map_nil, List.append_nil]
    rfl
  | n :: nodes, r => by
    have hfirst : (r.subscribe n event listener).2.entries =
        r.entries ++ [(listener, n, event)] := by
      rw [entries, subscribe, List.map_append]
      rfl
    have hrest := entries_subscribeAll event listener nodes (r.subscribe n event listener).2
    rw [hfirst, List.append_assoc, List.singleton_append] at hrest
    exact hrest

theorem Consecutive.subscribeAll (event : String) (listener : α) : ∀ (nodes : List NodeId)
    {r : Listeners α}, r.Consecutive → (r.subscribeAll event listener nodes).2.Consecutive
  | [], _, h => h
  | n :: nodes, r, h => by
    have hfirst : (r.subscribe n event listener).2.Consecutive := by
      rw [Consecutive, subscribe, List.map_append, h, List.range_succ]
      rfl
    exact hfirst.subscribeAll event listener nodes

end Listeners

/-! ### What has begun -/

/-- The task is the request that is started for the placeholder. -/
structure Instance.Starts (i : Instance) (given : InstanceOptions) (x : Placeholder) (task : Task) :
    Prop where
  owner : task.owner = i.id
  job : i.jobOf given x = .ok task.job
  request : ∃ signal, task.request = task.job.outgoing signal
  phase : task.phase = .started

/-- The elements at which a placeholder waits, and what for. -/
def Instance.vigils (i : Instance) (x : Placeholder) : List (Position × NodeId × String) :=
  match x.trigger with
  | none => []
  | some t => (i.matching t).map fun n => (x.position, n, t.event)

/-! ### Deadlines -/

/-- The clock of the host can hold the deadline that the options set for the placeholder. -/
def Host.Grants (host : Host) (given : InstanceOptions) (x : Placeholder) : Prop :=
  ∀ o, Options.resolve given x = .ok o → host.signals.grants o = true

/-- The clock of the host can hold the deadlines of all requests that are started at once. -/
def Host.Affords (host : Host) (given : InstanceOptions) (t : Template) : Prop :=
  ∀ x ∈ t.placeholders, x.trigger = none → host.Grants given x

/-- No timeout in the options is longer than `limit`. -/
def InstanceOptions.Within (limit : Nat) : InstanceOptions → Prop
  | .plain o => ∀ time ∈ o.timeout, time ≤ limit
  | .byId entries => ∀ e ∈ entries, ∀ time ∈ e.options.timeout, time ≤ limit

/-- Timeouts `≤ limit` are granted while `now + limit ≤ horizon`, and the `horizon` is later than
anything that a number of 64 bits can count in milliseconds. -/
theorem Host.grants_of_within {host : Host} {given : InstanceOptions} {limit : Nat}
    (hwithin : given.Within limit) (hclock : host.now + limit ≤ Signals.horizon) (x : Placeholder) :
    host.Grants given x := by
  intro o ho
  obtain ⟨o', hchoose, hrest⟩ := exists_of_bind_eq_ok ho
  obtain ⟨_, -, hsame⟩ := exists_of_bind_eq_ok hrest
  obtain rfl : o' = o := Except.ok.inj hsame
  refine Signals.grants_of_le hclock ?_
  unfold Options.choose at hchoose
  split at hchoose
  · rw [← Except.ok.inj hchoose]
    exact hwithin
  · exact absurd hchoose (by simp)
  · rw [← Except.ok.inj hchoose]
    exact fun time htime => absurd htime (by simp)
  · split at hchoose
    · rename_i hfound
      rw [← Except.ok.inj hchoose]
      exact hwithin _ (List.mem_of_find?_eq_some hfound)
    · exact absurd hchoose (by simp)

namespace Scene

variable {σ : Type} {t : Template} {given : InstanceOptions} {i : Instance} {host : Host}
  {memory : σ} {done : List Placeholder} {s : Scene σ} {x : Placeholder} {job : Job}

/-- The copy `i` of the template once the plans for the placeholders in `done` have been carried
out: those without a trigger have had a request started, the others wait at the elements of theirs,
and nothing else has happened on the host. -/
structure Begun (t : Template) (given : InstanceOptions) (i : Instance) (host : Host) (memory : σ)
    (done : List Placeholder) (s : Scene σ) : Prop where
  tree : SameTree i s.inst
  started : ∃ tasks, List.Forall₂ (i.Starts given) (done.filter (!·.isDeferred)) tasks ∧
    s.host.tasks = host.tasks ++ tasks ∧
    s.host.ready = host.ready ++ (List.range' host.tasks.length tasks.length).map TaskId.mk
  transport : s.host.transport = host.transport
  now_eq : s.host.now = host.now
  /-- One record per placeholder, in document order, with the status zero and no response. -/
  records : s.inst.requests = if t.single then [] else t.placeholders.map fun y =>
    { position := y.position, status := 0, response := none
      running := done.any fun x => !x.isDeferred && x.position == y.position }
  status : s.inst.status = 0
  fragment : s.inst.fragment = none
  waiting : s.inst.listeners.entries = done.flatMap i.vigils
  consecutive : s.inst.listeners.Consecutive
  memory : s.memory = memory

theorem begun_nil {id : Nat} (hcopy : Instance.ofTemplate t id = .ok i) :
    Begun t given i host memory [] ⟨i, host, memory⟩ := by
  unfold Instance.ofTemplate at hcopy
  split at hcopy
  · exact absurd hcopy (by simp)
  · obtain rfl := Except.ok.inj hcopy
    constructor
    case tree => exact SameTree.refl _
    case started =>
      refine ⟨[], .nil, ?_, ?_⟩
      · rw [List.append_nil]
      · exact (List.append_nil _).symm
    case transport => rfl
    case now_eq => rfl
    case records => rfl
    case status => rfl
    case fragment => rfl
    case waiting => rfl
    case consecutive => rfl
    case memory => rfl

namespace Begun

/-- In what has begun every status is `0`, so setting one to `0` changes nothing. -/
theorem changeStatus_eq (h : Begun t given i host memory done s) (observe : Observer σ)
    (job : Job) : s.changeStatus observe job 0 = s := by
  have hstatus : s.inst.statusOf job = 0 := by
    unfold Instance.statusOf
    split
    · exact h.status
    · unfold Instance.record?
      cases hfound : s.inst.requests.find? (·.position == job.position) with
      | none => rfl
      | some r =>
        have hmem := List.mem_of_find?_eq_some hfound
        rw [h.records] at hmem
        split at hmem
        · exact absurd hmem List.not_mem_nil
        · obtain ⟨y, -, rfl⟩ := List.mem_map.mp hmem
          rfl
  rw [changeStatus, if_pos hstatus]

theorem equipped (h : Begun t given i host memory done s) (job : Job) :
    Begun t given i host memory done (s.equipped job) where
  tree := h.tree
  started := h.started
  transport := h.transport
  now_eq := (Signals.now_forRequest _ _).trans h.now_eq
  records := h.records
  status := h.status
  fragment := h.fragment
  waiting := h.waiting
  consecutive := h.consecutive
  memory := h.memory

/-- The records when `x` has been marked as running, too: `running` is set for `done ++ [x]`. -/
theorem records_setRunning (h : Begun t given i host memory done s) (hsingle : i.single = t.single)
    (hx : x.isDeferred = false) (hjob : i.jobOf given x = .ok job) :
    (s.inst.setRunning job true).requests = if t.single then [] else t.placeholders.map fun y =>
      { position := y.position, status := 0, response := none
        running := (done ++ [x]).any fun x => !x.isDeferred && x.position == y.position } := by
  obtain ⟨hdescribes, hhome⟩ := Instance.jobOf_ok hjob
  unfold Instance.setRunning
  cases ht : t.single with
  | true =>
    have hnone : s.inst.requests = [] := by rw [h.records, if_pos ht]
    rw [if_pos rfl]
    split
    · exact hnone
    · rw [Instance.updateRecord, hnone, List.map_nil]
  | false =>
    obtain ⟨id, hid⟩ := hhome (Or.inl (hsingle.trans ht))
    rw [hdescribes.destination, hid, if_neg (by simp)]
    simp only
    rw [Instance.updateRecord, h.records, if_neg (by simp [ht]), List.map_map]
    refine List.map_congr_left fun y _ => ?_
    rw [Function.comp_apply, List.any_append, hdescribes.position]
    by_cases hp : y.position = x.position
    · simp [hp, hx]
    · simp [hp, hx, Ne.symm hp]

/-- A request is started for `x`, which has no trigger, so `done ++ [x]` have been begun. -/
theorem start (h : Begun t given i host memory done s) (hsingle : i.single = t.single)
    (hx : x.isDeferred = false) (hjob : i.jobOf given x = .ok job) (signal : Option SignalId) :
    Begun t given i host memory (done ++ [x]) (s.board job (job.outgoing signal)) := by
  obtain ⟨tasks, hall, htasks, hready⟩ := h.started
  -- marking a request as running changes nothing but the records
  have hrest : s.inst.setRunning job true =
      { s.inst with requests := (s.inst.setRunning job true).requests } := by
    unfold Instance.setRunning
    split <;> rfl
  constructor
  case tree => exact h.tree.trans (sameContents_board s job (job.outgoing signal)).toSameTree
  case started =>
    let task : Task := ⟨(s.inst.setRunning job true).id, job, job.outgoing signal, .started⟩
    have htask : i.Starts given x task :=
      ⟨(congrArg (·.id) hrest).trans h.tree.id_eq, hjob, ⟨signal, rfl⟩, rfl⟩
    refine ⟨tasks ++ [task], ?_, ?_, ?_⟩
    · rw [List.filter_append, List.filter_singleton, hx]
      exact List.rel_append hall (.cons htask .nil)
    · rw [← List.append_assoc, ← htasks]
      rfl
    · rw [List.length_append, List.length_singleton, List.range'_concat, List.map_append,
        ← List.append_assoc, ← hready, Nat.one_mul, ← List.length_append, ← htasks]
      rfl
  case transport => exact h.transport
  case now_eq => exact h.now_eq
  case records => exact h.records_setRunning hsingle hx hjob
  case status => exact (congrArg (·.status) hrest).trans h.status
  case fragment => exact (congrArg (·.fragment) hrest).trans h.fragment
  case waiting =>
    have htrigger : x.trigger = none := by simpa [Placeholder.isDeferred] using hx
    have hlisteners : (s.inst.setRunning job true).listeners = s.inst.listeners :=
      congrArg (·.listeners) hrest
    have hvigils : i.vigils x = [] := by rw [Instance.vigils, htrigger]
    rw [List.flatMap_append, List.flatMap_singleton, hvigils, List.append_nil, ← h.waiting,
      ← hlisteners]
    rfl
  case consecutive =>
    have hlisteners : (s.inst.setRunning job true).listeners = s.inst.listeners :=
      congrArg (·.listeners) hrest
    have hconsecutive := h.consecutive
    rw [← hlisteners] at hconsecutive
    exact hconsecutive
  case memory => exact h.memory

/-- `x` waits at the elements of its trigger, so `done ++ [x]` have been begun. -/
theorem standBy (h : Begun t given i host memory done s) {trigger : Trigger}
    (hx : x.trigger = some trigger) (hjob : i.jobOf given x = .ok job) (mode : Mode) :
    Begun t given i host memory (done ++ [x])
      (s.mapInst (·.standBy job mode trigger.event (i.matching trigger))) := by
  have hdeferred : x.isDeferred = true := by rw [Placeholder.isDeferred, hx]; rfl
  constructor
  case tree => exact h.tree.trans ⟨rfl, rfl, rfl, rfl⟩
  case started =>
    rw [List.filter_append, List.filter_singleton, hdeferred, Bool.not_true, cond_false,
      List.append_nil]
    exact h.started
  case transport => exact h.transport
  case now_eq => exact h.now_eq
  case records =>
    -- A placeholder that waits begins no record, so those begun are as before.
    have hsame : ∀ y : Placeholder,
        ((done ++ [x]).any fun x => !x.isDeferred && x.position == y.position) =
          done.any fun x => !x.isDeferred && x.position == y.position := fun y => by
      simp [hdeferred]
    simp only [hsame]
    exact h.records
  case status => exact h.status
  case fragment => exact h.fragment
  case waiting =>
    -- The new listeners come after the old, as the vigils of the placeholder after those kept.
    have hentries := Listeners.entries_subscribeAll trigger.event job.position (i.matching trigger)
      s.inst.listeners
    have hvigils : i.vigils x =
        (i.matching trigger).map fun n => (job.position, n, trigger.event) := by
      rw [Instance.vigils, hx, (Instance.jobOf_ok hjob).1.position]
    rw [h.waiting, ← hvigils, ← List.flatMap_singleton i.vigils x,
      ← List.flatMap_append] at hentries
    exact hentries
  case consecutive => exact h.consecutive.subscribeAll trigger.event job.position _
  case memory => exact h.memory

/-! ### Carrying out plans -/

/-- A plan for `x` is carried out, and `done ++ [x]` have been begun; or the host does not grant a
deadline, and `momentOverflow` is the end. -/
theorem carryOut_cases (h : Begun t given i host memory done s) (hsingle : i.single = t.single)
    {plan : Plan} (hplan : plan.Meets i given x) (observe : Observer σ) :
    ((x.trigger = none → host.Grants given x) ∧ ∃ s',
      (Scene.carryOut observe plan).run s = .ok () s' ∧
        Begun t given i host memory (done ++ [x]) s') ∨
    (x.trigger = none ∧ ¬ host.Grants given x ∧ ∃ ds, (Scene.carryOut observe plan).run s =
      .error (.arithmetic .momentOverflow) { s with host := s.host.report ds }) := by
  cases plan with
  | start job =>
    obtain ⟨htrigger, hjob⟩ := hplan
    have hx : x.isDeferred = false := by rw [Placeholder.isDeferred, htrigger]; rfl
    -- its headers were looked at when the plan was made, so the launch cannot refuse them
    have hvalid := Instance.validateHeaders_of_jobOf hjob
    have hresolve := Instance.resolve_of_jobOf hjob
    -- no time has passed since the beginning
    have hstart : host.signals.grants job.options = s.host.signals.grants job.options :=
      Signals.grants_congr h.now_eq.symm job.options
    cases hgrants : s.host.signals.grants job.options with
    | true =>
      have hlaunch := run_launch observe hvalid hgrants
      have hequipped := h.equipped job
      rw [hequipped.changeStatus_eq] at hlaunch
      refine .inl ⟨fun _ o ho => ?_, _, hlaunch, hequipped.start hsingle hx hjob _⟩
      obtain rfl : job.options = o := Except.ok.inj (hresolve.symm.trans ho)
      exact hstart.trans hgrants
    | false =>
      refine .inr ⟨htrigger, fun hhost => ?_, _, run_launch_of_overflow observe hvalid hgrants⟩
      rw [hhost job.options hresolve, hgrants] at hstart
      exact absurd hstart (by simp)
  | standBy job mode event nodes =>
    obtain ⟨trigger, htrigger, hjob, -, rfl, rfl⟩ := hplan
    refine .inl ⟨fun hnone => ?_, _, rfl, h.standBy htrigger hjob mode⟩
    exact absurd (htrigger.symm.trans hnone) (by simp)

/-- All of `xs` are begun; or those before the first whose deadline the host does not grant. -/
theorem carryOutAll_cases (hsingle : i.single = t.single) (observe : Observer σ) :
    ∀ {xs done : List Placeholder} {plans : List Plan} {s : Scene σ},
    Begun t given i host memory done s →
    List.Forall₂ (fun x (plan : Plan) => plan.Meets i given x) xs plans →
    ((∀ x ∈ xs, x.trigger = none → host.Grants given x) ∧ ∃ s',
      (Scene.carryOutAll observe plans).run s = .ok () s' ∧
        Begun t given i host memory (done ++ xs) s') ∨
    (∃ ys x zs s' ds, xs = ys ++ x :: zs ∧ x.trigger = none ∧ ¬ host.Grants given x ∧
      Begun t given i host memory (done ++ ys) s' ∧ (Scene.carryOutAll observe plans).run s =
        .error (.arithmetic .momentOverflow) { s' with host := s'.host.report ds })
  | [], done, _, s, h, .nil => .inl ⟨nofun, s, rfl, by rwa [List.append_nil]⟩
  | x :: xs, done, plan :: plans, s, h, .cons hplan hplans => by
    unfold Scene.carryOutAll
    rcases h.carryOut_cases hsingle hplan observe with ⟨hgrant, s₁, hfirst, h₁⟩ |
      ⟨htrigger, hgrants, ds, hfirst⟩
    · rcases carryOutAll_cases hsingle observe h₁ hplans with ⟨hgrants, s₂, hrest, h₂⟩ |
        ⟨ys, y, zs, s₂, ds, rfl, htrigger, hgrants, h₂, hrest⟩
      · rw [List.append_assoc] at h₂
        exact .inl ⟨List.forall_mem_cons.mpr ⟨hgrant, hgrants⟩, s₂,
          by rw [run_bind_of_ok hfirst, hrest], h₂⟩
      · rw [List.append_assoc] at h₂
        exact .inr ⟨x :: ys, y, zs, s₂, ds, rfl, htrigger, hgrants, h₂,
          by rw [run_bind_of_ok hfirst, hrest]⟩
    · refine .inr ⟨[], x, xs, s, ds, rfl, htrigger, hgrants, ?_, run_bind_of_error hfirst _⟩
      rwa [List.append_nil]

end Begun

/-- If the instance can be planned, all placeholders are begun; or those before the first, `x`,
whose deadline the host does not grant. -/
theorem instantiate_cases {id : Nat} {plans : List Plan}
    (hplan : t.planInstance given id = .ok (i, plans)) (observe : Observer σ) (host : Host)
    (memory : σ) :
    (host.Affords given t ∧ ∃ s : Scene σ,
      (t.instantiate observe given id).run (host, memory) = .ok s.inst (s.host, s.memory) ∧
        Begun t given i host memory t.placeholders s) ∨
    (∃ done x later ds, ∃ s : Scene σ, t.placeholders = done ++ x :: later ∧ x.trigger = none ∧
      ¬ host.Grants given x ∧ Begun t given i host memory done s ∧
        (t.instantiate observe given id).run (host, memory) =
          .error (.arithmetic .momentOverflow) (s.host.report ds, s.memory)) := by
  obtain ⟨hcopy, hplans⟩ := eq_ok_of_planInstance hplan
  have hnil : Begun t given i host memory [] ⟨i, host, memory⟩ := begun_nil hcopy
  have hcases := Begun.carryOutAll_cases (copy_ofTemplate hcopy).single_eq observe hnil
    (Instance.forall₂_meets hplans)
  unfold Template.instantiate
  simp only [EStateM.run, hplan] at hcases ⊢
  rcases hcases with ⟨hgrants, s, hcarry, hbegun⟩ |
    ⟨done, x, later, s, ds, hsplit, htrigger, hgrants, hbegun, hcarry⟩
  · rw [hcarry]
    exact .inl ⟨hgrants, s, rfl, hbegun⟩
  · rw [hcarry]
    exact .inr ⟨done, x, later, ds, s, hsplit, htrigger, hgrants, hbegun, rfl⟩

/-- An instance that was made is a copy `i` in which all placeholders have been begun. -/
theorem begun_instantiate {observe : Observer σ} {id : Nat} {host' : Host} {memory' : σ}
    {inst : Instance}
    (hrun : (t.instantiate observe given id).run (host, memory) = .ok inst (host', memory')) :
    ∃ i, Instance.ofTemplate t id = .ok i ∧
      Begun t given i host memory t.placeholders ⟨inst, host', memory'⟩ := by
  obtain ⟨i, plans, hcopy, hplans, hcarry⟩ := exists_plans hrun
  have hbegun : Begun t given i host memory [] ⟨i, host, memory⟩ := begun_nil hcopy
  rcases hbegun.carryOutAll_cases (copy_ofTemplate hcopy).single_eq observe
    (Instance.forall₂_meets hplans) with ⟨-, s, hcarry', hdone⟩ |
      ⟨_, _, _, _, _, -, -, -, -, hcarry'⟩
  · rw [hcarry] at hcarry'
    injection hcarry' with _ he
    rw [List.nil_append, ← he] at hdone
    exact ⟨i, hcopy, hdone⟩
  · rw [hcarry] at hcarry'
    exact absurd hcarry' (by simp)

/-- Making an instance fails while planning, with the host as it was, or with `momentOverflow`. -/
theorem planInstance_of_error {observe : Observer σ} {id : Nat} {failure : Failure}
    {rest : Host × σ}
    (hrun : (t.instantiate observe given id).run (host, memory) = .error failure rest) :
    (t.planInstance given id = .error failure ∧ rest = (host, memory)) ∨
      failure = .arithmetic .momentOverflow := by
  cases hplan : t.planInstance given id with
  | error f =>
    unfold Template.instantiate at hrun
    simp only [EStateM.run, hplan] at hrun
    injection hrun with he hrest
    exact .inl ⟨congrArg _ he, hrest.symm⟩
  | ok made =>
    obtain ⟨i, plans⟩ := made
    rcases instantiate_cases hplan observe host memory with ⟨-, s, hrun', -⟩ |
      ⟨_, _, _, _, _, -, -, -, -, hrun'⟩
    · rw [hrun] at hrun'
      exact absurd hrun' (by simp)
    · rw [hrun] at hrun'
      injection hrun' with he
      exact .inr he

end Scene

namespace Template

variable {σ : Type} {t : Template} {source : String} {ds ds' : List Diagnostic}

/-- With `refusal? = some error` that error is reported, and the host is as it was. -/
theorem run_instantiate_of_refusal {i : Instance} {given : InstanceOptions} {error : TemplateError}
    {id : Nat} (hcopy : Instance.ofTemplate t id = .ok i)
    (hplace : ∀ x ∈ t.placeholders, i.Accommodates x) (h : t.refusal? given i = some error)
    (observe : Observer σ) (host : Host) (memory : σ) :
    (t.instantiate observe given id).run (host, memory) =
      .error (.template error) (host, memory) := by
  have hplan := planInstance_of_refusal hcopy hplace h
  unfold instantiate
  simp only [EStateM.run, hplan]

/-- With `refusal? = none` all placeholders are begun if the host affords that, and otherwise the
end is `momentOverflow`. -/
theorem begun_or_overflow {i : Instance} {given : InstanceOptions} {id : Nat}
    (hcopy : Instance.ofTemplate t id = .ok i) (hplace : ∀ x ∈ t.placeholders, i.Accommodates x)
    (h : t.refusal? given i = none) (observe : Observer σ) (host : Host) (memory : σ) :
    (host.Affords given t ∧ ∃ s : Scene σ,
      (t.instantiate observe given id).run (host, memory) = .ok s.inst (s.host, s.memory) ∧
        Scene.Begun t given i host memory t.placeholders s) ∨
    (¬ host.Affords given t ∧ ∃ rest, (t.instantiate observe given id).run (host, memory) =
      .error (.arithmetic .momentOverflow) rest) := by
  obtain ⟨plans, hplan, -⟩ := exists_planInstance hcopy hplace h
  refine (Scene.instantiate_cases hplan observe host memory).imp_right ?_
  rintro ⟨done, x, later, ds, s, hsplit, htrigger, hgrants, -, hrun⟩
  have hx : x ∈ t.placeholders := by
    rw [hsplit]
    exact List.mem_append_right _ List.mem_cons_self
  exact ⟨fun haffords => hgrants (haffords x hx htrigger), _, hrun⟩

/-- With `refusal? = none` and a host that affords the deadlines all placeholders are begun. -/
theorem exists_begun {i : Instance} {given : InstanceOptions} {id : Nat}
    (hcopy : Instance.ofTemplate t id = .ok i) (hplace : ∀ x ∈ t.placeholders, i.Accommodates x)
    (h : t.refusal? given i = none) {host : Host} (haffords : host.Affords given t)
    (observe : Observer σ) (memory : σ) : ∃ s : Scene σ,
      (t.instantiate observe given id).run (host, memory) = .ok s.inst (s.host, s.memory) ∧
        Scene.Begun t given i host memory t.placeholders s :=
  ((begun_or_overflow hcopy hplace h observe host memory).resolve_right
    fun hover => hover.1 haffords).2

/-- **Making an instance is all or nothing.** If the options as a whole are refused, or some
placeholder's options are, or some trigger has no elements in the copied tree, then the first of
these faults is reported and the host is as before, with no request that could ever ask the
transport. Otherwise nothing fails on the way and all placeholders have been begun, as long as the
clock can hold the deadlines of the requests that are started at once, which it can for timeouts of
at most `limit` while `now + limit ≤ horizon` (`Host.grants_of_within`). -/
theorem instantiate_all_or_nothing (hcompile : (compile source).run ds = .ok t ds')
    (hfit : t.arena.Fits) (given : InstanceOptions) (id : Nat)
    (hdecides : ∀ i, Instance.ofTemplate t id = .ok i → ∀ x ∈ t.placeholders, ∀ trigger,
      x.trigger = some trigger → i.Decides trigger)
    (observe : Observer σ) (host : Host) (memory : σ) :
    ∃ i, Instance.ofTemplate t id = .ok i ∧ i.arena.tree? i.root = t.arena.tree? t.root ∧
      (host.Affords given t → ((∃ failure rest,
          (t.instantiate observe given id).run (host, memory) = .error failure rest) ↔
        (∃ error, Options.validate t.single given = .error error) ∨ ∃ x ∈ t.placeholders,
          (∃ error, Options.resolve given x = .error error) ∨
            ∃ trigger, x.trigger = some trigger ∧ i.matching trigger = [])) ∧
      (∀ error, t.refusal? given i = some error →
        (t.instantiate observe given id).run (host, memory) =
          .error (.template error) (host, memory)) ∧
      (t.refusal? given i = none →
        (host.Affords given t ∧ ∃ s : Scene σ,
          (t.instantiate observe given id).run (host, memory) = .ok s.inst (s.host, s.memory) ∧
            Scene.Begun t given i host memory t.placeholders s) ∨
        (¬ host.Affords given t ∧ ∃ rest, (t.instantiate observe given id).run (host, memory) =
          .error (.arithmetic .momentOverflow) rest)) := by
  obtain ⟨i, tree, hcopy, hsound, hsound', hshows, hshows'⟩ := exists_copy hcompile hfit id
  have hplace : ∀ x ∈ t.placeholders, i.Accommodates x := fun x hx =>
    ⟨exists_destination hcompile hfit hcopy x hx, hdecides i hcopy x hx⟩
  refine ⟨i, hcopy, ?_, fun haffords => ?_, fun error h =>
    run_instantiate_of_refusal hcopy hplace h observe host memory, fun h =>
    begun_or_overflow hcopy hplace h observe host memory⟩
  · rw [hshows.tree? hsound.forest, hshows'.tree? hsound'.forest]
  · rw [← isSome_refusal?_iff]
    cases h : t.refusal? given i with
    | some error =>
      exact ⟨fun _ => rfl, fun _ =>
        ⟨_, _, run_instantiate_of_refusal hcopy hplace h observe host memory⟩⟩
    | none =>
      obtain ⟨s, hrun, -⟩ := exists_begun hcopy hplace h haffords observe memory
      refine ⟨fun ⟨failure, rest, hfailed⟩ => ?_, fun hsome => absurd hsome (by simp)⟩
      rw [hrun] at hfailed
      exact absurd hfailed (by simp)

/-- A template with a placeholder of either kind: one request is started, with a deadline, and one
element is listened at; with a header that cannot be sent nothing happens. -/
theorem instantiate_once_begun : ∃ (t : Template) (ds : List Diagnostic) (i : Instance)
    (s : Scene Unit) (error : TemplateError),
    (compile
      "<i><b></b><request src=a></request><request src=c after=click:b></request></i>").run [] =
        .ok t ds ∧
    (t.instantiate (fun _ _ s => s) (.plain { timeout := some 50 }) 0).run (.empty, ()) =
      .ok s.inst (s.host, s.memory) ∧
    Scene.Begun t (.plain { timeout := some 50 }) i .empty () t.placeholders s ∧
    s.host.tasks.length = 1 ∧ s.inst.listeners.count = 1 ∧ s.inst.requests.length = 2 ∧
    error.message = "invalid header name \"\"" ∧
    (t.instantiate (fun _ _ s => s) (.plain { headers := [("", "v")] }) 0).run (.empty, ()) =
      .error (.template error) (.empty, ()) := by
  let timed : InstanceOptions := .plain { timeout := some 50 }
  let faulty : InstanceOptions := .plain { headers := [("", "v")] }
  have hwithin : timed.Within 50 := by simp [timed, InstanceOptions.Within]
  have hgrants : ∀ x, Host.empty.Grants timed x := Host.grants_of_within hwithin (by decide)
  -- what is decided is all that the theorem asks for, and how many requests there are then
  have hplayed : (outcome (compile
      "<i><b></b><request src=a></request><request src=c after=click:b></request></i>")
        []).toOption.any (fun t => (Instance.ofTemplate t 0).toOption.any fun i =>
      let made := t.instantiate (fun _ _ (s : Scene Unit) => s) timed 0
      decide (t.arena.Fits ∧
        (∀ x ∈ t.placeholders, ∀ trigger ∈ x.trigger.toList, i.Decides trigger) ∧
        (t.refusal? timed i).isNone = true ∧
        (t.refusal? faulty i).map (·.message) = some "invalid header name \"\"" ∧
        (stateAfter made (.empty, ())).1.tasks.length = 1 ∧
        (outcome made (.empty, ())).toOption.map
          (fun inst => (inst.listeners.count, inst.requests.length)) = some (1, 2))) = true := by
    decide +kernel
  obtain ⟨t, ds, hcompile, hplayed⟩ := exists_of_any_outcome hplayed
  obtain ⟨i, hi, hdecided⟩ := (Option.any_eq_true ..).mp hplayed
  obtain ⟨hfit, hdecides, hnone, hsome, htasks, hcounts⟩ := of_decide_eq_true hdecided
  have hcopy : Instance.ofTemplate t 0 = .ok i := eq_ok_of_toOption hi
  obtain ⟨error, hrefusal, hmessage⟩ := Option.map_eq_some_iff.mp hsome
  have hdecides' : ∀ i, Instance.ofTemplate t 0 = .ok i → ∀ x ∈ t.placeholders, ∀ trigger,
      x.trigger = some trigger → i.Decides trigger := fun i' hi' x hx trigger htrigger => by
    obtain rfl : i = i' := Except.ok.inj (hcopy.symm.trans hi')
    exact hdecides x hx trigger (by rw [htrigger]; exact List.mem_singleton_self trigger)
  obtain ⟨i₁, hcopy₁, -, -, -, hsucceeds⟩ := instantiate_all_or_nothing hcompile hfit timed 0
    hdecides' (fun _ _ (s : Scene Unit) => s) .empty ()
  obtain rfl : i = i₁ := Except.ok.inj (hcopy.symm.trans hcopy₁)
  obtain ⟨i₂, hcopy₂, -, -, hfails, -⟩ := instantiate_all_or_nothing hcompile hfit faulty 0
    hdecides' (fun _ _ (s : Scene Unit) => s) .empty ()
  obtain rfl : i = i₂ := Except.ok.inj (hcopy.symm.trans hcopy₂)
  obtain ⟨-, s, hrun, hbegun⟩ := (hsucceeds (Option.isNone_iff_eq_none.mp hnone)).resolve_right
    fun hover => hover.1 fun x _ _ => hgrants x
  rw [stateAfter_of_ok hrun] at htasks
  rw [outcome_eq_ok_iff.mpr ⟨_, hrun⟩] at hcounts
  obtain ⟨hcount, hlength⟩ := Prod.mk.inj (Option.some.inj hcounts)
  exact ⟨t, ds, i, s, error, hcompile, hrun, hbegun, htasks, hcount, hlength, hmessage,
    hfails error hrefusal⟩

end Template

end Inlay
