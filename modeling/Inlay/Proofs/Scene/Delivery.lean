import Inlay.Proofs.Scene.Visits

/-!
# What an event does

An event comes once to each of the placeholders that it reaches, nearest first, and `Visited` says
what comes of that in any run, whatever observers do when they are told that a status is zero again.
If they only remember (`Unmoved`), nothing else happens (`Delivered`).

Nodes that are gone are no exception: what was subscribed at one is still reached by an event there
(`dispatch_gone_iff`).
-/

namespace Inlay

namespace Scene

variable {σ : Type} {t : Template} {given : InstanceOptions} {home : Position → Destination}
  {s s' s'' : Scene σ} {observe : Observer σ} {p : Position} {ps : List Position} {b : Standby}
  {n : Nat}

/-! ### Where observers are unmoved -/

/-- Told that a status is zero again, the observer only remembers. -/
def Unmoved (observe : Observer σ) : Prop :=
  ∀ label p s, ∃ memory, observe label (.status 0 p) s = { s with memory }

theorem Recording.unmoved (h : Recording observe) : Unmoved observe :=
  fun label p s => h label (.status 0 p) s

namespace Unmoved

/-- An unmoved observer leaves alone any `f` that does not read the memory, -/
theorem leaves {α : Type} (h : Unmoved observe) {f : Scene σ → α}
    (hf : ∀ s memory, f { s with memory } = f s) : Leaves observe f := by
  intro label p s
  obtain ⟨memory, he⟩ := h label p s
  rw [he, hf]

/-- and every placeholder `q`. -/
theorem spares (h : Unmoved observe) (q : Position) : Spares observe q := by
  intro label p s
  obtain ⟨memory, he⟩ := h label p s
  rw [he]
  exact ⟨rfl, rfl, rfl, rfl, rfl⟩

end Unmoved

/-- What an event that comes to the placeholders `ps` does on the host and to subscriptions, if
observers are unmoved. -/
structure Delivered (ps : List Position) (n : Nat) (s s' : Scene σ) : Prop where
  count : n = (s.inst.idle ps).length
  /-- Each placeholder that has no request running starts one, which joins the queue. -/
  orders : ∃ tasks, List.Forall₂ s.inst.Orders (s.inst.idle ps) tasks ∧
    s'.host.tasks = s.host.tasks ++ tasks ∧
    s'.host.ready = s.host.ready ++ (List.range' s.host.tasks.length tasks.length).map TaskId.mk
  /-- Those that have started a request and fire only once do not listen any more. -/
  listening : s'.inst.listeners.active = s.inst.listeners.active.filter fun l =>
    l.listener ∉ (s.inst.idle ps).filter s.inst.firesOnce
  transport : s'.host.transport = s.host.transport
  signals : s.host.signals.Onward s'.host.signals

theorem delivered_nil (s : Scene σ) : Delivered [] 0 s s where
  count := rfl
  orders := ⟨[], .nil, (List.append_nil _).symm, (List.append_nil _).symm⟩
  listening := by simp [Instance.idle]
  transport := rfl
  signals := .refl _

/-- An event that comes to `p` and then to `ps`, which are idle as they were, comes to `p :: ps`. -/
theorem Delivered.cons {m : Nat} (h : Delivered [p] m s s') (h' : Delivered ps n s' s'')
    (hbecomes : s.inst.Becomes s'.inst) (hidle : s'.inst.idle ps = s.inst.idle ps) :
    Delivered (p :: ps) (n + m) s s'' := by
  constructor
  case count =>
    rw [h.count, h'.count, hidle, Instance.idle_cons s.inst p ps, List.length_append, Nat.add_comm]
  case orders =>
    obtain ⟨tasks, hall, htasks, hready⟩ := h.orders
    obtain ⟨tasks', hall', htasks', hready'⟩ := h'.orders
    refine ⟨tasks ++ tasks', ?_, ?_, ?_⟩
    · rw [Instance.idle_cons, ← hidle]
      exact List.rel_append hall (hall'.imp fun _ _ horders => horders.of_becomes hbecomes)
    · rw [htasks', htasks, List.append_assoc]
    · rw [hready', hready, htasks, List.length_append, List.length_append, List.append_assoc,
        ← List.map_append, ← List.range'_append_1]
  case listening =>
    have honce : (s'.inst.idle ps).filter s'.inst.firesOnce =
        (s.inst.idle ps).filter s.inst.firesOnce := by
      rw [hidle]
      exact List.filter_congr fun q _ => hbecomes.firesOnce_eq q
    rw [h'.listening, h.listening, List.filter_filter, honce, Instance.idle_cons s.inst p ps,
      List.filter_append]
    refine List.filter_congr fun l _ => ?_
    rw [Bool.and_comm, ← Bool.decide_and]
    exact decide_eq_decide.mpr (by rw [List.mem_append, not_or])
  case transport => exact h'.transport.trans h.transport
  case signals => exact h.signals.trans h'.signals

/-- A placeholder whose request runs lets the event pass, `n = 0`. -/
theorem delivered_dropped (hrunning : s.inst.isRunning p = true) :
    Delivered [p] 0 s (s.mapHost (·.report [.triggerDropped p])) := by
  have hidle : s.inst.idle [p] = [] := by simp [Instance.idle, hrunning]
  constructor
  case count => rw [hidle, List.length_nil]
  case orders =>
    rw [hidle]
    exact ⟨[], .nil, (List.append_nil _).symm, (List.append_nil _).symm⟩
  case listening =>
    rw [hidle]
    simp [mapHost]
  case transport => rfl
  case signals => exact .refl _

/-- A status that becomes `0` leaves the host and the listeners alone. -/
theorem Unmoved.changeStatus (hobserve : Unmoved observe) (job : Job) (s : Scene σ) :
    (s.changeStatus observe job 0).host = s.host ∧
      (s.changeStatus observe job 0).inst.listeners = s.inst.listeners := by
  have hset := (sameBooks_setStatus s job 0).listeners_eq
  unfold Scene.changeStatus
  split
  · exact ⟨rfl, rfl⟩
  · unfold notify
    split
    · obtain ⟨memory, he⟩ := hobserve _ job.shownPosition (s.mapInst (·.setStatus job 0))
      rw [he]
      exact ⟨rfl, hset⟩
    · exact ⟨rfl, hset⟩

/-- A placeholder whose request does not run starts one, `n = 1`. -/
theorem Poised.delivered_started (h : Poised t home given (b.job.position :: ps) s)
    (hunmoved : Unmoved observe) (hobserve : Lawful observe) (ht : t.Housed home)
    (hb : s.inst.standby? b.job.position = some b)
    (hrunning : s.inst.isRunning b.job.position = false) :
    Delivered [b.job.position] 1 s (s.started observe b) := by
  have hid := ((enduring_becomes.lawful hobserve).changeStatus b.job 0 (s.equipped b.job)).id_eq
  obtain ⟨-, hregistered, hattended⟩ := h.told hobserve ht b.job (s.order b).request
  obtain ⟨hhost, hlisteners⟩ := hunmoved.changeStatus b.job (s.equipped b.job)
  have hidle : s.inst.idle [b.job.position] = [b.job.position] := by
    simp [Instance.idle, hrunning]
  unfold started
  generalize (s.equipped b.job).changeStatus observe b.job 0 = told at *
  have hboard : (told.board b.job (s.order b).request).host =
      ((s.equipped b.job).host.enqueue (s.order b)).2 := by
    have howner : (told.inst.setRunning b.job true).id = s.inst.id :=
      (sameContents_setRunning told.inst b.job true).id_eq.trans hid
    change (told.host.enqueue ⟨(told.inst.setRunning b.job true).id, b.job, _, .started⟩).2 = _
    rw [howner, hhost]
    rfl
  constructor
  case count => rw [hidle, List.length_singleton]
  case orders =>
    rw [hidle, host_retire, hboard]
    exact ⟨[s.order b], .cons (orders_order hb) .nil, rfl, rfl⟩
  case listening =>
    have hactive : (told.board b.job (s.order b).request).inst.listeners.active =
        s.inst.listeners.active := congrArg Listeners.active
      ((sameBooks_setRunning told b.job true).listeners_eq.trans hlisteners)
    rw [active_retire hregistered hattended, hactive, hidle]
    refine List.filter_congr fun l _ => decide_eq_decide.mpr (not_congr ?_)
    rw [List.mem_filter, List.mem_singleton]
    refine and_congr_right fun hl => ?_
    rw [hl, Instance.firesOnce, hb, Option.any_some, decide_eq_true_iff]
  case transport =>
    rw [host_retire, hboard]
    rfl
  case signals =>
    rw [host_retire, hboard]
    exact onward_forRequest s.host.signals b.job.options

/-- With unmoved observers what an event comes to is known from `s` alone. -/
theorem Delivers.delivered (h : Delivers observe ps n s s') (hunmoved : Unmoved observe)
    (hobserve : Lawful observe) (ht : t.Housed home) (hpoised : Poised t home given ps s)
    (hnodup : ps.Nodup) : Delivered ps n s s' := by
  induction h with
  | done s => exact delivered_nil s
  | @dropped p ps b n s s' hb hrunning _ ih =>
    obtain ⟨-, hrest⟩ := List.nodup_cons.mp hnodup
    obtain ⟨hafter, -⟩ := hpoised.fire hobserve ht (run_fire_of_running observe hb hrunning)
    exact (delivered_dropped hrunning).cons (ih hafter hrest) (.refl s.inst) rfl
  | @started p ps b n s s' hb hrunning hgrants _ ih =>
    obtain ⟨hp, hrest⟩ := List.nodup_cons.mp hnodup
    obtain ⟨hmem, rfl⟩ := Instance.standby?_mem hb
    obtain ⟨hfirst, hafter⟩ := hpoised.visited_started hobserve ht hmem hb hrunning hgrants
    refine (hpoised.delivered_started hunmoved hobserve ht hb hrunning).cons (ih hafter hrest)
      hfirst.becomes (List.filter_congr fun q hq => ?_)
    -- the others are none of its business
    have hother : q ≠ b.job.position := fun he => hp (he ▸ hq)
    rw [(hpoised.sameAt_started hobserve ht hmem (hunmoved.spares q) hother).isRunning_eq]

/-! ### Runs -/

variable {source : String} {ds ds' : List Diagnostic} {responses : List (Position × Response)}

/-- After every run the placeholders that an event reaches are `Poised`, and each of them waits. -/
theorem exists_poised (hcompiled : Template.Compiled source t) (hobserve : Lawful observe)
    (hrun : Run observe t responses s) (target : NodeId) (event : String) : ∃ home given,
    t.Housed home ∧ Poised t home given (s.inst.reachedBy target event) s ∧
      ∀ p ∈ s.inst.reachedBy target event, (s.inst.standby? p).isSome := by
  obtain ⟨home, ht, hflow⟩ := exists_flow hcompiled hobserve hrun
  obtain ⟨given, start, sent, hhistory⟩ := hrun.exists_history
  obtain ⟨hbooked, -⟩ := booked_of_history hobserve hhistory
  refine ⟨home, given, ht, ⟨hbooked, hflow, registered_of_run hobserve hrun, ?_⟩, fun p hp => ?_⟩
  · intro p hp x hx hone hxp
    by_cases hnone : s.requestsAt p = []
    · exact Or.inl hnone
    · -- a placeholder that is reached still listens
      subst hxp
      exact Or.inr ((hflow.spent x hx hone hnone).resolve_right (mem_reachedBy hp))
  · by_contra hnone
    refine mem_reachedBy hp fun l hl he => hnone ?_
    obtain ⟨b, hb, -⟩ := hflow.attended l hl
    rw [← he, hb]
    rfl

/-- To dispatch an event is to fire those that it reaches, `s.inst.reachedBy target event`. -/
theorem run_dispatch (observe : Observer σ) (target : NodeId) (event : String) (s : Scene σ) :
    (dispatch observe target event).run s =
      (fireAll observe (s.inst.reachedBy target event)).run s := by
  unfold dispatch
  rw [run_bind_of_ok (EStateM.run_get ..)]

/-- After every run `reachedBy` are the placeholders that the event `Reaches`. -/
theorem reaches_of_run (hcompiled : Template.Compiled source t) (htemplate : t.arena.Fits)
    (hobserve : Lawful observe) (hrun : Run observe t responses s) (hfit : s.inst.arena.Fits)
    (target : NodeId) (event : String) :
    s.inst.Reaches target event (s.inst.reachedBy target event) :=
  Instance.reaches_reachedBy (sound_of_run hcompiled htemplate hobserve hrun hfit).forest
    (registered_of_run hobserve hrun).numbered.ordered

/-- **An event comes once to each placeholder that has a subscription for it, at its target or
above, nearest first**, whatever has happened to the instance before. Each one starts a request or,
if it has one running, is reported; a timeout that the clock cannot hold puts an end to that.

Whatever observers do when they are told that a status is zero again, `Visited` holds afterwards:
the tree, the regions and the responses are as before, all of these placeholders have a request
running, and of each placeholder that observers leave alone it is known what has become of it. Where
observers are unmoved, so that they leave all of them alone, there is nothing else. An event comes
to its end if observers leave the clock alone and it can hold the deadlines of what waits. -/
theorem delivered_of_run (hcompile : (Template.compile source).run ds = .ok t ds')
    (htemplate : t.arena.Fits) (hobserve : Lawful observe) (hrun : Run observe t responses s)
    (hfit : s.inst.arena.Fits) (target : NodeId) (event : String) :
    s.inst.Reaches target event (s.inst.reachedBy target event) ∧
      ((∃ n s', (dispatch observe target event).run s = .ok n s' ∧
          Delivers observe (s.inst.reachedBy target event) n s s' ∧
          Visited observe (s.inst.reachedBy target event) n s s' ∧
          (Unmoved observe → Delivered (s.inst.reachedBy target event) n s s')) ∨
        ∃ s', (dispatch observe target event).run s = .error (.arithmetic .momentOverflow) s' ∧
          Balks observe (s.inst.reachedBy target event) s s') ∧
      (Leaves observe (·.host.signals.now) →
        (∀ p ∈ s.inst.reachedBy target event, ∀ b ∈ s.inst.standby? p,
          s.host.signals.grants b.job.options = true) →
        ∃ n s', (dispatch observe target event).run s = .ok n s') := by
  have hcompiled := Template.compiled_compile hcompile
  have hreaches := reaches_of_run hcompiled htemplate hobserve hrun hfit target event
  obtain ⟨home, given, ht, hpoised, hwaiting⟩ :=
    exists_poised hcompiled hobserve hrun target event
  rw [run_dispatch]
  rcases hpoised.run_fireAll hobserve ht hwaiting with ⟨n, s', hfired, hdelivers⟩ |
    ⟨s', hfired, hbalks⟩
  · exact ⟨hreaches, Or.inl ⟨n, s', hfired, hdelivers,
      hdelivers.visited hobserve ht hpoised hreaches.nodup,
      fun hunmoved => hdelivers.delivered hunmoved hobserve ht hpoised hreaches.nodup⟩,
      fun _ _ => ⟨n, s', hfired⟩⟩
  · exact ⟨hreaches, Or.inr ⟨s', hfired, hbalks⟩, fun hleaves hgrants =>
      (hbalks.not_of_grants hobserve ht hpoised hreaches.nodup hleaves hgrants).elim⟩

/-- The inner one of two elements is clicked at when a click at the outer one has started a request.
The placeholder that waits at the inner one comes first, starts a request and stops listening; the
other one lets the event pass. -/
theorem delivered_once_nested : ∃ (t : Template) (ds : List Diagnostic) (s : Scene Unit)
    (target : NodeId) (n : Nat) (s' : Scene Unit),
    (Template.compile ("<i><b><u></u></b><request src=a after=click:b></request>" ++
      "<request src=c after=click:u mode=one></request></i>")).run [] = .ok t ds ∧
    Run (fun _ _ s => s) t [] s ∧ t.arena.Fits ∧ s.inst.arena.Fits ∧
    s.inst.Reaches target "click" [3, 2] ∧ s.inst.idle [3, 2] = [3] ∧
    s.inst.firesOnce 3 = true ∧ s.inst.firesOnce 2 = false ∧
    (dispatch (fun _ _ s => s) target "click").run s = .ok n s' ∧
    Visited (fun _ _ s => s) [3, 2] n s s' ∧ Delivered [3, 2] n s s' := by
  let observe : Observer Unit := fun _ _ s => s
  -- the first child of a node, if it has one
  let first : Instance → NodeId → NodeId := fun i n => (i.arena.children n).headD n
  let target : Instance → NodeId := fun i => first i (first i i.root)
  obtain ⟨t, ds, used, s, hcompile, hrun, hplayed⟩ := exists_run_of_perform observe
    ("<i><b><u></u></b><request src=a after=click:b></request>" ++
      "<request src=c after=click:u mode=one></request></i>") (.plain {}) .empty ()
    [.event [0] "click"]
    (fun (t, used, s) => decide (used = [] ∧ t.arena.Fits ∧ s.inst.arena.Fits ∧
      s.inst.reachedBy (target s.inst) "click" = [3, 2] ∧ s.inst.idle [3, 2] = [3] ∧
      s.inst.firesOnce 3 = true ∧ s.inst.firesOnce 2 = false ∧
      ∀ p ∈ s.inst.reachedBy (target s.inst) "click", ∀ b ∈ s.inst.standby? p,
        s.host.signals.grants b.job.options = true)) rfl (by decide +kernel)
  obtain ⟨rfl, htemplate, hfit, hreached, hidle, honce, hagain, hgrants⟩ :=
    of_decide_eq_true hplayed
  have hrecording : Recording observe := fun _ _ s => ⟨s.memory, rfl⟩
  obtain ⟨hreaches, hdelivers, hends⟩ := delivered_of_run hcompile htemplate hrecording.lawful hrun
    hfit (target s.inst) "click"
  obtain ⟨n, s', hdispatch⟩ := hends (fun _ _ _ => rfl) hgrants
  rw [hreached] at hreaches hdelivers
  obtain ⟨n', s'', hdispatch', -, hvisited, hdelivered⟩ | ⟨s'', hfails, -⟩ := hdelivers
  · obtain ⟨rfl, rfl⟩ := EStateM.Result.ok.inj (hdispatch.symm.trans hdispatch')
    exact ⟨t, ds, s, _, n, s', hcompile, hrun, htemplate, hfit, hreaches, hidle, honce, hagain,
      hdispatch, hvisited, hdelivered hrecording.unmoved⟩
  · exact absurd (hdispatch.symm.trans hfails) (by simp)

/-- A click reaches one placeholder only, and another one is started all the same: the first one has
had a response, so its status becomes zero, and the observer that is told so clicks at the trigger
of the other. With a timeout that the clock cannot hold, the click comes to no end. -/
theorem started_beyond_reach : ∃ (t : Template) (ds : List Diagnostic)
    (used : List (Position × Response)) (s s' late : Scene Watch) (target target' : NodeId)
    (n : Nat),
    (Template.compile ("<i><b></b><u></u><request src=a after=click:b></request>" ++
      "<request src=c after=click:u></request></i>")).run [] = .ok t ds ∧
    (Run (watching 2) t used s ∧ s.inst.reachedBy target "click" = [2] ∧
      (dispatch (watching 2) target "click").run s = .ok n s' ∧
      s.inst.isRunning 3 = false ∧ s'.inst.isRunning 3 = true ∧ ¬ SameAt 3 s s') ∧
    (Run (watching 2) t [] late ∧ late.inst.reachedBy target' "click" = [2] ∧
      late.inst.isRunning 2 = false ∧
      ¬ ∃ n late', (dispatch (watching 2) target' "click").run late = .ok n late') := by
  let first : Instance → NodeId := fun i => (i.arena.children i.root).headD i.root
  let clicking : Watch := { Watch.empty with
    reactions := [((0, "o"), [⟨.status 0, 1, .fire (.select "u" 0) "click"⟩])] }
  obtain ⟨t, ds, used, s, hcompile, hrun, hplayed⟩ := exists_run_of_perform (watching 2)
    ("<i><b></b><u></u><request src=a after=click:b></request>" ++
      "<request src=c after=click:u></request></i>") (.plain { observer := some "o" })
    { Host.empty with transport := ⟨[(⟨.get, "a"⟩, [⟨⟨200, "x"⟩, 0⟩])], []⟩ } clicking
    [.event [0] "click", .turn 0]
    (fun (_, _, s) =>
      let clicked := dispatch (watching 2) (first s.inst) "click"
      decide (s.inst.reachedBy (first s.inst) "click" = [2] ∧ s.inst.isRunning 3 = false ∧
        succeeds clicked s = true ∧ (stateAfter clicked s).inst.isRunning 3 = true)) rfl
    (by decide +kernel)
  obtain ⟨t', ds', used', late, hcompile', hrun', hplayed'⟩ := exists_run_of_perform (watching 2)
    ("<i><b></b><u></u><request src=a after=click:b></request>" ++
      "<request src=c after=click:u></request></i>")
    (.plain { timeout := some (Signals.horizon + 1) }) .empty .empty []
    (fun (_, used, s) => decide (used = [] ∧ s.inst.reachedBy (first s.inst) "click" = [2] ∧
      s.inst.isRunning 2 = false ∧
      succeeds (dispatch (watching 2) (first s.inst) "click") s = false)) rfl (by decide +kernel)
  obtain ⟨rfl, rfl⟩ := eq_of_run_eq_ok hcompile hcompile'
  obtain ⟨hreached, hidle, hsucceeds, hrunning⟩ := of_decide_eq_true hplayed
  obtain ⟨rfl, hreached', hidle', hfails⟩ := of_decide_eq_true hplayed'
  obtain ⟨n, hdispatch⟩ := exists_run_of_succeeds hsucceeds
  refine ⟨t, ds, used, s, _, late, _, _, n, hcompile,
    ⟨hrun, hreached, hdispatch, hidle, hrunning, fun hsame => ?_⟩, hrun', hreached', hidle', ?_⟩
  · rw [hsame.isRunning_eq, hidle] at hrunning
    exact absurd hrunning (by simp)
  · rintro ⟨n, late', hends⟩
    rw [succeeds_of_ok hends] at hfails
    exact absurd hfails (by simp)

/-! ### Nodes that are gone -/

/-- **An event at a node that is gone does nothing just if nothing is subscribed there for it.**
What was subscribed there is not cancelled when the node goes. -/
theorem dispatch_gone_iff (hcompile : (Template.compile source).run ds = .ok t ds')
    (htemplate : t.arena.Fits) (hobserve : Lawful observe) (hunmoved : Unmoved observe)
    (hrun : Run observe t responses s) (hfit : s.inst.arena.Fits) {target : NodeId}
    (hdead : s.inst.arena.get? target = none) (event : String) :
    (dispatch observe target event).run s = .ok 0 s ↔
      ∀ l ∈ s.inst.listeners.active, l.node = target → l.event ≠ event := by
  have hcompiled := Template.compiled_compile hcompile
  have hreaches := reaches_of_run hcompiled htemplate hobserve hrun hfit target event
  have hdispatch := run_dispatch observe target event s
  constructor
  · intro hnothing l hl hnode hevent
    have hmem : l.listener ∈ s.inst.reachedBy target event :=
      (hreaches.mem_iff _).mpr ⟨l, (Instance.hears_iff_of_dead hdead).mpr ⟨hl, hevent, hnode⟩, rfl⟩
    obtain ⟨home, given, ht, hpoised, hwaiting⟩ :=
      exists_poised hcompiled hobserve hrun target event
    rw [hdispatch] at hnothing
    obtain ⟨n, s', hfired, hdelivers⟩ | ⟨s', hfails, -⟩ :=
      hpoised.run_fireAll hobserve ht hwaiting
    · obtain ⟨rfl, rfl⟩ := EStateM.Result.ok.inj (hfired.symm.trans hnothing)
      have hvisited := hdelivers.visited hobserve ht hpoised hreaches.nodup
      -- it has a request running, since the event has come to it, so that should be reported
      have hrunning := hvisited.running l.listener (Or.inl hmem)
      have hremark : Diagnostic.triggerDropped l.listener ∈
          (s'.inst.reachedBy target event).flatMap s'.inst.remarks := by
        refine List.mem_flatMap.mpr ⟨_, hmem, ?_⟩
        rw [Instance.remarks, if_pos hrunning]
        exact List.mem_singleton_self _
      have hreported := hvisited.reported (hunmoved.leaves fun _ _ => rfl) fun q _ =>
        hunmoved.spares q
      rw [List.self_eq_append_right.mp hreported] at hremark
      exact absurd hremark List.not_mem_nil
    · exact absurd (hnothing.symm.trans hfails) (by simp)
  · intro hnone
    have hempty : s.inst.reachedBy target event = [] := by
      refine List.eq_nil_iff_forall_not_mem.mpr fun p hp => ?_
      obtain ⟨l, hl, -⟩ := (hreaches.mem_iff p).mp hp
      obtain ⟨hactive, hevent, hnode⟩ := (Instance.hears_iff_of_dead hdead).mp hl
      exact hnone l hactive hnode hevent
    rw [hdispatch, hempty]
    rfl

/-- A trigger element is inside a placeholder and goes with it when its response comes. A click at
the element then still starts the request that waited for it. -/
theorem started_once_gone : ∃ (t : Template) (ds : List Diagnostic) (s : Scene Unit)
    (target : NodeId) (s' : Scene Unit),
    (Template.compile ("<div><request src=a><button></button></request>" ++
      "<request src=b after=click:button></request></div>")).run [] = .ok t ds ∧
    Run (fun _ _ s => s) t [(0, ⟨200, "<i></i>"⟩)] s ∧
    s.inst.arena.html s.inst.root =
      "<div><i></i><request after=\"click:button\" src=\"b\"></request></div>" ∧
    s.inst.arena.get? target = none ∧
    (dispatch (fun _ _ s => s) target "click").run s = .ok 1 s' ∧
    ¬ ∀ l ∈ s.inst.listeners.active, l.node = target → l.event ≠ "click" := by
  let observe : Observer Unit := fun _ _ s => s
  let response : Response := ⟨200, "<i></i>"⟩
  let host : Host := { Host.empty with transport := ⟨[(⟨.get, "a"⟩, [⟨response, 0⟩])], []⟩ }
  -- the button is the only element that is subscribed to
  let target : Instance → NodeId := fun i => (i.listeners.active.map (·.node)).headD i.root
  obtain ⟨t, ds, used, s, hcompile, hrun, hplayed⟩ := exists_run_of_perform observe
    ("<div><request src=a><button></button></request>" ++
      "<request src=b after=click:button></request></div>") (.plain {}) host () [.turn 0]
    (fun (t, used, s) =>
      let clicked := outcome (dispatch observe (target s.inst) "click") s
      decide (used = [(0, response)] ∧ t.arena.Fits ∧ s.inst.arena.Fits ∧
        s.inst.arena.html s.inst.root =
          "<div><i></i><request after=\"click:button\" src=\"b\"></request></div>" ∧
        s.inst.arena.isLive (target s.inst) = false ∧ clicked.toOption = some 1)) rfl
    (by decide +kernel)
  obtain ⟨rfl, htemplate, hfit, hhtml, hdead, hclicked⟩ := of_decide_eq_true hplayed
  obtain ⟨s', hdispatch⟩ := outcome_eq_ok_iff.mp (eq_ok_of_toOption hclicked)
  have hrecording : Recording observe := fun _ _ s => ⟨s.memory, rfl⟩
  have hgone := Option.not_isSome_iff_eq_none.mp (Bool.eq_false_iff.mp hdead)
  refine ⟨t, ds, s, _, s', hcompile, hrun, hhtml, hgone, hdispatch, fun hnone => ?_⟩
  have hiff := dispatch_gone_iff hcompile htemplate hrecording.lawful hrecording.unmoved hrun hfit
    hgone "click"
  rw [hiff.mpr hnone] at hdispatch
  exact absurd hdispatch (by simp)

end Scene

end Inlay
