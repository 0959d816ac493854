import Inlay.Proofs.Scene.Course
import Inlay.Proofs.Template.Compiled

/-!
# Making an instance

Everything is looked up first (`forall₂_planAll`); then a request is started for each placeholder
without a trigger, and the others are set to wait (`opened_carryOutAll`). All statuses are zero
meanwhile, so no observer is told anything.

With that and the other steps there is one induction over runs: an `Invariant` holds after every run
(`Invariant.of_run`).
-/

namespace Inlay

/-! ### Plans -/

/-- Where the responses for the placeholder at a position go. -/
def Instance.home (i : Instance) (p : Position) : Destination :=
  match i.elements.lookup p with
  | some id => .element id
  | none => .whole

/-- The plan fits the placeholder. -/
def Plan.For (home : Position → Destination) (x : Placeholder) : Plan → Prop
  | start job => x.Describes home job ∧ x.isDeferred = false
  | standBy job mode _ _ => x.Describes home job ∧ x.isDeferred = true ∧ mode = x.mode

variable {i : Instance} {given : InstanceOptions}

/-- A response goes to `home x.position`, which is an element unless the root is the placeholder. -/
theorem Instance.destination_eq {x : Placeholder} {d : Destination} (h : i.destination x = .ok d) :
    d = i.home x.position ∧
      (i.single = false ∨ x.isDeferred = true → ∃ id, d = .element id) := by
  unfold destination at h
  split at h
  · rename_i hsingle
    rw [Bool.and_eq_true] at hsingle
    have helements : i.elements = [] := by rw [elements, if_pos hsingle.1]
    have hhome : i.home x.position = .whole := by
      rw [home, helements]
      rfl
    obtain rfl := Except.ok.inj h
    refine ⟨hhome.symm, fun hplace => ?_⟩
    rcases hplace with hfalse | hdeferred
    · rw [hfalse] at hsingle
      exact absurd hsingle.1 (by simp)
    · rw [hdeferred] at hsingle
      exact absurd hsingle.2 (by simp)
  · split at h
    · rename_i id hid
      have hhome : i.home x.position = .element id := by rw [home, hid]
      obtain rfl := Except.ok.inj h
      exact ⟨hhome.symm, fun _ => ⟨id, rfl⟩⟩
    · exact absurd h (by simp)

theorem Instance.jobOf_ok {x : Placeholder} {job : Job} (h : i.jobOf given x = .ok job) :
    x.Describes i.home job ∧
      (i.single = false ∨ x.isDeferred = true → ∃ id, i.home x.position = .element id) := by
  unfold jobOf at h
  obtain ⟨options, -, h⟩ := exists_of_bind_eq_ok h
  obtain ⟨d, hd, h⟩ := exists_of_bind_eq_ok h
  obtain rfl := Except.ok.inj h
  obtain ⟨hhome, hplace⟩ := destination_eq hd
  refine ⟨⟨rfl, rfl, hhome⟩, fun hx => ?_⟩
  rw [← hhome]
  exact hplace hx

theorem Instance.plan_ok {x : Placeholder} {plan : Plan} (h : i.plan given x = .ok plan) :
    plan.For i.home x ∧
      (i.single = false ∨ x.isDeferred = true → ∃ id, i.home x.position = .element id) := by
  unfold Instance.plan at h
  cases hjob : i.jobOf given x with
  | error e => rw [hjob] at h; exact absurd h (by simp)
  | ok job =>
    obtain ⟨hdescribes, hhome⟩ := jobOf_ok hjob
    rw [hjob] at h
    refine ⟨?_, hhome⟩
    cases htrigger : x.trigger with
    | none =>
      simp only [htrigger] at h
      obtain rfl := Except.ok.inj h
      exact ⟨hdescribes, by rw [Placeholder.isDeferred, htrigger]; rfl⟩
    | some trigger =>
      simp only [htrigger] at h
      obtain ⟨nodes, -, h⟩ := exists_of_bind_eq_ok h
      obtain rfl := Except.ok.inj h
      exact ⟨hdescribes, by rw [Placeholder.isDeferred, htrigger]; rfl, rfl⟩

/-- The `plans` that were made are for the placeholders `xs`, one for each, in their order. -/
theorem Instance.forall₂_planAll : ∀ {xs : List Placeholder} {plans : List Plan},
    i.planAll given xs = .ok plans →
    List.Forall₂ (fun x plan => plan.For i.home x) xs plans ∧ ∀ x ∈ xs,
      i.single = false ∨ x.isDeferred = true → ∃ id, i.home x.position = .element id
  | [], plans, h => by
    obtain rfl := Except.ok.inj h
    exact ⟨.nil, fun x hx => absurd hx List.not_mem_nil⟩
  | x :: xs, plans, h => by
    unfold planAll at h
    obtain ⟨plan, hfirst, h⟩ := exists_of_bind_eq_ok h
    obtain ⟨rest, hrest, h⟩ := exists_of_bind_eq_ok h
    obtain rfl := Except.ok.inj h
    obtain ⟨hplan, hhome⟩ := plan_ok hfirst
    obtain ⟨hplans, hhomes⟩ := forall₂_planAll hrest
    refine ⟨.cons hplan hplans, fun y hy => ?_⟩
    rcases List.mem_cons.mp hy with rfl | hy
    · exact hhome
    · exact hhomes y hy

namespace Scene

variable {σ : Type} {t : Template} {home : Position → Destination} {s s' : Scene σ}
  {observe : Observer σ} {x : Placeholder} {xs : List Placeholder}

/-! ### Carrying out plans -/

/-- That a placeholder without requests waits for an event for the first time keeps `Flow`. -/
theorem flow_standBy (h : Flow t home s) (hx : x ∈ t.placeholders) {job : Job}
    (hjob : x.Describes home job) (hdeferred : x.isDeferred = true)
    (hfree : s.requestsAt x.position = []) (hnone : s.inst.standby? x.position = none)
    (event : String) (nodes : List NodeId) :
    Flow t home (s.mapInst (·.standBy job x.mode event nodes)) where
  jobs := h.jobs
  standbys b hb := by
    rcases List.mem_append.mp hb with hb | hb
    · exact h.standbys b hb
    · obtain rfl := List.mem_singleton.mp hb
      exact ⟨x, hx, hjob, hdeferred, rfl⟩
  attended := h.attended.standBy (hjob.position ▸ hnone) x.mode event nodes
  once := h.once
  spent y hy hone hne := by
    refine (h.spent y hy hone hne).imp_right fun hdeaf l hl => ?_
    rcases Instance.mem_active_subscribeAll nodes s.inst.listeners hl with hl | ⟨hlistener, -⟩
    · exact hdeaf l hl
    · rintro he
      rw [← he, hlistener, hjob.position] at hne
      exact hne hfree
  calm := h.calm
  recorded := h.recorded

/-- The state while plans are carried out, those for `todo` being left: nothing has been told to
observers, and all requests are new. -/
structure Opened (t : Template) (home : Position → Destination) (i : Instance)
    (todo : List Placeholder) (s : Scene σ) : Prop where
  flow : Flow t home s
  tree : SameContents i s.inst
  status : s.inst.status = 0
  started : ∀ y ∈ t.placeholders,
    s.requestsAt y.position ≠ [] ↔ y ∉ todo ∧ y.isDeferred = false
  standby : ∀ y ∈ todo, s.inst.standby? y.position = none
  unended : ∀ r ∈ s.requests, r.2.isEnded = false
  running : ∀ y ∈ t.placeholders, ∀ id, home y.position = .element id →
    (s.inst.isRunning y.position = true ↔ s.requestsAt y.position ≠ [])

theorem Opened.free (h : Opened t home i (x :: xs) s) (hx : x ∈ t.placeholders) :
    s.requestsAt x.position = [] := by
  by_contra hne
  exact ((h.started x hx).mp hne).1 List.mem_cons_self

theorem Opened.sameBooks (h : Opened t home i xs s) (hbooks : SameBooks s s')
    (hinst : s'.inst = s.inst) : Opened t home i xs s' where
  flow := hbooks.flow_of_flight (fun _ => by rw [hinst]) h.flow
  tree := hinst ▸ h.tree
  status := hinst ▸ h.status
  started y hy := by
    rw [hbooks.requestsAt_eq]
    exact h.started y hy
  standby := hinst ▸ h.standby
  unended := by
    rw [hbooks.requests_eq]
    exact h.unended
  running y hy id hid := by
    rw [hbooks.requestsAt_eq, hinst]
    exact h.running y hy id hid

/-- A request is taken in for `x`, which has no trigger, and `xs` are still to come. -/
theorem Opened.board (h : Opened t home i (x :: xs) s) (ht : t.Housed home)
    (hx : x ∈ t.placeholders) (hnew : x ∉ xs) {job : Job} (hjob : x.Describes home job)
    (himmediate : x.isDeferred = false) (request : Outgoing) :
    Opened t home i xs (s.board job request) := by
  have hother : ∀ y ∈ t.placeholders, y ≠ x → y.position ≠ job.position := fun y hy hne he =>
    hne (ht.eq_of_position hy hx (he.trans hjob.position))
  have hself := requestsAt_board_self s job request
  rw [hjob.position] at hself
  constructor
  case flow => exact flow_board h.flow ht hx hjob (fun _ => h.free hx) request
  case tree => exact h.tree.trans (sameContents_board s job request)
  case status =>
    have hstatus : (s.inst.setRunning job true).status = s.inst.status := by
      unfold Instance.setRunning
      split <;> rfl
    exact hstatus.trans h.status
  case started =>
    intro y hy
    by_cases he : y = x
    · subst he
      rw [hself]
      exact ⟨fun _ => ⟨hnew, himmediate⟩, fun _ => by simp⟩
    · rw [requestsAt_board_of_ne s request (hother y hy he), h.started y hy, List.mem_cons, not_or]
      -- Of the others those have requests that had them, and `x` is no longer to come.
      exact ⟨fun hr => ⟨hr.1.2, hr.2⟩, fun hr => ⟨⟨he, hr.1⟩, hr.2⟩⟩
  case standby =>
    intro y hy
    have hstandbys : (s.board job request).inst.standbys = s.inst.standbys :=
      (sameBooks_setRunning s job true).standbys_eq
    rw [Instance.standby?, hstandbys]
    exact h.standby y (List.mem_cons_of_mem x hy)
  case unended =>
    intro r hr
    rw [requests_board, List.mem_append] at hr
    rcases hr with hr | hr
    · exact h.unended r hr
    · obtain rfl := List.mem_singleton.mp hr
      rfl
  case running =>
    intro y hy id hid
    by_cases he : y = x
    · subst he
      have hsome := h.flow.recorded y hy id hid
      rw [hself]
      rw [← hjob.position] at hsome ⊢
      exact ⟨fun _ => by simp, fun _ =>
        isRunning_board_self (hjob.destination.trans hid) s request hsome⟩
    · rw [requestsAt_board_of_ne s request (hother y hy he),
        isRunning_board_of_ne s request (hother y hy he)]
      exact h.running y hy id hid

/-- `x`, which has a trigger, is set to wait, and `xs` are still to come. -/
theorem Opened.standBy (h : Opened t home i (x :: xs) s) (ht : t.Housed home)
    (hx : x ∈ t.placeholders) (hxs : ∀ y ∈ xs, y ∈ t.placeholders) (hnew : x ∉ xs) {job : Job}
    (hjob : x.Describes home job) (hdeferred : x.isDeferred = true) (event : String)
    (nodes : List NodeId) :
    Opened t home i xs (s.mapInst (·.standBy job x.mode event nodes)) where
  flow := flow_standBy h.flow hx hjob hdeferred (h.free hx) (h.standby x List.mem_cons_self) event
    nodes
  tree := h.tree.trans ⟨⟨rfl, rfl, rfl, rfl⟩, rfl, fun _ => rfl⟩
  status := h.status
  started y hy := by
    refine (h.started y hy).trans ?_
    rw [List.mem_cons, not_or]
    refine ⟨fun hr => ⟨hr.1.2, hr.2⟩, fun hr => ⟨⟨?_, hr.1⟩, hr.2⟩⟩
    -- It has a trigger, so it is not among those that start at once.
    rintro rfl
    rw [hdeferred] at hr
    exact absurd hr.2 (by simp)
  standby y hy := by
    have hne : job.position ≠ y.position := by
      intro he
      obtain rfl := ht.eq_of_position hx (hxs y hy) (hjob.position.symm.trans he)
      exact hnew hy
    have hlookup := Instance.standby?_standBy s.inst job x.mode event nodes y.position
    rw [if_neg hne, h.standby y (List.mem_cons_of_mem x hy)] at hlookup
    exact hlookup
  unended := h.unended
  running := h.running

theorem opened_carryOut (h : Opened t home i (x :: xs) s) (ht : t.Housed home)
    (hx : x ∈ t.placeholders) (hxs : ∀ y ∈ xs, y ∈ t.placeholders) (hnew : x ∉ xs) {plan : Plan}
    (hplan : plan.For home x) (hrun : (carryOut observe plan).run s = .ok () s') :
    Opened t home i xs s' := by
  cases plan with
  | start job =>
    obtain ⟨hjob, himmediate⟩ := hplan
    obtain ⟨f, _, -, hrun'⟩ | ⟨request, host, hhost, -, hrun'⟩ := launch_cases observe job s
    · rw [carryOut, hrun'] at hrun
      exact absurd hrun (by simp)
    · have h₁ := h.sameBooks (sameBooks_of_tasks s hhost.tasks_eq) rfl
      -- Every status is still zero, so launching does not tell the observer anything.
      have hcalm : ({ s with host } : Scene σ).changeStatus observe job 0 = { s with host } := by
        cases hdestination : job.destination with
        | whole =>
          have hstatus : s.inst.statusOf job = 0 := by
            rw [Instance.statusOf, hdestination]
            exact h.status
          rw [changeStatus, if_pos hstatus]
        | element id =>
          refine changeStatus_of_calm hdestination ?_ observe
          rw [hjob.position]
          refine h₁.flow.calm x hx ?_ (h₁.free hx)
          rw [Placeholder.isTracked]
          rw [Placeholder.isDeferred] at himmediate
          rw [himmediate, Bool.false_and]
      rw [carryOut, hrun', hcalm] at hrun
      injection hrun with _ he
      rw [← he]
      exact h₁.board ht hx hnew hjob himmediate request
  | standBy job mode event nodes =>
    obtain ⟨hjob, hdeferred, rfl⟩ := hplan
    injection hrun with _ he
    rw [← he]
    exact h.standBy ht hx hxs hnew hjob hdeferred event nodes

/-- Carrying out all plans leaves nothing to come: `Opened t home i []`. -/
theorem opened_carryOutAll (ht : t.Housed home) : ∀ {xs : List Placeholder} {plans : List Plan}
    {s : Scene σ}, List.Forall₂ (fun x plan => plan.For home x) xs plans →
    (∀ y ∈ xs, y ∈ t.placeholders) → xs.Nodup → Opened t home i xs s →
    (carryOutAll observe plans).run s = .ok () s' → Opened t home i [] s'
  | [], _, s, .nil, _, _, h, hrun => by
    injection hrun with _ he
    rwa [← he]
  | x :: xs, _, s, .cons hplan hplans, hxs, hnd, h, hrun => by
    unfold carryOutAll at hrun
    obtain ⟨_, s₁, hfirst, hrest⟩ := exists_of_run_bind_eq_ok hrun
    obtain ⟨hnew, hnd'⟩ := List.nodup_cons.mp hnd
    have hxs' : ∀ y ∈ xs, y ∈ t.placeholders := fun y hy => hxs y (List.mem_cons_of_mem x hy)
    have h₁ := opened_carryOut h ht (hxs x List.mem_cons_self) hxs' hnew hplan hfirst
    exact opened_carryOutAll ht hplans hxs' hnd' h₁ hrest

/-! ### A new instance -/

/-- The instance is a copy of the template's tree with nothing started. -/
structure Copy (t : Template) (id : Nat) (i : Instance) : Prop where
  made : Instance.ofTemplate t id = .ok i
  id_eq : i.id = id
  single_eq : i.single = t.single
  copied : (Arena.copyFrom t.arena t.root).run .empty = .ok i.root i.arena
  status_eq : i.status = 0
  fragment_eq : i.fragment = none
  requests_eq : i.requests =
    if t.single then [] else t.placeholders.map fun p => { position := p.position }
  regions_eq : i.regions = []
  standbys_eq : i.standbys = []
  listeners_eq : i.listeners = .empty

theorem copy_ofTemplate {id : Nat} (h : Instance.ofTemplate t id = .ok i) : Copy t id i := by
  have hmade := h
  unfold Instance.ofTemplate at h
  split at h
  · exact absurd h (by simp)
  · rename_i root arena hcopied
    obtain rfl := Except.ok.inj h
    exact ⟨hmade, rfl, rfl, hcopied, rfl, rfl, rfl, rfl, rfl, rfl⟩

namespace Copy

variable {id : Nat}

/-- Every record of a copy is new: `r = { position := q }`. -/
theorem record?_eq (h : Copy t id i) {p : Position} {r : RequestRecord}
    (hr : i.record? p = some r) : ∃ q, r = { position := q } := by
  have hmem := List.mem_of_find?_eq_some hr
  rw [h.requests_eq] at hmem
  split at hmem
  · exact absurd hmem List.not_mem_nil
  · obtain ⟨y, -, rfl⟩ := List.mem_map.mp hmem
    exact ⟨y.position, rfl⟩

/-- Nothing is running in a copy, and every status is `0`. -/
theorem flight?_eq (h : Copy t id i) (p : Position) (f : Nat × Bool) (hf : i.flight? p = some f) :
    f = (0, false) := by
  obtain ⟨r, hr, rfl⟩ := Option.map_eq_some_iff.mp hf
  obtain ⟨q, rfl⟩ := h.record?_eq hr
  rfl

theorem response?_eq_none (h : Copy t id i) (p : Position) : i.response? p = none := by
  rw [Instance.response?, Option.bind_eq_none_iff]
  intro r hr
  obtain ⟨q, rfl⟩ := h.record?_eq hr
  rfl

/-- In a copy of a single placeholder `home p = .whole` for all `p`. -/
theorem home_eq_whole (h : Copy t id i) (hsingle : t.single = true) (p : Position) :
    i.home p = .whole := by
  have helements : i.elements = [] := by
    rw [Instance.elements, if_pos (h.single_eq.trans hsingle)]
  rw [Instance.home, helements, List.lookup_nil]

theorem single_of_home (h : Copy t id i) {p : Position} {e : NodeId} (he : i.home p = .element e) :
    t.single = false := by
  cases hsingle : t.single with
  | false => rfl
  | true =>
    rw [h.home_eq_whole hsingle] at he
    exact nomatch he

/-- Otherwise `flight?` is there for every placeholder. -/
theorem isSome_flight? (h : Copy t id i) (hsingle : t.single = false) {y : Placeholder}
    (hy : y ∈ t.placeholders) : (i.flight? y.position).isSome := by
  unfold Instance.flight? Instance.record?
  rw [h.requests_eq, hsingle, Option.isSome_map, List.find?_isSome]
  exact ⟨{ position := y.position }, List.mem_map.mpr ⟨y, hy, rfl⟩, beq_self_eq_true _⟩

theorem requests_eq_nil (h : Copy t id i) {host : Host} (hfresh : host.requestsOf id = [])
    (memory : σ) : (⟨i, host, memory⟩ : Scene σ).requests = [] := by
  rw [requests, h.id_eq]
  exact hfresh

theorem requestsAt_eq_nil (h : Copy t id i) {host : Host} (hfresh : host.requestsOf id = [])
    (memory : σ) (p : Position) : (⟨i, host, memory⟩ : Scene σ).requestsAt p = [] := by
  rw [requestsAt, h.requests_eq_nil hfresh, List.filter_nil]

/-- `Flow` holds of a copy with a fresh id. -/
theorem flow (h : Copy t id i) {host : Host} (hfresh : host.requestsOf id = []) (memory : σ) :
    Flow t i.home ⟨i, host, memory⟩ where
  jobs r hr := by
    rw [h.requests_eq_nil hfresh] at hr
    exact absurd hr List.not_mem_nil
  standbys b hb := by
    rw [h.standbys_eq] at hb
    exact absurd hb List.not_mem_nil
  attended l hl := by
    rw [h.listeners_eq] at hl
    exact absurd hl List.not_mem_nil
  once y _ _ := by
    rw [h.requestsAt_eq_nil hfresh]
    exact Nat.zero_le 1
  spent y _ _ hne := absurd (h.requestsAt_eq_nil hfresh memory _) hne
  calm y _ _ _ f hf := by rw [h.flight?_eq _ f hf]
  recorded y hy e he := h.isSome_flight? (h.single_of_home he) hy

theorem opened (h : Copy t id i) {host : Host} (hfresh : host.requestsOf id = []) (memory : σ) :
    Opened t i.home i t.placeholders ⟨i, host, memory⟩ where
  flow := h.flow hfresh memory
  tree := SameContents.refl i
  status := h.status_eq
  started y hy :=
    ⟨fun hne => absurd (h.requestsAt_eq_nil hfresh memory _) hne, fun hy' => absurd hy hy'.1⟩
  standby y _ := by rw [Instance.standby?, h.standbys_eq, List.find?_nil]
  unended r hr := by
    rw [h.requests_eq_nil hfresh] at hr
    exact absurd hr List.not_mem_nil
  running y _ e _ := by
    -- neither side holds: no record says that anything runs
    rw [h.requestsAt_eq_nil hfresh, Instance.isRunning_eq]
    cases hf : i.flight? y.position with
    | none => simp
    | some f =>
      rw [h.flight?_eq _ f hf]
      simp

end Copy

theorem Opened.allSettled (h : Opened t home i [] s) (ht : t.Housed home) : AllSettled t s := by
  intro x hx hone hne
  have himmediate := ((h.started x hx).mp hne).2
  rw [ht.deferred_of_one x hx hone] at himmediate
  exact absurd himmediate (by simp)

/-- What is planned is a copy `i` of the template and `plans` for its placeholders. -/
theorem eq_ok_of_planInstance {id : Nat} {plans : List Plan}
    (h : t.planInstance given id = .ok (i, plans)) :
    Instance.ofTemplate t id = .ok i ∧ i.planAll given t.placeholders = .ok plans := by
  unfold Template.planInstance at h
  split at h
  · exact absurd h (by simp)
  · split at h
    · exact absurd h (by simp)
    · rename_i i' hcopy
      obtain ⟨plans', hplans, h⟩ := exists_of_bind_eq_ok h
      obtain ⟨rfl, rfl⟩ := Prod.mk.inj (Except.ok.inj h)
      exact ⟨hcopy, hplans⟩

/-- An instance that was made is a copy `i` for which all `plans` were made and carried out. -/
theorem exists_plans {given : InstanceOptions} {id : Nat} {host host' : Host} {memory memory' : σ}
    {inst : Instance}
    (hrun : (t.instantiate observe given id).run (host, memory) = .ok inst (host', memory')) :
    ∃ i plans, Instance.ofTemplate t id = .ok i ∧ i.planAll given t.placeholders = .ok plans ∧
      (carryOutAll observe plans).run ⟨i, host, memory⟩ = .ok () ⟨inst, host', memory'⟩ := by
  unfold Template.instantiate at hrun
  simp only [EStateM.run] at hrun
  split at hrun
  · exact absurd hrun (by simp)
  · rename_i i plans hplan
    obtain ⟨hcopy, hplans⟩ := eq_ok_of_planInstance hplan
    split at hrun
    · rename_i s hcarry
      injection hrun with hinst hrest
      obtain ⟨rfl, rfl⟩ := Prod.mk.inj hrest
      subst hinst
      exact ⟨i, plans, hcopy, hplans, hcarry⟩
    · exact absurd hrun (by simp)

/-- An instance that was made is `Opened`: it has a request for each placeholder without a trigger,
and no others. -/
theorem opened_instantiate {given : InstanceOptions} {id : Nat} {host host' : Host}
    {memory memory' : σ} {inst : Instance} (hnodup : (t.placeholders.map (·.position)).Nodup)
    (hone : ∀ x ∈ t.placeholders, x.mode = .one → x.isDeferred = true)
    (hfresh : host.requestsOf id = [])
    (hrun : (t.instantiate observe given id).run (host, memory) = .ok inst (host', memory')) :
    ∃ i, Copy t id i ∧ t.Housed i.home ∧
      Opened t i.home i [] ⟨inst, host', memory'⟩ := by
  obtain ⟨i, plans, htemplate, hplans, hcarry⟩ := exists_plans hrun
  obtain ⟨hfits, hhome⟩ := Instance.forall₂_planAll hplans
  have hcopy := copy_ofTemplate htemplate
  have ht : t.Housed i.home := ⟨hnodup, hone, hcopy.single_eq ▸ hhome⟩
  exact ⟨i, hcopy, ht, opened_carryOutAll ht hfits (fun _ hy => hy) (List.Nodup.of_map _ hnodup)
    (hcopy.opened hfresh memory) hcarry⟩

/-! ### Runs -/

/-- What has to be shown of a property for it to hold after every run. It can depend on where
responses go and on the responses so far. -/
structure Invariant (observe : Observer σ) (t : Template)
    (P : (Position → Destination) → List (Position × Response) → Scene σ → Prop) : Prop where
  opened : ∀ {id i s}, Copy t id i → t.Housed i.home → Opened t i.home i [] s → P i.home [] s
  fire : ∀ {home responses s} p, t.Housed home → Flow t home s →
    Quiet t s (stateAfter (fire observe p) s) → P home responses s →
    P home responses (stateAfter (fire observe p) s)
  turn : ∀ {home responses s id task}, t.Housed home → Flow t home s → (id, task) ∈ s.requests →
    P home responses s →
    P home (responses ++ (s.answer? task).toList.map fun r => (task.job.position, r))
      (s.turn observe id task)
  elsewhere : ∀ {home responses s} host memory pending, s.host.SameRequests s.inst.id host →
    P home responses s → P home responses ⟨{ s.inst with pending }, host, memory⟩

/-- An invariant holds after every run, together with `Flow`. -/
theorem Invariant.of_run
    {P : (Position → Destination) → List (Position × Response) → Scene σ → Prop}
    (hP : Invariant observe t P) {source : String} (hcompiled : Template.Compiled source t)
    (hobserve : Lawful observe) {responses : List (Position × Response)}
    (hrun : Run observe t responses s) :
    ∃ home, t.Housed home ∧ Flow t home s ∧ AllSettled t s ∧ P home responses s := by
  -- The flow is carried along, since what one step does to `P` is known only where the flow holds.
  induction hrun with
  | instantiate given id hfresh hmade =>
    obtain ⟨i, hcopy, ht, hopened⟩ :=
      opened_instantiate hcompiled.nodup hcompiled.deferred_of_one hfresh hmade
    exact ⟨i.home, ht, hopened.flow, hopened.allSettled ht, hP.opened hcopy ht hopened⟩
  | dispatch target event _ ih =>
    obtain ⟨home, ht, hflow, hsettled, h⟩ := ih
    obtain ⟨hflow₁, hquiet, h₁⟩ := flow_dispatch (hobserve.tame ht) ht
      (fun p _ hflow hquiet h => hP.fire p ht hflow hquiet h) hflow h target event
    exact ⟨home, ht, hflow₁, hsettled.quiet hquiet, h₁⟩
  | turn id task _ hmem ih =>
    obtain ⟨home, ht, hflow, hsettled, h⟩ := ih
    obtain ⟨hflow₁, hsettled₁⟩ := flow_turn (hobserve.tame ht) hflow hsettled hmem
    exact ⟨home, ht, hflow₁, hsettled₁, hP.turn ht hflow hmem h⟩
  | @collect _ s _ ih =>
    obtain ⟨home, ht, hflow, hsettled, h⟩ := ih
    obtain ⟨hflow₁, hquiet⟩ := flow_elsewhere hflow rfl s.memory []
    exact ⟨home, ht, hflow₁, hsettled.quiet hquiet, hP.elsewhere s.host s.memory [] rfl h⟩
  | @elsewhere _ s host memory _ hhost ih =>
    obtain ⟨home, ht, hflow, hsettled, h⟩ := ih
    obtain ⟨hflow₁, hquiet⟩ := flow_elsewhere hflow hhost memory s.inst.pending
    exact ⟨home, ht, hflow₁, hsettled.quiet hquiet, hP.elsewhere host memory _ hhost h⟩

end Scene

end Inlay
