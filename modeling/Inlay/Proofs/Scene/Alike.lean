import Inlay.Proofs.Scene.Later

/-!
# Observers that do the same

Whether an observer reacts can depend on what it keeps. `Alike M observe other` says that two
observers do the same as long as what they keep is as `M` says, and that it stays so; then all steps
are the same with either of them. So `watching` is no different from an observer that only records
where it has been given no reactions (`alike_watching`).
-/

namespace Inlay.Scene

variable {σ : Type} {M : σ → Prop} {observe other : Observer σ} {s : Scene σ}

/-- The observers do the same to scenes with such a memory, and the memory stays like that. -/
structure Alike (M : σ → Prop) (observe other : Observer σ) : Prop where
  same : ∀ label n s, M s.memory → other label n s = observe label n s
  keeps : ∀ label n s, M s.memory → M (observe label n s).memory

namespace Alike

/-- What observers remember stays in `M`, whatever happens. -/
theorem persistent (h : Alike M observe other) :
    Persistent (fun s s' : Scene σ => M s.memory → M s'.memory) observe where
  refl _ hs := hs
  trans h h' hs := h' (h hs)
  told := h.keeps
  inst _ _ _ hs := hs
  phase _ _ _ hs := hs
  host _ _ _ hs := hs
  board _ _ _ _ hkept hs := hkept hs

/-- What `other` is told comes to the same as if `observe` were told it. -/
theorem notifyAll (h : Alike M observe other) (job : Job) : ∀ (ns : List Notification)
    {s : Scene σ}, M s.memory → s.notifyAll other job ns = s.notifyAll observe job ns
  | [], _, _ => rfl
  | n :: ns, s, hs => by
    have hfirst : s.notify other job n = s.notify observe job n := by
      unfold notify
      split
      · exact h.same _ n s hs
      · rfl
    have hs' : M (s.notify observe job n).memory := h.persistent.notifyAll job [n] s hs
    have hrest := h.notifyAll job ns hs'
    unfold Scene.notifyAll at hrest ⊢
    rw [List.foldl_cons, List.foldl_cons, hfirst, hrest]

theorem changeStatus (h : Alike M observe other) (job : Job) (code : Nat) (hs : M s.memory) :
    s.changeStatus other job code = s.changeStatus observe job code := by
  unfold Scene.changeStatus
  split
  · rfl
  · have hset : M (s.mapInst (·.setStatus job code)).memory := hs
    exact h.notifyAll job [.status code job.shownPosition] hset

/-! ### Events -/

theorem launch (h : Alike M observe other) (job : Job) (hs : M s.memory) :
    (launch other job).run s = (launch observe job).run s := by
  cases hvalid : Options.validateHeaders job.options.headers with
  | error error => rw [run_launch_of_invalid other hvalid, run_launch_of_invalid observe hvalid]
  | ok _ =>
    have hequipped : M (s.equipped job).memory := hs
    cases hgrants : s.host.signals.grants job.options with
    | false =>
      rw [run_launch_of_overflow other hvalid hgrants,
        run_launch_of_overflow observe hvalid hgrants]
    | true =>
      rw [run_launch other hvalid hgrants, run_launch observe hvalid hgrants,
        h.changeStatus job 0 hequipped]

theorem fire (h : Alike M observe other) (p : Position) (hs : M s.memory) :
    (fire other p).run s = (fire observe p).run s := by
  unfold Scene.fire
  rw [run_bind_of_ok (EStateM.run_get ..), run_bind_of_ok (EStateM.run_get ..)]
  cases s.inst.standby? p with
  | none => rfl
  | some b =>
    simp only
    rw [run_bind_of_ok (EStateM.run_get ..), run_bind_of_ok (EStateM.run_get ..)]
    split
    · rfl
    · rw [EStateM.run_bind, EStateM.run_bind, h.launch b.job hs]

theorem fireAll (h : Alike M observe other) : ∀ (ps : List Position) {s : Scene σ}, M s.memory →
    (fireAll other ps).run s = (fireAll observe ps).run s
  | [], _, _ => rfl
  | p :: ps, s, hs => by
    have hs' := h.persistent.fire p s hs
    unfold Scene.fireAll
    rw [EStateM.run_bind, EStateM.run_bind, h.fire p hs]
    cases hrun : (Scene.fire observe p).run s with
    | error f s₁ => rfl
    | ok fired s₁ =>
      rw [stateAfter_of_ok hrun] at hs'
      simp only
      rw [EStateM.run_bind, EStateM.run_bind, h.fireAll ps hs']

/-- An event is the same with `other` as with `observe`. -/
theorem dispatch (h : Alike M observe other) (target : NodeId) (event : String)
    (hs : M s.memory) :
    (dispatch other target event).run s = (dispatch observe target event).run s := by
  unfold Scene.dispatch
  rw [run_bind_of_ok (EStateM.run_get ..), run_bind_of_ok (EStateM.run_get ..)]
  exact h.fireAll _ hs

/-! ### Turns -/

theorem receive (h : Alike M observe other) (id : TaskId) (job : Job) (r : Response)
    (hs : M s.memory) : s.receive other id job r = s.receive observe id job r := by
  have hs₁ := h.persistent.changeStatus job r.status s hs
  unfold Scene.receive
  rw [h.changeStatus job r.status hs]
  simp only
  split
  · cases (Instance.insertResponse job r.body).run (s.changeStatus observe job r.status).inst with
    | error cause j => rfl
    | ok ns j =>
      have hs₂ : M ({ s.changeStatus observe job r.status with inst := j } : Scene σ).memory := hs₁
      simp only
      rw [h.notifyAll job ns hs₂]
  · rfl

/-- A turn is the same with `other` as with `observe`. -/
theorem turn (h : Alike M observe other) (id : TaskId) (task : Task) (hs : M s.memory) :
    s.turn other id task = s.turn observe id task := by
  -- until the response is used only the host changes
  have hreceive : ∀ (host : Host) (r : Response),
      ({ s with host } : Scene σ).receive other id task.job r =
        ({ s with host } : Scene σ).receive observe id task.job r := fun host r =>
    h.receive id task.job r hs
  obtain ⟨signals, -, hlook⟩ := lookAtSignal_eq task s
  unfold Scene.turn
  split
  · rfl
  · cases hsignal : s.lookAtSignal task with
    | mk reason s₁ =>
      rw [hsignal] at hlook
      obtain rfl : s₁ = _ := hlook
      cases reason with
      | some reason => rfl
      | none =>
        cases task.phase with
        | ended result => rfl
        | waiting due r => simp only [hreceive]
        | started =>
          simp only [ask]
          cases s.host.transport.fetch task.request with
          | mk answer transport =>
            cases answer with
            | error cause => rfl
            | ok reply =>
              simp only [mapHost]
              rw [hreceive]

/-! ### A new instance -/

theorem carryOut (h : Alike M observe other) (plan : Plan) (hs : M s.memory) :
    (carryOut other plan).run s = (carryOut observe plan).run s := by
  cases plan with
  | start job => exact h.launch job hs
  | standBy => rfl

theorem memory_carryOut (h : Alike M observe other) (plan : Plan) (hs : M s.memory) :
    M (stateAfter (Scene.carryOut observe plan) s).memory := by
  cases plan with
  | standBy => exact hs
  | start job =>
    change M (stateAfter (Scene.launch observe job) s).memory
    obtain ⟨f, host, -, hfailed⟩ | ⟨request, host, -, -, hrun⟩ := launch_cases observe job s
    · rwa [stateAfter_of_error hfailed]
    · rw [stateAfter_of_ok hrun]
      exact h.persistent.changeStatus job 0 { s with host } hs

theorem carryOutAll (h : Alike M observe other) : ∀ (plans : List Plan) {s : Scene σ},
    M s.memory → (carryOutAll other plans).run s = (carryOutAll observe plans).run s
  | [], _, _ => rfl
  | plan :: plans, s, hs => by
    have hs' := h.memory_carryOut plan hs
    unfold Scene.carryOutAll
    rw [EStateM.run_bind, EStateM.run_bind, h.carryOut plan hs]
    cases hrun : (Scene.carryOut observe plan).run s with
    | error f s₁ => rfl
    | ok _ s₁ =>
      rw [stateAfter_of_ok hrun] at hs'
      exact h.carryOutAll plans hs'

/-- Making an instance is the same with `other` as with `observe`. -/
theorem instantiate (h : Alike M observe other) (t : Template) (given : InstanceOptions) (id : Nat)
    (host : Host) {memory : σ} (hs : M memory) :
    (t.instantiate other given id).run (host, memory) =
      (t.instantiate observe given id).run (host, memory) := by
  unfold Template.instantiate
  simp only [EStateM.run]
  cases t.planInstance given id with
  | error failure => rfl
  | ok made =>
    obtain ⟨inst, plans⟩ := made
    have hcarry := h.carryOutAll plans (show M (Scene.mk inst host memory).memory from hs)
    simp only [EStateM.run] at hcarry
    simp only [hcarry]

end Alike

/-! ### No reactions -/

/-- With `reactions = []` the observer of a session only records. -/
theorem watching_of_no_reactions (depth : Nat) (label : String) (n : Notification)
    {s : Scene Watch} (hs : s.memory.reactions = []) :
    watching depth label n s = s.record label n := by
  cases depth with
  | zero => rfl
  | succ depth =>
    have hnone : (s.record label n).memory.reactionsOf (s.record label n).inst.id label = [] := by
      change (s.memory.reactions.lookup _).getD [] = []
      rw [hs]
      rfl
    unfold watching
    simp only [hnone, List.length_nil, List.range_zero, List.foldl_nil]

/-- While `reactions = []`, `watching depth` is `Alike` with `watching 0`. -/
theorem alike_watching (depth : Nat) :
    Alike (fun w : Watch => w.reactions = []) (watching 0) (watching depth) where
  same label n _ hs := watching_of_no_reactions depth label n hs
  keeps _ _ _ hs := hs

/-- The observer of depth `0` only records. -/
theorem recording_watching : Recording (watching 0) :=
  fun _ _ _ => ⟨_, rfl⟩

end Inlay.Scene
