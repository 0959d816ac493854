import Inlay.Proofs.Scene.Spans

/-!
# What an instance shows

`tree?_of_run`: after every run the tree of an instance is that of its template in which each
placeholder has given way to what the last success for it brought.
-/

namespace Inlay.Scene

variable {σ : Type} {t : Template} {home : Position → Destination} {copy : Instance} {tree : Tree}
  {s s' : Scene σ} {observe : Observer σ} {responses : List (Position × Response)} {id : TaskId}
  {task : Task}

/-- The placeholder has had requests, and all of them have ended. -/
def Served (s : Scene σ) (p : Position) : Prop :=
  s.requestsAt p ≠ [] ∧ s.unfinished p = []

/-- The outputs so far are in the tree, and a placeholder that takes only one is not asked for again
when it has it. -/
structure Displays (t : Template) (home : Position → Destination) (copy : Instance) (tree : Tree)
    (responses : List (Position × Response)) (s : Scene σ) : Prop where
  standing : ∃ spots, Standing t home tree (t.outputs responses) spots s.inst ∧
    Spans t copy (t.outputs responses) spots s.inst
  served : ∀ x ∈ t.placeholders, x.isTracked = false → t.outputs responses x.position ≠ none →
    s.Served x.position

/-! ### Requests that have ended -/

/-- In what is `Quiet` a placeholder that takes one output gets no second request. -/
theorem Quiet.requestsAt_eq (h : Quiet t s s') {x : Placeholder} (hx : x ∈ t.placeholders)
    (htracked : x.isTracked = false) (hne : s.requestsAt x.position ≠ []) :
    s'.requestsAt x.position = s.requestsAt x.position := by
  rcases h.requests x hx htracked with he | ⟨hnil, -⟩
  · exact he
  · exact absurd hnil hne

theorem Served.congr {p : Position} (h : s.Served p) (he : s'.requestsAt p = s.requestsAt p) :
    s'.Served p := by
  rwa [Served, unfinished, he]

theorem Served.quiet (h : Quiet t s s') {x : Placeholder} (hx : x ∈ t.placeholders)
    (htracked : x.isTracked = false) (hs : s.Served x.position) : s'.Served x.position :=
  hs.congr (h.requestsAt_eq hx htracked hs.1)

/-- When the only request of `p` that goes on ends, `p` is served. -/
theorem served_finish {p : Position} (hne : s.requestsAt p ≠ [])
    (h : ∀ r ∈ s.unfinished p, r.1 = id) (job : Job) (result : Except RequestError Unit) :
    (s.finish id job result).Served p := by
  refine ⟨?_, unfinished_finish h job result⟩
  rw [requestsAt_finish, ne_eq, List.map_eq_nil_iff]
  exact hne

theorem Served.finish {p : Position} (h : s.Served p) (id : TaskId) (job : Job)
    (result : Except RequestError Unit) : (s.finish id job result).Served p :=
  served_finish h.1 (fun _ hr => absurd (h.2 ▸ hr) List.not_mem_nil) job result

theorem Served.wait {p : Position} (h : s.Served p) (hmem : (id, task) ∈ s.requests)
    (hunended : task.isEnded = false) (due : Nat) (r : Response) :
    (s.mapHost (·.setPhase id (.waiting due r))).Served p := by
  constructor
  · rw [requestsAt_setPhase, ne_eq, List.map_eq_nil_iff]
    exact h.1
  · rw [unfinished_wait hmem hunended, h.2, List.map_nil]

/-! ### Steps that leave the tree alone -/

namespace Displays

/-- Responses with the same `t.outputs` are displayed alike. -/
theorem congr (h : Displays t home copy tree responses s) {responses' : List (Position × Response)}
    (he : t.outputs responses' = t.outputs responses) : Displays t home copy tree responses' s := by
  obtain ⟨hstanding, hserved⟩ := h
  rw [← he] at hstanding hserved
  exact ⟨hstanding, hserved⟩

theorem quiet (h : Displays t home copy tree responses s) (hquiet : Quiet t s s') :
    Displays t home copy tree responses s' where
  standing := by
    obtain ⟨spots, hstanding, hspans⟩ := h.standing
    exact ⟨spots, hstanding.sameTree hquiet.tree.toSameTree, hspans.sameContents hquiet.tree⟩
  served x hx htracked hne := (h.served x hx htracked hne).quiet hquiet hx htracked

theorem finish (h : Displays t home copy tree responses s) (id : TaskId) (job : Job)
    (result : Except RequestError Unit) :
    Displays t home copy tree responses (s.finish id job result) where
  standing := by
    obtain ⟨spots, hstanding, hspans⟩ := h.standing
    have hsame := sameContents_finish s id job result
    exact ⟨spots, hstanding.sameTree hsame.toSameTree, hspans.sameContents hsame⟩
  served x hx htracked hne := (h.served x hx htracked hne).finish id job result

theorem wait (h : Displays t home copy tree responses s) (hmem : (id, task) ∈ s.requests)
    (hunended : task.isEnded = false) (due : Nat) (r : Response) :
    Displays t home copy tree responses (s.mapHost (·.setPhase id (.waiting due r))) where
  standing := h.standing
  served x hx htracked hne := (h.served x hx htracked hne).wait hmem hunended due r

end Displays

/-! ### A response -/

/-- A success changes the arena by `insertResponse`, and any other response leaves it alone. -/
theorem arena_receive (hobserve : Tame t home observe) (h : Flow t home s)
    (hmem : (id, task) ∈ s.requests) (r : Response) :
    (s.receive observe id task.job r).inst.arena =
      if isSuccess r.status then (stateAfter (Instance.insertResponse task.job r.body)
        (s.changeStatus observe task.job r.status).inst).arena
      else s.inst.arena := by
  obtain ⟨h₁, hquiet₁⟩ :=
    flow_changeStatus hobserve h task.job r.status (Or.inl (requestsAt_ne_nil hmem))
  have hreceived := received_receive observe id task.job r s
  generalize s.receive observe id task.job r = s' at hreceived ⊢
  generalize s.changeStatus observe task.job r.status = s₁ at hreceived h₁ hquiet₁ ⊢
  cases hreceived with
  | refused hfailure =>
    rw [if_neg (by simp [hfailure])]
    exact (sameContents_setRunning _ task.job false).arena_eq.trans hquiet₁.tree.arena_eq
  | failed cause j hsuccess hrun =>
    rw [if_pos hsuccess, stateAfter_of_error hrun]
    exact (sameContents_setRunning _ task.job false).arena_eq
  | inserted ns j hsuccess hrun hreworked =>
    rw [if_pos hsuccess, stateAfter_of_ok hrun]
    obtain ⟨-, hquiet₂⟩ := flow_notifyAll hobserve task.job ns (flow_of_reworked h₁ hreworked)
    exact (sameContents_setRunning _ task.job false).arena_eq.trans hquiet₂.tree.arena_eq

/-- A placeholder that takes one output has `outputs = none` while its request goes on. -/
theorem Displays.outputs_eq_none (h : Displays t home copy tree responses s)
    (hmem : (id, task) ∈ s.requests) (hunended : task.isEnded = false) {x : Placeholder}
    (hx : x ∈ t.placeholders) (hjob : x.Describes home task.job) (htracked : x.isTracked = false) :
    t.outputs responses x.position = none := by
  by_contra hsome
  have hnil := (h.served x hx htracked hsome).2
  have hunfinished := mem_unfinished hmem hunended
  rw [hjob.position, hnil] at hunfinished
  exact absurd hunfinished List.not_mem_nil

/-- A placeholder with `isTracked = false` is served when its request ends. -/
theorem served_self (hflow : Flow t home s) (hmem : (id, task) ∈ s.requests) {x : Placeholder}
    (hx : x ∈ t.placeholders) (hjob : x.Describes home task.job) (htracked : x.isTracked = false)
    (hat : s'.requestsAt x.position = s.requestsAt x.position)
    (result : Except RequestError Unit) : (s'.finish id task.job result).Served x.position := by
  have hr : (id, task) ∈ s.requestsAt x.position :=
    List.mem_filter.mpr ⟨hmem, decide_eq_true hjob.position⟩
  rw [← hat] at hr
  have hlength := hflow.once x hx htracked
  rw [← hat] at hlength
  refine served_finish (List.ne_nil_of_mem hr) (fun r' hr' => ?_) task.job result
  rw [← eq_of_length_le_one hlength hr (List.mem_of_mem_filter hr')]

/-- A success updates the outputs at `x.position`. -/
theorem outputs_received (ht : t.Housed home) {x : Placeholder} (hx : x ∈ t.placeholders)
    {job : Job} (hjob : x.Describes home job) {r : Response} (hsuccess : isSuccess r.status = true)
    (responses : List (Position × Response)) : t.outputs (responses ++ [(job.position, r)]) =
      Function.update (t.outputs responses) x.position (some (outputTrees job.tracked r.body)) := by
  rw [Template.outputs_append_of_success hsuccess, hjob.position, hjob.tracked,
    Template.tracks_of_mem ht.nodup hx]

/-- With the response of a turn at the end, `responses` are displayed. -/
theorem displays_receive (hobserve : Tame t home observe) (ht : t.Housed home)
    (hsingle : t.single = false) (hflow : Flow t home s) (h : Displays t home copy tree responses s)
    (hmem : (id, task) ∈ s.requests) (hunended : task.isEnded = false) (r : Response)
    (hfit : (s.receive observe id task.job r).inst.arena.Fits) :
    Displays t home copy tree (responses ++ [(task.job.position, r)])
      (s.receive observe id task.job r) := by
  obtain ⟨x, hx, hjob⟩ := hflow.jobs _ hmem
  obtain ⟨e, he⟩ := ht.home_element x hx (Or.inl hsingle)
  obtain ⟨hflow₁, hquiet₁⟩ :=
    flow_changeStatus hobserve hflow task.job r.status (Or.inl (requestsAt_ne_nil hmem))
  have h₁ := h.quiet hquiet₁
  rw [arena_receive hobserve hflow hmem] at hfit
  have hreceived := received_receive observe id task.job r s
  -- Only the tree between the change of status and the end of the task is of interest.
  generalize s.receive observe id task.job r = s' at hreceived ⊢
  generalize s.changeStatus observe task.job r.status = s₁ at hreceived hflow₁ hquiet₁ h₁ hfit
  obtain ⟨spots, hstanding, hspans⟩ := h₁.standing
  obtain ⟨parent, last, hheld⟩ :=
    hstanding.held hx hjob he (h.outputs_eq_none hmem hunended hx hjob)
  have hspec : (stateAfter (Instance.insertResponse task.job r.body) s₁.inst).arena.Fits → _ :=
    Instance.insertResponse_spec hstanding.sound (hjob.destination.trans he) hheld
  cases hreceived with
  | refused hfailure =>
    exact (h₁.finish id task.job _).congr
      (Template.outputs_append_of_failure hfailure t responses _)
  | failed cause j hsuccess hrun =>
    rw [if_pos hsuccess] at hfit
    -- With room in the arena the insertion cannot fail.
    obtain ⟨ns, j', news, hrun', -⟩ := hspec hfit
    rw [hrun'] at hrun
    exact absurd hrun (by simp)
  | inserted ns j hsuccess hrun hreworked =>
    rw [if_pos hsuccess] at hfit
    obtain ⟨ns', j', news, hrun', hanswered⟩ := hspec hfit
    rw [hrun'] at hrun
    injection hrun with hns hj
    subst hns hj
    have hbooks := sameBooks_of_reworked hreworked
    obtain ⟨-, hquiet₂⟩ := flow_notifyAll hobserve task.job ns' (flow_of_reworked hflow₁ hreworked)
    generalize ({ s₁ with inst := j' }).notifyAll observe task.job ns' = s₂ at hquiet₂ ⊢
    have houtputs := outputs_received ht hx hjob hsuccess responses
    have hsame := hquiet₂.tree.trans (sameContents_finish s₂ id task.job (.ok ()))
    have hrecord : (s₁.inst.record? task.job.position).isSome := by
      have hflight := hflow₁.recorded x hx e he
      rwa [Instance.flight?, Option.isSome_map, ← hjob.position] at hflight
    refine ⟨⟨Function.update spots x.position news, ?_, ?_⟩, fun y hy htracked hsome => ?_⟩
    · rw [houtputs]
      exact (hstanding.answered ht hx hjob hheld hanswered).sameTree hsame.toSameTree
    · rw [houtputs]
      exact (hspans.answered_of hstanding ht hx hjob hheld hanswered hrecord).sameContents hsame
    · rw [houtputs] at hsome
      -- The placeholder answered is served by this response, any other one as before.
      by_cases hyx : y = x
      · subst hyx
        have hne : s.requestsAt y.position ≠ [] := hjob.position ▸ requestsAt_ne_nil hmem
        have hat₁ := hquiet₁.requestsAt_eq hy htracked hne
        have hat : ({ s₁ with inst := j' } : Scene σ).requestsAt y.position
            = s.requestsAt y.position := (hbooks.requestsAt_eq _).trans hat₁
        have hat₂ := hquiet₂.requestsAt_eq hy htracked (hat ▸ hne)
        exact served_self hflow hmem hy hjob htracked (hat₂.trans hat) _
      · rw [Function.update_of_ne fun hp => hyx (ht.eq_of_position hy hx hp)] at hsome
        have hserved := (h₁.served y hy htracked hsome).congr (hbooks.requestsAt_eq y.position)
        exact (hserved.quiet hquiet₂ hy htracked).finish id task.job _

/-! ### Runs -/

/-- After a turn `responses` are displayed, with what the turn used at their end. -/
theorem displays_turn (hobserve : Tame t home observe) (ht : t.Housed home)
    (hsingle : t.single = false) (hflow : Flow t home s) (h : Displays t home copy tree responses s)
    (hmem : (id, task) ∈ s.requests) (hfit : (s.turn observe id task).inst.arena.Fits) :
    Displays t home copy tree
      (responses ++ (s.answer? task).toList.map fun r => (task.job.position, r))
      (s.turn observe id task) := by
  have hturned := turned_turn observe id task s
  -- A turn first writes to the host alone, which the tree and the flow do not notice.
  have hhost : ∀ {host : Host}, host.tasks = s.host.tasks → Flow t home { s with host } ∧
      Displays t home copy tree responses { s with host } ∧
        (id, task) ∈ ({ s with host } : Scene σ).requests := fun hhost => by
    obtain ⟨hflow₁, hquiet⟩ := flow_of_tasks hflow hhost
    exact ⟨hflow₁, h.quiet hquiet, by rwa [(sameBooks_of_tasks s hhost).requests_eq]⟩
  have hnone : s.answer? task = none →
      responses ++ ((s.answer? task).toList.map fun r => (task.job.position, r)) = responses :=
    fun hanswer => by rw [hanswer, Option.toList_none, List.map_nil, List.append_nil]
  generalize s.turn observe id task = s' at hturned hfit ⊢
  cases hturned with
  | received host r htasks hunended hanswer =>
    obtain ⟨hflow₁, h₁, hmem₁⟩ := hhost htasks
    rw [hanswer]
    exact displays_receive hobserve ht hsingle hflow₁ h₁ hmem₁ hunended r hfit
  | finished host error htasks hunended hanswer =>
    rw [hnone hanswer]
    exact (hhost htasks).2.1.finish id task.job _
  | asked host due r htasks hunended hanswer =>
    obtain ⟨-, h₁, hmem₁⟩ := hhost htasks
    rw [hnone hanswer]
    exact h₁.wait hmem₁ hunended due r
  | idle host htasks hanswer =>
    rw [hnone hanswer]
    exact (hhost htasks).2.1

/-- After every run whose arena `Fits`, `responses` are displayed. -/
theorem invariant_displays {source : String} (hcompiled : Template.Compiled source t)
    (hsingle : t.single = false) (htemplate : t.arena.Fits) (hobserve : Lawful observe) :
    Invariant observe t fun home responses s => s.inst.arena.Fits →
      ∃ copy tree, Instance.ofTemplate t s.inst.id = .ok copy ∧ t.arena.tree? t.root = some tree ∧
        Displays t home copy tree responses s where
  opened hcopy ht hopened hfit := by
    rw [hopened.tree.arena_eq] at hfit
    obtain ⟨tree, spots, htree, hstanding⟩ := hcopy.standing hcompiled htemplate hsingle ht hfit
    have hspans := (hcopy.spans hstanding).sameContents hopened.tree
    refine ⟨_, tree, ?_, htree, ⟨spots, hstanding.sameTree hopened.tree.toSameTree, hspans⟩,
      fun _ _ _ hne => absurd rfl hne⟩
    rw [hopened.tree.id_eq, hcopy.id_eq, hcopy.made]
  fire p _ _ hquiet h hfit := by
    rw [hquiet.tree.arena_eq] at hfit
    obtain ⟨copy, tree, hmade, htree, hdisplays⟩ := h hfit
    rw [hquiet.tree.id_eq]
    exact ⟨copy, tree, hmade, htree, hdisplays.quiet hquiet⟩
  turn ht hflow hmem h hfit := by
    have hobserve' := hobserve.tame ht
    obtain ⟨copy, tree, hmade, htree, hdisplays⟩ :=
      h (hfit.mono (size_le_turn hobserve' hflow hmem))
    rw [id_turn hobserve' hflow hmem]
    exact ⟨copy, tree, hmade, htree,
      displays_turn hobserve' ht hsingle hflow hdisplays hmem hfit⟩
  elsewhere host memory pending hhost h hfit := by
    obtain ⟨copy, tree, hmade, htree, hdisplays⟩ := h hfit
    have hbooks : SameBooks _ ⟨{ Scene.inst _ with pending }, host, memory⟩ := ⟨hhost, rfl, rfl⟩
    exact ⟨copy, tree, hmade, htree, hdisplays.quiet (hbooks.quiet_of_flight (fun _ => rfl)
      ⟨⟨rfl, rfl, rfl, rfl⟩, rfl, fun _ => rfl⟩)⟩

/-- **After every run the tree of an instance is that of its template with each placeholder replaced
by what the last success for it brought.** -/
theorem tree?_of_run {source : String} {ds ds' : List Diagnostic}
    (hcompile : (Template.compile source).run ds = .ok t ds') (hsingle : t.single = false)
    (htemplate : t.arena.Fits) (hobserve : Lawful observe) (hrun : Run observe t responses s)
    (hfit : s.inst.arena.Fits) :
    ∃ tree, t.arena.tree? t.root = some tree ∧
      s.inst.arena.tree? s.inst.root = some (tree.filled (t.outputs responses)) := by
  have hcompiled := Template.compiled_compile hcompile
  obtain ⟨home, -, -, -, h⟩ :=
    (invariant_displays hcompiled hsingle htemplate hobserve).of_run hcompiled hobserve hrun
  obtain ⟨copy, tree, -, htree, ⟨spots, hstanding, -⟩, -⟩ := h hfit
  exact ⟨tree, htree, hstanding.laid.shows.tree? hstanding.sound.forest⟩

/-- The only placeholder of a template has given way to its response. -/
theorem tree?_once_answered : ∃ (t : Template) (ds : List Diagnostic) (s : Scene Unit)
    (tree : Tree),
    (Template.compile "<i><request src=a></request></i>").run [] = .ok t ds ∧
    Run (fun _ _ s => s) t [(0, ⟨200, "b<script></script>"⟩)] s ∧
    s.inst.arena.html s.inst.root = "<i>b</i>" ∧ t.arena.tree? t.root = some tree ∧
    s.inst.arena.tree? s.inst.root =
      some (tree.filled (t.outputs [(0, ⟨200, "b<script></script>"⟩)])) := by
  obtain ⟨t, ds, s, hcompile, hrun, hsingle, htemplate, hfit, hhtml⟩ := exists_run_answered
  have hrecording : Recording fun _ _ (s : Scene Unit) => s := fun _ _ s => ⟨s.memory, rfl⟩
  obtain ⟨tree, htree, hshown⟩ :=
    tree?_of_run hcompile hsingle htemplate hrecording.lawful hrun hfit
  exact ⟨t, ds, s, tree, hcompile, hrun, hhtml, htree, hshown⟩

end Inlay.Scene
