import Inlay.Proofs.Scene.Handed
import Inlay.Proofs.Scene.Leak

/-!
# Errors that never come up

Some errors are there for what should not happen: that a placeholder has no element in the copied
tree, or that an operation on the tree is refused. `unfailing_of_compiled` shows that no template,
options, events and responses lead to one.

* Plans fail for the reasons that have to do with the options or with a trigger only
  (`not_internal_of_instantiate`).
* What waits for events has headers that were looked at in the beginning, so all that an event can
  fail of is a timeout that the clock cannot hold (`Booked.dispatch`).
* The place of a placeholder that still waits for a response is among the children of a node below
  the root (`anchored_of_run`), so the response can be put there (`unspoilt_turn`).
-/

namespace Inlay

/-- The error is none of the template, the options or the event. -/
def TemplateError.Internal : TemplateError → Prop
  | missingElement _ => True
  | tree _ => True
  | _ => False

def Failure.Internal : Failure → Prop
  | template error => error.Internal
  | arithmetic _ => False

/-! ### Options -/

namespace Options

variable {error : TemplateError}

theorem not_internal_of_validate {single : Bool} {given : InstanceOptions}
    (h : validate single given = .error error) : ¬ error.Internal := by
  unfold validate validateIds at h
  -- each way to be refused names an error about ids
  split at h
  · exact absurd h (by simp)
  · split at h
    · rw [← Except.error.inj h]
      exact not_false
    · split at h
      · rw [← Except.error.inj h]
        exact not_false
      · exact absurd h (by simp)

theorem not_internal_of_validateHeaders : ∀ {headers : List (String × String)},
    validateHeaders headers = .error error → ¬ error.Internal
  | [], h => absurd h (by simp [validateHeaders])
  | (name, value) :: rest, h => by
    unfold validateHeaders at h
    split at h
    · rw [← Except.error.inj h]
      exact not_false
    · split at h
      · rw [← Except.error.inj h]
        exact not_false
      · exact not_internal_of_validateHeaders h

theorem not_internal_of_choose {given : InstanceOptions} {x : Placeholder}
    (h : choose given x = .error error) : ¬ error.Internal := by
  unfold choose at h
  split at h
  · exact absurd h (by simp)
  · rw [← Except.error.inj h]
    exact not_false
  · exact absurd h (by simp)
  · split at h
    · exact absurd h (by simp)
    · rw [← Except.error.inj h]
      exact not_false

/-- An error that comes of the options of one placeholder is not `Internal`. -/
theorem not_internal_of_resolve {given : InstanceOptions} {x : Placeholder}
    (h : resolve given x = .error error) : ¬ error.Internal := by
  unfold resolve at h
  rcases cases_of_bind_eq_error h with h | ⟨options, -, h⟩
  · exact not_internal_of_choose h
  · rcases cases_of_bind_eq_error h with h | ⟨_, -, h⟩
    · exact not_internal_of_validateHeaders h
    · exact absurd h (by simp [pure, Except.pure])

end Options

/-! ### Plans -/

namespace Instance

variable {i : Instance} {given : InstanceOptions} {x : Placeholder} {failure : Failure}

theorem not_internal_of_jobOf {error : TemplateError} (hplace : ∃ d, i.destination x = .ok d)
    (h : i.jobOf given x = .error error) : ¬ error.Internal := by
  obtain ⟨d, hd⟩ := hplace
  unfold jobOf at h
  rcases cases_of_bind_eq_error h with h | ⟨options, -, h⟩
  · exact Options.not_internal_of_resolve h
  · rw [hd] at h
    exact absurd h (by simp [bind, Except.bind, pure, Except.pure])

/-- A trigger that finds no elements, or cannot be evaluated, is no error that is `Internal`. -/
theorem not_internal_of_triggerNodes {p : Position} {t : Trigger}
    (h : i.triggerNodes p t = .error failure) : ¬ failure.Internal := by
  unfold triggerNodes at h
  split at h
  · rw [← Except.error.inj h]
    exact not_false
  · rw [← Except.error.inj h]
    exact not_false
  · exact absurd h (by simp)

/-- A plan for a placeholder that has a destination `d` does not fail with an internal error. -/
theorem not_internal_of_plan (hplace : ∃ d, i.destination x = .ok d)
    (h : i.plan given x = .error failure) : ¬ failure.Internal := by
  unfold Instance.plan at h
  cases hjob : i.jobOf given x with
  | error e =>
    rw [hjob] at h
    rw [← Except.error.inj h]
    exact not_internal_of_jobOf hplace hjob
  | ok job =>
    rw [hjob] at h
    cases htrigger : x.trigger with
    | none =>
      simp only [htrigger] at h
      exact absurd h (by simp)
    | some t =>
      simp only [htrigger] at h
      rcases cases_of_bind_eq_error h with h | ⟨nodes, -, h⟩
      · exact not_internal_of_triggerNodes h
      · exact absurd h (by simp [pure, Except.pure])

/-- Plans for several placeholders, each with a destination `d`, do not either. -/
theorem not_internal_of_planAll : ∀ {xs : List Placeholder},
    (∀ x ∈ xs, ∃ d, i.destination x = .ok d) → i.planAll given xs = .error failure →
    ¬ failure.Internal
  | [], _, h => absurd h (by simp [planAll])
  | x :: xs, hplace, h => by
    have hothers : ∀ y ∈ xs, ∃ d, i.destination y = .ok d := fun y hy =>
      hplace y (List.mem_cons_of_mem x hy)
    unfold planAll at h
    rcases cases_of_bind_eq_error h with h | ⟨plan, -, h⟩
    · exact not_internal_of_plan (hplace x List.mem_cons_self) h
    · rcases cases_of_bind_eq_error h with h | ⟨plans, -, h⟩
      · exact not_internal_of_planAll hothers h
      · exact absurd h (by simp [pure, Except.pure])

end Instance

/-- If making an instance of a compiled template fails, its failure is not `Internal`. -/
theorem Template.not_internal_of_instantiate {σ : Type} {t : Template} {source : String}
    {ds ds' : List Diagnostic} (hcompile : (compile source).run ds = .ok t ds')
    (htemplate : t.arena.Fits) {observe : Observer σ} {given : InstanceOptions} {id : Nat}
    {host : Host} {memory : σ} {failure : Failure} {rest : Host × σ}
    (h : (t.instantiate observe given id).run (host, memory) = .error failure rest) :
    ¬ failure.Internal := by
  obtain ⟨i, -, hcopy, -⟩ := exists_copy hcompile htemplate id
  obtain ⟨hplan, -⟩ | rfl := Scene.planInstance_of_error h
  case inr => exact not_false
  unfold planInstance at hplan
  cases hvalid : Options.validate t.single given with
  | error e =>
    simp only [hvalid] at hplan
    rw [← Except.error.inj hplan]
    exact Options.not_internal_of_validate hvalid
  | ok _ =>
    simp only [hvalid, hcopy] at hplan
    rcases cases_of_bind_eq_error hplan with hplans | ⟨plans, -, hmade⟩
    · exact Instance.not_internal_of_planAll (exists_destination hcompile htemplate hcopy) hplans
    · exact absurd hmade (by simp [pure, Except.pure])

/-- The nodes in the place of a placeholder, whose element is or was `id`, stand below a live node
of the tree. -/
def Instance.Anchored (i : Instance) (job : Job) (id : NodeId) : Prop :=
  ∃ parent last olds, i.Held job id parent last olds ∧ i.arena.isLive parent ∧
    i.arena.Under i.root parent

/-- Every response to the job can be put into the tree, as long as there is an index for every
slot. -/
def Instance.Receives (i : Instance) (job : Job) : Prop :=
  ∀ body, (stateAfter (insertResponse job body) i).arena.Fits →
    ∃ ns j, (insertResponse job body).run i = .ok ns j

namespace Scene

variable {σ : Type} {t : Template} {given : InstanceOptions} {s s' : Scene σ} {observe : Observer σ}
  {responses : List (Position × Response)} {source : String} {id : TaskId} {task : Task}

/-! ### Events -/

/-- The clock cannot hold the deadline of something that waits for events. -/
def Overburdened (s : Scene σ) : Prop :=
  ∃ b ∈ s.inst.standbys, s.host.signals.grants b.job.options = false

/-- The step comes to a result, unless the clock cannot hold a deadline. -/
def Proceeds {α : Type} (m : SceneM σ α) (s : Scene σ) : Prop :=
  (∃ x s', m.run s = .ok x s') ∨
    ∃ s', m.run s = .error (.arithmetic .momentOverflow) s' ∧ s'.Overburdened

/-- If `m` proceeds and so does what follows its result, `m >>= f` does. -/
theorem Proceeds.bind {α β : Type} {m : SceneM σ α} {f : α → SceneM σ β} (hm : Proceeds m s)
    (hf : ∀ x s', m.run s = .ok x s' → Proceeds (f x) s') : Proceeds (m >>= f) s := by
  rcases hm with ⟨x, s', hrun⟩ | ⟨s', hrun, hover⟩
  · unfold Proceeds
    rw [run_bind_of_ok hrun]
    exact hf x s' hrun
  · exact Or.inr ⟨s', run_bind_of_error hrun f, hover⟩

/-- Launching what waits for events `Proceeds`, as its headers can be sent. -/
theorem Booked.launch (h : Booked t given s) (observe : Observer σ) {b : Standby}
    (hb : b ∈ s.inst.standbys) : Proceeds (launch observe b.job) s := by
  obtain ⟨x, -, hcommissions⟩ := h.standbys b hb
  have hvalid := Options.validateHeaders_of_resolve hcommissions.options
  cases hgrants : s.host.signals.grants b.job.options with
  | true => exact Or.inl ⟨_, _, run_launch observe hvalid hgrants⟩
  | false => exact Or.inr ⟨_, run_launch_of_overflow observe hvalid hgrants, b, hb, hgrants⟩

theorem Booked.fire (h : Booked t given s) (observe : Observer σ) (p : Position) :
    Proceeds (fire observe p) s := by
  unfold Scene.fire Proceeds
  rw [run_bind_of_ok (EStateM.run_get ..)]
  cases hb : s.inst.standby? p with
  | none => exact Or.inl ⟨false, s, rfl⟩
  | some b =>
    simp only
    rw [run_bind_of_ok (EStateM.run_get ..)]
    by_cases hrunning : s.inst.isRunning p = true
    · rw [if_pos hrunning]
      exact Or.inl ⟨false, _, rfl⟩
    · rw [if_neg hrunning]
      refine (h.launch observe (Instance.standby?_mem hb).1).bind fun _ s' _ => ?_
      by_cases hmode : b.mode = .one
      · rw [if_pos hmode]
        exact Or.inl ⟨true, _, rfl⟩
      · rw [if_neg hmode]
        exact Or.inl ⟨true, _, rfl⟩

/-- Firing several `Proceeds`, whatever observers do to those still to come. -/
theorem Booked.fireAll (hobserve : Lawful observe) : ∀ (ps : List Position) {s : Scene σ},
    Booked t given s → Proceeds (fireAll observe ps) s
  | [], s, _ => Or.inl ⟨0, s, rfl⟩
  | p :: ps, s, h => by
    unfold Scene.fireAll
    refine (h.fire observe p).bind fun fired s₁ hfirst => ?_
    have h₁ := (lasting_booked.lawful hobserve).fire p s h
    rw [stateAfter_of_ok hfirst] at h₁
    exact (Booked.fireAll hobserve ps h₁).bind fun n s₂ _ => Or.inl ⟨_, s₂, rfl⟩

theorem Booked.dispatch (hobserve : Lawful observe) (h : Booked t given s) (target : NodeId)
    (event : String) : Proceeds (dispatch observe target event) s := by
  unfold Scene.dispatch Proceeds
  rw [run_bind_of_ok (EStateM.run_get ..)]
  exact h.fireAll hobserve _

/-- A run is a history under the relation `fun _ _ => True` on what observers remember. -/
theorem Run.exists_history (h : Run observe t responses s) :
    ∃ given start sent, History observe t given (fun _ _ => True) start sent s := by
  induction h with
  | instantiate given id hfresh hmade =>
    exact ⟨given, _, [], .instantiate id hfresh hmade⟩
  | dispatch target event _ ih =>
    obtain ⟨given, start, sent, hhistory⟩ := ih
    exact ⟨given, start, sent, hhistory.dispatch target event⟩
  | turn id task _ hmem ih =>
    obtain ⟨given, start, sent, hhistory⟩ := ih
    exact ⟨given, start, _, hhistory.turn id task hmem⟩
  | collect _ ih =>
    obtain ⟨given, start, sent, hhistory⟩ := ih
    exact ⟨given, start, sent, hhistory.collect⟩
  | elsewhere host memory _ hhost ih =>
    obtain ⟨given, start, sent, hhistory⟩ := ih
    exact ⟨given, start, sent, hhistory.elsewhere host memory hhost trivial⟩

/-! ### Places -/

theorem exists_flow (hcompiled : Template.Compiled source t) (hobserve : Lawful observe)
    (hrun : Run observe t responses s) : ∃ home, t.Housed home ∧ Flow t home s := by
  have hnothing : Invariant observe t fun _ _ _ => True :=
    ⟨fun _ _ _ => trivial, fun _ _ _ _ _ => trivial, fun _ _ _ _ => trivial,
      fun _ _ _ _ _ => trivial⟩
  obtain ⟨home, ht, hflow, -, -⟩ := hnothing.of_run hcompiled hobserve hrun
  exact ⟨home, ht, hflow⟩

/-- If a request that goes on has `destination = .element e`, its place in any instance with the
same tree is `Anchored` below the root. -/
theorem anchored_of_run (hcompiled : Template.Compiled source t) (htemplate : t.arena.Fits)
    (hobserve : Lawful observe) (hrun : Run observe t responses s) (hfit : s.inst.arena.Fits)
    (hmem : (id, task) ∈ s.requests) (hunended : task.isEnded = false) {e : NodeId}
    (he : task.job.destination = .element e) {i : Instance} (hsame : SameTree s.inst i) :
    i.arena.Sound ∧ i.Anchored task.job e := by
  cases hsingle : t.single with
  | true =>
    obtain ⟨home, -, hflow, -, hwhole, -⟩ :=
      (invariant_tidy hcompiled hsingle htemplate hobserve).of_run hcompiled hobserve hrun
    obtain ⟨x, -, hjob⟩ := hflow.jobs _ hmem
    rw [hjob.destination, hwhole] at he
    exact absurd he (by simp)
  | false =>
    obtain ⟨home, ht, hflow, -, h⟩ :=
      (invariant_displays hcompiled hsingle htemplate hobserve).of_run hcompiled hobserve hrun
    obtain ⟨copy, tree, -, -, hdisplays⟩ := h hfit
    obtain ⟨spots, hstanding, -⟩ := hdisplays.standing
    obtain ⟨x, hx, hjob⟩ := hflow.jobs _ hmem
    have hafter := hstanding.sameTree hsame
    have hf := hafter.sound.forest
    -- a placeholder that takes only one output has none yet, for its request goes on
    obtain ⟨parent, last, hheld⟩ := hafter.held hx hjob (hjob.destination.symm.trans he)
      (hdisplays.outputs_eq_none hmem hunended hx hjob)
    have hlive : i.arena.isLive parent :=
      Arena.Up.parent_live hf (hheld.parent_eq last (List.mem_of_getLast? hheld.last))
    exact ⟨hafter.sound, parent, last, _, hheld, hlive, hf.under_of_only_top hafter.tops hlive⟩

/-- An instance with the same contents `Receives` the response of every request that goes on. -/
theorem receives_of_run (hcompiled : Template.Compiled source t) (htemplate : t.arena.Fits)
    (hobserve : Lawful observe) (hrun : Run observe t responses s) (hfit : s.inst.arena.Fits)
    (hmem : (id, task) ∈ s.requests) (hunended : task.isEnded = false) {i : Instance}
    (hsame : SameContents s.inst i) : i.Receives task.job := by
  intro body hfit'
  cases hdestination : task.job.destination with
  | element e =>
    obtain ⟨hsound, parent, last, olds, hheld, -, -⟩ := anchored_of_run hcompiled htemplate hobserve
      hrun hfit hmem hunended hdestination hsame.toSameTree
    obtain ⟨ns, j, news, hinserted, -⟩ :=
      Instance.insertResponse_spec hsound hdestination hheld hfit'
    exact ⟨ns, j, hinserted⟩
  | whole =>
    -- A request for the whole is made only where the root is the one placeholder.
    have hsingle : t.single = true := by
      obtain ⟨home, ht, hflow⟩ := exists_flow hcompiled hobserve hrun
      obtain ⟨x, hx, hjob⟩ := hflow.jobs _ hmem
      by_contra hsingle
      obtain ⟨e, he⟩ := ht.home_element x hx (Or.inl (Bool.eq_false_iff.mpr hsingle))
      rw [hjob.destination, he] at hdestination
      exact absurd hdestination (by simp)
    obtain ⟨home, -, -, -, -, h⟩ :=
      (invariant_tidy hcompiled hsingle htemplate hobserve).of_run hcompiled hobserve hrun
    have htidy := (h hfit).sameContents hsame
    obtain ⟨ns, j, fragment, hinserted, -⟩ := Instance.insertResponse_spec_of_whole htidy.sound
      hdestination (fun f hf => (htidy.fragment f hf).1.1) hfit'
    exact ⟨ns, j, hinserted⟩

/-! ### Requests that have ended -/

/-- No request has ended because its response could not be put into the tree. -/
def Unspoilt (s : Scene σ) : Prop :=
  ∀ r ∈ s.requests, ∀ cause, r.2.phase ≠ .ended (.error (.insertion cause))

theorem Unspoilt.of_requests (h : s.Unspoilt) (he : s'.requests = s.requests) : s'.Unspoilt := by
  rw [Unspoilt, he]
  exact h

/-- Events end no request, so they keep `Unspoilt`. -/
theorem enduring_unspoilt : Enduring fun s s' : Scene σ => s.Unspoilt → s'.Unspoilt where
  refl _ h := h
  trans h h' hs := h' (h hs)
  inst s _ hinst h := h.of_requests (congrArg s.host.requestsOf hinst.id_eq)
  board b request _ _ hsame h r hr cause := by
    rw [requests_board] at hr
    rcases List.mem_append.mp hr with hr | hr
    · exact hsame h r hr cause
    · rw [List.mem_singleton.mp hr]
      simp
  elsewhere _ _ _ hhost h := h.of_requests hhost

theorem Unspoilt.setPhase (h : s.Unspoilt) {phase : Phase}
    (hphase : ∀ cause, phase ≠ .ended (.error (.insertion cause))) :
    (s.mapHost (·.setPhase id phase)).Unspoilt := by
  intro r hr cause
  rw [requests_setPhase, List.mem_map] at hr
  obtain ⟨r', hr', rfl⟩ := hr
  unfold withPhase
  split
  · exact hphase cause
  · exact h r' hr' cause

/-- A request that ends otherwise than with `.insertion cause` spoils nothing. -/
theorem Unspoilt.finish (h : s.Unspoilt) (job : Job) {result : Except RequestError Unit}
    (hresult : ∀ cause, result ≠ .error (.insertion cause)) :
    (s.finish id job result).Unspoilt := by
  have hmark : (s.mapInst (·.setRunning job false)).Unspoilt :=
    h.of_requests (sameBooks_setRunning s job false).requests_eq
  exact hmark.setPhase fun cause he => hresult cause (by injection he)

/-- A response whose instance `Receives` it spoils nothing. -/
theorem unspoilt_receive {home : Position → Destination} (hobserve : Lawful observe)
    (ht : t.Housed home) (hflow : Flow t home s) (hmem : (id, task) ∈ s.requests)
    (hreceives : ∀ i, SameContents s.inst i → i.Receives task.job) {r : Response}
    (hfit : (s.receive observe id task.job r).inst.arena.Fits) (h : s.Unspoilt) :
    (s.receive observe id task.job r).Unspoilt := by
  have heventful := (enduring_unspoilt (σ := σ)).lawful hobserve
  obtain ⟨-, hquiet⟩ := flow_changeStatus (hobserve.tame ht) hflow task.job r.status
    (Or.inl (requestsAt_ne_nil hmem))
  have h₁ := heventful.changeStatus task.job r.status s h
  have hinserts := hreceives _ hquiet.tree r.body
  rw [arena_receive (hobserve.tame ht) hflow hmem] at hfit
  have hreceived := received_receive observe id task.job r s
  generalize s.receive observe id task.job r = s' at hreceived ⊢
  generalize s.changeStatus observe task.job r.status = s₁ at hreceived hfit h₁ hinserts
  cases hreceived with
  | refused => exact h₁.finish task.job (by simp)
  | failed cause j hsuccess hrun =>
    rw [if_pos hsuccess] at hfit
    obtain ⟨ns, j', hinserted⟩ := hinserts hfit
    rw [hinserted] at hrun
    exact absurd hrun (by simp)
  | inserted ns j _ _ hreworked =>
    have h₂ : ({ s₁ with inst := j } : Scene σ).Unspoilt :=
      h₁.of_requests (sameBooks_of_reworked hreworked).requests_eq
    exact (heventful.notifyAll task.job ns _ h₂).finish task.job (by simp)

theorem unspoilt_turn {home : Position → Destination} (hobserve : Lawful observe)
    (ht : t.Housed home) (hflow : Flow t home s) (hmem : (id, task) ∈ s.requests)
    (hreceives : task.isEnded = false → ∀ i, SameContents s.inst i → i.Receives task.job)
    (hfit : (s.turn observe id task).inst.arena.Fits) (h : s.Unspoilt) :
    (s.turn observe id task).Unspoilt := by
  have hturned := turned_turn observe id task s
  have hhost : ∀ {host : Host}, host.tasks = s.host.tasks →
      ({ s with host } : Scene σ).requests = s.requests := fun htasks =>
    (sameBooks_of_tasks s htasks).requests_eq
  generalize s.turn observe id task = s' at hturned hfit ⊢
  cases hturned with
  | received host r htasks hunended =>
    have hmem' : (id, task) ∈ ({ s with host } : Scene σ).requests := hhost htasks ▸ hmem
    exact unspoilt_receive hobserve ht (flow_of_tasks hflow htasks).1 hmem'
      (hreceives hunended) hfit
      (h.of_requests (hhost htasks))
  | finished host error htasks _ _ _ _ herror =>
    exact (h.of_requests (hhost htasks)).finish task.job fun cause he =>
      herror cause (Except.error.inj he)
  | asked host due r htasks => exact (h.of_requests (hhost htasks)).setPhase (by simp)
  | idle host htasks => exact h.of_requests (hhost htasks)

/-- After every run no request has ended with `.error (.insertion cause)`. -/
theorem unspoilt_of_run (hcompiled : Template.Compiled source t) (htemplate : t.arena.Fits)
    (hobserve : Lawful observe) (hrun : Run observe t responses s) (hfit : s.inst.arena.Fits) :
    s.Unspoilt := by
  induction hrun with
  | instantiate given id hfresh hmade =>
    obtain ⟨i, -, -, hopened⟩ :=
      opened_instantiate hcompiled.nodup hcompiled.deferred_of_one hfresh hmade
    intro r hr cause he
    have hunended := hopened.unended r hr
    rw [Task.isEnded, Task.result?, he] at hunended
    exact absurd hunended (by simp)
  | dispatch target event hrun ih =>
    obtain ⟨home, ht, hflow⟩ := exists_flow hcompiled hobserve hrun
    obtain ⟨-, hquiet, -⟩ := flow_dispatch (P := fun _ => True) (hobserve.tame ht) ht
      (fun _ _ _ _ _ => trivial) hflow trivial target event
    rw [hquiet.tree.arena_eq] at hfit
    exact enduring_unspoilt.dispatch hobserve target event _ (ih hfit)
  | @turn responses s id task hrun hmem ih =>
    obtain ⟨home, ht, hflow⟩ := exists_flow hcompiled hobserve hrun
    have hbefore := hfit.mono (size_le_turn (hobserve.tame ht) hflow hmem)
    exact unspoilt_turn hobserve ht hflow hmem (fun hunended i hsame =>
      receives_of_run hcompiled htemplate hobserve hrun hbefore hmem hunended hsame) hfit
      (ih hbefore)
  | collect _ ih => exact (ih hfit).of_requests rfl
  | elsewhere host memory _ hhost ih => exact (ih hfit).of_requests hhost

/-- Whatever an observer does when it is told of the status `code` of a response, the place of the
response is there. -/
theorem anchored_changeStatus (hcompiled : Template.Compiled source t) (htemplate : t.arena.Fits)
    (hobserve : Lawful observe) (hrun : Run observe t responses s) (hfit : s.inst.arena.Fits)
    (hmem : (id, task) ∈ s.requests) (hunended : task.isEnded = false) {e : NodeId}
    (he : task.job.destination = .element e) {host : Host}
    (hhost : s.host.SameRequests s.inst.id host) (code : Nat) :
    ({ s with host }.changeStatus observe task.job code).inst.Anchored task.job e := by
  obtain ⟨home, ht, hflow⟩ := exists_flow hcompiled hobserve hrun
  obtain ⟨hflow₁, hquiet₁⟩ := flow_elsewhere hflow hhost s.memory s.inst.pending
  have hmem₁ : (id, task) ∈ ({ s with host } : Scene σ).requests := by
    rw [requests, hhost]
    exact hmem
  obtain ⟨-, hquiet₂⟩ := flow_changeStatus (hobserve.tame ht) hflow₁ task.job code
    (Or.inl (requestsAt_ne_nil hmem₁))
  exact (anchored_of_run hcompiled htemplate hobserve hrun hfit hmem hunended he
    (hquiet₁.tree.trans hquiet₂.tree).toSameTree).2

/-- **Internal errors never come up.** Making an instance of a compiled template does not fail with
one; after every run every event can be dispatched, unless the clock cannot hold the deadline of
what waits for it; no request has ended because its response could not be put into the tree, and
when a response comes its place is below a live node of the tree. -/
theorem unfailing_of_compiled {ds ds' : List Diagnostic}
    (hcompile : (Template.compile source).run ds = .ok t ds') (htemplate : t.arena.Fits)
    (hobserve : Lawful observe) :
    (∀ (given : InstanceOptions) (id : Nat) (host : Host) (memory : σ) failure rest,
      (t.instantiate observe given id).run (host, memory) = .error failure rest →
        ¬ failure.Internal) ∧
    ∀ responses (s : Scene σ), Run observe t responses s →
      (∀ target event, (∃ n s', (dispatch observe target event).run s = .ok n s') ∨
        ∃ s', (dispatch observe target event).run s = .error (.arithmetic .momentOverflow) s' ∧
          ∃ b ∈ s'.inst.standbys, s'.host.signals.grants b.job.options = false) ∧
      (s.inst.arena.Fits → s.Unspoilt ∧ ∀ id task, (id, task) ∈ s.requests →
        task.isEnded = false → ∀ e, task.job.destination = .element e →
        ∀ host code, s.host.SameRequests s.inst.id host →
          ({ s with host }.changeStatus observe task.job code).inst.Anchored task.job e) := by
  have hcompiled := Template.compiled_compile hcompile
  constructor
  · intro given id host memory failure rest hfailed
    exact Template.not_internal_of_instantiate hcompile htemplate hfailed
  · intro responses s hrun
    obtain ⟨given, start, sent, hhistory⟩ := hrun.exists_history
    obtain ⟨hbooked, -⟩ := booked_of_history hobserve hhistory
    refine ⟨hbooked.dispatch hobserve, fun hfit => ⟨?_, ?_⟩⟩
    · exact unspoilt_of_run hcompiled htemplate hobserve hrun hfit
    · intro id task hmem hunended e he host code hhost
      exact anchored_changeStatus hcompiled htemplate hobserve hrun hfit hmem hunended he hhost code

/-- A request that an event starts and whose response is then put into its place. -/
theorem unfailing_once_started : ∃ (t : Template) (ds : List Diagnostic) (s s' : Scene Unit)
    (task : Task) (e : NodeId) (n : Nat),
    (Template.compile "<i><b></b><request src=a after=click:b></request></i>").run [] = .ok t ds ∧
    Run (fun _ _ s => s) t [] s ∧
    (dispatch (fun _ _ s => s)
      ((s.inst.arena.children s.inst.root).headD s.inst.root) "click").run s = .ok n s' ∧
    (⟨0⟩, task) ∈ s'.requests ∧ task.isEnded = false ∧ s'.inst.Anchored task.job e ∧
    (s'.turn (fun _ _ s => s) ⟨0⟩ task).Unspoilt ∧
    (s'.turn (fun _ _ s => s) ⟨0⟩ task).inst.arena.html s'.inst.root = "<i><b></b>x</i>" := by
  let observe : Observer Unit := fun _ _ s => s
  let event : Scene Unit → SceneM Unit Nat := fun s =>
    dispatch observe ((s.inst.arena.children s.inst.root).headD s.inst.root) "click"
  let transport : CannedTransport := ⟨[(⟨.get, "a"⟩, [⟨⟨200, "x"⟩, 0⟩])], []⟩
  obtain ⟨t, ds, used, s, hcompile, hrun, hplayed⟩ := exists_run_of_perform observe
    "<i><b></b><request src=a after=click:b></request></i>" (.plain { timeout := some 50 })
    { Host.empty with transport } () []
    (fun (t, used, s) =>
      let s' := stateAfter (event s) s
      (s'.host.task? ⟨0⟩).any fun task => decide (t.arena.Fits ∧ used = [] ∧
        succeeds (event s) s = true ∧ task.owner = s'.inst.id ∧ task.isEnded = false ∧
        task.job.shownPosition.isSome ∧ s'.inst.statusOf task.job = 0 ∧ s'.inst.arena.Fits ∧
        (s'.turn observe ⟨0⟩ task).inst.arena.Fits ∧
        (s'.turn observe ⟨0⟩ task).inst.arena.html s'.inst.root = "<i><b></b>x</i>")) rfl
    (by decide +kernel)
  obtain ⟨task, htask, hdecided⟩ := (Option.any_eq_true ..).mp hplayed
  obtain ⟨htemplate, rfl, hsucceeds, howner, hunended, hshown, hstatus, hfit, hfit', hhtml⟩ :=
    of_decide_eq_true hdecided
  have hrecording : Recording observe := fun _ _ s => ⟨s.memory, rfl⟩
  obtain ⟨-, hruns⟩ := unfailing_of_compiled hcompile htemplate hrecording.lawful
  obtain ⟨n, s', hclicked⟩ : ∃ n s', (event s).run s = .ok n s' :=
    ((hruns [] s hrun).1 _ "click").resolve_right fun ⟨s', hfailed, _⟩ => by
      rw [succeeds, hfailed] at hsucceeds
      exact absurd hsucceeds (by simp)
  have hrun' := hrun.dispatch ((s.inst.arena.children s.inst.root).headD s.inst.root) "click"
  rw [stateAfter_of_ok hclicked] at htask howner hstatus hfit hfit' hhtml hrun'
  have hmem : (⟨0⟩, task) ∈ s'.requests := Host.mem_requestsOf.mpr ⟨htask, howner⟩
  obtain ⟨e, he⟩ : ∃ e, task.job.destination = .element e := by
    cases hdestination : task.job.destination with
    | whole => rw [Job.shownPosition, hdestination] at hshown; exact absurd hshown (by simp)
    | element e => exact ⟨e, rfl⟩
  have hplace := ((hruns [] s' hrun').2 hfit).2 ⟨0⟩ task hmem hunended e he s'.host 0 rfl
  rw [changeStatus, if_pos hstatus] at hplace
  exact ⟨t, ds, s, s', task, e, n, hcompile, hrun, hclicked, hmem, hunended, hplace,
    ((hruns _ _ (hrun'.turn ⟨0⟩ task hmem)).2 hfit').1, hhtml⟩

end Scene

end Inlay
