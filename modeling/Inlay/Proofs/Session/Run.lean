import Inlay.Proofs.Scene.Alike
import Inlay.Proofs.Scene.Beginning
import Inlay.Proofs.Scene.Handles
import Inlay.Proofs.Session.Queue
import Inlay.Session.Steps

/-!
# Runs of a session

`Session.Run t taken s` says that making instances of `t`, firing events at them, taking their
requests, turns of the queue, and whatever else happens outside the instances lead to `s`, and
`taken` are the requests of each instance that were taken until then. No instance has been given
reactions. Then every instance by itself has been `Handled`, and no request is forgotten by the
queue (`Kept`).
-/

namespace Inlay

namespace Scene

variable {σ : Type} {observe : Observer σ} {t : Template}

/-- Events start requests of their own instance only, `s.inst.id`, and put them into the queue. -/
theorem eventful_grown (hobserve : Recording observe) :
    Eventful (fun s s' : Scene σ => s'.inst.id = s.inst.id ∧
      Host.Grown s.inst.id s.host s'.host) observe where
  refl _ := ⟨rfl, .of_eq rfl rfl⟩
  trans h h' := ⟨h'.1.trans h.1, h.2.trans (h.1 ▸ h'.2)⟩
  told label n s := by
    obtain ⟨memory, he⟩ := hobserve label n s
    rw [he]
    exact ⟨rfl, .of_eq rfl rfl⟩
  inst _ _ hinst := ⟨hinst.id_eq, .of_eq rfl rfl⟩
  host _ _ hhost := ⟨rfl, .of_eq hhost.tasks_eq hhost.ready_eq⟩
  board {s s'} b request _ _ h := by
    have hid := (sameContents_setRunning s'.inst b.job true).id_eq
    exact ⟨hid.trans h.1, h.2.trans (.enqueue s'.host (hid.trans h.1))⟩

/-- So does making an instance, and `memory' = memory`, as observers are told nothing of it. -/
theorem grown_instantiate {given : InstanceOptions} {id : Nat} {host host' : Host}
    {memory memory' : σ} {inst : Instance}
    (hrun : (t.instantiate observe given id).run (host, memory) = .ok inst (host', memory')) :
    inst.id = id ∧ Host.Grown id host host' ∧ memory' = memory := by
  obtain ⟨i, hcopy, hbegun⟩ := begun_instantiate hrun
  have hid : i.id = id := (copy_ofTemplate hcopy).id_eq
  obtain ⟨tasks, hstarts, htasks, hready⟩ := hbegun.started
  simp only at htasks hready
  refine ⟨hbegun.tree.id_eq.trans hid, ⟨⟨tasks, htasks, fun task htask => ?_⟩, fun x hx => ?_,
    fun x hle hlt => ?_⟩, hbegun.memory⟩
  · obtain ⟨n, hn, rfl⟩ := List.getElem_of_mem htask
    exact (hstarts.get (hstarts.length_eq ▸ hn) hn).owner.trans hid
  · rw [hready]
    exact List.mem_append_left _ hx
  · rw [htasks, List.length_append] at hlt
    rw [hready]
    refine List.mem_append_right _ (List.mem_map.mpr ⟨x.number, ?_, rfl⟩)
    rw [List.mem_range'_1]
    exact ⟨hle, hlt⟩

end Scene

namespace Session

variable {t : Template} {taken : Nat → List (Position × TaskId)} {s s' : Session} {i : Instance}

/-! ### Runs -/

/-- The states that a session can be in between steps, with the requests of each instance that were
taken until then. -/
inductive Run (t : Template) : (Nat → List (Position × TaskId)) → Session → Prop where
  | start (host : Host) : host.tasks = [] → host.ready = [] → Run t (fun _ => []) (.start t host)
  /-- An instance is made or refused; a deadline that the clock cannot hold ends the program. -/
  | instantiate {taken : Nat → List (Position × TaskId)} {s : Session} (given : InstanceOptions) :
    Run t taken s → (s.instantiate given []).1 ≠ .error (.arithmetic .momentOverflow) →
    Run t taken (s.instantiate given []).2
  | fire {taken : Nat → List (Position × TaskId)} {s : Session} {i : Instance} (aim : Aim)
      (event : String) :
    Run t taken s → s.instance? i.id = some i → Run t taken (s.fire i aim event).2
  | take {taken : Nat → List (Position × TaskId)} {s : Session} {i : Instance} :
    Run t taken s → s.instance? i.id = some i →
    Run t (Function.update taken i.id (taken i.id ++ (s.take i).1)) (s.take i).2
  /-- The request that has waited longest gets its turn. -/
  | turn {taken : Nat → List (Position × TaskId)} {s : Session} {id : TaskId} {rest : List TaskId} :
    Run t taken s → s.host.ready = id :: rest →
    Run t taken (turn { s with host := { s.host with ready := rest } } id)
  /-- Time passes, signals are aborted, the transport learns other answers, and the program does
  what is no concern of the instances. -/
  | elsewhere {taken : Nat → List (Position × TaskId)} {s : Session} (host : Host) (watch : Watch)
      (kept : List (Position × TaskId)) (spent : Nat) :
    Run t taken s → host.tasks = s.host.tasks → s.host.ready ⊆ host.ready → watch.reactions = [] →
    Run t taken { s with host, watch, taken := kept, spent }

/-- Each instance has been handled as `Handled` says, and there is no request of any other. -/
structure Kept (t : Template) (taken : Nat → List (Position × TaskId)) (s : Session) : Prop where
  template_eq : s.template = t
  calm : s.watch.reactions = []
  vacant : ∀ k, s.instance? k = none → s.host.requestsOf k = [] ∧ taken k = []
  handled : ∀ k i, s.instance? k = some i → i.id = k ∧
    Scene.Handled (Scene.watching 0) t (taken k) ⟨i, s.host, s.watch⟩

/-- No instance has other requests that nobody has taken. -/
def SamePendings (s s' : Session) : Prop :=
  ∀ k i, s.instance? k = some i → ∃ j, s'.instance? k = some j ∧ j.pending = i.pending

theorem SamePendings.refl (s : Session) : SamePendings s s :=
  fun _ i hi => ⟨i, hi, rfl⟩

theorem SamePendings.trans {s'' : Session} (h : SamePendings s s') (h' : SamePendings s' s'') :
    SamePendings s s'' := by
  intro k i hi
  obtain ⟨j, hj, hpending⟩ := h k i hi
  obtain ⟨j', hj', hpending'⟩ := h' k j hj
  exact ⟨j', hj', hpending'.trans hpending⟩

/-- `s.instances.length`, the id of the next instance, is not taken. -/
theorem instance?_length (s : Session) : s.instance? s.instances.length = none := by
  rw [instance?, List.getElem?_eq_none (Nat.le_refl _)]
  rfl

/-- What happens in the scene of an instance changes `i.id` alone. -/
theorem instance?_inScene {α : Type} (hi : s.instance? i.id = some i)
    {f : Scene Watch → α × Scene Watch} {j : Scene Watch} (hf : (f ⟨i, s.host, s.watch⟩).2 = j)
    (hid : j.inst.id = i.id) (k : Nat) :
    (s.inScene i f).2.instance? k = if k = i.id then some j.inst else s.instance? k := by
  have hinstances : (s.inScene i f).2.instances = s.instances.set i.id (some j.inst) := by
    rw [← hid, ← hf]
    rfl
  have hlt : i.id < s.instances.length := by
    by_contra hge
    rw [instance?, List.getElem?_eq_none (Nat.le_of_not_lt hge)] at hi
    exact absurd hi (by simp)
  rw [instance?, hinstances, List.getElem?_set]
  by_cases hk : i.id = k
  · rw [if_pos hk, if_pos hk.symm, if_pos (hk ▸ hlt)]
    rfl
  · rw [if_neg hk, if_neg (Ne.symm hk), instance?]

namespace Kept

/-- What happens to instance `i` is kept track of at `i.id`, and the others are as they were. -/
theorem inScene {α : Type} (h : Kept t taken s) (hi : s.instance? i.id = some i)
    {f : Scene Watch → α × Scene Watch} {j : Scene Watch} (hf : (f ⟨i, s.host, s.watch⟩).2 = j)
    (hid : j.inst.id = i.id) (hcalm : j.memory.reactions = [])
    (hothers : ∀ k, i.id ≠ k → s.host.SameRequests k j.host) {more : List (Position × TaskId)}
    (hhandled : Scene.Handled (Scene.watching 0) t more j) :
    Kept t (Function.update taken i.id more) (s.inScene i f).2 := by
  have hinstance := instance?_inScene hi hf hid
  have hhost : (s.inScene i f).2.host = j.host := by
    rw [← hf]
    rfl
  have hwatch : (s.inScene i f).2.watch = j.memory := by
    rw [← hf]
    rfl
  constructor
  case template_eq => exact h.template_eq
  case calm => rwa [hwatch]
  case vacant =>
    intro k hk
    rw [hinstance] at hk
    split at hk
    · exact absurd hk (by simp)
    · rename_i hne
      obtain ⟨hnone, htaken⟩ := h.vacant k hk
      rw [hhost, hothers k (Ne.symm hne), Function.update_of_ne hne]
      exact ⟨hnone, htaken⟩
  case handled =>
    intro k i' hk
    rw [hinstance] at hk
    rw [hhost, hwatch]
    split at hk
    · rename_i heq
      obtain rfl := Option.some.inj hk
      rw [heq, Function.update_self]
      exact ⟨hid, hhandled⟩
    · rename_i hne
      -- For another instance the step was something that happened elsewhere.
      obtain ⟨hid', hhandled'⟩ := h.handled k i' hk
      rw [Function.update_of_ne hne]
      refine ⟨hid', hhandled'.elsewhere j.host j.memory ?_⟩
      rw [hid']
      exact hothers k (Ne.symm hne)

theorem elsewhere (h : Kept t taken s) {host : Host} {watch : Watch}
    (kept : List (Position × TaskId)) (spent : Nat) (htasks : host.tasks = s.host.tasks)
    (hcalm : watch.reactions = []) :
    Kept t taken { s with host, watch, taken := kept, spent } where
  template_eq := h.template_eq
  calm := hcalm
  vacant k hk := by
    rw [Host.requestsOf_of_tasks htasks]
    exact h.vacant k hk
  handled k i hk := by
    obtain ⟨hid, hhandled⟩ := h.handled k i hk
    exact ⟨hid, hhandled.elsewhere host watch (Host.requestsOf_of_tasks htasks _)⟩

/-- `made` is put at the end as one more instance, or nothing is put in its place. -/
theorem append (h : Kept t taken s) {host : Host} {watch : Watch} {made : Option Instance}
    (hcalm : watch.reactions = [])
    (hothers : ∀ k, s.instances.length ≠ k → s.host.SameRequests k host)
    (hvacant : made = none → host.requestsOf s.instances.length = [])
    (hmade : ∀ i, made = some i → i.id = s.instances.length ∧
      Scene.Handled (Scene.watching 0) t [] ⟨i, host, watch⟩) :
    Kept t taken { s with host, watch, instances := s.instances ++ [made] } := by
  -- The ids are the places in the list, so the new one is its length.
  have hinstance : ∀ k, ({ s with host, watch, instances := s.instances ++ [made] }).instance? k =
      if k = s.instances.length then made else s.instance? k := by
    intro k
    rw [instance?, instance?]
    simp only
    rcases Nat.lt_trichotomy k s.instances.length with hlt | heq | hgt
    · rw [List.getElem?_append_left hlt, if_neg (Nat.ne_of_lt hlt)]
    · rw [heq, List.getElem?_concat_length, if_pos rfl]
      rfl
    · rw [List.getElem?_eq_none (by simpa using hgt), if_neg (Nat.ne_of_gt hgt),
        List.getElem?_eq_none (Nat.le_of_lt hgt)]
  constructor
  case template_eq => exact h.template_eq
  case calm => exact hcalm
  case vacant =>
    intro k hk
    rw [hinstance] at hk
    split at hk
    · rename_i heq
      rw [heq]
      exact ⟨hvacant hk, (h.vacant _ s.instance?_length).2⟩
    · rename_i hne
      obtain ⟨hnone, htaken⟩ := h.vacant k hk
      have hsame : host.requestsOf k = s.host.requestsOf k := hothers k (Ne.symm hne)
      exact ⟨hsame.trans hnone, htaken⟩
  case handled =>
    intro k i hk
    rw [hinstance] at hk
    split at hk
    · rename_i heq
      rw [heq, (h.vacant _ s.instance?_length).2]
      exact hmade i hk
    · rename_i hne
      obtain ⟨hid, hhandled⟩ := h.handled k i hk
      refine ⟨hid, hhandled.elsewhere host watch ?_⟩
      rw [hid]
      exact hothers k (Ne.symm hne)

/-- Making an instance is `Kept` track of, if the clock can hold its deadlines. -/
theorem instantiate (h : Kept t taken s) (given : InstanceOptions)
    (hholds : (s.instantiate given []).1 ≠ .error (.arithmetic .momentOverflow)) :
    Kept t taken (s.instantiate given []).2 ∧
      (s.host.Attended → (s.instantiate given []).2.host.Attended) := by
  have hfresh := (h.vacant _ s.instance?_length).1
  have halike := (Scene.alike_watching (s.watch.charges + 1)).instantiate s.template given
    s.instances.length s.host h.calm
  unfold Session.instantiate at hholds ⊢
  simp only [List.map_nil, List.append_nil, halike] at hholds ⊢
  cases hrun : (s.template.instantiate (Scene.watching 0) given s.instances.length).run
      (s.host, s.watch) with
  | error failure rest =>
    rw [hrun] at hholds
    -- planning has failed then, which leaves the host alone
    obtain ⟨-, rfl⟩ := (Scene.planInstance_of_error hrun).resolve_right fun he => hholds (he ▸ rfl)
    exact ⟨h.append h.calm (fun _ _ => rfl) (fun _ => hfresh) fun i hi => absurd hi (by simp), id⟩
  | ok inst rest =>
    obtain ⟨host, watch⟩ := rest
    obtain ⟨hid, hgrown, hwatch⟩ := Scene.grown_instantiate hrun
    refine ⟨h.append (hwatch ▸ h.calm) (fun k hk => hgrown.sameRequests hk)
      (fun hnone => absurd hnone (by simp)) fun i hi => ?_, hgrown.attended⟩
    obtain rfl := Option.some.inj hi
    rw [h.template_eq] at hrun
    exact ⟨hid, .instantiate given s.instances.length hfresh hrun⟩

/-- Firing an event is `Kept` track of. -/
theorem fire (h : Kept t taken s) (hi : s.instance? i.id = some i) (aim : Aim) (event : String) :
    Kept t taken (s.fire i aim event).2 ∧
      (s.host.Attended → (s.fire i aim event).2.host.Attended) := by
  have hhandled := (h.handled i.id i hi).2
  have halike := Scene.alike_watching (s.watch.charges + 1)
  -- it does nothing, or it is an event like others
  have hfired : ∃ j, (Scene.fireAt s.observer aim event ⟨i, s.host, s.watch⟩).2 = j ∧
      j.inst.id = i.id ∧ Host.Grown i.id s.host j.host ∧ j.memory.reactions = [] ∧
      Scene.Handled (Scene.watching 0) t (taken i.id) j := by
    rcases Scene.fireAt_cases s.observer aim event ⟨i, s.host, s.watch⟩ with he | ⟨target, he⟩
    · exact ⟨_, he, rfl, .of_eq rfl rfl, h.calm, hhandled⟩
    · have hsame : stateAfter (Scene.dispatch s.observer target event) ⟨i, s.host, s.watch⟩ =
          stateAfter (Scene.dispatch (Scene.watching 0) target event) ⟨i, s.host, s.watch⟩ := by
        rw [stateAfter, observer, halike.dispatch target event h.calm, stateAfter]
      obtain ⟨hid, hgrown⟩ := (Scene.eventful_grown Scene.recording_watching).dispatch target event
        ⟨i, s.host, s.watch⟩
      exact ⟨_, he.trans hsame, hid, hgrown, halike.persistent.dispatch target event _ h.calm,
        hhandled.dispatch target event⟩
  obtain ⟨j, hj, hid, hgrown, hcalm, hhandled'⟩ := hfired
  have hkept := h.inScene hi hj hid hcalm (fun k hk => hgrown.sameRequests hk) hhandled'
  rw [Function.update_eq_self] at hkept
  have hhost : (s.fire i aim event).2.host = j.host := by
    rw [← hj]
    rfl
  refine ⟨hkept, fun hattended => ?_⟩
  rw [hhost]
  exact hgrown.attended hattended

/-- What is taken counts as taken at `i.id`. -/
theorem take (h : Kept t taken s) (hi : s.instance? i.id = some i) :
    Kept t (Function.update taken i.id (taken i.id ++ (s.take i).1)) (s.take i).2 := by
  let scene : Scene Watch := ⟨i, s.host, s.watch⟩
  have hcollected : Scene.Handled (Scene.watching 0) t (taken i.id ++ (s.take i).1)
      (scene.mapInst fun i => i.collect.2) := (h.handled i.id i hi).2.collect
  exact h.inScene hi (f := fun scene => (scene.inst.collect.1, scene.mapInst fun i => i.collect.2))
    rfl rfl h.calm (fun _ _ => rfl) hcollected

/-- A turn is one of the instance that the `task` belongs to. -/
theorem turn (h : Kept t taken s) {id : TaskId} {task : Task}
    (htask : s.host.task? id = some task) :
    Kept t taken (s.turn id) ∧ s.host.Turned id task (s.turn id).host ∧
      SamePendings s (s.turn id) := by
  have hmem : (id, task) ∈ s.host.requestsOf task.owner := Host.mem_requestsOf.mpr ⟨htask, rfl⟩
  cases hi : s.instance? task.owner with
  | none =>
    -- the turn would be lost, but there are no requests without an instance
    rw [(h.vacant _ hi).1] at hmem
    exact absurd hmem List.not_mem_nil
  | some i =>
    obtain ⟨hid, hhandled⟩ := h.handled _ i hi
    rw [← hid] at hi hmem
    have halike := Scene.alike_watching (s.watch.charges + 1)
    let scene : Scene Watch := ⟨i, s.host, s.watch⟩
    have hsame : scene.turn s.observer id task = scene.turn (Scene.watching 0) id task :=
      halike.turn id task h.calm
    obtain ⟨hpending, hturned⟩ := Scene.recording_watching.turn id task scene
    obtain ⟨host, -, -, -, hcalm⟩ := (halike.persistent.passive id).turn task scene
    have hturn : s.turn id = (s.inScene i fun scene => ((), scene.turn s.observer id task)).2 := by
      rw [Session.turn, htask]
      simp only [← hid, hi]
    have hhost : (s.turn id).host = (scene.turn (Scene.watching 0) id task).host := by
      rw [hturn, ← hsame]
      rfl
    have hkept := h.inScene hi (f := fun scene => ((), scene.turn s.observer id task)) hsame
      hpending.id_eq (hcalm h.calm)
      (fun k hk => hturned.sameRequests htask (hid ▸ hk))
      ((hid ▸ hhandled).turn id task hmem)
    rw [Function.update_eq_self, ← hturn] at hkept
    refine ⟨hkept, hhost ▸ hturned, fun k i' hk => ?_⟩
    rw [hturn, instance?_inScene hi (f := fun scene => ((), scene.turn s.observer id task)) hsame
      hpending.id_eq]
    split
    · rename_i heq
      rw [heq, hi] at hk
      obtain rfl := Option.some.inj hk
      exact ⟨_, rfl, hpending.pending_eq⟩
    · exact ⟨i', hk, rfl⟩

end Kept

/-! ### Turns of the queue -/

/-- A turn off the queue is kept track of, and it lowers `toil`. -/
theorem Kept.next (h : Kept t taken s) (hattended : s.host.Attended) {id : TaskId}
    {rest : List TaskId} (hready : s.host.ready = id :: rest) :
    let s' := Session.turn { s with host := { s.host with ready := rest } } id
    Kept t taken s' ∧ s'.host.Attended ∧ s'.host.toil < s.host.toil ∧ SamePendings s s' ∧
      s'.host.tasks.length = s.host.tasks.length ∧
      ∀ x, s.host.isEnded x = true → s'.host.isEnded x = true := by
  have hpopped : Kept t taken { s with host := { s.host with ready := rest } } :=
    h.elsewhere s.taken s.spent rfl h.calm
  intro s'
  cases htask : s.host.task? id with
  | none =>
    have hs' : s' = { s with host := { s.host with ready := rest } } := by
      have hnone : ({ s.host with ready := rest } : Host).task? id = none := htask
      simp only [s', Session.turn, hnone]
    rw [hs']
    exact ⟨hpopped, hattended.pop hready htask, Host.toil_pop_lt hready htask, .refl s, rfl,
      fun _ hx => hx⟩
  | some task =>
    obtain ⟨hkept, hturned, hpendings⟩ := hpopped.turn htask
    exact ⟨hkept, hturned.attended hready htask hattended, hturned.toil_lt hready htask, hpendings,
      hturned.length_tasks, fun x hx => hturned.isEnded htask hx⟩

/-- After every run all is `Kept` track of, and no request is forgotten. -/
theorem Run.kept (h : Run t taken s) : Kept t taken s ∧ s.host.Attended := by
  induction h with
  | start host htasks hready =>
    -- At the start there is no instance and no task.
    have hnone : ∀ k, (Session.start t host).instance? k = none := fun _ => rfl
    refine ⟨⟨rfl, rfl, fun k _ => ⟨?_, rfl⟩, fun k i hk => ?_⟩, fun id task htask => ?_⟩
    · change host.requestsOf k = []
      rw [Host.requestsOf, htasks]
      rfl
    · rw [hnone] at hk
      exact absurd hk (by simp)
    · change host.tasks[id.number]? = some task at htask
      rw [htasks] at htask
      exact absurd htask (by simp)
  | instantiate given _ hholds ih =>
    obtain ⟨hkept, hattended⟩ := ih
    exact (hkept.instantiate given hholds).imp_right fun himp => himp hattended
  | fire aim event _ hi ih =>
    obtain ⟨hkept, hattended⟩ := ih
    exact (hkept.fire hi aim event).imp_right fun himp => himp hattended
  | take _ hi ih => exact ⟨ih.1.take hi, ih.2⟩
  | turn _ hready ih =>
    obtain ⟨hkept, hattended, -⟩ := ih.1.next ih.2 hready
    exact ⟨hkept, hattended⟩
  | elsewhere host watch kept spent _ htasks hready hcalm ih =>
    refine ⟨ih.1.elsewhere kept spent htasks hcalm, fun id task htask hunended => ?_⟩
    change host.tasks[id.number]? = some task at htask
    rw [htasks] at htask
    exact (ih.2 id task htask hunended).imp_left fun hmem => hready hmem

end Session

end Inlay
