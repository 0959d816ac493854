import Inlay.Proofs.Session.Waiting

/-!
# Settling

Taking requests and waiting for them until there are none to take leaves nothing of the instance
behind, provided that nobody else keeps requests of it that still run. One round is enough, since
turns start no requests; another one notices that there are none left (`settled_settle`).
-/

namespace Inlay

namespace Scene

variable {σ : Type} {taken : List (Position × TaskId)} {s : Scene σ}

/-- With `pending = []` and everything in `taken` ended, all requests have ended. -/
theorem Custody.all_isEnded (h : Custody taken s) (hpending : s.inst.pending = [])
    (hended : ∀ x ∈ taken, s.host.isEnded x.2 = true) : ∀ r ∈ s.requests, r.2.isEnded = true := by
  intro r hr
  by_contra hunended
  rcases h.covered r hr (Bool.eq_false_iff.mpr hunended) with hmem | hmem
  · rw [hpending] at hmem
    exact absurd hmem List.not_mem_nil
  · obtain ⟨task, htask, htaskEnded⟩ := Host.isEnded_iff.mp (hended _ hmem)
    obtain rfl : r.2 = task := Option.some.inj ((Host.mem_requestsOf.mp hr).1.symm.trans htask)
    exact hunended htaskEnded

/-- Ids in `pending` and in `taken` are those of requests. -/
theorem Custody.lt_length (h : Custody taken s) {x : Position × TaskId}
    (hx : x ∈ s.inst.pending ++ taken) : x.2.number < s.host.tasks.length := by
  obtain ⟨task, htask, -⟩ := h.named x hx
  exact (List.getElem?_eq_some_iff.mp (Host.mem_requestsOf.mp htask).1).1

end Scene

namespace Session

variable {t : Template} {source : String} {taken : Nat → List (Position × TaskId)} {s : Session}
  {i : Instance}

/-- After every run each instance has `Custody` of what goes on. -/
theorem Run.custody (h : Run t taken s) (hcompiled : Template.Compiled source t) {k : Nat}
    (hi : s.instance? k = some i) : Scene.Custody (taken k) (⟨i, s.host, s.watch⟩ : Scene Watch) :=
  Scene.custody_of_handled hcompiled Scene.recording_watching (h.kept.1.handled k i hi).2

/-! ### Rounds -/

theorem instance?_take (hi : s.instance? i.id = some i) :
    (s.take i).2.instance? i.id = some { i with pending := [] } := by
  have htaken := instance?_inScene hi
    (f := fun scene => (scene.inst.collect.1, scene.mapInst fun i => i.collect.2)) rfl rfl i.id
  rw [if_pos rfl] at htaken
  exact htaken

/-- With `pending = []` settling is over. -/
theorem settleRounds_of_nil {k n : Nat} (hi : s.instance? k = some i) (hpending : i.pending = []) :
    settleRounds k (n + 1) s = ([], (s.take i).2) := by
  have htake : s.take i = ([], (s.take i).2) := Prod.ext hpending rfl
  rw [settleRounds, hi]
  simp only
  rw [htake]

/-- Otherwise it waits for `pending`, which it has taken, and goes on. -/
theorem settleRounds_of_ne_nil {k n : Nat} (hi : s.instance? k = some i)
    (hpending : i.pending ≠ []) : settleRounds k (n + 1) s =
      (((s.take i).2.waitForAll i.pending).1 ++
        (settleRounds k n ((s.take i).2.waitForAll i.pending).2).1,
        (settleRounds k n ((s.take i).2.waitForAll i.pending).2).2) := by
  have htake : s.take i = (i.pending, (s.take i).2) := rfl
  rw [settleRounds, hi]
  simp only
  rw [htake]
  split
  · rename_i hnil
    exact absurd (Prod.mk.inj hnil).1 hpending
  · rename_i hsame
    obtain ⟨rfl, rfl⟩ := Prod.mk.inj hsame
    rfl

/-- There is nothing left to take, and everything has ended. -/
structure Rests (k : Nat) (s : Session) : Prop where
  pending : ∃ i, s.instance? k = some i ∧ i.pending = []
  isEnded : ∀ r ∈ s.host.requestsOf k, r.2.isEnded = true

/-- With `pending = []` the instance rests when it has been taken. -/
theorem rests_take (h : Run t taken s) (hcompiled : Template.Compiled source t) {k : Nat}
    (hi : s.instance? k = some i) (hpending : i.pending = [])
    (hended : ∀ x ∈ taken k, s.host.isEnded x.2 = true) : Rests k (s.take i).2 := by
  obtain rfl := (h.kept.1.handled k i hi).1
  exact ⟨⟨_, instance?_take hi, rfl⟩, (h.custody hcompiled hi).all_isEnded hpending hended⟩

/-- **Settling leaves nothing behind**: every request that was taken has a result, and the instance
`Rests`. -/
theorem settled_settle (h : Run t taken s) (hcompiled : Template.Compiled source t)
    (hi : s.instance? i.id = some i) (hended : ∀ x ∈ taken i.id, s.host.isEnded x.2 = true) :
    (∀ r ∈ (s.settle i).1, r.2.isSome = true) ∧ Rests i.id (s.settle i).2 := by
  obtain ⟨n, hn⟩ : ∃ n, s.bound = n + 1 + 1 := ⟨_, rfl⟩
  rw [settle, hn]
  by_cases hpending : i.pending = []
  · rw [settleRounds_of_nil hi hpending]
    exact ⟨fun r hr => absurd hr List.not_mem_nil, rests_take h hcompiled hi hpending hended⟩
  · have htaken := Run.take h hi
    have hknown : ∀ x ∈ i.pending, x.2.number < (s.take i).2.host.tasks.length := fun x hx =>
      (h.custody hcompiled hi).lt_length (List.mem_append_left _ hx)
    obtain ⟨hwaited, hsome, hends⟩ := waited_waitForAll htaken hknown
    -- turns have started nothing, so the next round finds nothing to take
    obtain ⟨j, hj, hnone⟩ := hwaited.pendings i.id _ (instance?_take hi)
    rw [settleRounds_of_ne_nil hi hpending, settleRounds_of_nil hj hnone, List.append_nil]
    refine ⟨hsome, rests_take hwaited.run hcompiled hj hnone fun x hx => ?_⟩
    rw [Function.update_self] at hx
    rcases List.mem_append.mp hx with hx | hx
    · exact hwaited.isEnded x.2 (hended x hx)
    · exact hends x hx

/-- **No request that still runs is lost**, where observers only record. After any run each of them
is among those that can be taken or was taken, at most one for each placeholder and in document
order; one that makes way for a newer one has ended, and turns put none aside. So after settling
nothing of the instance runs any more, if the others that were taken have ended before. -/
theorem nothing_lost_of_compiled {ds ds' : List Diagnostic}
    (hcompile : (Template.compile source).run ds = .ok t ds') :
    (∀ (σ : Type) (observe : Observer σ) (taken : List (Position × TaskId)) (s : Scene σ),
      Scene.Recording observe → Scene.Handled observe t taken s →
      (∀ x ∈ t.placeholders, ∀ r ∈ s.unfinished x.position,
        (x.position, r.1) ∈ s.inst.pending ∨ (x.position, r.1) ∈ taken) ∧
      (s.inst.collect.1.map (·.1)).Nodup ∧
      (s.inst.collect.1.map (·.1)).Sublist (t.placeholders.map (·.position)) ∧
      (∀ target event, Scene.Yields s (stateAfter (Scene.dispatch observe target event) s)) ∧
      ∀ id task, (id, task) ∈ s.requests → (s.turn observe id task).inst.pending = s.inst.pending) ∧
    ∀ (taken : Nat → List (Position × TaskId)) (s : Session) (i : Instance), Run t taken s →
      s.instance? i.id = some i → (∀ x ∈ taken i.id, s.host.isEnded x.2 = true) →
      (∀ r ∈ (s.settle i).1, r.2.isSome = true) ∧
      (∃ j, (s.settle i).2.instance? i.id = some j ∧ j.pending = []) ∧
      ∀ r ∈ (s.settle i).2.host.requestsOf i.id, r.2.isEnded = true := by
  have hcompiled := Template.compiled_compile hcompile
  constructor
  · intro σ observe taken s hobserve hhandled
    have hcustody := Scene.custody_of_handled hcompiled hobserve hhandled
    obtain ⟨responses, hrun⟩ := hhandled.exists_run
    obtain ⟨home, ht, hflow, -, hflights⟩ :=
      (Scene.invariant_flights hobserve).of_run hcompiled hobserve.lawful hrun
    have hsublist := hcustody.sublist hcompiled hflow
    refine ⟨fun x _ r hr => ?_, hsublist.nodup hcompiled.nodup, hsublist, fun target event => ?_,
      fun id task _ => (hobserve.turn id task s).1.pending_eq⟩
    · obtain ⟨hmem, hunended⟩ := List.mem_filter.mp hr
      obtain ⟨hmem, hposition⟩ := List.mem_filter.mp hmem
      rw [← of_decide_eq_true hposition]
      exact hcustody.covered r hmem (by simpa using hunended)
    · exact (Scene.custody_dispatch hobserve ht hflow hflights hcustody target event).2
  · intro taken s i hrun hi hended
    obtain ⟨hsome, hrests⟩ := settled_settle hrun hcompiled hi hended
    exact ⟨hsome, hrests.pending, hrests.isEnded⟩

/-- Two requests that nobody has taken, one of which was started by an event. -/
theorem nothing_lost_once_clicked : ∃ (t : Template) (ds : List Diagnostic) (s : Session)
    (i : Instance),
    (Template.compile
      "<i><b></b><request src=a after=click:b></request><request src=c></request></i>").run [] =
        .ok t ds ∧
    Run t (fun _ => []) s ∧ s.instance? i.id = some i ∧ i.pending.map (·.1) = [1, 2] ∧
    (∀ x ∈ t.placeholders, ∀ r ∈ (⟨i, s.host, s.watch⟩ : Scene Watch).unfinished x.position,
      (x.position, r.1) ∈ i.pending) ∧
    (s.settle i).1.map (·.1) = [1, 2] ∧ (∀ r ∈ (s.settle i).1, r.2.isSome = true) ∧
    ∀ r ∈ (s.settle i).2.host.requestsOf i.id, r.2.isEnded = true := by
  let transport : CannedTransport := ⟨[(⟨.get, "a"⟩, [⟨⟨200, "x"⟩, 5⟩])], []⟩
  let host : Host := { Host.empty with transport }
  let making (t : Template) := (Session.start t host).instantiate (.plain {}) []
  let clicking (t : Template) (i : Instance) := ((making t).2.fire i (.select "b" 0) "click").2
  have hplayed : (outcome (Template.compile
      "<i><b></b><request src=a after=click:b></request><request src=c></request></i>")
        []).toOption.any (fun t => ((making t).2.instance? 0).any fun i =>
      ((clicking t i).instance? 0).any fun j => decide ((making t).1.toOption = some 0 ∧
        i.id = 0 ∧ j.id = 0 ∧ j.pending.map (·.1) = [1, 2] ∧
        ((clicking t i).settle j).1.map (·.1) = [1, 2])) = true := by
    decide +kernel
  obtain ⟨t, ds, hcompile, hplayed⟩ := exists_of_any_outcome hplayed
  obtain ⟨i, hi, hclicked⟩ := (Option.any_eq_true ..).mp hplayed
  obtain ⟨j, hj, hdecided⟩ := (Option.any_eq_true ..).mp hclicked
  obtain ⟨hnumber, hi₀, hj₀, hpending, hsettled⟩ := of_decide_eq_true hdecided
  have hi' : (making t).2.instance? i.id = some i := by rw [hi₀, hi]
  have hj' : (clicking t i).instance? j.id = some j := by rw [hj₀, hj]
  have hmade : Run t (fun _ => []) (making t).2 := .instantiate _ (.start host rfl rfl) fun he => by
    have hsome : (making t).1 = .ok 0 := eq_ok_of_toOption hnumber
    exact absurd (hsome.symm.trans he) nofun
  have hrun : Run t (fun _ => []) (clicking t i) := hmade.fire (.select "b" 0) "click" hi'
  obtain ⟨hscenes, hsettles⟩ := nothing_lost_of_compiled hcompile
  obtain ⟨hheld, -⟩ := hscenes Watch (Scene.watching 0) [] _ Scene.recording_watching
    (hrun.kept.1.handled _ j hj').2
  obtain ⟨hsome, -, hended⟩ := hsettles _ _ j hrun hj' fun x hx => absurd hx List.not_mem_nil
  refine ⟨t, ds, clicking t i, j, hcompile, hrun, hj', hpending, fun x hx r hr => ?_, hsettled,
    hsome, hended⟩
  exact (hheld x hx r hr).resolve_right List.not_mem_nil

end Session

end Inlay
