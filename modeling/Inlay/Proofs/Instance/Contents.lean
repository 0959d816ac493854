import Inlay.Proofs.Instance.Insert

/-!
# What an instance shows of its requests

`statusAt` and `contentsAt` are what can be asked about a request: its status and what its last
success brought. A request is named by the position that goes with its notifications, which is
`none` for the request of a single placeholder.

`contentsAt_of_insertResponse`: putting a response into the tree changes what is shown of its own
request, to what observers are told then. If it fails it changes nothing of the kind
(`sameReport_of_insertResponse_error`).
-/

namespace Inlay.Instance

variable {i j : Instance} {job : Job} {body : String}

/-- The status of a request. -/
def statusAt (i : Instance) : Option Position → Nat
  | none => i.status
  | some p => ((i.record? p).map (·.status)).getD 0

/-- What the last success of a request brought: its nodes, or the fragment that is shown. -/
def contentsAt (i : Instance) : Option Position → Option (List NodeId)
  | none => i.fragment.map ([·])
  | some p => i.response? p

theorem statusOf_eq_statusAt (i : Instance) (job : Job) :
    i.statusOf job = i.statusAt job.shownPosition := by
  unfold statusOf Job.shownPosition
  cases job.destination with
  | whole => rfl
  | element id => rfl

theorem statusAt_some (i : Instance) (p : Position) :
    i.statusAt (some p) = ((i.flight? p).map (·.1)).getD 0 := by
  rw [statusAt, flight?]
  cases i.record? p <;> rfl

/-- The job has a record where its status can be kept. -/
def HasRecord (i : Instance) (job : Job) : Prop :=
  ∀ p, job.shownPosition = some p → (i.record? p).isSome

/-! ### Changes of a record -/

/-- What is shown of requests is the same. -/
structure SameReport (i j : Instance) : Prop where
  root_eq : j.root = i.root
  statusAt_eq : ∀ q, j.statusAt q = i.statusAt q
  contentsAt_eq : ∀ q, j.contentsAt q = i.contentsAt q
  isSome_record?_eq : ∀ p, (j.record? p).isSome = (i.record? p).isSome

theorem SameReport.refl (i : Instance) : SameReport i i :=
  ⟨rfl, fun _ => rfl, fun _ => rfl, fun _ => rfl⟩

theorem SameReport.trans {k : Instance} (h : SameReport i j) (h' : SameReport j k) :
    SameReport i k where
  root_eq := h'.root_eq.trans h.root_eq
  statusAt_eq q := (h'.statusAt_eq q).trans (h.statusAt_eq q)
  contentsAt_eq q := (h'.contentsAt_eq q).trans (h.contentsAt_eq q)
  isSome_record?_eq p := (h'.isSome_record?_eq p).trans (h.isSome_record?_eq p)

theorem SameReport.fragment_eq_none (h : SameReport i j) (hnone : i.fragment = none) :
    j.fragment = none := by
  have hsame := h.contentsAt_eq none
  rw [contentsAt, contentsAt, hnone] at hsame
  simpa using hsame

theorem sameReport_setRunning (i : Instance) (job : Job) (flag : Bool) :
    SameReport i (i.setRunning job flag) := by
  cases hjob : job.destination with
  | whole =>
    rw [setRunning_of_whole hjob]
    exact SameReport.refl i
  | element id =>
    have hset : i.setRunning job flag =
        i.updateRecord job.position ({ · with running := flag }) := by
      rw [setRunning, hjob]
    refine ⟨by rw [hset]; rfl, fun q => ?_, fun q => ?_, fun p => ?_⟩
    · cases q with
      | none => rw [hset]; rfl
      | some p =>
        rw [statusAt_some, flight?_setRunning hjob, statusAt_some, Option.map_map]
        refine congrArg (Option.getD · 0) (congrArg (Option.map · _) (funext fun f => ?_))
        rw [Function.comp_apply]
        split <;> rfl
    · cases q with
      | none => rw [hset]; rfl
      | some p =>
        rw [hset]
        exact response?_updateRecord (by simp) (by simp) i job.position p
    · rw [hset, record?_updateRecord (by simp), Option.isSome_map]

/-- A status that is set is shown at `job.shownPosition` and nowhere else. -/
theorem statusAt_setStatus (hrecord : i.HasRecord job) (code : Nat) (q : Option Position) :
    (i.setStatus job code).statusAt q = if q = job.shownPosition then code else i.statusAt q := by
  cases hjob : job.destination with
  | whole =>
    have hset : i.setStatus job code = { i with status := code } := by rw [setStatus, hjob]
    have hshown : job.shownPosition = none := by rw [Job.shownPosition, hjob]
    rw [hset, hshown]
    cases q with
    | none => rfl
    | some p => rfl
  | element id =>
    have hset : i.setStatus job code = i.updateRecord job.position ({ · with status := code }) := by
      rw [setStatus, hjob]
    have hshown : job.shownPosition = some job.position := by rw [Job.shownPosition, hjob]
    rw [hshown]
    cases q with
    | none => rw [hset]; rfl
    | some p =>
      rw [statusAt_some, flight?_setStatus hjob, statusAt_some, Option.map_map]
      by_cases hp : p = job.position
      -- without a record the status could not be kept
      · obtain ⟨r, hr⟩ := Option.isSome_iff_exists.mp (hrecord job.position hshown)
        rw [hp, flight?, hr]
        simp
      · rw [if_neg (by simpa using hp)]
        refine congrArg (Option.getD · 0) (congrArg (Option.map · _) (funext fun f => ?_))
        rw [Function.comp_apply, if_neg hp]

theorem contentsAt_setStatus (i : Instance) (job : Job) (code : Nat) (q : Option Position) :
    (i.setStatus job code).contentsAt q = i.contentsAt q := by
  unfold setStatus
  split
  · cases q <;> rfl
  · cases q with
    | none => rfl
    | some p => exact response?_updateRecord (by simp) (by simp) i job.position p

/-! ### Putting a response into the tree -/

theorem Replanted.sameReport (h : Replanted i j) : SameReport i j := by
  rw [h.rest]
  exact ⟨rfl, fun q => by cases q <;> rfl, fun q => by cases q <;> rfl, fun _ => rfl⟩

/-- Work on the tree changes no status: `j.statusAt q = i.statusAt q`. -/
theorem Reworked.statusAt_eq (h : Reworked i j) (q : Option Position) :
    j.statusAt q = i.statusAt q := by
  cases q with
  | none => rw [h.rest]; rfl
  | some p => rw [statusAt_some, statusAt_some, h.flight_eq]

theorem Reworked.root_eq (h : Reworked i j) : j.root = i.root := by
  rw [h.rest]

/-- What observers are told of a response: the nodes that it brought and then the root, or the
fragment. -/
def report (i : Instance) (job : Job) (nodes : List NodeId) : List Notification :=
  match job.destination with
  | .whole => nodes.map .fragment
  | .element _ => [.nodes nodes job.position, .root i.root]

theorem report_congr (h : j.root = i.root) (job : Job) (nodes : List NodeId) :
    j.report job nodes = i.report job nodes := by
  unfold report
  rw [h]

/-- `Local` work on the tree that succeeds changes nothing that is shown of requests. -/
theorem Local.of_ok {α : Type} {m : InsertM α} {x : α} (hm : Local m) (h : m.run i = .ok x j) :
    SameReport i j := by
  have hi := hm i
  rw [stateAfter_of_ok h] at hi
  exact hi.sameReport

theorem Local.of_error {α : Type} {m : InsertM α} {e : InsertError} (hm : Local m)
    (h : m.run i = .error e j) : SameReport i j := by
  have hi := hm i
  rw [stateAfter_of_error h] at hi
  exact hi.sameReport

/-- In place of `none` a fragment is shown, and nothing is freed. -/
theorem run_replaceFragment (hnone : i.fragment = none) (fragment : NodeId) :
    (replaceFragment fragment).run i = .ok () { i with fragment := some fragment } := by
  unfold replaceFragment
  rw [run_bind_of_ok (EStateM.run_get ..), hnone]
  rfl

/-- What a success brought, `nodes`, is what is shown of the request from then on, and of no
other. -/
theorem contentsAt_of_insertResponse {ns : List Notification} (hrecord : i.HasRecord job)
    (hnone : job.shownPosition = none → i.fragment = none)
    (h : (insertResponse job body).run i = .ok ns j) :
    ∃ nodes, ns = i.report job nodes ∧ (job.shownPosition = none → ∃ f, nodes = [f]) ∧
      ∀ q, j.contentsAt q = if q = job.shownPosition then some nodes else i.contentsAt q := by
  cases hjob : job.destination with
  | whole =>
    have hshown : job.shownPosition = none := by rw [Job.shownPosition, hjob]
    rw [insertResponse_eq_of_whole hjob] at h
    obtain ⟨fragment, i₁, hparse, h⟩ := exists_of_run_bind_eq_ok h
    obtain ⟨_, i₂, hremove, h⟩ := exists_of_run_bind_eq_ok h
    have h₂ := ((local_onTree (Markup.grows_buildFragment _)).of_ok hparse).trans
      ((local_onTree (Arena.grows_removeByTag _ _)).of_ok hremove)
    rw [run_bind_of_ok (run_replaceFragment (h₂.fragment_eq_none (hnone hshown)) fragment)] at h
    injection h with hns hj
    refine ⟨[fragment], ?_, fun _ => ⟨fragment, rfl⟩, fun q => ?_⟩
    · rw [report, hjob, ← hns]
      rfl
    · rw [hshown, ← hj]
      cases q with
      | none => rfl
      | some p => exact h₂.contentsAt_eq (some p)
  | element id =>
    have hshown : job.shownPosition = some job.position := by rw [Job.shownPosition, hjob]
    rw [insertResponse_eq hjob] at h
    obtain ⟨fragment, i₁, hparse, h⟩ := exists_of_run_bind_eq_ok h
    obtain ⟨_, i₂, hremove, h⟩ := exists_of_run_bind_eq_ok h
    rw [run_bind_of_ok (EStateM.run_get ..)] at h
    obtain ⟨_, i₃, hoccupy, h⟩ := exists_of_run_bind_eq_ok h
    obtain ⟨_, i₄, hfree, h⟩ := exists_of_run_bind_eq_ok h
    have h₄ := ((((local_onTree (Markup.grows_buildFragment _)).of_ok hparse).trans
      ((local_onTree (Arena.grows_removeByTag _ _)).of_ok hremove)).trans
      ((local_occupy job id _).of_ok hoccupy)).trans
      ((local_onTree (Arena.grows_free _)).of_ok hfree)
    injection h with hns hj
    -- nothing that is shown of requests has changed until here, and then one record does
    refine ⟨i₂.arena.children fragment, ?_, fun hnone => ?_, fun q => ?_⟩
    · rw [report, hjob, ← hns]
      exact congrArg (fun r => [Notification.nodes _ _, .root r]) h₄.root_eq
    · rw [hshown] at hnone
      exact absurd hnone (by simp)
    · have hrecord₄ : (i₄.record? job.position).isSome := by
        rw [h₄.isSome_record?_eq]
        exact hrecord job.position hshown
      have hresponse := response?_respond hrecord₄ (some (i₂.arena.children fragment))
      rw [hshown, ← hj]
      cases q with
      | none => exact h₄.contentsAt_eq none
      | some p =>
        refine (hresponse p).trans ?_
        by_cases hp : p = job.position
        · rw [if_pos hp, if_pos (congrArg some hp)]
        · rw [if_neg hp, if_neg (by simpa using hp)]
          exact h₄.contentsAt_eq (some p)

/-- A response that cannot be put into the tree changes nothing that is shown of requests. -/
theorem sameReport_of_insertResponse_error {cause : InsertError}
    (hnone : job.shownPosition = none → i.fragment = none)
    (h : (insertResponse job body).run i = .error cause j) : SameReport i j := by
  have hparsed := local_onTree (Markup.grows_buildFragment (Markup.tokenize body))
  have hremoved : ∀ fragment, Local (onTree (Markup.removeByTag fragment "script")) :=
    fun fragment => local_onTree (Arena.grows_removeByTag fragment "script")
  cases hjob : job.destination with
  | whole =>
    have hshown : job.shownPosition = none := by rw [Job.shownPosition, hjob]
    rw [insertResponse_eq_of_whole hjob] at h
    rcases cases_of_run_bind_eq_error h with h | ⟨fragment, i₁, hparse, h⟩
    · exact hparsed.of_error h
    have h₁ := hparsed.of_ok hparse
    rcases cases_of_run_bind_eq_error h with h | ⟨_, i₂, hremove, h⟩
    · exact h₁.trans ((hremoved fragment).of_error h)
    have h₂ := h₁.trans ((hremoved fragment).of_ok hremove)
    -- nothing was shown before, so nothing has to go that could not
    rw [run_bind_of_ok (run_replaceFragment (h₂.fragment_eq_none (hnone hshown)) fragment)] at h
    injection h
  | element id =>
    rw [insertResponse_eq hjob] at h
    rcases cases_of_run_bind_eq_error h with h | ⟨fragment, i₁, hparse, h⟩
    · exact hparsed.of_error h
    have h₁ := hparsed.of_ok hparse
    rcases cases_of_run_bind_eq_error h with h | ⟨_, i₂, hremove, h⟩
    · exact h₁.trans ((hremoved fragment).of_error h)
    have h₂ := h₁.trans ((hremoved fragment).of_ok hremove)
    rw [run_bind_of_ok (EStateM.run_get ..)] at h
    rcases cases_of_run_bind_eq_error h with h | ⟨_, i₃, hoccupy, h⟩
    · exact h₂.trans ((local_occupy job id _).of_error h)
    have h₃ := h₂.trans ((local_occupy job id _).of_ok hoccupy)
    rcases cases_of_run_bind_eq_error h with h | ⟨_, i₄, hfree, h⟩
    · exact h₃.trans ((local_onTree (Arena.grows_free fragment)).of_error h)
    -- once its nodes are in place the response is recorded in any case
    injection h

end Inlay.Instance
