import Inlay.Proofs.Scene.Later
import Inlay.Proofs.Scene.Opening

/-!
# Histories of an instance

`History observe t given M start sent s` is a run that leads to `s`, told from another side: it
keeps the options and the memory of observers that the instance was made with, and `sent` are the
requests that have been handed to the transport on the way, with the positions of their
placeholders. What happens outside the instance changes the memory as `M` allows.

What steps keep (`Lasting`) holds at the end of a history if it holds of every new instance.
-/

namespace Inlay.Scene

variable {σ : Type} {t : Template} {given : InstanceOptions} {M : σ → σ → Prop} {start : σ}
  {sent : List (Position × Outgoing)} {s : Scene σ} {observe : Observer σ}

/-- The states that an instance made under the given options can be in between steps, with what was
handed to the transport until then. -/
inductive History (observe : Observer σ) (t : Template) (given : InstanceOptions)
    (M : σ → σ → Prop) (start : σ) : List (Position × Outgoing) → Scene σ → Prop where
  /-- An instance is made, under an id that no request belongs to yet. -/
  | instantiate (id : Nat) {host host' : Host} {memory : σ} {inst : Instance} :
    host.requestsOf id = [] →
    (t.instantiate observe given id).run (host, start) = .ok inst (host', memory) →
    History observe t given M start [] ⟨inst, host', memory⟩
  | dispatch {sent : List (Position × Outgoing)} {s : Scene σ} (target : NodeId) (event : String) :
    History observe t given M start sent s →
    History observe t given M start sent (stateAfter (Scene.dispatch observe target event) s)
  /-- A request gets a turn, whether or not it is the one that has waited longest. -/
  | turn {sent : List (Position × Outgoing)} {s : Scene σ} (id : TaskId) (task : Task) :
    History observe t given M start sent s → (id, task) ∈ s.requests →
    History observe t given M start
      (sent ++ (s.handed? task).toList.map fun r => (task.job.position, r)) (s.turn observe id task)
  | collect {sent : List (Position × Outgoing)} {s : Scene σ} :
    History observe t given M start sent s →
    History observe t given M start sent (s.mapInst fun i => i.collect.2)
  /-- Time passes, signals are aborted, the transport learns other answers, other instances go
  on. -/
  | elsewhere {sent : List (Position × Outgoing)} {s : Scene σ} (host : Host) (memory : σ) :
    History observe t given M start sent s → s.host.SameRequests s.inst.id host →
    M s.memory memory → History observe t given M start sent { s with host, memory }

/-- A history with `sent` is a run with some `responses`. -/
theorem History.exists_run (h : History observe t given M start sent s) :
    ∃ responses, Run observe t responses s := by
  induction h with
  | instantiate id hfresh hmade => exact ⟨[], .instantiate given id hfresh hmade⟩
  | dispatch target event _ ih =>
    obtain ⟨responses, hrun⟩ := ih
    exact ⟨responses, hrun.dispatch target event⟩
  | turn id task _ hmem ih =>
    obtain ⟨responses, hrun⟩ := ih
    exact ⟨_, hrun.turn id task hmem⟩
  | collect _ ih =>
    obtain ⟨responses, hrun⟩ := ih
    exact ⟨responses, hrun.collect⟩
  | elsewhere host memory _ hhost _ ih =>
    obtain ⟨responses, hrun⟩ := ih
    exact ⟨responses, hrun.elsewhere host memory hhost⟩

/-- If `P` lasts and holds of every new instance, it holds after every history. -/
theorem History.of_lasting {P : Scene σ → Prop} (hP : Lasting fun s s' => P s → P s')
    (hobserve : Lawful observe)
    (hmade : ∀ {id host inst host' memory}, host.requestsOf id = [] →
      (t.instantiate observe given id).run (host, start) = .ok inst (host', memory) →
      P ⟨inst, host', memory⟩)
    (h : History observe t given M start sent s) : P s := by
  induction h with
  | instantiate id hfresh hrun => exact hmade hfresh hrun
  | dispatch target event _ ih => exact hP.dispatch hobserve target event _ ih
  | turn id task _ _ ih => exact hP.turn hobserve id task _ ih
  | collect _ ih => exact hP.inst _ _ (Instance.becomes_collect _) ih
  | elsewhere host memory _ hhost _ ih => exact hP.elsewhere _ host memory hhost ih

/-! ### A history to look at -/

/-- An event comes at the first child of the root. -/
def click (observe : Observer σ) (s : Scene σ) : Scene σ :=
  stateAfter (dispatch observe ((s.inst.arena.children s.inst.root).headD s.inst.root) "click") s

/-- The event comes twice, and each time the request that it starts gets a turn. -/
def clickTwice (observe : Observer σ) (s : Scene σ) :
    Option (List (Position × Outgoing) × Scene σ) := do
  let s := s.click observe
  let first ← s.host.task? ⟨0⟩
  let s' := (s.turn observe ⟨0⟩ first).click observe
  let second ← s'.host.task? ⟨1⟩
  let sent := (s.handed? first).toList.map fun r => (first.job.position, r)
  let sent' := (s'.handed? second).toList.map fun r => (second.job.position, r)
  if first.owner = s.inst.id ∧ second.owner = s'.inst.id then
    some (sent ++ sent', s'.turn observe ⟨1⟩ second)
  else none

/-- What `clickTwice` plays is a history, and `sent` is what it hands over. -/
theorem History.clickTwice {s' : Scene σ} (h : History observe t given M start [] s)
    (hclicked : s.clickTwice observe = some (sent, s')) :
    History observe t given M start sent s' := by
  unfold Scene.clickTwice at hclicked
  obtain ⟨first, hfirst, hclicked⟩ := Option.bind_eq_some_iff.mp hclicked
  obtain ⟨second, hsecond, hclicked⟩ := Option.bind_eq_some_iff.mp hclicked
  obtain ⟨⟨howner, howner'⟩, hclicked⟩ := Option.ite_none_right_eq_some.mp hclicked
  obtain ⟨rfl, rfl⟩ := Prod.mk.inj (Option.some.inj hclicked)
  have hanswered := (h.dispatch _ "click").turn ⟨0⟩ first (Host.mem_requestsOf.mpr ⟨hfirst, howner⟩)
  exact (hanswered.dispatch _ "click").turn ⟨1⟩ second
    (Host.mem_requestsOf.mpr ⟨hsecond, howner'⟩)

/-- `clickTwice` from the first instance that a host makes of a template. -/
def playTwice (observe : Observer σ) (t : Template) (given : InstanceOptions) (host : Host)
    (start : σ) : Option (List (Position × Outgoing) × Scene σ) :=
  match (t.instantiate observe given 0).run (host, start) with
  | .ok inst (host', memory) => clickTwice observe ⟨inst, host', memory⟩
  | .error _ _ => none

/-- What `playTwice` plays is a history from `start`, if no request has the owner `0` in `host`. -/
theorem History.of_playTwice {host : Host} (hfresh : host.requestsOf 0 = [])
    (hplayed : playTwice observe t given host start = some (sent, s)) :
    History observe t given M start sent s := by
  unfold playTwice at hplayed
  split at hplayed
  · rename_i inst host' memory hmade
    exact (History.instantiate 0 hfresh hmade).clickTwice hplayed
  · exact nomatch hplayed

end Inlay.Scene
