import Inlay.Proofs.Arena.Exchange
import Inlay.Instance.Response
import Inlay.Proofs.Instance.Records

/-!
# Putting a response into the tree

`insertResponse_spec`: where nodes hold the place of a placeholder (`Held`), putting a response
there never fails, and the nodes of the response take their place (`Answered`). Nothing else about
the instance changes, apart from what it keeps about that placeholder.
`insertResponse_spec_of_whole` is the same for a response that is shown as a whole (`Renewed`).
-/

namespace Inlay.Instance

variable {i j : Instance}

/-! ### Changes of the tree -/

/-- A step on the tree that succeeds leaves the instance as it is, but for `arena := b`. -/
theorem run_onTree {α : Type} {m : TreeM α} {x : α} {b : Arena} (h : m.run i.arena = .ok x b) :
    (onTree m).run i = .ok x { i with arena := b } := by
  rw [EStateM.run, onTree, h]

theorem stateAfter_onTree {α : Type} (m : TreeM α) (i : Instance) :
    stateAfter (onTree m) i = { i with arena := stateAfter m i.arena } := by
  unfold stateAfter
  rw [EStateM.run, onTree]
  cases m.run i.arena <;> rfl

/-- Between `i` and `j` only the tree and what is kept about responses has changed, and no slot has
gone. -/
structure Reworked (i j : Instance) : Prop where
  size_le : i.arena.slots.size ≤ j.arena.slots.size
  flight_eq : ∀ p, j.flight? p = i.flight? p
  rest : j = { i with arena := j.arena, fragment := j.fragment, requests := j.requests
                      regions := j.regions }

theorem Reworked.refl (i : Instance) : Reworked i i :=
  ⟨Nat.le_refl _, fun _ => rfl, rfl⟩

theorem Reworked.trans {k : Instance} (hij : Reworked i j) (hjk : Reworked j k) : Reworked i k where
  size_le := Nat.le_trans hij.size_le hjk.size_le
  flight_eq p := (hjk.flight_eq p).trans (hij.flight_eq p)
  rest := by
    rw [hjk.rest, hij.rest]

/-- Between `i` and `j` only the tree and the regions have changed, and no slot has gone. -/
structure Replanted (i j : Instance) : Prop where
  size_le : i.arena.slots.size ≤ j.arena.slots.size
  rest : j = { i with arena := j.arena, regions := j.regions }

theorem Replanted.refl (i : Instance) : Replanted i i :=
  ⟨Nat.le_refl _, rfl⟩

/-- One work on the tree after another is work on the tree. -/
theorem Replanted.trans {k : Instance} (hij : Replanted i j) (hjk : Replanted j k) :
    Replanted i k where
  size_le := Nat.le_trans hij.size_le hjk.size_le
  rest := by
    rw [hjk.rest, hij.rest]

theorem Replanted.reworked (h : Replanted i j) : Reworked i j where
  size_le := h.size_le
  flight_eq p := by
    rw [h.rest]
    rfl
  rest := by
    rw [h.rest]

/-- The change is confined to the tree and what is kept about responses. -/
def Confined {α : Type} (m : InsertM α) : Prop :=
  Keeps Reworked m

/-- The change is confined to the tree and the regions. -/
def Local {α : Type} (m : InsertM α) : Prop :=
  Keeps Replanted m

section Confined

variable {α β : Type}

theorem Local.bind {m : InsertM α} {f : α → InsertM β} (hm : Local m)
    (hf : ∀ x, Local (f x)) : Local (m >>= f) :=
  Keeps.bind (fun hij hjk => hij.trans hjk) hm hf

theorem Local.confined {m : InsertM α} (hm : Local m) : Confined m :=
  fun i => (hm i).reworked

theorem local_pure (x : α) : Local (pure x) :=
  keeps_pure Replanted.refl x

theorem local_throw (e : InsertError) : Local (throw e : InsertM α) :=
  keeps_throw Replanted.refl e

theorem local_get : Local get :=
  keeps_get Replanted.refl

theorem local_onTree {m : TreeM α} (h : Arena.Grows m) : Local (onTree m) := fun i => by
  rw [stateAfter_onTree]
  exact ⟨h i.arena, rfl⟩

/-- If both parts of `m >>= f` are confined to the tree, the regions and the responses, so is the
whole. -/
theorem Confined.bind {m : InsertM α} {f : α → InsertM β} (hm : Confined m)
    (hf : ∀ x, Confined (f x)) : Confined (m >>= f) :=
  Keeps.bind (fun hij hjk => hij.trans hjk) hm hf

theorem confined_pure (x : α) : Confined (pure x) :=
  (local_pure x).confined

theorem confined_get : Confined get :=
  local_get.confined

theorem confined_onTree {m : TreeM α} (h : Arena.Grows m) : Confined (onTree m) :=
  (local_onTree h).confined

/-- If the arena `Fits` in the end, it does so on the way, as it does not shrink. -/
theorem fits_of_bind {m : InsertM α} {f : α → InsertM β} (hf : ∀ x, Confined (f x))
    (h : (stateAfter (m >>= f) i).arena.Fits) : (stateAfter m i).arena.Fits :=
  h.mono (Keeps.after Reworked.refl hf i).size_le

theorem fits_after {m : InsertM α} {f : α → InsertM β} {x : α} (hrun : m.run i = .ok x j)
    (h : (stateAfter (m >>= f) i).arena.Fits) : (stateAfter (f x) j).arena.Fits := by
  rwa [stateAfter_bind_of_ok hrun] at h

theorem fits_onTree {m : TreeM α} {f : α → InsertM β} (hf : ∀ x, Confined (f x))
    (h : (stateAfter (onTree m >>= f) i).arena.Fits) : (stateAfter m i.arena).Fits := by
  have hm := fits_of_bind hf h
  rwa [stateAfter_onTree] at hm

end Confined

theorem local_replaceElement (p : Position) (id : NodeId) (nodes : List NodeId) :
    Local (replaceElement p id nodes) := by
  refine local_get.bind fun i => ?_
  split
  · exact local_throw _
  · exact (local_onTree (Arena.grows_insertAllBefore _ _ _)).bind fun _ =>
      (local_onTree (Arena.grows_free _)).bind fun _ => local_pure _

theorem local_trackedNodes (nodes : List NodeId) : Local (trackedNodes nodes) := by
  unfold trackedNodes
  split
  · exact (local_onTree (Arena.grows_create _)).bind fun _ => local_pure _
  · exact local_pure _

/-- Puts nodes in the place of those of a region, or of an element if there are none. -/
def rehouse (p : Position) (id : NodeId) (region : Region) (nodes : List NodeId) :
    InsertM Unit := do
  match region.parent, region.nodes.getLast? with
  | some parent, some last =>
    onTree (Arena.insertAllBefore parent last nodes)
    modify (·.setRegion p { region with nodes := [] })
    let _ ← onTree (Arena.freeLive region.nodes)
    modify (·.setRegion p { region with nodes })
  | _, _ =>
    let parent ← replaceElement p id nodes
    modify (·.setRegion p ⟨some parent, nodes⟩)

/-- To replace a region is to track its nodes, to put them in place, and to set the region. -/
theorem replaceRegion_eq (p : Position) (id : NodeId) (nodes : List NodeId) :
    replaceRegion p id nodes = (do
      let region := ((← get).region? p).getD {}
      modify (·.setRegion p region)
      rehouse p id region (← trackedNodes nodes)) :=
  rfl

theorem run_setRegion (p : Position) (r : Region) (i : Instance) :
    (modify (·.setRegion p r) : InsertM Unit).run i = .ok () (i.setRegion p r) :=
  rfl

theorem local_setRegion (p : Position) (r : Region) :
    Local (modify (·.setRegion p r) : InsertM Unit) :=
  keeps_modify fun _ => ⟨Nat.le_refl _, rfl⟩

theorem local_rehouse (p : Position) (id : NodeId) (region : Region) (nodes : List NodeId) :
    Local (rehouse p id region nodes) := by
  unfold rehouse
  split
  · exact (local_onTree (Arena.grows_insertAllBefore _ _ _)).bind fun _ =>
      (local_setRegion p _).bind fun _ => (local_onTree (Arena.grows_freeLive _)).bind fun _ =>
        local_setRegion p _
  · exact (local_replaceElement p id _).bind fun _ => local_setRegion p _

theorem local_replaceRegion (p : Position) (id : NodeId) (nodes : List NodeId) :
    Local (replaceRegion p id nodes) :=
  local_get.bind fun _ => (local_setRegion p _).bind fun _ =>
    (local_trackedNodes nodes).bind fun _ => local_rehouse p id _ _

theorem confined_show (fragment : NodeId) :
    Confined (modify ({ · with fragment := some fragment }) : InsertM Unit) :=
  keeps_modify fun _ => ⟨Nat.le_refl _, fun _ => rfl, rfl⟩

theorem confined_replaceFragment (fragment : NodeId) : Confined (replaceFragment fragment) :=
  confined_get.bind fun _ =>
    (confined_show fragment).bind fun _ =>
      (confined_onTree (Arena.grows_freeLive _)).bind fun _ => confined_pure _

/-- What follows when the nodes of a response are in place. -/
def conclude (job : Job) (fragment : NodeId) (nodes : List NodeId) :
    InsertM (List Notification) := do
  onTree (Arena.free fragment)
  modify (·.updateRecord job.position ({ · with response := some nodes }))
  return [.nodes nodes job.position, .root (← get).root]

/-- In the end the fragment goes, `nodes` are recorded as the response, and two notifications are
due. -/
theorem run_conclude {fragment : NodeId} {c : Arena}
    (h : (Arena.free fragment).run i.arena = .ok () c) (job : Job) (nodes : List NodeId) :
    (conclude job fragment nodes).run i = .ok [.nodes nodes job.position, .root i.root]
        (updateRecord { i with arena := c } job.position ({ · with response := some nodes })) :=
  run_bind_of_ok (run_onTree h) _

theorem confined_respond (p : Position) (response : Option (List NodeId)) :
    Confined (modify (·.updateRecord p ({ · with response })) : InsertM Unit) := by
  refine keeps_modify fun i => ⟨Nat.le_refl _, fun q => ?_, rfl⟩
  have hflight := flight?_updateRecord (f := ({ · with response })) (g := fun x => x)
    (fun _ => rfl) (fun _ => rfl) i p q
  simpa using hflight

theorem confined_conclude (job : Job) (fragment : NodeId) (nodes : List NodeId) :
    Confined (conclude job fragment nodes) :=
  (confined_onTree (Arena.grows_free _)).bind fun _ =>
    (confined_respond job.position (some nodes)).bind fun _ => confined_get.bind fun _ =>
      confined_pure _

/-- Puts nodes where the response to a job goes. -/
def occupy (job : Job) (id : NodeId) (nodes : List NodeId) : InsertM Unit :=
  if job.tracked then replaceRegion job.position id nodes
  else do let _ ← replaceElement job.position id nodes

theorem local_occupy (job : Job) (id : NodeId) (nodes : List NodeId) :
    Local (occupy job id nodes) := by
  unfold occupy
  split
  · exact local_replaceRegion job.position id nodes
  · exact (local_replaceElement job.position id nodes).bind fun _ => local_pure _

theorem confined_occupy (job : Job) (id : NodeId) (nodes : List NodeId) :
    Confined (occupy job id nodes) :=
  (local_occupy job id nodes).confined

/-- With `destination = .element id`, a response is parsed, loses its scripts, takes its place and
is recorded. -/
theorem insertResponse_eq {job : Job} {id : NodeId} (hjob : job.destination = .element id)
    (body : String) :
    insertResponse job body = (do
      let fragment ← onTree (Markup.parse body)
      let _ ← onTree (Markup.removeByTag fragment "script")
      let nodes := (← get).arena.children fragment
      occupy job id nodes
      conclude job fragment nodes) := by
  unfold insertResponse occupy conclude
  rw [hjob]
  cases job.tracked with
  | true => rfl
  | false => simp only [Bool.false_eq_true, if_false, bind_assoc, pure_bind]

/-- Putting a response into the tree changes the tree, the regions, the responses and the fragment
only. -/
theorem confined_insertResponse (job : Job) (body : String) :
    Confined (insertResponse job body) := by
  cases hjob : job.destination with
  | whole =>
    unfold insertResponse
    rw [hjob]
    exact (confined_onTree (Markup.grows_buildFragment _)).bind fun fragment =>
      (confined_onTree (Arena.grows_removeByTag _ _)).bind fun _ =>
        (confined_replaceFragment fragment).bind fun _ => confined_pure _
  | element id =>
    rw [insertResponse_eq hjob]
    exact (confined_onTree (Markup.grows_buildFragment _)).bind fun fragment =>
      (confined_onTree (Arena.grows_removeByTag _ _)).bind fun _ => confined_get.bind fun _ =>
        (confined_occupy job id _).bind fun _ => confined_conclude job fragment _

/-! ### One place -/

section Place

variable {a : Arena} {p : Position} {id fragment parent r : NodeId} {nodes olds : List NodeId}
  {trees : List Tree}

/-- The nodes take the place of the element `id`, and their parent is what is returned. -/
theorem replaceElement_spec (h : i.arena.Sound) (hr : i.arena.Replaces parent [id] nodes) :
    ∃ c, (replaceElement p id nodes).run i = .ok parent { i with arena := c } ∧
      i.arena.Spliced c parent id [id] nodes := by
  have hparent := hr.parent_eq id List.mem_cons_self
  have hnew : id ∉ nodes := fun hm => hr.not_mem id hm List.mem_cons_self
  obtain ⟨b, hrun₁, hinserted⟩ := Arena.insertAllBefore_spec h hparent
    (List.nodup_cons.mpr ⟨hnew, hr.nodup⟩) fun x hx => ⟨hr.live x hx, hr.not_above x hx⟩
  rcases Arena.free_spec hinserted.sound id with ⟨hdead, -⟩ | ⟨-, c, hrun₂, hfreed⟩
  · exact absurd ((hinserted.live id).trans (Arena.Up.live hparent)) (Arena.not_live_of_dead hdead)
  · refine ⟨c, ?_, hinserted.spliced h hr List.mem_cons_self
      (hfreed.pruned hfreed.sound.pruned_nil)⟩
    unfold replaceElement
    rw [run_bind_of_ok (EStateM.run_get ..)]
    simp only [hparent]
    rw [run_bind_of_ok (run_onTree hrun₁), run_bind_of_ok (run_onTree hrun₂)]
    rfl

/-- A tracked placeholder gets nodes in any case, those of an empty comment for `trees = []`. -/
theorem trackedNodes_spec (h : a.Prepared i.arena fragment nodes trees)
    (hfit : (stateAfter (trackedNodes nodes) i).arena.Fits) :
    ∃ b news, (trackedNodes nodes).run i = .ok news { i with arena := b } ∧
      a.Prepared b fragment news (if trees = [] then [.node (.comment "") []] else trees) ∧
      (trees ≠ [] → news = nodes) := by
  have hlength := h.shows.length_eq
  cases nodes with
  | nil =>
    obtain rfl := List.length_eq_zero_iff.mp hlength.symm
    obtain ⟨c, b, hrun, hc⟩ :=
      Arena.create_spec h.sound (.comment "") (fits_onTree (fun _ => confined_pure _) hfit)
    exact ⟨b, [c], run_bind_of_ok (run_onTree hrun) _, h.comment hc, fun hne => absurd rfl hne⟩
  | cons n ns =>
    have hne : trees ≠ [] := by
      rintro rfl
      exact absurd hlength (by simp)
    rw [if_neg hne]
    exact ⟨i.arena, n :: ns, rfl, h, fun _ => rfl⟩

/-- Between `i` and `j` only the tree changes and what is kept about the region of `p`, which now is
`news` below `parent`. -/
structure Rehoused (i j : Instance) (p : Position) (parent : NodeId) (news : List NodeId) :
    Prop where
  region : ∀ q, j.region? q = if q = p then some ⟨some parent, news⟩ else i.region? q
  rest : j = { i with arena := j.arena, regions := j.regions }

/-- The nodes take the place of those of a region, or of the element, `olds`, and the region is
set. -/
theorem rehouse_spec {region : Region} (h : i.arena.Sound) (hr : i.arena.Replaces parent olds nodes)
    (hlast : olds.getLast? = some r)
    (hplace : olds = [id] ∧ region = {} ∨ region = ⟨some parent, olds⟩) :
    ∃ j, (rehouse p id region nodes).run i = .ok () j ∧
      i.arena.Spliced j.arena parent r olds nodes ∧ Rehoused i j p parent nodes := by
  have hmem := List.mem_of_getLast? hlast
  rcases hplace with ⟨rfl, rfl⟩ | rfl
  · obtain rfl := List.mem_singleton.mp hmem
    obtain ⟨c, hrun, hspliced⟩ := replaceElement_spec (p := p) h hr
    refine ⟨_, run_bind_of_ok hrun _, hspliced, fun q => ?_, rfl⟩
    exact region?_setRegion { i with arena := c } p q ⟨some parent, nodes⟩
  · have hnew : r ∉ nodes := fun hm => hr.not_mem r hm hmem
    obtain ⟨b, hrun₁, hinserted⟩ := Arena.insertAllBefore_spec h (hr.parent_eq r hmem)
      (List.nodup_cons.mpr ⟨hnew, hr.nodup⟩) fun x hx => ⟨hr.live x hx, hr.not_above x hx⟩
    obtain ⟨count, c, hrun₂, hpruned⟩ := Arena.freeLive_spec olds hinserted.sound
    have hspliced := hinserted.spliced h hr hmem hpruned
    -- the region has no nodes while they are freed
    let emptied := setRegion { i with arena := b } p ⟨some parent, []⟩
    have hrun₃ : (onTree (Arena.freeLive olds)).run emptied =
        .ok count { emptied with arena := c } :=
      run_onTree hrun₂
    refine ⟨setRegion { emptied with arena := c } p ⟨some parent, nodes⟩, ?_, hspliced, fun q => ?_,
      rfl⟩
    · unfold rehouse
      simp only [hlast]
      rw [run_bind_of_ok (run_onTree hrun₁), run_bind_of_ok (run_setRegion p _ _),
        run_bind_of_ok hrun₃]
      rfl
    · rw [region?_setRegion]
      by_cases hq : q = p
      · rw [if_pos hq, if_pos hq]
      · rw [if_neg hq, if_neg hq]
        exact region?_setRegion_of_ne { i with arena := b } hq ⟨some parent, []⟩

/-- Nodes take the place `olds` of a tracked placeholder, which is its element at first and its
region then. -/
theorem replaceRegion_spec (ha : a.Sound) (hp : a.Prepared i.arena fragment nodes trees)
    (hlast : olds.getLast? = some r) (holds : ∀ d ∈ olds, a.parent? d = some parent)
    (hparent : a.isLive parent)
    (hplace : olds = [id] ∧ i.region? p = none ∨ i.region? p = some ⟨some parent, olds⟩)
    (hfit : (stateAfter (replaceRegion p id nodes) i).arena.Fits) :
    ∃ b news j, (replaceRegion p id nodes).run i = .ok () j ∧
      a.Prepared b fragment news (if trees = [] then [.node (.comment "") []] else trees) ∧
      (trees ≠ [] → news = nodes) ∧ b.Spliced j.arena parent r olds news ∧
      Rehoused i j p parent news := by
  have hmem := List.mem_of_getLast? hlast
  rw [replaceRegion_eq] at hfit ⊢
  have hfit₁ := fits_after (EStateM.run_get ..) hfit
  rw [run_bind_of_ok (EStateM.run_get ..)]
  generalize hregion : (i.region? p).getD {} = region at hfit₁ ⊢
  have hfit₂ := fits_after (run_setRegion p region i) hfit₁
  rw [run_bind_of_ok (run_setRegion p region i)]
  have hp' : a.Prepared (i.setRegion p region).arena fragment nodes trees := hp
  -- noting an empty region has not changed the tree, so the nodes are still prepared
  obtain ⟨b, news, hrun, hnews, hsame⟩ := trackedNodes_spec hp'
    (fits_of_bind (fun _ => (local_rehouse p id region _).confined) hfit₂)
  rw [run_bind_of_ok hrun]
  have hplace' : olds = [id] ∧ region = {} ∨ region = ⟨some parent, olds⟩ := by
    rcases hplace with ⟨hid, hnone⟩ | hsome
    · exact Or.inl ⟨hid, by rw [← hregion, hnone]; rfl⟩
    · exact Or.inr (by rw [← hregion, hsome]; rfl)
  obtain ⟨j, hrun', hspliced, hrehoused⟩ :=
    rehouse_spec (i := { i.setRegion p region with arena := b }) (p := p)
      hnews.sound (hnews.replaces ha hparent holds) hlast hplace'
  refine ⟨b, news, j, hrun', hnews, hsame, hspliced, fun q => ?_, ?_⟩
  · rw [hrehoused.region]
    by_cases hq : q = p
    · rw [if_pos hq, if_pos hq]
    · rw [if_neg hq, if_neg hq]
      exact region?_setRegion_of_ne i hq region
  · rw [hrehoused.rest]
    rfl

end Place

/-! ### A response -/

section Answered

variable {job : Job} {id parent r : NodeId} {olds news : List NodeId} {body : String}

/-- The nodes `olds`, of which `r` is the last, are children of `parent` and hold the place of the
placeholder of a job, whose element is or was `id`. -/
structure Held (i : Instance) (job : Job) (id parent r : NodeId) (olds : List NodeId) : Prop where
  last : olds.getLast? = some r
  parent_eq : ∀ d ∈ olds, i.arena.parent? d = some parent
  place : olds = [id] ∧ (job.tracked = true → i.region? job.position = none) ∨
    job.tracked = true ∧ i.region? job.position = some ⟨some parent, olds⟩

/-- What is recorded of a response whose nodes, or the comment that keeps its place, are `news`. -/
def recorded (body : String) (news : List NodeId) : List NodeId :=
  if contentTrees body = [] then [] else news

/-- `j` is `i` with the nodes `news` of a response to a job in the place of `olds`. -/
structure Answered (i j : Instance) (job : Job) (body : String) (parent r : NodeId)
    (olds news : List NodeId) : Prop where
  exchanged : i.arena.Exchanged j.arena parent r olds news (outputTrees job.tracked body)
  region : ∀ q, j.region? q =
    if job.tracked = true ∧ q = job.position then some ⟨some parent, news⟩ else i.region? q
  rest : j = { i.updateRecord job.position ({ · with response := some (recorded body news) }) with
    arena := j.arena, regions := j.regions }

theorem Answered.root_eq (h : Answered i j job body parent r olds news) : j.root = i.root := by
  rw [h.rest]
  rfl

/-- The response is recorded at `job.position`, and no other one changes. -/
theorem Answered.response?_eq (h : Answered i j job body parent r olds news)
    (hrecord : (i.record? job.position).isSome) (q : Position) : j.response? q =
      if q = job.position then some (recorded body news) else i.response? q := by
  rw [h.rest]
  exact response?_respond hrecord (some (recorded body news)) q

/-- The nodes of a response take the place `olds`, whether it is tracked or not. -/
theorem occupy_spec {a : Arena} {fragment : NodeId} {nodes : List NodeId} (ha : a.Sound)
    (hp : a.Prepared i.arena fragment nodes (contentTrees body))
    (hlast : olds.getLast? = some r) (holds : ∀ d ∈ olds, a.parent? d = some parent)
    (hparent : a.isLive parent)
    (hplace : olds = [id] ∧ (job.tracked = true → i.region? job.position = none) ∨
      job.tracked = true ∧ i.region? job.position = some ⟨some parent, olds⟩)
    (hfit : (stateAfter (occupy job id nodes) i).arena.Fits) :
    ∃ b news j, (occupy job id nodes).run i = .ok () j ∧
      a.Prepared b fragment news (outputTrees job.tracked body) ∧
      (contentTrees body ≠ [] → news = nodes) ∧ b.Spliced j.arena parent r olds news ∧
      (∀ q, j.region? q =
        if job.tracked = true ∧ q = job.position then some ⟨some parent, news⟩ else i.region? q) ∧
      j = { i with arena := j.arena, regions := j.regions } := by
  unfold occupy at hfit ⊢
  by_cases ht : job.tracked = true
  · rw [if_pos ht] at hfit ⊢
    have hplace' : olds = [id] ∧ i.region? job.position = none ∨
        i.region? job.position = some ⟨some parent, olds⟩ :=
      hplace.imp (fun h => ⟨h.1, h.2 ht⟩) fun h => h.2
    obtain ⟨b, news, j, hrun, hnews, hsame, hspliced, hrehoused⟩ :=
      replaceRegion_spec ha hp hlast holds hparent hplace' hfit
    refine ⟨b, news, j, hrun, ?_, hsame, hspliced, fun q => ?_, hrehoused.rest⟩
    · simpa [outputTrees, ht] using hnews
    · simpa [ht] using hrehoused.region q
  · rw [if_neg ht]
    rcases hplace with ⟨rfl, -⟩ | ⟨ht', -⟩
    · obtain rfl := List.mem_singleton.mp (List.mem_of_getLast? hlast)
      obtain ⟨c, hrun, hspliced⟩ :=
        replaceElement_spec (p := job.position) hp.sound (hp.replaces ha hparent holds)
      -- an untracked placeholder has no region, and no comment keeps its place
      refine ⟨i.arena, nodes, { i with arena := c }, run_bind_of_ok hrun _, ?_, fun _ => rfl,
        hspliced, fun q => ?_, rfl⟩
      · simpa [outputTrees, ht] using hp
      · simp [ht]
        rfl
    · exact absurd ht' ht

/-- Putting a response into the tree never fails where the nodes `olds` hold the place under
`parent`. -/
theorem insertResponse_spec (h : i.arena.Sound) (hjob : job.destination = .element id)
    (hheld : i.Held job id parent r olds)
    (hfit : (stateAfter (insertResponse job body) i).arena.Fits) :
    ∃ ns j news, (insertResponse job body).run i = .ok ns j ∧
      Answered i j job body parent r olds news := by
  rw [insertResponse_eq hjob] at hfit ⊢
  have hparent : i.arena.isLive parent :=
    Arena.Up.parent_live h.forest (hheld.parent_eq r (List.mem_of_getLast? hheld.last))
  have hlater : ∀ fragment nodes, Confined (do occupy job id nodes; conclude job fragment nodes) :=
    fun fragment nodes => (confined_occupy job id nodes).bind fun _ =>
      confined_conclude job fragment nodes
  -- an arena only grows, so what fits in the end fits after each step before
  have hfit₁ : (stateAfter (Markup.parse body) i.arena).Fits :=
    fits_onTree (fun fragment => (confined_onTree (Arena.grows_removeByTag fragment "script")).bind
      fun _ => confined_get.bind fun i => hlater fragment (i.arena.children fragment)) hfit
  obtain ⟨fragment, a₁, count, x, hparse, hremove, hp⟩ := Arena.prepare_spec h body hfit₁
  have hrun₁ := run_onTree hparse
  have hrun₂ : (onTree (Markup.removeByTag fragment "script")).run { i with arena := a₁ }
      = .ok count { i with arena := x } := run_onTree hremove
  have hfit₂ := fits_after hrun₁ hfit
  have hfit₃ := fits_after hrun₂ hfit₂
  have hfit₄ := fits_after (EStateM.run_get ..) hfit₃
  have hfit₅ := fits_of_bind (fun _ => confined_conclude job fragment _) hfit₄
  obtain ⟨b, news, j, hrun₃, hnews, hsame, hspliced, hregion, hj⟩ :=
    occupy_spec (i := { i with arena := x }) h hp hheld.last hheld.parent_eq hparent
      hheld.place hfit₅
  obtain ⟨c, hfree, hexchanged⟩ := hnews.exchanged h hparent hheld.parent_eq hspliced
  -- the comment that keeps an empty place is not part of what is recorded
  have hrecorded : x.children fragment = recorded body news := by
    rw [recorded]
    split
    · rename_i hnil
      have hlength := hp.shows.length_eq
      rw [hnil] at hlength
      exact List.length_eq_zero_iff.mp hlength
    · rename_i hne
      exact (hsame hne).symm
  have hrun₄ := run_conclude hfree job (x.children fragment)
  refine ⟨[.nodes (x.children fragment) job.position, .root j.root],
    updateRecord { j with arena := c } job.position
      ({ · with response := some (x.children fragment) }),
    news, ?_, hexchanged, hregion, ?_⟩
  · rw [run_bind_of_ok hrun₁, run_bind_of_ok hrun₂, run_bind_of_ok (EStateM.run_get ..),
      run_bind_of_ok hrun₃, hrun₄]
  · rw [← hrecorded, hj]
    rfl

end Answered

/-! ### A response that is shown as a whole -/

section Renewed

variable {job : Job} {body : String}

/-- `j` is `i` showing a new fragment, the one that was shown before being gone. -/
structure Renewed (i j : Instance) (fragment : NodeId) : Prop where
  sound : j.arena.Sound
  fresh : i.arena.get? fragment = none
  top : j.arena.IsTop fragment
  kept : ∀ n, i.arena.IsTop n → i.fragment ≠ some n → j.arena.IsTop n
  tops : ∀ n, j.arena.IsTop n → n = fragment ∨ i.arena.IsTop n ∧ i.fragment ≠ some n
  rest : j = { i with arena := j.arena, fragment := some fragment }

/-- With `destination = .whole`, a response is parsed, loses its scripts, and is shown as a
whole. -/
theorem insertResponse_eq_of_whole (hjob : job.destination = .whole) (body : String) :
    insertResponse job body = (do
      let fragment ← onTree (Markup.parse body)
      let _ ← onTree (Markup.removeByTag fragment "script")
      replaceFragment fragment
      return [.fragment fragment]) := by
  unfold insertResponse
  rw [hjob]

/-- A prepared `fragment` takes the place of the one that is shown, which is freed. -/
theorem replaceFragment_spec {a : Arena} {fragment : NodeId} {trees : List Tree}
    (hp : a.Prepared i.arena fragment (i.arena.children fragment) trees)
    (hlive : ∀ f, i.fragment = some f → a.isLive f) :
    ∃ j, (replaceFragment fragment).run i = .ok () j ∧
      Renewed { i with arena := a } j fragment := by
  obtain ⟨count, c, hrun, hpruned⟩ := Arena.freeLive_spec i.fragment.toList hp.sound
  -- the new fragment was made while the old one was live, so they are different
  have hfragment : ∀ d ∈ i.fragment.toList, d ≠ fragment := by
    intro d hd
    exact hp.ne_fragment (hlive d (Option.mem_toList.mp hd))
  have hstays : ∀ n, i.arena.IsTop n → n ∉ i.fragment.toList → c.IsTop n := by
    intro n hn hnot
    have hnot' : ∀ d ∈ i.fragment.toList, ¬ i.arena.Under d n := by
      rintro d hd hunder
      exact hnot ((Arena.under_iff_of_top hn.2).mp hunder ▸ hd)
    obtain ⟨node, hnode⟩ := Arena.isLive_iff.mp hn.1
    refine ⟨Arena.isLive_iff.mpr ⟨_, (hpruned.kept n hnot').trans (by rw [hnode, Option.map_some])⟩,
      ?_⟩
    rw [hpruned.parent hnot', hn.2]
  refine ⟨{ i with arena := c, fragment := some fragment }, ?_, ?_⟩
  · have hrun' : (onTree (Arena.freeLive i.fragment.toList)).run
        { i with fragment := some fragment } =
          .ok count { i with arena := c, fragment := some fragment } := run_onTree hrun
    exact run_bind_of_ok hrun' _
  constructor
  case sound => exact hpruned.sound
  case fresh => exact hp.fresh_fragment
  case top => exact hstays fragment ⟨hp.live, hp.top⟩ fun hm => hfragment fragment hm rfl
  case kept =>
    intro n hn hne
    refine hstays n ?_ fun hm => hne (Option.mem_toList.mp hm)
    obtain ⟨node, hnode⟩ := Arena.isLive_iff.mp hn.1
    exact ⟨Arena.isLive_iff.mpr ⟨node, hp.kept n node hnode⟩, (hp.kept.parent? n hn.1).trans hn.2⟩
  case tops =>
    intro n hn
    obtain ⟨hn', hnot⟩ := hpruned.isTop hn
    rcases hp.tops n hn' with rfl | hchild | htop
    · exact Or.inl rfl
    · have hup := hp.sound.forest.parent_of_mem hchild
      rw [hn'.2] at hup
      exact absurd hup (by simp)
    · refine Or.inr ⟨htop, fun hshown => ?_⟩
      exact hnot n (Option.mem_toList.mpr hshown) (Arena.Under.refl n)
  case rest => rfl

/-- Showing a response as a whole never fails, and what is shown is `fragment`, a new one. -/
theorem insertResponse_spec_of_whole (h : i.arena.Sound) (hjob : job.destination = .whole)
    (hlive : ∀ f, i.fragment = some f → i.arena.isLive f)
    (hfit : (stateAfter (insertResponse job body) i).arena.Fits) :
    ∃ ns j fragment, (insertResponse job body).run i = .ok ns j ∧ Renewed i j fragment := by
  rw [insertResponse_eq_of_whole hjob] at hfit ⊢
  have hfit₁ : (stateAfter (Markup.parse body) i.arena).Fits :=
    fits_onTree (fun fragment => (confined_onTree (Arena.grows_removeByTag fragment "script")).bind
      fun _ => (confined_replaceFragment fragment).bind fun _ => confined_pure _) hfit
  obtain ⟨fragment, a₁, count, x, hparse, hremove, hp⟩ := Arena.prepare_spec h body hfit₁
  have hrun₂ : (onTree (Markup.removeByTag fragment "script")).run { i with arena := a₁ }
      = .ok count { i with arena := x } := run_onTree hremove
  obtain ⟨j, hrun₃, hrenewed⟩ := replaceFragment_spec (i := { i with arena := x }) hp hlive
  refine ⟨[.fragment fragment], j, fragment, ?_, hrenewed⟩
  rw [run_bind_of_ok (run_onTree hparse), run_bind_of_ok hrun₂, run_bind_of_ok hrun₃]
  rfl

end Renewed

end Inlay.Instance
