import Inlay.Proofs.Arena.Prune
import Inlay.Proofs.Arena.Recycling

/-!
# Freed slots

Freeing a node takes away the node and everything below it, and nothing else is different
(`Vacated`). The slots come on top of the vacant ones as they are freed: those of the nodes below in
document order, then that of the node itself.

* `vacated_of_reachable`: this holds of every live node of a reachable arena. The nodes that are
  made next stand in the freed slots, the one freed last first, and their ids are those of the freed
  nodes with the next generation.
* `Trace.fills`: in any arena, as long as nothing is freed, new nodes take the vacant slots in the
  order in which they are listed.
-/

namespace Inlay

/-- The id of the next node in the slot of a freed one. -/
def NodeId.next (id : NodeId) : NodeId where
  index := id.index
  generation := id.generation + 1

namespace Arena

variable {a b c : Arena} {log : List Event} {id : NodeId}

/-! ### Vacating slots -/

theorem vacant_update (id : NodeId) (f : Node → Node) (a : Arena) :
    (stateAfter (update id f) a).vacant = a.vacant := by
  unfold update
  rw [stateAfter_bind_of_ok (EStateM.run_get ..)]
  split
  · rfl
  · split <;> rfl

/-- Taking a node out of its parent leaves `vacant` as it is. -/
theorem vacant_detach (id : NodeId) (a : Arena) :
    (stateAfter (detach id) a).vacant = a.vacant := by
  have hkeeps : Keeps (fun a b : Arena => b.vacant = a.vacant) (detach id) := by
    refine Keeps.bind (fun h h' => h'.trans h) (keeps_get fun _ => rfl) fun a => ?_
    split
    · exact keeps_pure (R := fun a b : Arena => b.vacant = a.vacant) (fun _ => rfl) _
    · exact Keeps.bind (fun h h' => h'.trans h) (vacant_update _ _) fun _ => vacant_update _ _
  exact hkeeps a

/-- Each slot comes on top of those vacated before it, so `ids` are there in reverse. -/
theorem vacant_releaseAll (ids : List NodeId) (a : Arena) :
    (ids.foldl (fun a n => a.release n.index) a).vacant
      = ids.reverse.map (·.index) ++ a.vacant := by
  induction ids generalizing a with
  | nil => rfl
  | cons id ids ih =>
    rw [List.foldl_cons, ih, List.reverse_cons, List.map_append, List.append_assoc]
    rfl

theorem frees_map_freed (i : UInt32) (ids : List NodeId) :
    frees i (ids.map .freed) = (ids.map (·.index)).count i := by
  rw [frees, List.countP_map, List.count, List.countP_map]
  rfl

/-- Freeing different live nodes raises the generation of each of their slots by one,
`n.generation + 1`. -/
theorem generationAt_releaseAll (ha : a.Accounted) {ids : List NodeId} (hnd : ids.Nodup)
    (hlive : ∀ id ∈ ids, a.isLive id) {n : NodeId} (hn : n ∈ ids) :
    (ids.foldl (fun a n => a.release n.index) a).generationAt n.index = n.generation + 1 := by
  have hinj : (ids.map (·.index)).Nodup := by
    refine List.Nodup.map_on (fun x hx y hy he => ?_) hnd
    exact eq_of_index_eq (hlive x hx) (hlive y hy) he
  have hone : frees n.index (ids.map .freed) = 1 := by
    rw [frees_map_freed]
    exact List.count_eq_one_of_mem hinj (List.mem_map_of_mem hn)
  obtain ⟨node, hnode⟩ := isLive_iff.mp (hlive n hn)
  rw [(trace_releaseAll ha hnd hlive).generationAt, generationAt_of_get? hnode, hone]
  rfl

/-! ### Filling slots -/

/-- A new node takes the slot on top, `i`, with the generation that it has. -/
theorem alloc_of_vacant {i : UInt32} {rest : List UInt32} (h : a.vacant = i :: rest)
    (kind : NodeKind) :
    (a.alloc kind).1 = ⟨i, a.generationAt i⟩ ∧ (a.alloc kind).2.vacant = rest := by
  unfold alloc generationAt
  rw [h]
  exact ⟨rfl, rfl⟩

theorem frees_eq_zero (h : ∀ id, .freed id ∉ log) (i : UInt32) : frees i log = 0 := by
  rw [frees, List.countP_eq_zero]
  intro e he
  cases e with
  | made id => exact Bool.false_ne_true
  | freed id => exact absurd he (h id)

/-- As long as nothing is freed, new nodes take the slots from the front of `a.vacant`. -/
theorem Trace.fills (h : Trace a log b) :
    (∀ id, .freed id ∉ log) → log.length ≤ a.vacant.length →
    log = (a.vacant.take log.length).map (fun i => .made ⟨i, a.generationAt i⟩) ∧
      b.vacant = a.vacant.drop log.length := by
  induction h with
  | refl => exact fun _ _ => ⟨rfl, rfl⟩
  | change f _ _ ih => exact ih
  | @step log b e c hb hstep ih =>
    intro hnone hlen
    have hnone' : ∀ id, .freed id ∉ log := fun id hm => hnone id (List.mem_append_left _ hm)
    rw [List.length_append, List.length_singleton] at hlen
    obtain ⟨hlog, hvacant⟩ := ih hnone' (by omega)
    have hnext : log.length < a.vacant.length := by omega
    rw [List.drop_eq_getElem_cons hnext] at hvacant
    cases hstep with
    | release hlive => exact absurd (List.mem_append_right _ List.mem_cons_self) (hnone _)
    | make kind =>
      -- the slot on top of the vacant ones, and its generation is still that of the beginning
      obtain ⟨hid, hrest⟩ := alloc_of_vacant hvacant kind
      rw [hb.generationAt, frees_eq_zero hnone', show UInt32.ofNat 0 = 0 from rfl,
        UInt32.add_zero] at hid
      rw [List.length_append, List.length_singleton, hrest, hid]
      refine ⟨?_, rfl⟩
      rw [List.take_succ_eq_append_getElem hnext, List.map_append, ← hlog]
      rfl

/-- The slots of nodes `ids` that were freed are the next to be used, in the order of
`ids.reverse`. -/
theorem Trace.refills (ha : a.Accounted) {ids : List NodeId} (hnd : ids.Nodup)
    (hlive : ∀ id ∈ ids, a.isLive id)
    (h : Trace (ids.foldl (fun a n => a.release n.index) a) log b) (hnone : ∀ n, .freed n ∉ log)
    (hlen : log.length ≤ ids.reverse.length) :
    log = (ids.reverse.take log.length).map fun n => .made n.next := by
  have hlen' : log.length ≤ (ids.reverse.map (·.index)).length := by rwa [List.length_map]
  obtain ⟨hlog, -⟩ := h.fills hnone (by
    rw [vacant_releaseAll, List.length_append]
    omega)
  rw [vacant_releaseAll, List.take_append_of_le_length hlen', ← List.map_take,
    List.map_map] at hlog
  refine hlog.trans (List.map_congr_left fun n hn => ?_)
  have hmem : n ∈ ids := List.mem_reverse.mp (List.mem_of_mem_take hn)
  rw [Function.comp, generationAt_releaseAll ha hnd hlive hmem, NodeId.next]

/-- Nodes made one after the other leave a log of nothing but that, `ids.map .made`. -/
theorem exists_trace_createAll : ∀ (kinds : List NodeKind) (a : Arena),
    ∃ ids b, (kinds.mapM create).run a = .ok ids b ∧ ids.length = kinds.length ∧
      Trace a (ids.map .made) b
  | [], a => ⟨[], a, rfl, rfl, .refl⟩
  | kind :: kinds, a => by
    obtain ⟨ids, b, hrun, hlen, htrace⟩ := exists_trace_createAll kinds (a.alloc kind).2
    have hfirst : (create kind).run a = .ok (a.alloc kind).1 (a.alloc kind).2 := rfl
    refine ⟨(a.alloc kind).1 :: ids, b, ?_, ?_, ?_⟩
    · rw [List.mapM_cons, run_bind_of_ok hfirst, run_bind_of_ok hrun]
      rfl
    · rw [List.length_cons, hlen, List.length_cons]
    · exact (Trace.refl.step (.make kind)).trans htrace

/-! ### Freeing a node -/

theorem Freed.isLive_iff (h : Freed a b id) (hid : a.isLive id) (n : NodeId) :
    a.isLive n ↔ b.isLive n ∨ a.Under id n := by
  by_cases hn : a.Under id n
  · exact ⟨fun _ => Or.inr hn, fun _ => hn.live hid⟩
  · rw [or_iff_left hn, isLive, isLive, h.kept n hn, Option.isSome_map]

/-- Freeing a node takes it and its descendants out of the count,
`b.live + (id :: a.descendants id).length = a.live`. -/
theorem Freed.live_eq (h : Freed a b id) (ha : a.Sound) (hfit : a.Fits) (hid : a.isLive id) :
    b.live + (id :: a.descendants id).length = a.live := by
  have hfit' : b.Fits := hfit.mono (Nat.le_of_eq h.size_eq)
  have hnd := ha.forest.nodup_cons_descendants id
  symm
  apply h.sound.accounted.live_eq_add ha.accounted hfit' hfit hnd
  · intro n hn
    exact h.gone n (ha.forest.mem_cons_descendants.mp hn)
  · intro n
    rw [ha.forest.mem_cons_descendants]
    exact h.isLive_iff hid n

/-- `b` is `a` without `id` and what lies below it, and the slots of these are the next to be
used. -/
structure Vacated (a b : Arena) (id : NodeId) : Prop where
  get?_eq_none_iff : ∀ n, b.get? n = none ↔ a.get? n = none ∨ n ∈ id :: a.descendants id
  nodup : (id :: a.descendants id).Nodup
  live_eq : b.live + (id :: a.descendants id).length = a.live
  /-- The parent keeps the other children in their order. -/
  children_former : ∀ p, a.parent? id = some p → b.children p = (a.children p).filter (· ≠ id)
  children_other : ∀ n, n ∉ id :: a.descendants id → a.parent? id ≠ some n →
    b.children n = a.children n
  kind_eq : ∀ n, n ∉ id :: a.descendants id → b.kind? n = a.kind? n
  parent_eq : ∀ n, n ∉ id :: a.descendants id → b.parent? n = a.parent? n
  /-- The slots of the nodes below come in document order, each on top of the one before, and that
  of `id` comes last. -/
  vacant_eq : b.vacant = (id :: (a.descendants id).reverse).map (·.index) ++ a.vacant
  /-- The ids of the nodes made next, whatever else happens, as long as nothing is freed. -/
  refilled : ∀ log c, Trace b log c → (∀ n, .freed n ∉ log) →
    log.length ≤ (id :: (a.descendants id).reverse).length →
    log = ((id :: (a.descendants id).reverse).take log.length).map fun n => .made n.next
  /-- So it is where they are made one right after the other. -/
  recreated : ∀ kinds : List NodeKind, kinds.length ≤ (id :: (a.descendants id).reverse).length →
    ∃ c, (kinds.mapM create).run b
      = .ok (((id :: (a.descendants id).reverse).take kinds.length).map NodeId.next) c

/-- The slots freed are in front of `b.vacant`, the node's own first: in the reverse of the order in
which they were freed. -/
theorem refilled_of_free (ha : a.Sound) (hid : a.isLive id) (hrun : (free id).run a = .ok () b) :
    b.vacant = (id :: (a.descendants id).reverse).map (·.index) ++ a.vacant ∧
    ∀ log c, Trace b log c → (∀ n, .freed n ∉ log) →
      log.length ≤ (id :: (a.descendants id).reverse).length →
      log = ((id :: (a.descendants id).reverse).take log.length).map fun n => .made n.next := by
  have horder : (a.descendants id ++ [id]).reverse = id :: (a.descendants id).reverse :=
    List.reverse_append
  obtain ⟨a₁, hdetached, hd, hlive, hrun₁⟩ := exists_free_run ha hid
  have hvacant := vacant_detach id a
  rw [stateAfter_of_ok hdetached] at hvacant
  rw [hrun] at hrun₁
  injection hrun₁ with _ hb
  subst hb
  rw [vacant_releaseAll, hvacant, ← horder]
  refine ⟨rfl, fun log c hc => ?_⟩
  exact hc.refills hd.sound.accounted (ha.forest.nodup_concat_descendants id) hlive

/-- Nodes that are made one right after the other come into slots that are known:
`(ids.take kinds.length).map NodeId.next`. -/
theorem recreated_of_refilled {ids : List NodeId}
    (h : ∀ log c, Trace b log c → (∀ n, .freed n ∉ log) → log.length ≤ ids.length →
      log = (ids.take log.length).map fun n => .made n.next)
    (kinds : List NodeKind) (hlen : kinds.length ≤ ids.length) :
    ∃ c, (kinds.mapM create).run b = .ok ((ids.take kinds.length).map NodeId.next) c := by
  obtain ⟨made, c, hrun, hcount, htrace⟩ := exists_trace_createAll kinds b
  have hmade := h _ c htrace (by simp) (by rwa [List.length_map, hcount])
  rw [List.length_map, hcount, ← Function.comp_def, ← List.map_map] at hmade
  have hids := List.map_injective_iff.mpr (fun m n he => Event.made.inj he) hmade
  exact ⟨c, by rw [hrun, hids]⟩

/-- **Freeing a live node succeeds**: the node and what lies below it are gone, the rest is as it
was, and the slots are used again in the reverse of the order in which they were freed. -/
theorem vacated_of_reachable (h : Reachable a) (hid : a.isLive id) :
    ∃ b, (free id).run a = .ok () b ∧ Vacated a b id := by
  have hf := h.sound.forest
  obtain ⟨hdead, -⟩ | ⟨-, b, hrun, hfreed⟩ := free_spec h.sound id
  · exact absurd hid (not_live_of_dead hdead)
  obtain ⟨hvacant, hrefilled⟩ := refilled_of_free h.sound hid hrun
  have hkept : ∀ n, n ∉ id :: a.descendants id → ¬ a.Under id n := fun n hn hunder =>
    hn (hf.mem_cons_descendants.mpr hunder)
  refine ⟨b, hrun, ?_⟩
  constructor
  case get?_eq_none_iff =>
    intro n
    rw [hf.mem_cons_descendants]
    by_cases hn : a.Under id n
    · simp [hn, hfreed.gone n hn]
    · simp [hn, hfreed.kept n hn]
  case nodup => exact hf.nodup_cons_descendants id
  case live_eq => exact hfreed.live_eq h.sound h.fits hid
  case children_former =>
    intro p hp
    exact children_of_cut (hfreed.kept p (hf.not_under_child (hf.mem_of_parent hp)))
  case children_other =>
    intro n hn hother
    rw [children_of_cut (hfreed.kept n (hkept n hn)),
      filter_ne_of_not_mem fun hc => hother (hf.parent_of_mem hc)]
  case kind_eq => exact fun n hn => kind?_of_cut (hfreed.kept n (hkept n hn))
  case parent_eq => exact fun n hn => hfreed.parent? (hkept n hn)
  case vacant_eq => exact hvacant
  case refilled => exact hrefilled
  case recreated => exact recreated_of_refilled hrefilled

/-- An element with a text between two other nodes: both slots are used again, the element's
first. -/
theorem vacated_of_element :
    let a := [Op.newFragment, .newElement "p" [], .newText "x", .newText "y",
      .appendChild ⟨1, 0⟩ ⟨2, 0⟩, .appendChild ⟨0, 0⟩ ⟨1, 0⟩,
      .appendChild ⟨0, 0⟩ ⟨3, 0⟩].foldl Op.after empty
    ∃ b, (free ⟨1, 0⟩).run a = .ok () b ∧ Vacated a b ⟨1, 0⟩ ∧ b.children ⟨0, 0⟩ = [⟨3, 0⟩] ∧
      ∃ c, ([NodeKind.comment "k", .text "z"].mapM create).run b = .ok [⟨1, 1⟩, ⟨2, 1⟩] c := by
  intro a
  have ha : Reachable a := Reachable.empty.foldl _ (by decide +kernel)
  have hid : a.isLive ⟨1, 0⟩ := by decide +kernel
  obtain ⟨b, hrun, hvacated⟩ := vacated_of_reachable ha hid
  refine ⟨b, hrun, hvacated, ?_, ?_⟩
  · rw [hvacated.children_former ⟨0, 0⟩ (by decide +kernel)]
    decide +kernel
  · obtain ⟨c, hcreated⟩ := hvacated.recreated [.comment "k", .text "z"] (by decide +kernel)
    refine ⟨c, hcreated.trans ?_⟩
    rw [show a.descendants ⟨1, 0⟩ = [⟨2, 0⟩] by decide +kernel]
    rfl

end Arena

end Inlay
