import Inlay.Markup.Print
import Inlay.Proofs.Arena.Refused
import Inlay.Proofs.Arena.Rows

/-!
# Copies

`copied_of_reachable`: a live node of one reachable arena can be copied into another one. The copy
looks like the node at every depth (`Copied`), it is made of new nodes only, whether they stand in
new slots or in slots that were used before, and the nodes that were there stay as they were.

Of the nodes that a tree brings along when it is planted all but the topmost have a parent
(`Planted.tops`), so nothing is live afterwards but what was and what lies under the copy
(`Planted.isLive_iff`); from that the count of live nodes follows.
-/

namespace Inlay.Arena

variable {a b source : Arena} {id copy : NodeId} {t : Tree}

/-- `copy` is a copy in `b` of what stands at `id` of `source`, and `b` is otherwise `a`. -/
structure Copied (source a b : Arena) (id copy : NodeId) : Prop where
  top : b.parent? copy = none
  /-- Kinds, names, attributes and texts are the same at every depth, in the same order. -/
  alike : ∃ t, source.Shows id t ∧ b.Shows copy t
  tree_eq : b.tree? copy = source.tree? id
  html_eq : b.html copy = source.html id
  text_eq : b.textContent copy = source.textContent id
  /-- The copy is made of nodes that were not there. -/
  fresh : ∀ n, b.Under copy n → a.get? n = none
  kept : ∀ n node, a.get? n = some node → b.get? n = some node
  isLive_iff : ∀ n, b.isLive n ↔ a.isLive n ∨ b.Under copy n
  nodup : (id :: source.descendants id).Nodup
  live_eq : b.live = a.live + (id :: source.descendants id).length

/-- Under a node that was live in `a` every node was live in `a`. -/
theorem Kept.live_of_under (h : Kept a b) (ha : a.Forest) (hb : b.Forest) {top n : NodeId}
    (htop : a.isLive top) (hunder : b.Under top n) : a.isLive n := by
  induction hunder using Relation.ReflTransGen.head_induction_on with
  | refl => exact htop
  | @head m p hup _ ih =>
    obtain ⟨node, hnode⟩ := Arena.isLive_iff.mp ih
    have hmem := hb.mem_of_parent hup
    rw [children_of_get? (h p node hnode), ← children_of_get? hnode] at hmem
    exact Up.live (ha.parent_of_mem hmem)

theorem Planted.isLive_iff (h : Planted a b copy t) (ha : a.Forest) (n : NodeId) :
    b.isLive n ↔ a.isLive n ∨ b.Under copy n := by
  constructor
  · intro hn
    obtain ⟨top, htop, hunder⟩ := h.sound.forest.exists_top hn
    rcases h.tops top htop with rfl | htop
    · exact Or.inr hunder
    · exact Or.inl (h.kept.live_of_under ha h.sound.forest htop.1 hunder)
  · rintro (hn | hunder)
    · obtain ⟨node, hnode⟩ := Arena.isLive_iff.mp hn
      exact Arena.isLive_iff.mpr ⟨node, h.kept n node hnode⟩
    · exact hunder.live h.shows.live

theorem Planted.fresh_of_under (h : Planted a b copy t) (ha : a.Forest) {n : NodeId}
    (hunder : b.Under copy n) : a.get? n = none :=
  dead_of_under_fresh ha h.kept.parent? h.fresh hunder

/-- The count of live nodes goes up by the size of the tree: `b.live = a.live + t.size`. -/
theorem Planted.live_eq (h : Planted a b copy t) (ha : a.Sound) (hfita : a.Fits)
    (hfitb : b.Fits) : b.live = a.live + t.size := by
  have hb := h.sound.forest
  rw [← h.shows.length_descendants hb]
  apply ha.accounted.live_eq_add h.sound.accounted hfita hfitb (hb.nodup_cons_descendants copy)
  · intro n hn
    exact h.fresh_of_under ha.forest (hb.mem_cons_descendants.mp hn)
  · intro n
    rw [hb.mem_cons_descendants, h.isLive_iff ha.forest]

/-- Nodes that show the same tree `t` have the same `textContent`. -/
theorem Shows.textContent_eq (ha : a.Forest) (hb : b.Forest) (h : a.Shows id t)
    (h' : b.Shows copy t) : b.textContent copy = a.textContent id := by
  have hrows := congrArg (List.map NodeKind.ownText) (t.map_snd_rows (b.depth copy) (a.depth id))
  rw [List.map_map, List.map_map] at hrows
  rw [h.textContent ha, h'.textContent hb]
  exact congrArg String.join hrows

theorem Planted.copied (h : Planted a b copy t) (ha : a.Sound) (hsource : source.Forest)
    (hfita : a.Fits) (hfitb : b.Fits) (hshows : source.Shows id t) : Copied source a b id copy := by
  have hb := h.sound.forest
  have htree : b.tree? copy = source.tree? id := by
    rw [h.shows.tree? hb, hshows.tree? hsource]
  constructor
  case top => exact h.top
  case alike => exact ⟨t, hshows, h.shows⟩
  case tree_eq => exact htree
  case html_eq => rw [html, html, htree]
  case text_eq => exact hshows.textContent_eq hsource hb h.shows
  case fresh => exact fun n => h.fresh_of_under ha.forest
  case kept => exact h.kept
  case isLive_iff => exact h.isLive_iff ha.forest
  case nodup => exact hsource.nodup_cons_descendants id
  case live_eq => rw [h.live_eq ha hfita hfitb, hshows.length_descendants hsource]

/-- **A live node can be copied into any arena, and the copy is like it.** The walk that makes each
node before it looks at the children is the same as planting the tree that it walks through. -/
theorem copied_of_reachable (ha : Reachable a) (hsource : Reachable source) (hid : source.isLive id)
    (hfit : (stateAfter (copyFrom source id) a).Fits) :
    copyNodes source id = copyFrom source id ∧
    ∃ copy b, (copyFrom source id).run a = .ok copy b ∧ Copied source a b id copy := by
  refine ⟨copyNodes_eq_copyFrom hsource.sound.forest id, ?_⟩
  rcases copyFrom_spec ha.sound hsource.sound.forest id hfit with
    ⟨hdead, -⟩ | ⟨t, copy, b, hshows, hrun, hplanted⟩
  · exact absurd hid (not_live_of_dead hdead)
  · rw [stateAfter_of_ok hrun] at hfit
    exact ⟨copy, b, hrun, hplanted.copied ha.sound hsource.sound.forest ha.fits hfit hshows⟩

/-- An element with a text, copied into an arena that has a comment and a vacant slot. -/
theorem copied_into_vacant :
    let source := [Op.newElement "P" [("Class", "x")], .newText "hi",
      .appendChild ⟨0, 0⟩ ⟨1, 0⟩].foldl Op.after empty
    let a := [Op.newText "old", .newComment "k", .free ⟨0, 0⟩].foldl Op.after empty
    ∃ b, (copyFrom source ⟨0, 0⟩).run a = .ok ⟨0, 1⟩ b ∧ Copied source a b ⟨0, 0⟩ ⟨0, 1⟩ ∧
      b.live = 3 := by
  intro source a
  have ha : Reachable a := Reachable.empty.foldl _ (by decide +kernel)
  have hsource : Reachable source := Reachable.empty.foldl _ (by decide +kernel)
  have hid : source.isLive ⟨0, 0⟩ := by decide +kernel
  obtain ⟨-, copy, b, hrun, hcopied⟩ := copied_of_reachable ha hsource hid (by decide +kernel)
  obtain rfl : copy = ⟨0, 1⟩ := by
    injection hrun with hcopy
    exact hcopy.symm
  refine ⟨b, hrun, hcopied, ?_⟩
  rw [hcopied.live_eq]
  decide +kernel

end Inlay.Arena
