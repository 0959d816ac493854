import Inlay.Proofs.Markup.Raise

/-!
# Pruning

Freeing a list of nodes, each of which takes along what lies below it, comes down to one description
(`Pruned`), in whatever order the nodes stand in the list and whether or not one lies below another:
everything under one of them is gone, and the rest no longer lists them.

* `freeLive_spec`: `freeLive` never fails and does that;
* `removeByTag_spec`: a node that shows `t` shows `t.without tag` afterwards.
-/

namespace Inlay

namespace Tree

mutual

/-- The tree without the elements of that tag name below its top. -/
def without (tag : String) : Tree → Tree
  | node kind cs => node kind (withoutAll tag cs)

/-- The trees without the elements of that tag name. -/
def withoutAll (tag : String) : List Tree → List Tree
  | [] => []
  | t :: ts => if t.kind.hasTag tag then withoutAll tag ts else t.without tag :: withoutAll tag ts

end

end Tree

namespace Arena

variable {a b c : Arena}

/-! ### Ways up that avoid a node -/

/-- Where parents differ under `x` only, a node that is not under `x` has the same ancestors
`top`. -/
theorem under_iff_of_parents {x top n : NodeId}
    (h : ∀ m, ¬ a.Under x m → b.parent? m = a.parent? m) (hn : ¬ a.Under x n) :
    b.Under top n ↔ a.Under top n := by
  constructor
  · intro hunder
    induction hunder using Relation.ReflTransGen.head_induction_on with
    | refl => exact Under.refl _
    | @head m p hup _ ih =>
      have hup' : a.Up m p := by rwa [Up, ← h m hn]
      exact (ih fun hp => hn (hp.trans hup'.under)).trans hup'.under
  · intro hunder
    induction hunder using Relation.ReflTransGen.head_induction_on with
    | refl => exact Under.refl _
    | @head m p hup _ ih =>
      have hup' : b.Up m p := by rwa [Up, h m hn]
      exact (ih fun hp => hn (hp.trans hup.under)).trans hup'.under

/-- Above and below an id that names nothing there is nothing else: `a.Under id n ↔ n = id`. -/
theorem under_of_dead (hf : a.Forest) {id n : NodeId} (h : a.get? id = none) :
    a.Under id n ↔ n = id := by
  rw [under_iff_eq_or_below, below_iff hf, children_of_dead h]
  simp

/-! ### Freeing a list of nodes -/

/-- `b` is `a` without the nodes `ids` and everything below them. -/
structure Pruned (a b : Arena) (ids : List NodeId) : Prop where
  sound : b.Sound
  size_eq : b.slots.size = a.slots.size
  gone : ∀ n, (∃ d ∈ ids, a.Under d n) → b.get? n = none
  kept : ∀ n, (∀ d ∈ ids, ¬ a.Under d n) →
    b.get? n = (a.get? n).map fun node => { node with children := node.children.filter (· ∉ ids) }

theorem Pruned.dead {ids : List NodeId} (h : Pruned a b ids) {n : NodeId} (hn : a.get? n = none) :
    b.get? n = none := by
  by_cases hgone : ∃ d ∈ ids, a.Under d n
  · exact h.gone n hgone
  · rw [h.kept n fun d hd hunder => hgone ⟨d, hd, hunder⟩, hn, Option.map_none]

/-- What has no parent in `b` had none in `a`. -/
theorem Pruned.isTop {ids : List NodeId} (h : Pruned a b ids) {n : NodeId} (hn : b.IsTop n) :
    a.IsTop n ∧ ∀ d ∈ ids, ¬ a.Under d n := by
  obtain ⟨hlive, htop⟩ := hn
  have hnot : ∀ d ∈ ids, ¬ a.Under d n := fun d hd hunder =>
    not_live_of_dead (h.gone n ⟨d, hd, hunder⟩) hlive
  have hkept := h.kept n hnot
  rw [isLive, hkept, Option.isSome_map] at hlive
  refine ⟨⟨hlive, ?_⟩, hnot⟩
  rw [parent?, hkept] at htop
  rw [parent?, ← htop]
  cases a.get? n <;> rfl

theorem Freed.parent? {id n : NodeId} (h : Freed a b id) (hn : ¬ a.Under id n) :
    b.parent? n = a.parent? n := by
  rw [parent?_of_cut (h.kept n hn), if_neg]
  rintro rfl
  exact hn (Under.refl _)

/-- A node that stays is under the same nodes: `b.Under top n ↔ a.Under top n`. -/
theorem Freed.under_iff {id top n : NodeId} (h : Freed a b id) (hn : ¬ a.Under id n) :
    b.Under top n ↔ a.Under top n :=
  under_iff_of_parents (fun _ hm => h.parent? hm) hn

theorem filter_filter_not_mem (id : NodeId) (ids cs : List NodeId) :
    (cs.filter (· ≠ id)).filter (· ∉ ids) = cs.filter (· ∉ id :: ids) := by
  rw [List.filter_filter]
  refine List.filter_congr fun c _ => ?_
  simp [Bool.and_comm]

/-- Freeing `id` and then `ids` is freeing `id :: ids`. -/
theorem Freed.pruned {id : NodeId} {ids : List NodeId} (hf : Freed a b id) (hp : Pruned b c ids) :
    Pruned a c (id :: ids) where
  sound := hp.sound
  size_eq := hp.size_eq.trans hf.size_eq
  gone n := by
    rintro ⟨d, hd, hunder⟩
    by_cases hid : a.Under id n
    · exact hp.dead (hf.gone n hid)
    · rcases List.mem_cons.mp hd with rfl | hd
      · exact absurd hunder hid
      · exact hp.gone n ⟨d, hd, (hf.under_iff hid).mpr hunder⟩
  kept n hn := by
    have hid : ¬ a.Under id n := hn id List.mem_cons_self
    have hne : n ≠ id := fun he => hid (he ▸ Under.refl _)
    rw [hp.kept n fun d hd hunder => hn d (List.mem_cons_of_mem _ hd)
      ((hf.under_iff hid).mp hunder), hf.kept n hid, Option.map_map]
    cases a.get? n with
    | none => rfl
    | some node =>
      rw [Option.map_some, Option.map_some, Function.comp, cut, if_neg hne, filter_filter_not_mem]

theorem Sound.pruned_nil (h : a.Sound) : Pruned a a [] where
  sound := h
  size_eq := rfl
  gone n hn := by
    obtain ⟨d, hd, -⟩ := hn
    exact absurd hd List.not_mem_nil
  kept n _ := by
    cases a.get? n with
    | none => rfl
    | some node => simp

/-- An `id` that names nothing any more can stand in the list of what was freed. -/
theorem Pruned.cons_of_dead (hf : a.Forest) {id : NodeId} {ids : List NodeId}
    (hid : a.get? id = none) (h : Pruned a b ids) : Pruned a b (id :: ids) where
  sound := h.sound
  size_eq := h.size_eq
  gone n := by
    rintro ⟨d, hd, hunder⟩
    rcases List.mem_cons.mp hd with rfl | hd
    · rw [under_of_dead hf hid] at hunder
      exact h.dead (hunder ▸ hid)
    · exact h.gone n ⟨d, hd, hunder⟩
  kept n hn := by
    rw [h.kept n fun d hd => hn d (List.mem_cons_of_mem _ hd)]
    cases hget : a.get? n with
    | none => rfl
    | some node =>
      have hlisted : id ∉ node.children := fun hc =>
        not_live_of_dead hid (hf.up_of_mem hget hc).live
      rw [Option.map_some, Option.map_some, ← filter_filter_not_mem,
        filter_ne_of_not_mem hlisted]

/-- `freeLive` frees the nodes of `ids` that are live, in whatever order they stand there, with what
is below them, and never fails. -/
theorem freeLive_spec : ∀ (ids : List NodeId) {a : Arena}, a.Sound →
    ∃ count b, (freeLive ids).run a = .ok count b ∧ Pruned a b ids
  | [], a, h => ⟨0, a, rfl, h.pruned_nil⟩
  | id :: ids, a, h => by
    unfold freeLive
    rw [run_bind_of_ok (EStateM.run_get ..)]
    rcases free_spec h id with ⟨hdead, -⟩ | ⟨hlive, a₁, hrun₁, hfreed⟩
    · rw [if_neg (by simp [isLive, hdead])]
      obtain ⟨count, b, hrun, hpruned⟩ := freeLive_spec ids h
      exact ⟨count, b, hrun, hpruned.cons_of_dead h.forest hdead⟩
    · rw [if_pos hlive]
      obtain ⟨count, b, hrun, hpruned⟩ := freeLive_spec ids hfreed.sound
      refine ⟨count + 1, b, ?_, hfreed.pruned hpruned⟩
      rw [run_bind_of_ok hrun₁, run_bind_of_ok hrun]
      rfl

/-! ### Removing elements by tag -/

theorem hasTag_of_shows {id : NodeId} {t : Tree} (h : a.Shows id t) (tag : String) :
    a.hasTag id tag = t.kind.hasTag tag := by
  obtain ⟨node, hget, hkind, -⟩ := h.get?
  rw [hasTag_of_get? hget, hkind]

mutual

/-- Pruning the elements of a tag below `top` prunes the trees: a node that showed `t` shows
`t.without tag`. -/
theorem Pruned.shows {top : NodeId} {tag : String} {ids : List NodeId} (hf : a.Forest)
    (h : Pruned a b ids) (hids : ∀ n, n ∈ ids ↔ a.Below top n ∧ a.hasTag n tag = true) :
    ∀ {t : Tree} {id : NodeId}, a.Shows id t → a.Under top id → (∀ d ∈ ids, ¬ a.Under d id) →
    b.Shows id (t.without tag)
  | .node _ cs, id, hs, htop, hkept => by
    obtain ⟨node, hget, rfl, hcs⟩ := shows_node.mp hs
    have hget' : b.get? id = _ := (h.kept id hkept).trans (by rw [hget, Option.map_some])
    have hchildren := children_of_get? hget
    rw [Tree.without]
    refine shows_node.mpr ⟨_, hget', rfl, h.showsAll hf hids hcs fun c hc => ?_⟩
    have hup : a.Up c id := hf.parent_of_mem (hchildren ▸ hc)
    refine ⟨Relation.TransGen.head' hup htop, fun d hd hdc => ?_⟩
    rcases (under_iff_of_up hup).mp hdc with rfl | hd'
    · exact hd
    · exact absurd hd' (hkept d hd)

theorem Pruned.showsAll {top : NodeId} {tag : String} {ids : List NodeId} (hf : a.Forest)
    (h : Pruned a b ids) (hids : ∀ n, n ∈ ids ↔ a.Below top n ∧ a.hasTag n tag = true) :
    ∀ {ts : List Tree} {row : List NodeId}, a.ShowsAll row ts →
    (∀ c ∈ row, a.Below top c ∧ ∀ d ∈ ids, a.Under d c → c ∈ ids) →
    b.ShowsAll (row.filter (· ∉ ids)) (Tree.withoutAll tag ts)
  | [], row, hs, _ => by
    rw [showsAll_nil_iff.mp hs]
    exact showsAll_nil_iff.mpr rfl
  | t :: ts, row, hs, hrow => by
    obtain ⟨c, rest, rfl, ht, hts⟩ := showsAll_cons_iff.mp hs
    have hrest := h.showsAll hf hids hts fun x hx => hrow x (List.mem_cons_of_mem _ hx)
    obtain ⟨hbelow, hself⟩ := hrow c List.mem_cons_self
    have htag := hasTag_of_shows ht tag
    rw [Tree.withoutAll]
    by_cases hc : c ∈ ids
    · rw [if_pos (htag ▸ ((hids c).mp hc).2), List.filter_cons_of_neg (by simpa using hc)]
      exact hrest
    · have hnot : ¬ t.kind.hasTag tag = true := fun he => hc ((hids c).mpr ⟨hbelow, htag.trans he⟩)
      rw [if_neg hnot, List.filter_cons_of_pos (by simpa using hc)]
      exact showsAll_cons_iff.mpr ⟨c, _, rfl,
        h.shows hf hids ht hbelow.under fun d hd hdc => hc (hself d hd hdc), hrest⟩

end

theorem grows_removeByTag (top : NodeId) (tag : String) : Grows (Markup.removeByTag top tag) :=
  grows_get.bind fun _ => grows_freeLive _

/-- Removing the elements of a tag below `top` never fails, and leaves `t.without tag` of the tree
`t` that `top` showed. -/
theorem removeByTag_spec (h : a.Sound) (top : NodeId) (tag : String) :
    ∃ count b ids, (Markup.removeByTag top tag).run a = .ok count b ∧ Pruned a b ids ∧
      (∀ n ∈ ids, a.Below top n) ∧
      ∀ t, a.Shows top t → b.Shows top (t.without tag) := by
  have hids : ∀ n, n ∈ (a.descendants top).filter (a.hasTag · tag) ↔
      a.Below top n ∧ a.hasTag n tag = true := fun n => by
    rw [List.mem_filter, h.forest.mem_descendants]
  obtain ⟨count, b, hrun, hpruned⟩ :=
    freeLive_spec ((a.descendants top).filter (a.hasTag · tag)) h
  refine ⟨count, b, _, hrun, hpruned, fun n hn => ((hids n).mp hn).1, fun t ht => ?_⟩
  refine hpruned.shows h.forest hids ht (Under.refl top) fun d hd hunder => ?_
  exact h.forest.acyclic d (Relation.TransGen.trans_left ((hids d).mp hd).1 hunder)

end Arena

end Inlay
