import Inlay.Proofs.Arena.Growth

/-!
# Planting trees

`plant_spec`: making a tree node by node gives a node without a parent that shows the tree; nothing
that was there before changes. Trees that are read off a forest can be planted, as only their
elements and fragments have children (`Shows.natural`), so copying from one sound arena to another
succeeds for every live node (`copyFrom_spec`).
-/

namespace Inlay

namespace Tree

mutual

/-- Only elements and fragments have children. -/
def Natural : Tree → Prop
  | node kind cs => (cs ≠ [] → kind.isContainer = true) ∧ NaturalAll cs

def NaturalAll : List Tree → Prop
  | [] => True
  | t :: ts => t.Natural ∧ NaturalAll ts

end

end Tree

namespace Arena

variable {a b c : Arena}

mutual

/-- In a forest a node shows only a `Natural` tree, in which only containers have children. -/
theorem Shows.natural (hf : a.Forest) : ∀ {t : Tree} {id : NodeId}, a.Shows id t → t.Natural
  | .node _ cs, id, h => by
    obtain ⟨node, hget, rfl, hcs⟩ := shows_node.mp h
    refine ⟨fun hne => ?_, hcs.natural hf⟩
    have hchildren : a.children id ≠ [] := by
      rw [children_of_get? hget]
      rintro hnil
      rw [hnil] at hcs
      exact hne (List.length_eq_zero_iff.mp hcs.length_eq.symm)
    obtain ⟨kind, hkind, hcontainer⟩ := hf.container hchildren
    rw [kind?_of_get? hget, Option.some.injEq] at hkind
    rwa [hkind]

theorem ShowsAll.natural (hf : a.Forest) : ∀ {ts : List Tree} {ids : List NodeId},
    a.ShowsAll ids ts → Tree.NaturalAll ts
  | [], _, _ => trivial
  | t :: ts, ids, h => by
    obtain ⟨id, rest, rfl, ht, hts⟩ := showsAll_cons_iff.mp h
    exact ⟨ht.natural hf, hts.natural hf⟩

end

/-! ### What stays -/

/-- Everything that is live in `a` is the same in `b`. -/
def Kept (a b : Arena) : Prop :=
  ∀ n node, a.get? n = some node → b.get? n = some node

theorem Kept.trans (hab : Kept a b) (hbc : Kept b c) : Kept a c :=
  fun n node h => hbc n node (hab n node h)

/-- An id that names nothing in `b` named nothing in `a`. -/
theorem Kept.dead (h : Kept a b) {n : NodeId} (hn : b.get? n = none) : a.get? n = none := by
  cases hget : a.get? n with
  | none => rfl
  | some node => exact absurd rfl (ne_of_dead (h n node hget) hn)

theorem Created.kept {kind : NodeKind} {id : NodeId} (h : Created a b kind id) : Kept a b :=
  fun _ _ => h.get?_of_live

/-- Where every live node of `a` has the parent in `b` that it has in `a`, what is above it in `b`
was above it in `a`. -/
theorem under_of_parents_kept (hf : a.Forest)
    (hkept : ∀ n, a.isLive n → b.parent? n = a.parent? n) {top n : NodeId} (hn : a.isLive n)
    (hunder : b.Under top n) : a.Under top n := by
  induction hunder using Relation.ReflTransGen.head_induction_on with
  | refl => exact Under.refl _
  | @head x y hxy _ ih =>
    have hup : a.Up x y := by rwa [Up, ← hkept x hn]
    exact (ih (hup.parent_live hf)).trans hup.under

/-- Below a new node there are only new ones: what is under `id` in `b` names nothing in `a`. -/
theorem dead_of_under_fresh (hf : a.Forest)
    (hkept : ∀ n, a.isLive n → b.parent? n = a.parent? n) {id n : NodeId}
    (hfresh : a.get? id = none) (hunder : b.Under id n) : a.get? n = none := by
  rw [← Option.not_isSome_iff_eq_none]
  intro hn
  rcases under_iff_eq_or_below.mp (under_of_parents_kept hf hkept hn hunder) with rfl | hbelow
  · rw [hfresh] at hn
    exact absurd hn (by simp)
  · obtain ⟨m, -, hm⟩ := Relation.TransGen.tail'_iff.mp hbelow
    obtain ⟨node, hnode⟩ := isLive_iff.mp (Up.parent_live hf hm)
    rw [hfresh] at hnode
    exact absurd hnode (by simp)

theorem Kept.parent? (h : Kept a b) (n : NodeId) (hn : a.isLive n) :
    b.parent? n = a.parent? n := by
  obtain ⟨node, hnode⟩ := isLive_iff.mp hn
  rw [parent?_of_get? hnode, parent?_of_get? (h n node hnode)]

theorem Kept.content? (h : Kept a b) {n : NodeId} (hn : a.isLive n) :
    b.content? n = a.content? n := by
  obtain ⟨node, hnode⟩ := isLive_iff.mp hn
  exact content?_eq_of_get? ((h n node hnode).trans hnode.symm)

/-! ### Planting -/

/-- `b` is `a` with a new tree at the new node `id`. -/
structure Planted (a b : Arena) (id : NodeId) (t : Tree) : Prop where
  sound : b.Sound
  kept : Kept a b
  fresh : a.get? id = none
  top : b.parent? id = none
  shows : b.Shows id t
  /-- All other new nodes have a parent. -/
  tops : ∀ n, b.IsTop n → n = id ∨ a.IsTop n

/-- Where a tree was planted in an empty arena, the only node without a parent is its `root`. -/
theorem Planted.eq_of_isTop {root n : NodeId} {t : Tree} (h : Planted .empty b root t)
    (hn : b.IsTop n) : n = root :=
  (h.tops n hn).resolve_right fun hempty => not_live_of_dead (get?_empty n) hempty.1

theorem Planted.under {root n : NodeId} {t : Tree} (h : Planted .empty b root t) (hn : b.isLive n) :
    b.Under root n :=
  h.sound.forest.under_of_only_top (fun _ => h.eq_of_isTop) hn

/-- `b` is `a` with new trees at the end of the children of `parent`. -/
structure Filled (a b : Arena) (parent : NodeId) (pnode : Node) (ids : List NodeId)
    (ts : List Tree) : Prop where
  sound : b.Sound
  parent_eq : b.get? parent = some { pnode with children := pnode.children ++ ids }
  kept : ∀ n node, n ≠ parent → a.get? n = some node → b.get? n = some node
  fresh : ∀ id ∈ ids, a.get? id = none
  shows : b.ShowsAll ids ts
  tops : ∀ n, b.IsTop n → a.IsTop n

theorem growsBy_adopt (parent child : NodeId) : GrowsBy 0 (adopt parent child) :=
  (growsBy_update _ _).bind fun _ => growsBy_update _ _

mutual

/-- A tree takes at most `t.size` new slots. -/
theorem growsBy_plant : ∀ t : Tree, GrowsBy t.size (plant t)
  | .node kind cs => by
    rw [Tree.size, Nat.add_comm]
    exact (growsBy_create kind).bind fun id => (growsBy_plantAll id cs).bind fun _ => growsBy_pure _

theorem growsBy_plantAll (parent : NodeId) : ∀ ts : List Tree,
    GrowsBy (Tree.sizeAll ts) (plantAll parent ts)
  | [] => growsBy_pure _
  | t :: ts => by
    have hrest : ∀ c, GrowsBy (0 + Tree.sizeAll ts) (do
        adopt parent c
        plantAll parent ts) := fun c =>
      (growsBy_adopt parent c).bind fun _ => growsBy_plantAll parent ts
    rw [Nat.zero_add] at hrest
    exact (growsBy_plant t).bind hrest

end

/-- `adopt` puts a node without a parent behind the other children. -/
theorem adopt_spec (h : a.Sound) {parent child : NodeId} (hj : a.Joinable parent child) :
    ∃ b, (adopt parent child).run a = .ok () b ∧
      Joined a b parent child (a.children parent ++ [child]) := by
  obtain ⟨cnode, hcnode⟩ := isLive_iff.mp hj.live
  obtain ⟨pnode, hpnode⟩ := hj.parent_live
  obtain ⟨b, hrun, hacc, hsize, hview⟩ := update_update_run h.accounted hj.ne hcnode hpnode
    (fun node => { node with parent := some parent })
    (fun node => { node with children := node.children ++ [child] })
  refine ⟨b, hrun, h.joined hj (List.perm_append_singleton child _) hacc hsize
    (join_view hj.ne hcnode hpnode ?_ ?_ ?_)⟩
  · rw [hview, if_neg hj.ne, if_pos rfl]
  · rw [hview, if_pos rfl, children_of_get? hpnode]
  · intro n hnc hnp
    rw [hview, if_neg hnp, if_neg hnc]

theorem Joined.get?_of_ne {parent child : NodeId} {siblings : List NodeId}
    (h : Joined a b parent child siblings) {n : NodeId} (hc : n ≠ child) (hp : n ≠ parent) :
    b.get? n = a.get? n := by
  rw [h.view]
  cases a.get? n with
  | none => rfl
  | some node => rw [Option.map_some, join, if_neg hc, if_neg hp]

theorem Joined.content?_of_ne {parent child : NodeId} {siblings : List NodeId}
    (h : Joined a b parent child siblings) {n : NodeId} (hp : n ≠ parent) :
    b.content? n = a.content? n := by
  rw [content?, content?, h.view]
  cases a.get? n with
  | none => rfl
  | some node => rw [Option.map_some, Option.map_some, join, if_neg hp, Option.map_some]

/-- The child has a parent, and no other node has lost its own. -/
theorem Joined.isTop {parent child : NodeId} {siblings : List NodeId}
    (h : Joined a b parent child siblings) (hj : a.Joinable parent child) {n : NodeId}
    (hn : b.IsTop n) : n ≠ child ∧ a.IsTop n := by
  obtain ⟨hlive, htop⟩ := hn
  have hsame : b.isLive n = a.isLive n := by
    rw [isLive, h.view, Option.isSome_map, isLive]
  rw [hj.parent?_of_join h.view] at htop
  split at htop
  · exact absurd htop (by simp)
  · exact ⟨‹_›, hsame ▸ hlive, htop⟩

/-- The parent keeps all but its children, which are `siblings` then. -/
theorem Joined.parent_eq {parent child : NodeId} {siblings : List NodeId}
    (h : Joined a b parent child siblings) (hne : child ≠ parent) {pnode : Node}
    (hp : a.get? parent = some pnode) :
    b.get? parent = some { pnode with children := siblings } := by
  rw [h.view, hp, Option.map_some, join, if_neg hne.symm, if_pos rfl]

section Rounds

variable {a₁ a₂ : Arena} {parent c : NodeId} {pnode : Node} {t : Tree} {ts : List Tree}
  {ids : List NodeId}

/-- A new tree has nothing to do with the nodes that were there before: `parent` is not under its
root `c`. -/
theorem Planted.apart (hplanted : Planted a a₁ c t) (h : a.Sound)
    (hp : a.get? parent = some pnode) : ¬ a₁.Under c parent := fun hunder => by
  rw [dead_of_under_fresh h.forest hplanted.kept.parent? hplanted.fresh hunder] at hp
  exact absurd hp (by simp)

/-- When `c` was planted and joined to its parent and others follow, the parent gets `c :: ids` as
further children. -/
theorem Planted.filled_cons (hplanted : Planted a a₁ c t) (h : a.Sound)
    (hp : a.get? parent = some pnode) (hj : a₁.Joinable parent c)
    (hjoined : Joined a₁ a₂ parent c (pnode.children ++ [c]))
    (hfilled : Filled a₂ b parent { pnode with children := pnode.children ++ [c] } ids ts) :
    Filled a b parent pnode (c :: ids) (t :: ts) := by
  have hapart := hplanted.apart h hp
  have hp₂ := hjoined.parent_eq hj.ne (hplanted.kept parent pnode hp)
  have hshows₂ : a₂.Shows c t := hplanted.shows.frame hplanted.sound.forest fun n hn =>
    hjoined.content?_of_ne fun he => hapart (he ▸ hn)
  have hkept₂ : ∀ n node, n ≠ parent → a.get? n = some node → a₂.get? n = some node := by
    intro n node hne hn
    rw [hjoined.get?_of_ne (ne_of_dead hn hplanted.fresh) hne, hplanted.kept n node hn]
  -- The parent is above the tree just joined, so what joins it later leaves the tree alone.
  have hc₂ : ¬ a₂.Under c parent := hjoined.sound.forest.not_under_child (by
    rw [children_of_get? hp₂]
    simp)
  constructor
  case sound => exact hfilled.sound
  case parent_eq => rw [hfilled.parent_eq, List.append_assoc, List.singleton_append]
  case kept =>
    intro n node hne hn
    exact hfilled.kept n node hne (hkept₂ n node hne hn)
  case fresh =>
    intro id hid
    rcases List.mem_cons.mp hid with rfl | hid
    · exact hplanted.fresh
    · have hdead := hfilled.fresh id hid
      cases hget : a.get? id with
      | none => rfl
      | some node =>
        have hne : parent ≠ id := ne_of_dead hp₂ hdead
        exact absurd rfl (ne_of_dead (hkept₂ id node hne.symm hget) hdead)
  case shows =>
    have hshows : b.Shows c t := hshows₂.frame hjoined.sound.forest fun n hn => by
      obtain ⟨node, hnode⟩ := isLive_iff.mp (hn.live hshows₂.live)
      have hne : n ≠ parent := fun he => hc₂ (he ▸ hn)
      exact content?_eq_of_get? ((hfilled.kept n node hne hnode).trans hnode.symm)
    exact showsAll_cons_iff.mpr ⟨c, ids, rfl, hshows, hfilled.shows⟩
  case tops =>
    intro n hn
    obtain ⟨hne, hn₁⟩ := hjoined.isTop hj (hfilled.tops n hn)
    exact (hplanted.tops n hn₁).resolve_left hne

end Rounds

mutual

/-- Planting a tree never fails: the new node `id` shows `t`, has no parent, and nothing else has
changed. -/
theorem plant_spec : ∀ {t : Tree} {a : Arena}, a.Sound → t.Natural →
    (stateAfter (plant t) a).Fits → ∃ id b, (plant t).run a = .ok id b ∧ Planted a b id t
  | .node kind cs, a, h, hnat, hfit => by
    obtain ⟨hcontainer, hcs⟩ := hnat
    rw [plant] at hfit ⊢
    obtain ⟨id, a₁, hrun₁, hcreated⟩ := create_spec h kind
      (fits_of_bind (fun id => (grows_plantAll id cs).bind fun _ => grows_pure _) hfit)
    have hfit₁ := fits_after hrun₁ hfit
    obtain ⟨ids, b, hrun₂, hfilled⟩ :=
      plantAll_spec hcreated.sound hcreated.get?_self hcontainer hcs
      (fits_of_bind (fun _ => grows_pure _) hfit₁)
    have hself : b.get? id = some ⟨kind, none, ids⟩ := hfilled.parent_eq
    refine ⟨id, b, ?_, ?_⟩
    · rw [run_bind_of_ok hrun₁, run_bind_of_ok hrun₂]
      rfl
    constructor
    case sound => exact hfilled.sound
    case kept =>
      intro n node hn
      exact hfilled.kept n node (ne_of_dead hn hcreated.fresh) (hcreated.get?_of_live hn)
    case fresh => exact hcreated.fresh
    case top => rw [parent?_of_get? hself]
    case shows => exact shows_node.mpr ⟨_, hself, rfl, hfilled.shows⟩
    case tops => exact fun n hn => hcreated.isTop (hfilled.tops n hn)

/-- Planting trees under `parent` puts them behind its other children, in order. A node that is no
container takes none. -/
theorem plantAll_spec {parent : NodeId} : ∀ {ts : List Tree} {a : Arena} {pnode : Node},
    a.Sound → a.get? parent = some pnode → (ts ≠ [] → pnode.kind.isContainer = true) →
    Tree.NaturalAll ts → (stateAfter (plantAll parent ts) a).Fits →
    ∃ ids b, (plantAll parent ts).run a = .ok () b ∧ Filled a b parent pnode ids ts
  | [], a, _, h, hp, _, _, _ => by
    refine ⟨[], a, rfl, h, ?_, fun _ _ _ hn => hn, by simp, showsAll_nil_iff.mpr rfl,
      fun _ hn => hn⟩
    rw [hp, List.append_nil]
  | t :: ts, a, pnode, h, hp, hcontainer, hnat, hfit => by
    obtain ⟨ht, hts⟩ := hnat
    rw [plantAll] at hfit ⊢
    obtain ⟨c, a₁, hrun₁, hplanted⟩ := plant_spec h ht
      (fits_of_bind (fun c => (grows_adopt parent c).bind fun _ => grows_plantAll parent ts) hfit)
    have hp₁ := hplanted.kept parent pnode hp
    have hj : a₁.Joinable parent c := ⟨hplanted.shows.live, hplanted.top, hplanted.apart h hp,
      pnode.kind, kind?_of_get? hp₁, hcontainer (by simp)⟩
    obtain ⟨a₂, hrun₂, hjoined⟩ := adopt_spec hplanted.sound hj
    rw [children_of_get? hp₁] at hjoined
    have hfit₁ := fits_after hrun₁ hfit
    have hfit₂ := fits_after hrun₂ hfit₁
    obtain ⟨ids, b, hrun₃, hfilled⟩ := plantAll_spec hjoined.sound (hjoined.parent_eq hj.ne hp₁)
      (fun _ => hcontainer (by simp)) hts hfit₂
    refine ⟨c :: ids, b, ?_, hplanted.filled_cons h hp hj hjoined hfilled⟩
    rw [run_bind_of_ok hrun₁, run_bind_of_ok hrun₂, hrun₃]

end

/-- A copy in an empty arena `Fits` if the source does, as it takes no more slots than that has. -/
theorem fits_copyFrom {source : Arena} (hsource : source.Forest) (hfit : source.Fits)
    (id : NodeId) : (stateAfter (copyFrom source id) .empty).Fits := by
  unfold copyFrom
  cases ht : source.tree? id with
  | none => exact Nat.zero_le _
  | some t =>
    have hsize := (hsource.tree?_eq_some_iff.mp ht).size_le hsource
    have hplant : (stateAfter (plant t) .empty).slots.size ≤ 0 + t.size := growsBy_plant t .empty
    rw [Nat.zero_add] at hplant
    exact Nat.le_trans hplant (Nat.le_trans hsize hfit)

/-- Every live node of a sound arena can be copied, and the copy shows the tree `t` that it shows;
an id that names no node is refused. -/
theorem copyFrom_spec (h : a.Sound) {source : Arena} (hsource : source.Forest) (id : NodeId)
    (hfit : (stateAfter (copyFrom source id) a).Fits) :
    (source.get? id = none ∧ (copyFrom source id).run a = .error (.copyFreed id) a) ∨
    ∃ t copy b, source.Shows id t ∧ (copyFrom source id).run a = .ok copy b ∧
      Planted a b copy t := by
  unfold copyFrom at hfit ⊢
  cases ht : source.tree? id with
  | none =>
    refine Or.inl ⟨?_, rfl⟩
    rw [← Option.not_isSome_iff_eq_none]
    intro hlive
    obtain ⟨t, hshows⟩ := hsource.exists_shows hlive
    rw [hsource.tree?_eq_some_iff.mpr hshows] at ht
    exact absurd ht (by simp)
  | some t =>
    rw [ht] at hfit
    have hshows := hsource.tree?_eq_some_iff.mp ht
    obtain ⟨copy, b, hrun, hplanted⟩ := plant_spec h (hshows.natural hsource) hfit
    exact Or.inr ⟨t, copy, b, hshows, hrun, hplanted⟩

end Arena

end Inlay
