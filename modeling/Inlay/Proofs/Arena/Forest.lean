import Inlay.Arena.Walk
import Inlay.Proofs.Arena.Slots
import Mathlib.Data.Finite.Prod
import Mathlib.Data.Fintype.EquivFin
import Mathlib.Logic.Relation
import Mathlib.Order.WellFounded

/-!
# Forests

`Arena.Forest` says what the links of an arena are like: children and parents name each other, and
no node lies below itself. In a forest the two loops that follow links come to an end:

* `Forest.climbs_pathToRoot`: the way up from a node ends at a node without a parent;
* `Forest.visits_descendants`: the agenda of the walk below a node runs empty.

`Climbs` and `Visits` are these loops without a bound on the number of rounds, so the bounds inside
`pathToRoot` and `descendants` are never what ends them. What the loops find is said with
`Arena.Under`, `n` being `top` or lying below it: `mem_pathToRoot`, `mem_descendants`,
`contains_iff`.
-/

namespace Inlay

instance : Finite NodeId := by
  refine Finite.of_injective
    (fun id : NodeId => (id.index.toBitVec.toFin, id.generation.toBitVec.toFin)) fun m n h => ?_
  obtain ⟨i, g⟩ := m
  obtain ⟨j, k⟩ := n
  simp only [Prod.mk.injEq] at h
  rw [NodeId.mk.injEq]
  exact ⟨UInt32.toNat_inj.mp (congrArg Fin.val h.1), UInt32.toNat_inj.mp (congrArg Fin.val h.2)⟩

/-- Whether it is the kind of an element of that tag name, up to the case of ASCII letters. -/
def NodeKind.hasTag (kind : NodeKind) (tag : String) : Bool :=
  match kind.element? with
  | some e => Text.eqIgnoreCase e.tag tag
  | none => false

namespace Arena

/-- `c` has the parent `p`. -/
def Up (a : Arena) (c p : NodeId) : Prop :=
  a.parent? c = some p

/-- `n` is `top` or lies below it. -/
def Under (a : Arena) (top n : NodeId) : Prop :=
  Relation.ReflTransGen a.Up n top

/-- `n` lies below `top`. -/
def Below (a : Arena) (top n : NodeId) : Prop :=
  Relation.TransGen a.Up n top

/-- The links between nodes make trees. -/
structure Forest (a : Arena) : Prop where
  /-- A child knows its parent, and so is live itself. -/
  parent_of_mem : ∀ {p c : NodeId}, c ∈ a.children p → a.parent? c = some p
  /-- A parent, which therefore is live, lists its children. -/
  mem_of_parent : ∀ {p c : NodeId}, a.parent? c = some p → c ∈ a.children p
  nodup_children : ∀ p : NodeId, (a.children p).Nodup
  /-- No node is its own ancestor. -/
  acyclic : ∀ n : NodeId, ¬ a.Below n n
  /-- Only elements and fragments have children. -/
  container : ∀ {n : NodeId},
    a.children n ≠ [] → ∃ kind, a.kind? n = some kind ∧ kind.isContainer = true

variable {a : Arena}

/-! ### One link -/

theorem parent?_eq_some_iff {c p : NodeId} :
    a.parent? c = some p ↔ ∃ node, a.get? c = some node ∧ node.parent = some p := by
  rw [parent?, Option.bind_eq_some_iff]

theorem children_of_get? {n : NodeId} {node : Node} (h : a.get? n = some node) :
    a.children n = node.children := by
  rw [children, h]

theorem parent?_of_get? {n : NodeId} {node : Node} (h : a.get? n = some node) :
    a.parent? n = node.parent := by
  rw [parent?, h, Option.bind_some]

theorem kind?_of_get? {n : NodeId} {node : Node} (h : a.get? n = some node) :
    a.kind? n = some node.kind := by
  rw [kind?, h, Option.map_some]

theorem hasTag_of_get? {n : NodeId} {node : Node} (h : a.get? n = some node) (tag : String) :
    a.hasTag n tag = node.kind.hasTag tag := by
  rw [hasTag, tag?, element?, kind?_of_get? h, Option.bind_some, NodeKind.hasTag]
  cases node.kind.element? <;> rfl

theorem children_of_dead {n : NodeId} (h : a.get? n = none) : a.children n = [] := by
  rw [children, h]

theorem parent?_of_dead {n : NodeId} (h : a.get? n = none) : a.parent? n = none := by
  rw [parent?, h, Option.bind_none]

theorem get?_of_mem_children {p c : NodeId} (h : c ∈ a.children p) :
    ∃ node, a.get? p = some node ∧ c ∈ node.children := by
  unfold children at h
  split at h
  · exact ⟨_, ‹_›, h⟩
  · exact absurd h List.not_mem_nil

theorem Up.live {c p : NodeId} (h : a.Up c p) : a.isLive c := by
  obtain ⟨node, hget, -⟩ := parent?_eq_some_iff.mp h
  exact isLive_iff.mpr ⟨node, hget⟩

/-- The children that a node lists have it as their parent: `c ∈ node.children` gives `a.Up c p`. -/
theorem Forest.up_of_mem (h : a.Forest) {p c : NodeId} {node : Node} (hp : a.get? p = some node)
    (hc : c ∈ node.children) : a.Up c p :=
  h.parent_of_mem (by rwa [children_of_get? hp])

/-- A parent is live, as a forest has no links to nodes that are gone. -/
theorem Up.parent_live (h : a.Forest) {c p : NodeId} (hup : a.Up c p) : a.isLive p := by
  obtain ⟨node, hget, -⟩ := get?_of_mem_children (h.mem_of_parent hup)
  exact isLive_iff.mpr ⟨node, hget⟩

theorem Up.unique {c p q : NodeId} (hp : a.Up c p) (hq : a.Up c q) : p = q :=
  Option.some.inj (hp.symm.trans hq)

theorem forest_empty : Forest empty where
  parent_of_mem {p c} h := by
    obtain ⟨node, hget, -⟩ := get?_of_mem_children h
    rw [get?_empty] at hget
    exact absurd hget (by simp)
  mem_of_parent {p c} h := by
    obtain ⟨node, hget, -⟩ := parent?_eq_some_iff.mp h
    rw [get?_empty] at hget
    exact absurd hget (by simp)
  nodup_children p := by
    rw [children_of_dead (get?_empty p)]
    exact List.nodup_nil
  acyclic n h := by
    obtain ⟨m, hup, -⟩ := Relation.TransGen.head'_iff.mp h
    obtain ⟨node, hget⟩ := isLive_iff.mp hup.live
    rw [get?_empty] at hget
    exact absurd hget (by simp)
  container {n} h := absurd (children_of_dead (get?_empty n)) h

/-! ### Induction along the links -/

/-- In a forest the way up ends, so there is induction along `a.Up`, from the parent to its
children. -/
theorem wellFounded_up (h : a.Forest) : WellFounded a.Up := by
  have : IsTrans NodeId (Relation.TransGen a.Up) := ⟨fun _ _ _ => Relation.TransGen.trans⟩
  have : Std.Irrefl (Relation.TransGen a.Up) := ⟨h.acyclic⟩
  exact Subrelation.wf Relation.TransGen.single
    (Finite.wellFounded_of_trans_of_irrefl (Relation.TransGen a.Up))

/-- In a forest the ways down end as well, so there is induction from the children to their
parent. -/
theorem wellFounded_down (h : a.Forest) : WellFounded fun p c => a.Up c p := by
  have : IsTrans NodeId fun x y => Relation.TransGen a.Up y x :=
    ⟨fun _ _ _ hxy hyz => hyz.trans hxy⟩
  have : Std.Irrefl fun x y => Relation.TransGen a.Up y x := ⟨h.acyclic⟩
  exact Subrelation.wf Relation.TransGen.single
    (Finite.wellFounded_of_trans_of_irrefl fun x y => Relation.TransGen a.Up y x)

/-- If `P` holds of a node whenever it holds of its children, it holds of all nodes. -/
theorem Forest.fromChildren (h : a.Forest) {P : NodeId → Prop}
    (step : ∀ n, (∀ c ∈ a.children n, P c) → P n) (n : NodeId) : P n :=
  (wellFounded_up h).induction n fun n ih => step n fun c hc => ih c (h.parent_of_mem hc)

/-- If `P` holds of a node whenever it holds of its parent, if it has one, it holds of all nodes. -/
theorem Forest.fromParent (h : a.Forest) {P : NodeId → Prop}
    (step : ∀ n, (∀ p, a.parent? n = some p → P p) → P n) (n : NodeId) : P n :=
  (wellFounded_down h).induction n fun n ih => step n ih

/-! ### Above and below -/

theorem Under.refl (n : NodeId) : a.Under n n :=
  Relation.ReflTransGen.refl

theorem Under.trans {x y z : NodeId} (hxy : a.Under x y) (hyz : a.Under y z) : a.Under x z :=
  Relation.ReflTransGen.trans hyz hxy

theorem Up.under {c p : NodeId} (h : a.Up c p) : a.Under p c :=
  Relation.ReflTransGen.single h

theorem Below.under {top n : NodeId} (h : a.Below top n) : a.Under top n :=
  h.to_reflTransGen

theorem under_iff_eq_or_below {top n : NodeId} : a.Under top n ↔ n = top ∨ a.Below top n := by
  rw [Under, Relation.reflTransGen_iff_eq_or_transGen, eq_comm]
  rfl

/-- Below `top` are the nodes under one of its children. -/
theorem below_iff (h : a.Forest) {top n : NodeId} :
    a.Below top n ↔ ∃ c ∈ a.children top, a.Under c n := by
  rw [Below, Relation.TransGen.tail'_iff]
  constructor
  · rintro ⟨c, hc, hup⟩
    exact ⟨c, h.mem_of_parent hup, hc⟩
  · rintro ⟨c, hc, hunder⟩
    exact ⟨c, hunder, h.parent_of_mem hc⟩

/-- Above a node `n` stand its parent `p` and what stands above that. -/
theorem under_iff_of_up {top n p : NodeId} (hup : a.Up n p) :
    a.Under top n ↔ n = top ∨ a.Under top p := by
  constructor
  · intro hunder
    rcases Relation.ReflTransGen.cases_head hunder with rfl | ⟨q, hq, hunder⟩
    · exact Or.inl rfl
    · exact Or.inr (hup.unique hq ▸ hunder)
  · rintro (rfl | hunder)
    · exact Under.refl _
    · exact hunder.trans hup.under

/-- A node without a parent is under itself alone: `a.Under top n ↔ n = top`. -/
theorem under_iff_of_top {top n : NodeId} (hnone : a.parent? n = none) :
    a.Under top n ↔ n = top := by
  constructor
  · intro hunder
    rcases Relation.ReflTransGen.cases_head hunder with rfl | ⟨q, hq, -⟩
    · rfl
    · rw [Up, hnone] at hq
      exact absurd hq (by simp)
  · rintro rfl
    exact Under.refl _

theorem Under.live {top n : NodeId} (hunder : a.Under top n) (htop : a.isLive top) :
    a.isLive n := by
  rcases Relation.ReflTransGen.cases_head hunder with rfl | ⟨q, hq, -⟩
  · exact htop
  · exact Up.live hq

/-- `n` is live and has no parent. -/
def IsTop (a : Arena) (n : NodeId) : Prop :=
  a.isLive n ∧ a.parent? n = none

/-- Every live node is under one without a parent, the `top` of its tree. -/
theorem Forest.exists_top (h : a.Forest) {n : NodeId} (hn : a.isLive n) :
    ∃ top, a.IsTop top ∧ a.Under top n := by
  revert hn
  refine h.fromParent (P := fun n => a.isLive n → ∃ top, a.IsTop top ∧ a.Under top n)
    (fun n ih hn => ?_) n
  cases hp : a.parent? n with
  | none => exact ⟨n, ⟨hn, hp⟩, Under.refl n⟩
  | some p =>
    obtain ⟨top, htop, hunder⟩ := ih p hp (Up.parent_live h hp)
    exact ⟨top, htop, hunder.trans (Up.under hp)⟩

/-- If `root` is the only node without a parent, all live nodes are under it. -/
theorem Forest.under_of_only_top (h : a.Forest) {root n : NodeId}
    (htops : ∀ m, a.IsTop m → m = root) (hn : a.isLive n) : a.Under root n := by
  obtain ⟨top, htop, hunder⟩ := h.exists_top hn
  rwa [htops top htop] at hunder

/-- Two nodes `x` and `y` above a third one are above each other, as the way up is a single line. -/
theorem Under.linear {x y n : NodeId} (hx : a.Under x n) (hy : a.Under y n) :
    a.Under x y ∨ a.Under y x := by
  have hunique : Relator.RightUnique a.Up := fun _ _ _ => Up.unique
  exact (Relation.ReflTransGen.total_of_right_unique hunique hx hy).symm

/-- Nothing lies under two children of one node: under `x` and `y` only if `x = y`. -/
theorem Forest.disjoint_siblings (h : a.Forest) {p x y n : NodeId} (hx : x ∈ a.children p)
    (hy : y ∈ a.children p) (hunder : a.Under x n) (hunder' : a.Under y n) : x = y := by
  have hx' : a.Up x p := h.parent_of_mem hx
  have hy' : a.Up y p := h.parent_of_mem hy
  rcases hunder.linear hunder' with hxy | hyx
  · rcases (under_iff_of_up hy').mp hxy with he | hp
    · exact he.symm
    · exact absurd (Relation.TransGen.head' hx' hp) (h.acyclic x)
  · rcases (under_iff_of_up hx').mp hyx with he | hp
    · exact he
    · exact absurd (Relation.TransGen.head' hy' hp) (h.acyclic y)

/-- A node `p` is not under its own child `c`. -/
theorem Forest.not_under_child (h : a.Forest) {p c : NodeId} (hc : c ∈ a.children p) :
    ¬ a.Under c p := fun hunder =>
  h.acyclic c (Relation.TransGen.head' (h.parent_of_mem hc) hunder)

/-! ### The way up -/

/-- The way up from a node, followed until there is no parent. -/
inductive Climbs (a : Arena) : NodeId → List NodeId → Prop where
  | top {n : NodeId} : a.parent? n = none → Climbs a n [n]
  | up {n p : NodeId} {path : List NodeId} :
    a.parent? n = some p → Climbs a p path → Climbs a n (n :: path)

/-- On the way up from `n` stand exactly the nodes that `n` is under. -/
theorem Climbs.mem_iff {n m : NodeId} {path : List NodeId} (h : a.Climbs n path) :
    m ∈ path ↔ a.Under m n := by
  induction h with
  | top hnone => rw [under_iff_of_top hnone, List.mem_singleton, eq_comm]
  | up hup _ ih => rw [under_iff_of_up hup, List.mem_cons, ih, eq_comm]

/-- No node comes twice on the way up: `path.Nodup`. -/
theorem Climbs.nodup (hf : a.Forest) {n : NodeId} {path : List NodeId} (h : a.Climbs n path) :
    path.Nodup := by
  induction h with
  | top => exact List.nodup_singleton _
  | up hup hclimb ih =>
    refine List.nodup_cons.mpr ⟨fun hmem => ?_, ih⟩
    exact hf.acyclic _ (Relation.TransGen.head' hup (hclimb.mem_iff.mp hmem))

/-- On the way up each node is `Below` those that come after it. -/
theorem Climbs.pairwise {n : NodeId} {path : List NodeId} (h : a.Climbs n path) :
    path.Pairwise fun x y => a.Below y x := by
  induction h with
  | top => exact List.pairwise_singleton _ _
  | up hup hclimb ih =>
    refine List.pairwise_cons.mpr ⟨fun y hy => ?_, ih⟩
    exact Relation.TransGen.head' hup (hclimb.mem_iff.mp hy)

/-- From a node there is one way up only: `path = path'`. -/
theorem Climbs.unique {n : NodeId} {path path' : List NodeId} (h : a.Climbs n path)
    (h' : a.Climbs n path') : path = path' := by
  induction h generalizing path' with
  | top hnone =>
    cases h' with
    | top => rfl
    | up hup => exact absurd (hnone.symm.trans hup) (by simp)
  | up hup _ ih =>
    cases h' with
    | top hnone => exact absurd (hnone.symm.trans hup) (by simp)
    | up hup' hclimb =>
      obtain rfl := Up.unique hup hup'
      rw [ih hclimb]

/-- With fuel for the whole way, `climb` takes it. -/
theorem Climbs.climb_eq {n : NodeId} {path : List NodeId} (h : a.Climbs n path) :
    ∀ {fuel : Nat}, path.length ≤ fuel → a.climb fuel n = path := by
  induction h with
  | top hnone =>
    intro fuel hfuel
    obtain ⟨fuel, rfl⟩ := Nat.exists_eq_add_of_le' hfuel
    rw [climb.eq_def]
    simp [hnone]
  | up hup _ ih =>
    intro fuel hfuel
    obtain ⟨fuel, rfl⟩ := Nat.exists_eq_add_of_le' (Nat.le_trans (Nat.succ_pos _) hfuel)
    rw [climb.eq_def]
    simp only [hup]
    rw [ih (Nat.le_of_succ_le_succ hfuel)]

/-- In a forest there is a way up from every node, the `path` of the nodes above it. -/
theorem Forest.exists_climbs (h : a.Forest) (n : NodeId) : ∃ path, a.Climbs n path := by
  refine h.fromParent (P := fun n => ∃ path, a.Climbs n path) (fun n ih => ?_) n
  cases hp : a.parent? n with
  | none => exact ⟨[n], .top hp⟩
  | some p =>
    obtain ⟨path, hpath⟩ := ih p hp
    exact ⟨n :: path, .up hp hpath⟩

/-- The way up has at most `a.slots.size + 1` nodes, as all but the first are different live
ones. -/
theorem Climbs.length_le (hf : a.Forest) {n : NodeId} {path : List NodeId} (h : a.Climbs n path) :
    path.length ≤ a.slots.size + 1 := by
  cases h with
  | top => simp
  | up hup hclimb =>
    have hlive : ∀ m ∈ _, a.isLive m := fun m hm => by
      rcases Relation.ReflTransGen.cases_tail (hclimb.mem_iff.mp hm) with rfl | ⟨q, -, hq⟩
      · exact Up.parent_live hf hup
      · exact Up.parent_live hf hq
    exact Nat.succ_le_succ (length_le_of_nodup (hclimb.nodup hf) hlive)

/-- **The way up from any node ends**, and it is `pathToRoot`. -/
theorem Forest.climbs_pathToRoot (h : a.Forest) (n : NodeId) : a.Climbs n (a.pathToRoot n) := by
  obtain ⟨path, hpath⟩ := h.exists_climbs n
  rw [pathToRoot, hpath.climb_eq (hpath.length_le h)]
  exact hpath

theorem Forest.mem_pathToRoot (h : a.Forest) {n m : NodeId} :
    m ∈ a.pathToRoot n ↔ a.Under m n :=
  (h.climbs_pathToRoot n).mem_iff

/-- The loop over the links to the parents decides whether `n` is under `top`. -/
theorem Forest.contains_iff (h : a.Forest) {top n : NodeId} :
    a.contains top n = true ↔ a.Under top n := by
  rw [contains, List.contains_iff_mem, h.mem_pathToRoot]

/-! ### The walk down -/

/-- Visiting the first node of the agenda and putting its children before the others, until there
is nothing left to visit. -/
inductive Visits (a : Arena) : List NodeId → List NodeId → Prop where
  | done : Visits a [] []
  | visit {n : NodeId} {agenda out : List NodeId} :
    Visits a (a.children n ++ agenda) out → Visits a (n :: agenda) (n :: out)

theorem Visits.append {xs ys us vs : List NodeId} (hx : a.Visits xs us) (hy : a.Visits ys vs) :
    a.Visits (xs ++ ys) (us ++ vs) := by
  induction hx with
  | done => exact hy
  | visit _ ih =>
    refine .visit ?_
    rwa [List.append_assoc] at ih

/-- A walk down visits the nodes under those on the agenda:
`m ∈ out ↔ ∃ n ∈ agenda, a.Under n m`. -/
theorem Visits.mem_iff (hf : a.Forest) {agenda out : List NodeId} (h : a.Visits agenda out)
    {m : NodeId} : m ∈ out ↔ ∃ n ∈ agenda, a.Under n m := by
  induction h with
  | done => simp
  | @visit n agenda out _ ih =>
    have hn : a.Under n m ↔ m = n ∨ ∃ c ∈ a.children n, a.Under c m := by
      rw [under_iff_eq_or_below, below_iff hf]
    simp only [List.mem_cons, ih, List.mem_append, or_and_right, exists_or, exists_eq_left, hn,
      or_assoc]

/-- A walk visits no node twice, `out.Nodup`, if nothing lies under two nodes on the agenda. -/
theorem Visits.nodup (hf : a.Forest) {agenda out : List NodeId} (h : a.Visits agenda out) :
    agenda.Nodup → (∀ x ∈ agenda, ∀ y ∈ agenda, ∀ m, a.Under x m → a.Under y m → x = y) →
    out.Nodup := by
  induction h with
  | done => exact fun _ _ => List.nodup_nil
  | @visit n agenda out hvisit ih =>
    intro hnd hdisj
    rw [List.nodup_cons] at hnd
    -- nothing is under a child of `n` and under another node of the agenda
    have hcross : ∀ c ∈ a.children n, ∀ y ∈ agenda, ∀ m, a.Under c m → ¬ a.Under y m := by
      intro c hc y hy m hcm hym
      have hnm : a.Under n m := (Up.under (h := hf.parent_of_mem hc)).trans hcm
      exact hnd.1 (hdisj n List.mem_cons_self y (List.mem_cons_of_mem _ hy) m hnm hym ▸ hy)
    refine List.nodup_cons.mpr ⟨fun hmem => ?_, ih ?_ ?_⟩
    · obtain ⟨y, hy, hyn⟩ := (hvisit.mem_iff hf).mp hmem
      rcases List.mem_append.mp hy with hc | hy
      · exact hf.not_under_child hc hyn
      · exact hnd.1 (hdisj n List.mem_cons_self y (List.mem_cons_of_mem _ hy) n (Under.refl n)
          hyn ▸ hy)
    · refine List.nodup_append.mpr ⟨hf.nodup_children n, hnd.2, fun c hc y hy he => ?_⟩
      exact hcross c hc y hy c (Under.refl c) (he ▸ Under.refl c)
    · intro x hx y hy m hxm hym
      rcases List.mem_append.mp hx with hx | hx <;> rcases List.mem_append.mp hy with hy | hy
      · exact hf.disjoint_siblings hx hy hxm hym
      · exact absurd hym (hcross x hx y hy m hxm)
      · exact absurd hxm (hcross y hy x hx m hym)
      · exact hdisj x (List.mem_cons_of_mem _ hx) y (List.mem_cons_of_mem _ hy) m hxm hym

/-- With fuel for all nodes it visits, `preorder` is the walk. -/
theorem Visits.preorder_eq {agenda out : List NodeId} (h : a.Visits agenda out) :
    ∀ {fuel : Nat}, out.length ≤ fuel → a.preorder fuel agenda = out := by
  induction h with
  | done =>
    intro fuel _
    cases fuel <;> rfl
  | visit _ ih =>
    intro fuel hfuel
    obtain ⟨fuel, rfl⟩ := Nat.exists_eq_add_of_le' (Nat.le_trans (Nat.succ_pos _) hfuel)
    rw [preorder, ih (Nat.le_of_succ_le_succ hfuel)]

theorem exists_visits_of_forall {agenda : List NodeId} (h : ∀ n ∈ agenda, ∃ out, a.Visits [n] out) :
    ∃ out, a.Visits agenda out := by
  induction agenda with
  | nil => exact ⟨[], .done⟩
  | cons n agenda ih =>
    obtain ⟨us, hus⟩ := h n List.mem_cons_self
    obtain ⟨vs, hvs⟩ := ih fun m hm => h m (List.mem_cons_of_mem _ hm)
    exact ⟨us ++ vs, hus.append hvs⟩

/-- In a forest there is a walk for every `agenda`, which ends. -/
theorem Forest.exists_visits (h : a.Forest) (agenda : List NodeId) :
    ∃ out, a.Visits agenda out := by
  refine exists_visits_of_forall fun n _ => ?_
  refine h.fromChildren (P := fun n => ∃ out, a.Visits [n] out) (fun n ih => ?_) n
  obtain ⟨out, hout⟩ := exists_visits_of_forall ih
  exact ⟨n :: out, .visit (by rwa [List.append_nil])⟩

theorem Visits.nodup_of_children (hf : a.Forest) {n : NodeId} {out : List NodeId}
    (h : a.Visits (a.children n) out) : out.Nodup :=
  h.nodup hf (hf.nodup_children n) fun _ hx _ hy _ => hf.disjoint_siblings hx hy

/-- The walk below a node visits at most `a.slots.size` nodes. -/
theorem Visits.length_le (hf : a.Forest) {n : NodeId} {out : List NodeId}
    (h : a.Visits (a.children n) out) : out.length ≤ a.slots.size := by
  refine length_le_of_nodup (h.nodup_of_children hf) fun m hm => ?_
  obtain ⟨c, hc, hunder⟩ := (h.mem_iff hf).mp hm
  exact hunder.live (Up.live (hf.parent_of_mem hc))

theorem Visits.descendants_eq (hf : a.Forest) {n : NodeId} {out : List NodeId}
    (h : a.Visits (a.children n) out) : a.descendants n = out := by
  rw [descendants, h.preorder_eq (h.length_le hf)]

/-- **The walk below any node ends**, and it is `descendants`. -/
theorem Forest.visits_descendants (h : a.Forest) (n : NodeId) :
    a.Visits (a.children n) (a.descendants n) := by
  obtain ⟨out, hout⟩ := h.exists_visits (a.children n)
  rwa [hout.descendants_eq h]

/-- The descendants of `top` are the nodes below it. -/
theorem Forest.mem_descendants (h : a.Forest) {top n : NodeId} :
    n ∈ a.descendants top ↔ a.Below top n := by
  rw [(h.visits_descendants top).mem_iff h, below_iff h]

theorem Forest.mem_cons_descendants (h : a.Forest) {top n : NodeId} :
    n ∈ top :: a.descendants top ↔ a.Under top n := by
  rw [List.mem_cons, h.mem_descendants, under_iff_eq_or_below]

theorem Forest.nodup_descendants (h : a.Forest) (n : NodeId) : (a.descendants n).Nodup :=
  (h.visits_descendants n).nodup_of_children h

theorem Forest.nodup_cons_descendants (h : a.Forest) (n : NodeId) :
    (n :: a.descendants n).Nodup := by
  refine List.nodup_cons.mpr ⟨fun hmem => ?_, h.nodup_descendants n⟩
  exact h.acyclic n (h.mem_descendants.mp hmem)

/-- The walk depends on the children of the nodes `n ∈ out` only. -/
theorem Visits.frame {b : Arena} {agenda out : List NodeId} (h : a.Visits agenda out) :
    (∀ n ∈ out, b.children n = a.children n) → b.Visits agenda out := by
  induction h with
  | done => exact fun _ => .done
  | visit _ ih =>
    intro hsame
    refine .visit ?_
    rw [hsame _ List.mem_cons_self]
    exact ih fun n hn => hsame n (List.mem_cons_of_mem _ hn)

/-- The descendants of `top` depend on the children of the nodes under `top` only. -/
theorem Forest.descendants_congr {b : Arena} (ha : a.Forest) (hb : b.Forest) {top : NodeId}
    (h : ∀ n, a.Under top n → b.children n = a.children n) :
    b.descendants top = a.descendants top := by
  refine Visits.descendants_eq hb ?_
  rw [h top (Under.refl top)]
  refine (ha.visits_descendants top).frame fun n hn => h n ?_
  exact (ha.mem_descendants.mp hn).under

end Arena

end Inlay
