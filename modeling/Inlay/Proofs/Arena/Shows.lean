import Inlay.Arena.Tree
import Inlay.Proofs.Arena.Forest

/-!
# What a node shows

`a.Shows id t` says that the tree at `id` looks like `t`. It is read off the links alone, so it
carries over to any arena that agrees below `id` (`Shows.frame`), and in a forest it is what
`Arena.tree?` computes (`Forest.tree?_eq_some_iff`): every live node shows exactly one tree, which
has no more nodes than the arena has slots.
-/

namespace Inlay.Arena

mutual

/-- The tree at `id` looks like the given one. -/
def Shows (a : Arena) (id : NodeId) : Tree → Prop
  | .node kind cs => ∃ node, a.get? id = some node ∧ node.kind = kind ∧ ShowsAll a node.children cs

/-- The trees at some nodes look like the given ones, one by one. -/
def ShowsAll (a : Arena) : List NodeId → List Tree → Prop
  | [], [] => True
  | id :: ids, t :: ts => Shows a id t ∧ ShowsAll a ids ts
  | _, _ => False

end

variable {a b : Arena}

/-- A node shows `.node kind cs` if it is of that kind and its children show `cs`, in order. -/
@[simp] theorem shows_node {id : NodeId} {kind : NodeKind} {cs : List Tree} :
    a.Shows id (.node kind cs) ↔
      ∃ node, a.get? id = some node ∧ node.kind = kind ∧ a.ShowsAll node.children cs := by
  rw [Shows]

@[simp] theorem showsAll_nil_iff {ids : List NodeId} : a.ShowsAll ids [] ↔ ids = [] := by
  cases ids <;> simp [ShowsAll]

@[simp] theorem showsAll_cons_iff {ids : List NodeId} {t : Tree} {ts : List Tree} :
    a.ShowsAll ids (t :: ts) ↔
      ∃ id rest, ids = id :: rest ∧ a.Shows id t ∧ a.ShowsAll rest ts := by
  cases ids with
  | nil => simp [ShowsAll]
  | cons id ids => simp [ShowsAll]

/-- A row of nodes shows `ss ++ ts` if it is made of one row that shows `ss` and one that shows
`ts`. -/
theorem showsAll_append_iff {ids : List NodeId} {ss ts : List Tree} :
    a.ShowsAll ids (ss ++ ts) ↔
      ∃ xs ys, ids = xs ++ ys ∧ a.ShowsAll xs ss ∧ a.ShowsAll ys ts := by
  induction ss generalizing ids with
  | nil => simp
  | cons s ss ih =>
    simp only [List.cons_append, showsAll_cons_iff, ih]
    constructor
    · rintro ⟨id, rest, rfl, hs, xs, ys, rfl, hxs, hys⟩
      exact ⟨id :: xs, ys, rfl, ⟨id, xs, rfl, hs, hxs⟩, hys⟩
    · rintro ⟨_, ys, rfl, ⟨id, xs, rfl, hs, hxs⟩, hys⟩
      exact ⟨id, xs ++ ys, rfl, hs, xs, ys, rfl, hxs, hys⟩

theorem ShowsAll.append {xs ys : List NodeId} {ss ts : List Tree} (hx : a.ShowsAll xs ss)
    (hy : a.ShowsAll ys ts) : a.ShowsAll (xs ++ ys) (ss ++ ts) :=
  showsAll_append_iff.mpr ⟨xs, ys, rfl, hx, hy⟩

@[simp] theorem showsAll_singleton_iff {id : NodeId} {t : Tree} :
    a.ShowsAll [id] [t] ↔ a.Shows id t := by
  simp [ShowsAll]

theorem ShowsAll.length_eq : ∀ {ids : List NodeId} {ts : List Tree},
    a.ShowsAll ids ts → ids.length = ts.length
  | [], [], _ => rfl
  | _ :: _, _ :: _, h => by
    rw [ShowsAll] at h
    rw [List.length_cons, List.length_cons, h.2.length_eq]

theorem Shows.get? {id : NodeId} {t : Tree} (h : a.Shows id t) :
    ∃ node, a.get? id = some node ∧ node.kind = t.kind ∧ a.ShowsAll node.children t.children := by
  obtain ⟨kind, cs⟩ := t
  exact shows_node.mp h

theorem Shows.live {id : NodeId} {t : Tree} (h : a.Shows id t) : a.isLive id := by
  obtain ⟨node, hget, -⟩ := h.get?
  exact isLive_iff.mpr ⟨node, hget⟩

theorem ShowsAll.live {ids : List NodeId} {ts : List Tree} (h : a.ShowsAll ids ts) :
    ∀ id ∈ ids, a.isLive id := by
  induction ts generalizing ids with
  | nil =>
    rw [showsAll_nil_iff.mp h]
    simp
  | cons t ts ih =>
    obtain ⟨id, rest, rfl, ht, hts⟩ := showsAll_cons_iff.mp h
    intro n hn
    rcases List.mem_cons.mp hn with rfl | hn
    · exact ht.live
    · exact ih hts n hn

mutual

/-- A node shows one tree only: `t = u`. -/
theorem Shows.unique : ∀ {t u : Tree} {id : NodeId}, a.Shows id t → a.Shows id u → t = u
  | .node _ cs, .node _ ds, id, ht, hu => by
    obtain ⟨node, hget, rfl, hcs⟩ := shows_node.mp ht
    obtain ⟨node', hget', rfl, hds⟩ := shows_node.mp hu
    rw [hget, Option.some.injEq] at hget'
    subst hget'
    rw [hcs.unique hds]

theorem ShowsAll.unique : ∀ {ts us : List Tree} {ids : List NodeId},
    a.ShowsAll ids ts → a.ShowsAll ids us → ts = us
  | [], us, ids, ht, hu => by
    rw [showsAll_nil_iff] at ht
    subst ht
    cases us with
    | nil => rfl
    | cons => simp at hu
  | t :: ts, us, ids, ht, hu => by
    obtain ⟨id, rest, rfl, ht, hts⟩ := showsAll_cons_iff.mp ht
    cases us with
    | nil => simp at hu
    | cons u us =>
      rw [ShowsAll] at hu
      rw [ht.unique hu.1, hts.unique hu.2]

end

/-! ### Agreement below a node -/

/-- A node without its parent: all that the tree at it needs of it. -/
def content? (a : Arena) (id : NodeId) : Option (NodeKind × List NodeId) :=
  (a.get? id).map fun node => (node.kind, node.children)

theorem content?_eq (n : NodeId) :
    a.content? n = (a.kind? n).map fun kind => (kind, a.children n) := by
  rw [content?, kind?, children]
  cases a.get? n <;> rfl

theorem content?_eq_of_get? {n : NodeId} (h : b.get? n = a.get? n) :
    b.content? n = a.content? n := by
  rw [content?, content?, h]

/-- Where kind and children are the same, a node that is live in `a` is live in `b`. -/
theorem exists_get?_of_content? {n : NodeId} {node : Node} (h : b.content? n = a.content? n)
    (hget : a.get? n = some node) :
    ∃ node', b.get? n = some node' ∧ node'.kind = node.kind ∧ node'.children = node.children := by
  rw [content?, content?, hget, Option.map_some, Option.map_eq_some_iff] at h
  obtain ⟨node', hget', he⟩ := h
  rw [Prod.mk.injEq] at he
  exact ⟨node', hget', he.1, he.2⟩

mutual

/-- What a node shows depends only on `content?` of the nodes under it. -/
theorem Shows.frame (hf : a.Forest) : ∀ {t : Tree} {id : NodeId}, a.Shows id t →
    (∀ n, a.Under id n → b.content? n = a.content? n) → b.Shows id t
  | .node _ cs, id, h, hsame => by
    obtain ⟨node, hget, rfl, hcs⟩ := shows_node.mp h
    obtain ⟨node', hget', hkind, hchildren⟩ :=
      exists_get?_of_content? (hsame id (Under.refl id)) hget
    refine shows_node.mpr ⟨node', hget', hkind, ?_⟩
    rw [hchildren]
    refine hcs.frame hf fun c hc n hn => hsame n ?_
    exact (below_iff hf).mpr ⟨c, by rwa [children_of_get? hget], hn⟩ |>.under

theorem ShowsAll.frame (hf : a.Forest) : ∀ {ts : List Tree} {ids : List NodeId},
    a.ShowsAll ids ts → (∀ id ∈ ids, ∀ n, a.Under id n → b.content? n = a.content? n) →
    b.ShowsAll ids ts
  | [], ids, h, _ => by
    rw [showsAll_nil_iff] at h ⊢
    exact h
  | t :: ts, ids, h, hsame => by
    obtain ⟨id, rest, rfl, ht, hts⟩ := showsAll_cons_iff.mp h
    refine showsAll_cons_iff.mpr ⟨id, rest, rfl, ht.frame hf ?_, hts.frame hf ?_⟩
    · exact hsame id List.mem_cons_self
    · exact fun n hn => hsame n (List.mem_cons_of_mem _ hn)

end

/-! ### Computing the tree -/

mutual

/-- Fuel for `t.size` nodes suffices for `treeWithin` to find the tree `t`. -/
theorem Shows.treeWithin_eq : ∀ {t : Tree} {id : NodeId} {fuel : Nat}, a.Shows id t →
    t.size ≤ fuel → a.treeWithin fuel id = some t
  | .node _ cs, id, fuel, h, hfuel => by
    obtain ⟨node, hget, rfl, hcs⟩ := shows_node.mp h
    rw [Tree.size] at hfuel
    obtain ⟨fuel, rfl⟩ := Nat.exists_eq_add_of_le' (Nat.le_trans (Nat.succ_pos _) hfuel)
    rw [treeWithin]
    simp only [hget]
    rw [hcs.treeWithin_eq (Nat.le_of_succ_le_succ hfuel), Option.map_some]

theorem ShowsAll.treeWithin_eq : ∀ {ts : List Tree} {ids : List NodeId} {fuel : Nat},
    a.ShowsAll ids ts → Tree.sizeAll ts ≤ fuel → ids.mapM (a.treeWithin fuel) = some ts
  | [], ids, fuel, h, _ => by
    rw [showsAll_nil_iff] at h
    subst h
    rfl
  | t :: ts, ids, fuel, h, hfuel => by
    obtain ⟨id, rest, rfl, ht, hts⟩ := showsAll_cons_iff.mp h
    rw [Tree.sizeAll] at hfuel
    rw [List.mapM_cons, ht.treeWithin_eq (by omega), hts.treeWithin_eq (by omega)]
    rfl

end

/-- What `treeWithin` finds is what the node shows, with any fuel. -/
theorem shows_of_treeWithin : ∀ {fuel : Nat} {id : NodeId} {t : Tree},
    a.treeWithin fuel id = some t → a.Shows id t
  | 0, _, _, h => by simp [treeWithin] at h
  | fuel + 1, id, t, h => by
    rw [treeWithin] at h
    split at h
    · simp at h
    · rename_i node hget
      rw [Option.map_eq_some_iff] at h
      obtain ⟨cs, hcs, rfl⟩ := h
      refine shows_node.mpr ⟨node, hget, rfl, ?_⟩
      revert hcs
      generalize node.children = ids
      intro hcs
      induction ids generalizing cs with
      | nil =>
        rw [List.mapM_nil] at hcs
        obtain rfl : [] = cs := Option.some.inj hcs
        exact showsAll_nil_iff.mpr rfl
      | cons id ids ih =>
        rw [List.mapM_cons] at hcs
        simp only [Option.bind_eq_bind, Option.bind_eq_some_iff, Option.pure_def,
          Option.some.injEq] at hcs
        obtain ⟨t, ht, ts, hts, rfl⟩ := hcs
        exact showsAll_cons_iff.mpr ⟨id, ids, rfl, shows_of_treeWithin ht, ih ts hts⟩

mutual

/-- The walk from `id` visits `t.size` nodes, where `t` is the tree that it shows. -/
theorem Shows.visits : ∀ {t : Tree} {id : NodeId}, a.Shows id t →
    ∃ out, a.Visits [id] out ∧ out.length = t.size
  | .node _ cs, id, h => by
    obtain ⟨node, hget, rfl, hcs⟩ := shows_node.mp h
    obtain ⟨out, hout, hlen⟩ := hcs.visits
    refine ⟨id :: out, .visit ?_, by rw [List.length_cons, hlen, Tree.size]⟩
    rwa [List.append_nil, children_of_get? hget]

theorem ShowsAll.visits : ∀ {ts : List Tree} {ids : List NodeId}, a.ShowsAll ids ts →
    ∃ out, a.Visits ids out ∧ out.length = Tree.sizeAll ts
  | [], ids, h => by
    rw [showsAll_nil_iff] at h
    subst h
    exact ⟨[], .done, rfl⟩
  | t :: ts, ids, h => by
    obtain ⟨id, rest, rfl, ht, hts⟩ := showsAll_cons_iff.mp h
    obtain ⟨us, hus, hlen⟩ := ht.visits
    obtain ⟨vs, hvs, hlen'⟩ := hts.visits
    exact ⟨us ++ vs, hus.append hvs, by rw [List.length_append, hlen, hlen', Tree.sizeAll]⟩

end

/-- The nodes of a tree are different live nodes, so `t.size ≤ a.slots.size`. -/
theorem Shows.size_le (hf : a.Forest) {t : Tree} {id : NodeId} (h : a.Shows id t) :
    t.size ≤ a.slots.size := by
  obtain ⟨out, hout, hlen⟩ := h.visits
  have hnodup : out.Nodup := hout.nodup hf (List.nodup_singleton id) fun x hx y hy _ _ _ => by
    rw [List.mem_singleton.mp hx, List.mem_singleton.mp hy]
  rw [← hlen]
  refine length_le_of_nodup hnodup fun m hm => ?_
  obtain ⟨n, hn, hunder⟩ := (hout.mem_iff hf).mp hm
  obtain rfl := List.mem_singleton.mp hn
  exact hunder.live h.live

theorem Shows.tree? (hf : a.Forest) {t : Tree} {id : NodeId} (h : a.Shows id t) :
    a.tree? id = some t :=
  h.treeWithin_eq (Nat.le_succ_of_le (h.size_le hf))

/-- In a forest, `tree?` finds what a node shows: `a.tree? id = some t ↔ a.Shows id t`. -/
theorem Forest.tree?_eq_some_iff (hf : a.Forest) {t : Tree} {id : NodeId} :
    a.tree? id = some t ↔ a.Shows id t :=
  ⟨shows_of_treeWithin, Shows.tree? hf⟩

theorem exists_showsAll {ids : List NodeId} (h : ∀ id ∈ ids, ∃ t, a.Shows id t) :
    ∃ ts, a.ShowsAll ids ts := by
  induction ids with
  | nil => exact ⟨[], showsAll_nil_iff.mpr rfl⟩
  | cons id ids ih =>
    obtain ⟨t, ht⟩ := h id List.mem_cons_self
    obtain ⟨ts, hts⟩ := ih fun n hn => h n (List.mem_cons_of_mem _ hn)
    exact ⟨t :: ts, showsAll_cons_iff.mpr ⟨id, ids, rfl, ht, hts⟩⟩

/-- Every live node shows a tree `t`. -/
theorem Forest.exists_shows (hf : a.Forest) {id : NodeId} (hlive : a.isLive id) :
    ∃ t, a.Shows id t := by
  revert hlive
  refine hf.fromChildren (P := fun id => a.isLive id → ∃ t, a.Shows id t) (fun n ih hlive => ?_) id
  obtain ⟨node, hget⟩ := isLive_iff.mp hlive
  rw [children_of_get? hget] at ih
  have hchildren : ∀ c ∈ node.children, ∃ t, a.Shows c t := fun c hc =>
    ih c hc (hf.up_of_mem hget hc).live
  obtain ⟨ts, hts⟩ := exists_showsAll hchildren
  exact ⟨.node node.kind ts, shows_node.mpr ⟨node, hget, rfl, hts⟩⟩

/-- The tree at a live node depends only on `content?` of the nodes under it. -/
theorem Forest.tree?_congr (ha : a.Forest) (hb : b.Forest) {top : NodeId} (hlive : a.isLive top)
    (h : ∀ n, a.Under top n → b.content? n = a.content? n) : b.tree? top = a.tree? top := by
  obtain ⟨t, ht⟩ := ha.exists_shows hlive
  rw [ht.tree? ha, (ht.frame ha h).tree? hb]

end Inlay.Arena
