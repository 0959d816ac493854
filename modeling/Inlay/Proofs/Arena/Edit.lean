import Inlay.Arena.Edit
import Inlay.Proofs.Arena.Shows
import Inlay.Proofs.Outcome

/-!
# What the operations do

In a sound arena, one whose slots are accounted for and whose nodes make trees, each operation is
described by what every node is afterwards. An operation either does that or refuses and leaves the
arena as it was:

* `create_spec`: a new node without links (`Created`);
* `detach_spec`: one node without its parent (`Detached`);
* `appendChild_spec`, `insertBefore_spec`: one node moved to a place among the children of another
  (`Moved`);
* `free_spec`: one node and everything below it gone (`Freed`).

Each of these descriptions includes that the arena is sound again.
-/

namespace Inlay.Arena

/-- Slots and links are in order. -/
structure Sound (a : Arena) : Prop where
  accounted : a.Accounted
  forest : a.Forest

theorem sound_empty : Sound empty :=
  ⟨accounted_empty, forest_empty⟩

/-! ### Counting nodes -/

/-- There are only finitely many ids, so the live ones can be listed, as `ids` without
repetition. -/
theorem exists_live_ids (a : Arena) :
    ∃ ids : List NodeId, ids.Nodup ∧ ∀ id, id ∈ ids ↔ a.isLive id := by
  obtain ⟨live, hlive⟩ := (Set.toFinite {id | a.isLive id = true}).exists_finset
  refine ⟨live.toList, live.nodup_toList, fun id => ?_⟩
  rw [Finset.mem_toList, hlive, Set.mem_ofPred_eq]

/-- If the nodes `news` are live in `b` and were not in `a`, and there is no other difference, then
`b.live = a.live + news.length`. -/
theorem Accounted.live_eq_add {a b : Arena} (ha : a.Accounted) (hb : b.Accounted) (hfita : a.Fits)
    (hfitb : b.Fits) {news : List NodeId} (hnd : news.Nodup)
    (hdead : ∀ id ∈ news, a.get? id = none) (hlive : ∀ id, b.isLive id ↔ a.isLive id ∨ id ∈ news) :
    b.live = a.live + news.length := by
  obtain ⟨olds, hnodup, holds⟩ := exists_live_ids a
  have hapart : ∀ m ∈ olds, ∀ n ∈ news, m ≠ n := by
    rintro m hm n hn rfl
    exact not_live_of_dead (hdead m hn) ((holds m).mp hm)
  have hall : ∀ id, id ∈ olds ++ news ↔ b.isLive id := fun id => by
    rw [List.mem_append, holds, hlive]
  rw [ha.live_eq_length hfita hnodup holds,
    hb.live_eq_length hfitb (List.nodup_append.mpr ⟨hnodup, hnd, hapart⟩) hall, List.length_append]

/-- Where the same ids are live, the counts are equal: `b.live = a.live`. -/
theorem Accounted.live_eq_of_isLive {a b : Arena} (ha : a.Accounted) (hb : b.Accounted)
    (hfita : a.Fits) (hfitb : b.Fits) (hlive : ∀ id, b.isLive id = a.isLive id) :
    b.live = a.live :=
  ha.live_eq_add hb hfita hfitb List.nodup_nil (by simp) (by simp [hlive])

/-- Where everything is under one node `root`, the live nodes are that and its descendants:
`a.live = 1 + (a.descendants root).length`. -/
theorem Sound.live_eq {a : Arena} (h : a.Sound) (hfit : a.Fits) {root : NodeId}
    (hroot : a.isLive root) (hall : ∀ n, a.isLive n → a.Under root n) :
    a.live = 1 + (a.descendants root).length := by
  have hnd := h.forest.nodup_cons_descendants root
  have hids : ∀ n, n ∈ root :: a.descendants root ↔ a.isLive n := by
    intro n
    rw [h.forest.mem_cons_descendants]
    exact ⟨fun hunder => hunder.live hroot, hall n⟩
  rw [h.accounted.live_eq_length hfit hnd hids, List.length_cons, Nat.add_comm]

variable {a b : Arena}

/-! ### Changing one node -/

/-- A change of a live node changes the slot at `id.index`. -/
theorem update_run_of_live {id : NodeId} {node : Node} (h : a.get? id = some node)
    (f : Node → Node) : (update id f).run a = .ok () (a.modifySlot id.index f) := by
  rw [get?_eq_some_iff] at h
  unfold update
  rw [EStateM.run_bind, EStateM.run_get]
  simp only [h, Option.isSome_some, and_self, if_true]
  rfl

theorem size_update (id : NodeId) (f : Node → Node) (a : Arena) :
    (stateAfter (update id f) a).slots.size = a.slots.size := by
  unfold update
  rw [stateAfter_bind_of_ok (EStateM.run_get ..)]
  split
  · rfl
  · split
    · exact size_modifySlot a id.index f
    · rfl

/-- Two different nodes `x` and `y` are changed one after the other, by `f` and by `g`, and all
others stay. -/
theorem update_update_run (h : a.Accounted) {x y : NodeId} (hne : x ≠ y) {xnode ynode : Node}
    (hx : a.get? x = some xnode) (hy : a.get? y = some ynode) (f g : Node → Node) :
    ∃ b, (update x f >>= fun _ => update y g).run a = .ok () b ∧ b.Accounted ∧
      b.slots.size = a.slots.size ∧
      ∀ n, b.get? n =
        if n = y then some (g ynode) else if n = x then some (f xnode) else a.get? n := by
  have hview := get?_modifySlot hx f
  have hy' : (a.modifySlot x.index f).get? y = some ynode := by
    rw [hview, if_neg (Ne.symm hne), hy]
  refine ⟨(a.modifySlot x.index f).modifySlot y.index g, ?_, ?_, ?_, fun n => ?_⟩
  · rw [run_bind_of_ok (update_run_of_live hx f), update_run_of_live hy']
  · exact (h.modifySlot hx f).modifySlot hy' g
  · rw [size_modifySlot, size_modifySlot]
  · rw [get?_modifySlot hy', hview]

/-! ### Links after a change -/

/-- If every link of `b` is one of the forest `a`, no node of `b` is below itself. -/
theorem Forest.acyclic_of_up (h : a.Forest) (hup : ∀ c p, b.Up c p → a.Up c p) (n : NodeId) :
    ¬ b.Below n n :=
  fun hbelow => h.acyclic n (Relation.TransGen.mono hup n n hbelow)

/-- A node `c` that gets another parent does not change what lies under it. -/
theorem under_congr {c n : NodeId} (h : ∀ m, m ≠ c → b.parent? m = a.parent? m)
    (hunder : b.Under c n) : a.Under c n := by
  refine Relation.ReflTransGen.head_induction_on hunder (Under.refl c) fun {x y} hup _ ih => ?_
  by_cases hx : x = c
  · rw [hx]
    exact Under.refl c
  · refine Under.trans ih (Up.under ?_)
    rwa [Up, ← h x hx]

/-- Giving a node a parent that is not under it makes no cycle: no `n` is below itself. -/
theorem Forest.acyclic_of_link (h : a.Forest) {child parent : NodeId}
    (hup : ∀ n, b.parent? n = if n = child then some parent else a.parent? n)
    (hnot : ¬ a.Under child parent) (n : NodeId) : ¬ b.Below n n := by
  have hother : ∀ m, m ≠ child → b.parent? m = a.parent? m := fun m hm => by
    rw [hup, if_neg hm]
  -- a way up either avoids the new link or reaches it and goes on from the new parent
  have hsplit : ∀ {x y}, b.Below y x → a.Below y x ∨ b.Under child x ∧ b.Under y parent := by
    intro x y hxy
    induction hxy with
    | @single y hxy =>
      by_cases hx : x = child
      · subst hx
        rw [Up, hup, if_pos rfl, Option.some.injEq] at hxy
        exact Or.inr ⟨Under.refl _, hxy ▸ Under.refl _⟩
      · rw [Up, hother x hx] at hxy
        exact Or.inl (Relation.TransGen.single hxy)
    | @tail y z hxy hyz ih =>
      by_cases hy : y = child
      · subst hy
        rw [Up, hup, if_pos rfl, Option.some.injEq] at hyz
        exact Or.inr ⟨hxy.to_reflTransGen, hyz ▸ Under.refl _⟩
      · rcases ih with ih | ⟨hx, hp⟩
        · rw [Up, hother y hy] at hyz
          exact Or.inl (ih.tail hyz)
        · exact Or.inr ⟨hx, Relation.ReflTransGen.tail hp hyz⟩
  intro hbelow
  rcases hsplit hbelow with hcycle | ⟨hchild, hparent⟩
  · exact h.acyclic n hcycle
  · exact hnot (under_congr hother (Under.trans hchild hparent))

/-! ### Making a node -/

/-- `b` is `a` with a new node without links. -/
structure Created (a b : Arena) (kind : NodeKind) (id : NodeId) : Prop where
  sound : b.Sound
  fresh : a.get? id = none
  view : ∀ n, b.get? n = if n = id then some ⟨kind, none, []⟩ else a.get? n

namespace Created

variable {kind : NodeKind} {id : NodeId}

theorem get?_self (h : Created a b kind id) : b.get? id = some ⟨kind, none, []⟩ := by
  rw [h.view, if_pos rfl]

theorem get?_of_ne (h : Created a b kind id) {n : NodeId} (hn : n ≠ id) :
    b.get? n = a.get? n := by
  rw [h.view, if_neg hn]

/-- What was live before is as it was: `b.get? n = some node`. -/
theorem get?_of_live (h : Created a b kind id) {n : NodeId} {node : Node}
    (hn : a.get? n = some node) : b.get? n = some node := by
  rw [h.get?_of_ne, hn]
  rintro rfl
  rw [h.fresh] at hn
  exact absurd hn (by simp)

/-- Only the new node `id` has no parent that had none before. -/
theorem isTop (h : Created a b kind id) {n : NodeId} (hn : b.IsTop n) : n = id ∨ a.IsTop n := by
  by_cases he : n = id
  · exact Or.inl he
  · have hsame := h.get?_of_ne he
    rw [IsTop, isLive, parent?, hsame] at hn
    exact Or.inr hn

end Created

/-- A node is made with an `id` that named nothing, without a parent or children, and the rest
stays. -/
theorem create_spec (h : a.Sound) (kind : NodeKind) (hfit : (stateAfter (create kind) a).Fits) :
    ∃ id b, (create kind).run a = .ok id b ∧ Created a b kind id := by
  obtain ⟨hfresh, hview⟩ := get?_alloc h.accounted kind hfit
  have hrun : (create kind).run a = .ok (a.alloc kind).1 (a.alloc kind).2 := rfl
  generalize hid : (a.alloc kind).1 = id at hfresh hview hrun
  generalize hb : (a.alloc kind).2 = b at hview hrun
  refine ⟨id, b, hrun, ⟨hb ▸ h.accounted.alloc kind, ?_⟩, hfresh, hview⟩
  -- the new node has no links, and its id had none when it named nothing
  have hparent : ∀ n, b.parent? n = a.parent? n := fun n => by
    by_cases hn : n = id
    · subst hn
      rw [parent?, hview, if_pos rfl, parent?_of_dead hfresh, Option.bind_some]
    · rw [parent?, hview, if_neg hn, parent?]
  have hchildren : ∀ n, b.children n = a.children n := fun n => by
    by_cases hn : n = id
    · subst hn
      rw [children, hview, if_pos rfl, children_of_dead hfresh]
    · rw [children, hview, if_neg hn, children]
  constructor
  · intro p c hc
    rw [hparent]
    exact h.forest.parent_of_mem (hchildren p ▸ hc)
  · intro p c hc
    rw [hchildren]
    exact h.forest.mem_of_parent (hparent c ▸ hc)
  · intro p
    rw [hchildren]
    exact h.forest.nodup_children p
  · refine h.forest.acyclic_of_up fun c p hup => ?_
    rwa [Up, ← hparent]
  · intro n hn
    rw [hchildren] at hn
    obtain ⟨kind', hkind, hcontainer⟩ := h.forest.container hn
    refine ⟨kind', ?_, hcontainer⟩
    rw [kind?, hview, if_neg, ← kind?, hkind]
    rintro rfl
    exact hn (children_of_dead hfresh)

/-! ### Taking a node out -/

theorem filter_ne_of_not_mem {id : NodeId} {cs : List NodeId} (h : id ∉ cs) :
    cs.filter (· ≠ id) = cs :=
  List.filter_eq_self.mpr fun _ hc => decide_eq_true fun he => h (he ▸ hc)

/-- A node after `id` was taken out of its parent: `n` is its own id. -/
def cut (id n : NodeId) (node : Node) : Node :=
  { node with
    parent := if n = id then none else node.parent
    children := node.children.filter (· ≠ id) }

/-- `b` is `a` with `id` being without a parent. -/
structure Detached (a b : Arena) (id : NodeId) : Prop where
  sound : b.Sound
  size_eq : b.slots.size = a.slots.size
  view : ∀ n, b.get? n = (a.get? n).map (cut id n)

section Cut

variable {id n : NodeId} (h : b.get? n = (a.get? n).map (cut id n))

include h

theorem children_of_cut : b.children n = (a.children n).filter (· ≠ id) := by
  rw [children, children, h]
  cases a.get? n <;> rfl

theorem parent?_of_cut : b.parent? n = if n = id then none else a.parent? n := by
  rw [parent?, parent?, h]
  cases a.get? n with
  | none => simp
  | some node => rfl

theorem kind?_of_cut : b.kind? n = a.kind? n := by
  rw [kind?, kind?, h]
  cases a.get? n <;> rfl

end Cut

theorem Detached.isLive_eq {id : NodeId} (h : Detached a b id) (n : NodeId) :
    b.isLive n = a.isLive n := by
  rw [isLive, isLive, h.view, Option.isSome_map]

/-- When the node `id` is taken out of its parent, a forest is left. -/
theorem Forest.cut (h : a.Forest) {id : NodeId}
    (hview : ∀ n, b.get? n = (a.get? n).map (Arena.cut id n)) : b.Forest := by
  have hparent := fun n => parent?_of_cut (hview n)
  have hchildren := fun n => children_of_cut (hview n)
  -- what is left are links of before, and none of them leads up from `id`
  have hup : ∀ c p, b.Up c p → c ≠ id ∧ a.Up c p := by
    intro c p hup
    rw [Up, hparent] at hup
    split at hup
    · exact absurd hup (by simp)
    · exact ⟨‹_›, hup⟩
  constructor
  case parent_of_mem =>
    intro p c hc
    rw [hchildren, List.mem_filter, decide_eq_true_eq] at hc
    rw [hparent, if_neg hc.2]
    exact h.parent_of_mem hc.1
  case mem_of_parent =>
    intro p c hc
    obtain ⟨hne, hc⟩ := hup c p hc
    rw [hchildren, List.mem_filter, decide_eq_true_eq]
    exact ⟨h.mem_of_parent hc, hne⟩
  case nodup_children =>
    intro p
    rw [hchildren]
    exact (h.nodup_children p).filter _
  case acyclic => exact h.acyclic_of_up fun c p hc => (hup c p hc).2
  case container =>
    intro n hn
    rw [kind?_of_cut (hview n)]
    refine h.container fun hnil => hn ?_
    rw [hchildren, hnil, List.filter_nil]

/-- Only `id` itself and the node that lists it change: `cut id n node = node` for the others. -/
theorem cut_eq_self {id n : NodeId} {node : Node} (hparent : n = id → node.parent = none)
    (hchildren : id ∉ node.children) : cut id n node = node := by
  have hp : (if n = id then none else node.parent) = node.parent := by
    split
    · exact (hparent ‹_›).symm
    · rfl
  rw [cut, hp, filter_ne_of_not_mem hchildren]

/-- `detach` succeeds with any id, and takes what it names out of its parent. -/
theorem detach_spec (h : a.Sound) (id : NodeId) :
    ∃ b, (detach id).run a = .ok () b ∧ Detached a b id := by
  unfold detach
  rw [run_bind_of_ok (EStateM.run_get ..)]
  cases hp : a.parent? id with
  | none =>
    -- without a parent it is listed nowhere, so cutting it out changes no node
    refine ⟨a, rfl, h, rfl, fun n => ?_⟩
    cases hn : a.get? n with
    | none => rfl
    | some node =>
      rw [Option.map_some, cut_eq_self]
      · rintro rfl
        rw [← hp, parent?_of_get? hn]
      · intro hc
        have hup : a.parent? id = some n := h.forest.up_of_mem hn hc
        rw [hup] at hp
        exact absurd hp (by simp)
  | some p =>
    obtain ⟨node, hnode, -⟩ := parent?_eq_some_iff.mp hp
    obtain ⟨pnode, hpnode⟩ := isLive_iff.mp (Up.parent_live h.forest hp)
    have hne : id ≠ p := fun he => h.forest.acyclic id (Relation.TransGen.single (he ▸ hp))
    obtain ⟨b, hrun, hacc, hsize, hview⟩ := update_update_run h.accounted (Ne.symm hne) hpnode hnode
      (fun node => { node with children := node.children.filter (· ≠ id) })
      (fun node => { node with parent := none })
    -- no node but `p` lists `id`, so the cut shows at these two only
    have hcut : ∀ n, b.get? n = (a.get? n).map (cut id n) := by
      intro n
      rw [hview]
      by_cases hn : n = id
      · subst hn
        have hself : n ∉ node.children := fun hc =>
          h.forest.not_under_child (by rwa [children_of_get? hnode]) (Under.refl n)
        rw [if_pos rfl, hnode, Option.map_some, cut, if_pos rfl, filter_ne_of_not_mem hself]
      · rw [if_neg hn]
        by_cases hnp : n = p
        · subst hnp
          rw [if_pos rfl, hpnode, Option.map_some, cut, if_neg hn]
        · rw [if_neg hnp]
          cases hget : a.get? n with
          | none => rfl
          | some other =>
            rw [Option.map_some, cut_eq_self (fun he => absurd he hn)]
            intro hc
            exact hnp ((h.forest.up_of_mem hget hc).unique hp)
    exact ⟨b, hrun, ⟨hacc, h.forest.cut hcut⟩, hsize, hcut⟩

/-! ### Giving a node a parent -/

/-- A node after `child` became a child of `parent`, whose children are then `siblings`: `n` is its
own id. -/
def join (parent child : NodeId) (siblings : List NodeId) (n : NodeId) (node : Node) : Node :=
  { node with
    parent := if n = child then some parent else node.parent
    children := if n = parent then siblings else node.children }

/-- `b` is `a` with `child` being one of the children of `parent`. -/
structure Joined (a b : Arena) (parent child : NodeId) (siblings : List NodeId) : Prop where
  sound : b.Sound
  size_eq : b.slots.size = a.slots.size
  view : ∀ n, b.get? n = (a.get? n).map (join parent child siblings n)

/-- What it takes to give `child` the parent `parent`. -/
structure Joinable (a : Arena) (parent child : NodeId) : Prop where
  live : a.isLive child
  top : a.parent? child = none
  apart : ¬ a.Under child parent
  container : ∃ kind, a.kind? parent = some kind ∧ kind.isContainer = true

theorem Joinable.parent_live {parent child : NodeId} (h : a.Joinable parent child) :
    ∃ node, a.get? parent = some node := by
  obtain ⟨kind, hkind, -⟩ := h.container
  rw [kind?, Option.map_eq_some_iff] at hkind
  obtain ⟨node, hnode, -⟩ := hkind
  exact ⟨node, hnode⟩

/-- After a join the parent of `child` is `parent`; the others keep theirs. -/
theorem Joinable.parent?_of_join {parent child : NodeId} {siblings : List NodeId}
    (h : a.Joinable parent child)
    (hview : ∀ n, b.get? n = (a.get? n).map (join parent child siblings n)) (n : NodeId) :
    b.parent? n = if n = child then some parent else a.parent? n := by
  obtain ⟨cnode, hcnode⟩ := isLive_iff.mp h.live
  by_cases hn : n = child
  · subst hn
    rw [parent?, hview, hcnode]
    exact (if_pos rfl).trans (if_pos rfl).symm
  · rw [parent?, parent?, hview, if_neg hn]
    cases a.get? n with
    | none => rfl
    | some node => rw [Option.map_some, Option.bind_some, join, if_neg hn, Option.bind_some]

/-- After a join the children of `parent` are `siblings`; the others keep theirs. -/
theorem Joinable.children_of_join {parent child : NodeId} {siblings : List NodeId}
    (h : a.Joinable parent child)
    (hview : ∀ n, b.get? n = (a.get? n).map (join parent child siblings n)) (n : NodeId) :
    b.children n = if n = parent then siblings else a.children n := by
  obtain ⟨pnode, hpnode⟩ := h.parent_live
  by_cases hn : n = parent
  · subst hn
    rw [children, hview, hpnode, if_pos rfl]
    exact if_pos rfl
  · rw [children, children, hview, if_neg hn]
    cases a.get? n with
    | none => rfl
    | some node => exact if_neg hn

/-- A node without a parent is in no list of children: `child ∉ a.children p`. -/
theorem Joinable.not_mem_children {parent child : NodeId} (h : a.Joinable parent child)
    (hf : a.Forest) (p : NodeId) :
    child ∉ a.children p := by
  intro hc
  have hup := hf.parent_of_mem hc
  rw [h.top] at hup
  exact absurd hup (by simp)

/-- A forest stays one when `child`, which has no parent, gets one that lists it once beside its
other children. -/
theorem Forest.join (h : a.Forest) {parent child : NodeId} {siblings : List NodeId}
    (hj : a.Joinable parent child) (hperm : siblings.Perm (child :: a.children parent))
    (hview : ∀ n, b.get? n = (a.get? n).map (Arena.join parent child siblings n)) : b.Forest := by
  have hparent := hj.parent?_of_join hview
  have hchildren := hj.children_of_join hview
  -- only the list of `parent` has changed, and only by the new child, which stood in no list
  have hunlisted := hj.not_mem_children h
  constructor
  case parent_of_mem =>
    intro p c hc
    rw [hparent]
    rw [hchildren] at hc
    split at hc
    · rename_i hp
      rcases List.mem_cons.mp (hperm.mem_iff.mp hc) with rfl | hc
      · rw [if_pos rfl, hp]
      · rw [if_neg, h.parent_of_mem hc, hp]
        rintro rfl
        exact hunlisted _ hc
    · rw [if_neg, h.parent_of_mem hc]
      rintro rfl
      exact hunlisted _ hc
  case mem_of_parent =>
    intro p c hc
    rw [hchildren]
    rw [hparent] at hc
    split at hc
    · rename_i hcc
      rw [← Option.some.inj hc, if_pos rfl, hcc]
      exact hperm.mem_iff.mpr List.mem_cons_self
    · split
      · rename_i hp
        exact hperm.mem_iff.mpr (List.mem_cons_of_mem _ (hp ▸ h.mem_of_parent hc))
      · exact h.mem_of_parent hc
  case nodup_children =>
    intro p
    rw [hchildren]
    split
    · exact hperm.nodup_iff.mpr (List.nodup_cons.mpr ⟨hunlisted _, h.nodup_children parent⟩)
    · exact h.nodup_children p
  case acyclic => exact h.acyclic_of_link hparent hj.apart
  case container =>
    intro n hn
    have hkind : b.kind? n = a.kind? n := by
      rw [kind?, kind?, hview]
      cases a.get? n <;> rfl
    rw [hkind]
    rw [hchildren] at hn
    split at hn
    · rename_i hp
      exact hp ▸ hj.container
    · exact h.container hn

/-- The arena after a join: sound, with `siblings` as the children of the parent. -/
theorem Sound.joined (h : a.Sound) {parent child : NodeId} {siblings : List NodeId}
    (hj : a.Joinable parent child) (hperm : siblings.Perm (child :: a.children parent))
    (hacc : b.Accounted) (hsize : b.slots.size = a.slots.size)
    (hview : ∀ n, b.get? n = (a.get? n).map (join parent child siblings n)) :
    Joined a b parent child siblings :=
  ⟨⟨hacc, h.forest.join hj hperm hview⟩, hsize, hview⟩

theorem Joinable.ne {parent child : NodeId} (h : a.Joinable parent child) : child ≠ parent := by
  rintro rfl
  exact h.apart (Under.refl _)

theorem join_view {parent child : NodeId} (hne : child ≠ parent) {cnode pnode : Node}
    (hcnode : a.get? child = some cnode) (hpnode : a.get? parent = some pnode)
    {siblings : List NodeId} (hc : b.get? child = some { cnode with parent := some parent })
    (hp : b.get? parent = some { pnode with children := siblings })
    (hother : ∀ n, n ≠ child → n ≠ parent → b.get? n = a.get? n) (n : NodeId) :
    b.get? n = (a.get? n).map (join parent child siblings n) := by
  by_cases hnc : n = child
  · rw [hnc, hc, hcnode, Option.map_some, join, if_pos rfl, if_neg hne]
  · by_cases hnp : n = parent
    · rw [hnp, hp, hpnode, Option.map_some, join, if_neg hne.symm, if_pos rfl]
    · rw [hother n hnc hnp]
      cases a.get? n with
      | none => rfl
      | some node => rw [Option.map_some, join, if_neg hnc, if_neg hnp]

/-- Both sides of a link are set, first that of the parent, where `place` says how the child is put
among the others. -/
theorem join_spec (h : a.Sound) {parent child : NodeId} (hj : a.Joinable parent child)
    (place : List NodeId → List NodeId)
    (hperm : (place (a.children parent)).Perm (child :: a.children parent)) :
    ∃ b, (update parent (fun node => { node with children := place node.children }) >>= fun _ =>
        update child fun node => { node with parent := some parent }).run a = .ok () b ∧
      Joined a b parent child (place (a.children parent)) := by
  obtain ⟨cnode, hcnode⟩ := isLive_iff.mp hj.live
  obtain ⟨pnode, hpnode⟩ := hj.parent_live
  obtain ⟨b, hrun, hacc, hsize, hview⟩ := update_update_run h.accounted hj.ne.symm hpnode hcnode
    (fun node => { node with children := place node.children })
    (fun node => { node with parent := some parent })
  refine ⟨b, hrun, h.joined hj hperm hacc hsize (join_view hj.ne hcnode hpnode ?_ ?_ ?_)⟩
  · rw [hview, if_pos rfl]
  · rw [hview, if_neg hj.ne.symm, if_pos rfl, children_of_get? hpnode]
  · intro n hnc hnp
    rw [hview, if_neg hnc, if_neg hnp]

/-! ### Moving a node -/

/-- A node after `child` was moved to be among the children of `parent`, which are then `siblings`:
`n` is its own id. -/
def move (parent child : NodeId) (siblings : List NodeId) (n : NodeId) (node : Node) : Node :=
  { node with
    parent := if n = child then some parent else node.parent
    children := if n = parent then siblings else node.children.filter (· ≠ child) }

/-- `b` is `a` with `child` moved to be one of the children of `parent`. -/
structure Moved (a b : Arena) (parent child : NodeId) (siblings : List NodeId) : Prop where
  sound : b.Sound
  size_eq : b.slots.size = a.slots.size
  view : ∀ n, b.get? n = (a.get? n).map (move parent child siblings n)

namespace Moved

variable {parent child : NodeId} {siblings : List NodeId} (h : Moved a b parent child siblings)

include h

theorem children_eq (hparent : a.isLive parent) : b.children parent = siblings := by
  obtain ⟨node, hnode⟩ := isLive_iff.mp hparent
  have hview := h.view parent
  rw [hnode, Option.map_some] at hview
  rw [children_of_get? hview]
  exact if_pos rfl

theorem children_of_ne {n : NodeId} (hn : n ≠ parent) :
    b.children n = (a.children n).filter (· ≠ child) := by
  rw [children, children, h.view]
  cases a.get? n with
  | none => rfl
  | some node => exact if_neg hn

theorem parent?_eq (hchild : a.isLive child) (n : NodeId) :
    b.parent? n = if n = child then some parent else a.parent? n := by
  rw [parent?, parent?, h.view]
  cases hget : a.get? n with
  | none =>
    have hne : n ≠ child := fun he => not_live_of_dead hget (he ▸ hchild)
    exact (if_neg hne).symm
  | some node => rfl

theorem kind?_eq (n : NodeId) : b.kind? n = a.kind? n := by
  rw [kind?, kind?, h.view]
  cases a.get? n <;> rfl

/-- No node is made or freed by a move: `b.isLive n = a.isLive n`. -/
theorem isLive_eq (n : NodeId) : b.isLive n = a.isLive n := by
  rw [isLive, isLive, h.view, Option.isSome_map]

end Moved

/-- A `child` may be inserted if it is live, the parent is not under it, and the parent is a
container. -/
theorem mayInsert_ok_iff (hf : a.Forest) {parent child : NodeId} :
    a.mayInsert parent child = .ok () ↔
      a.isLive child ∧ ¬ a.Under child parent ∧
        ∃ kind, a.kind? parent = some kind ∧ kind.isContainer = true := by
  unfold mayInsert
  by_cases hlive : a.isLive child = true
  · by_cases hunder : a.Under child parent
    · simp [hlive, hunder, hf.contains_iff.mpr hunder]
    · have hcontains : a.contains child parent = false := by
        rw [Bool.eq_false_iff]
        exact fun hc => hunder (hf.contains_iff.mp hc)
      cases hk : a.kind? parent with
      | none => simp [hlive, hcontains]
      | some kind => cases hc : kind.isContainer <;> simp [hlive, hunder, hcontains, hc]
  · simp [hlive]

/-- Taking `child` out of its parent and joining it to `parent` is moving it there. -/
theorem Detached.move {a₁ : Arena} {parent child : NodeId} {siblings : List NodeId}
    (hd : Detached a a₁ child) (hj : Joined a₁ b parent child siblings) :
    Moved a b parent child siblings where
  sound := hj.sound
  size_eq := hj.size_eq.trans hd.size_eq
  view n := by
    rw [hj.view, hd.view, Option.map_map]
    cases a.get? n with
    | none => rfl
    | some node =>
      rw [Option.map_some, Option.map_some, Function.comp, cut, join, Arena.move]
      by_cases hn : n = child <;> simp [hn]

/-- A `child` that may be inserted can be joined to `parent`, once it is out of its parent. -/
theorem Detached.joinable (hf : a.Forest) {a₁ : Arena} {parent child : NodeId}
    (hd : Detached a a₁ child) (h : a.mayInsert parent child = .ok ()) :
    a₁.Joinable parent child := by
  obtain ⟨hlive, hnot, kind, hkind, hcontainer⟩ := (mayInsert_ok_iff hf).mp h
  have hparent := fun n => parent?_of_cut (hd.view n)
  constructor
  case live => rwa [hd.isLive_eq]
  case top => rw [hparent, if_pos rfl]
  case apart =>
    exact fun hunder => hnot (under_congr (fun m hm => by rw [hparent, if_neg hm]) hunder)
  case container => exact ⟨kind, by rw [kind?_of_cut (hd.view parent), hkind], hcontainer⟩

/-- `appendChild` puts the child behind the other children, or refuses without changing anything. -/
theorem appendChild_spec (h : a.Sound) (parent child : NodeId) :
    (∃ f, a.mayInsert parent child = .error f ∧ (appendChild parent child).run a = .error f a) ∨
    a.mayInsert parent child = .ok () ∧ ∃ b, (appendChild parent child).run a = .ok () b ∧
      Moved a b parent child ((a.children parent).filter (· ≠ child) ++ [child]) := by
  unfold appendChild
  rw [run_bind_of_ok (EStateM.run_get ..)]
  cases hmay : a.mayInsert parent child with
  | error f => exact Or.inl ⟨f, rfl, rfl⟩
  | ok =>
    obtain ⟨a₁, hrun₁, hd⟩ := detach_spec h child
    have hj := hd.joinable h.forest hmay
    obtain ⟨b, hrun, hjoined⟩ := join_spec hd.sound hj (· ++ [child])
      (List.perm_append_singleton child _)
    rw [children_of_cut (hd.view parent)] at hjoined
    exact Or.inr ⟨rfl, b, (run_bind_of_ok hrun₁ _).trans hrun, hd.move hjoined⟩

/-- A child is put right before `r`, wherever that stands. -/
theorem insertedBefore_append (child : NodeId) {pre : List NodeId} {r : NodeId}
    (hr : r ∉ pre) (post : List NodeId) :
    insertedBefore r child (pre ++ r :: post) = some (pre ++ child :: r :: post) := by
  induction pre with
  | nil => simp [insertedBefore]
  | cons c pre ih =>
    rw [List.mem_cons, not_or] at hr
    rw [List.cons_append, insertedBefore, if_neg (Ne.symm hr.1), ih hr.2, Option.map_some,
      List.cons_append]

/-- `insertBefore` with a reference that is another child of the parent puts a child that fits right
before it. -/
theorem insertBefore_of_mayInsert (h : a.Sound) {parent child r : NodeId} (hne : r ≠ child)
    (hr : a.parent? r = some parent) (hmay : a.mayInsert parent child = .ok ()) :
    ∃ b pre post, (insertBefore parent child (some r)).run a = .ok () b ∧
      (a.children parent).filter (· ≠ child) = pre ++ r :: post ∧
      Moved a b parent child (pre ++ child :: r :: post) := by
  obtain ⟨a₁, hrun₁, hd⟩ := detach_spec h child
  -- taking the child out leaves `r` where it is, so there is a place to put the child
  have hmem : r ∈ a₁.children parent := by
    rw [children_of_cut (hd.view parent), List.mem_filter, decide_eq_true_eq]
    exact ⟨h.forest.mem_of_parent hr, hne⟩
  obtain ⟨pre, post, hsplit, hpre⟩ := List.eq_append_cons_of_mem hmem
  have hplace := insertedBefore_append child hpre post
  obtain ⟨b, hrun, hjoined⟩ := join_spec hd.sound (hd.joinable h.forest hmay)
    (fun _ => pre ++ child :: r :: post) (hsplit ▸ List.perm_middle)
  refine ⟨b, pre, post, ?_, ?_, hd.move hjoined⟩
  · unfold insertBefore
    simp only [if_neg hne]
    rw [run_bind_of_ok (EStateM.run_get ..), if_neg (not_not.mpr hr),
      run_bind_of_ok (EStateM.run_get ..)]
    simp only [hmay]
    refine (run_bind_of_ok hrun₁ _).trans ?_
    rw [run_bind_of_ok (EStateM.run_get ..)]
    simp only [hsplit, hplace]
    exact hrun
  · rw [← children_of_cut (hd.view parent), hsplit]

/-- `insertBefore` with a reference that is another node puts the child right before it, or refuses
without changing anything. -/
theorem insertBefore_spec (h : a.Sound) (parent child r : NodeId) (hne : r ≠ child) :
    (∃ f, (insertBefore parent child (some r)).run a = .error f a) ∨
    a.parent? r = some parent ∧ a.mayInsert parent child = .ok () ∧
      ∃ b pre post, (insertBefore parent child (some r)).run a = .ok () b ∧
        (a.children parent).filter (· ≠ child) = pre ++ r :: post ∧
        Moved a b parent child (pre ++ child :: r :: post) := by
  by_cases hr : a.parent? r = some parent
  · cases hmay : a.mayInsert parent child with
    | error f =>
      refine Or.inl ⟨f, ?_⟩
      unfold insertBefore
      simp only [if_neg hne]
      rw [run_bind_of_ok (EStateM.run_get ..), if_neg (not_not.mpr hr),
        run_bind_of_ok (EStateM.run_get ..)]
      simp only [hmay]
      rfl
    | ok => exact Or.inr ⟨hr, rfl, insertBefore_of_mayInsert h hne hr hmay⟩
  · refine Or.inl ⟨.foreignReference r parent, ?_⟩
    unfold insertBefore
    simp only [if_neg hne]
    rw [run_bind_of_ok (EStateM.run_get ..), if_pos hr]
    rfl

/-! ### Freeing a node -/

/-- `b` is `a` without `id` and everything below it. -/
structure Freed (a b : Arena) (id : NodeId) : Prop where
  sound : b.Sound
  size_eq : b.slots.size = a.slots.size
  gone : ∀ n, a.Under id n → b.get? n = none
  kept : ∀ n, ¬ a.Under id n → b.get? n = (a.get? n).map (cut id n)

/-- Slots are vacated one after the other: afterwards none of `ids` names anything, and the other
ids name what they did. -/
theorem releaseAll_spec (h : a.Accounted) : ∀ {ids : List NodeId}, ids.Nodup →
    (∀ id ∈ ids, a.isLive id) →
    (ids.foldl (fun a n => a.release n.index) a).Accounted ∧
    (ids.foldl (fun a n => a.release n.index) a).slots.size = a.slots.size ∧
    ∀ n, (ids.foldl (fun a n => a.release n.index) a).get? n =
      if n ∈ ids then none else a.get? n := by
  intro ids
  induction ids generalizing a with
  | nil => exact fun _ _ => ⟨h, rfl, fun n => by simp⟩
  | cons id ids ih =>
    intro hnd hlive
    rw [List.nodup_cons] at hnd
    obtain ⟨node, hnode⟩ := isLive_iff.mp (hlive id List.mem_cons_self)
    have hview := get?_release hnode
    -- the ids that follow are other ones, so they still name nodes
    obtain ⟨hacc, hsize, hget⟩ := ih (h.release hnode) hnd.2 fun m hm => by
      obtain ⟨mnode, hmnode⟩ := isLive_iff.mp (hlive m (List.mem_cons_of_mem _ hm))
      refine isLive_iff.mpr ⟨mnode, ?_⟩
      rw [hview, if_neg, hmnode]
      rintro rfl
      exact hnd.1 hm
    refine ⟨hacc, hsize.trans (size_release a id.index), fun n => ?_⟩
    rw [List.foldl_cons, hget, hview]
    by_cases hn : n = id
    · simp [hn]
    · simp [hn]

theorem Forest.mem_concat_descendants (h : a.Forest) {id n : NodeId} :
    n ∈ a.descendants id ++ [id] ↔ a.Under id n := by
  rw [List.mem_append, h.mem_descendants, List.mem_singleton, or_comm, ← under_iff_eq_or_below]

theorem Forest.nodup_concat_descendants (h : a.Forest) (id : NodeId) :
    (a.descendants id ++ [id]).Nodup :=
  (List.perm_append_singleton id _).nodup_iff.mpr (h.nodup_cons_descendants id)

/-- A forest without the nodes under `id` is a forest. -/
theorem Forest.freed (h : a.Forest) {id : NodeId} (hgone : ∀ n, a.Under id n → b.get? n = none)
    (hkept : ∀ n, ¬ a.Under id n → b.get? n = (a.get? n).map (Arena.cut id n)) : b.Forest := by
  have hchildren : ∀ n, ¬ a.Under id n → b.children n = (a.children n).filter (· ≠ id) :=
    fun n hn => children_of_cut (hkept n hn)
  have hparent : ∀ n, ¬ a.Under id n → b.parent? n = a.parent? n := by
    intro n hn
    rw [parent?_of_cut (hkept n hn), if_neg]
    rintro rfl
    exact hn (Under.refl _)
  have hup : ∀ c p, b.Up c p → ¬ a.Under id c ∧ a.Up c p := by
    intro c p hup
    by_cases hc : a.Under id c
    · rw [Up, parent?_of_dead (hgone c hc)] at hup
      exact absurd hup (by simp)
    · exact ⟨hc, by rwa [Up, ← hparent c hc]⟩
  have hlisted : ∀ p c, c ∈ b.children p → ¬ a.Under id p ∧ c ∈ a.children p ∧ c ≠ id := by
    intro p c hc
    by_cases hp : a.Under id p
    · rw [children_of_dead (hgone p hp)] at hc
      exact absurd hc List.not_mem_nil
    · rw [hchildren p hp, List.mem_filter, decide_eq_true_eq] at hc
      exact ⟨hp, hc⟩
  -- a kept node keeps the children other than `id`
  have hchild : ∀ {p c}, a.Up c p → (¬ a.Under id c ↔ ¬ a.Under id p ∧ c ≠ id) := by
    intro p c hcp
    rw [under_iff_of_up hcp, not_or, and_comm]
  constructor
  case parent_of_mem =>
    intro p c hc
    obtain ⟨hp, hc, hne⟩ := hlisted p c hc
    have hcp := h.parent_of_mem hc
    rw [hparent c ((hchild hcp).mpr ⟨hp, hne⟩), hcp]
  case mem_of_parent =>
    intro p c hc
    obtain ⟨hnot, hcp⟩ := hup c p hc
    obtain ⟨hp, hne⟩ := (hchild hcp).mp hnot
    rw [hchildren p hp, List.mem_filter, decide_eq_true_eq]
    exact ⟨h.mem_of_parent hcp, hne⟩
  case nodup_children =>
    intro p
    by_cases hp : a.Under id p
    · rw [children_of_dead (hgone p hp)]
      exact List.nodup_nil
    · rw [hchildren p hp]
      exact (h.nodup_children p).filter _
  case acyclic => exact h.acyclic_of_up fun c p hc => (hup c p hc).2
  case container =>
    intro n hn
    by_cases hu : a.Under id n
    · exact absurd (children_of_dead (hgone n hu)) hn
    · have hne : a.children n ≠ [] := fun hnil => hn (by rw [hchildren n hu, hnil, List.filter_nil])
      obtain ⟨kind, hkind, hcontainer⟩ := h.container hne
      exact ⟨kind, (kind?_of_cut (hkept n hu)).trans hkind, hcontainer⟩

/-- What lies below a node is the same without a parent: `b.descendants id = a.descendants id`. -/
theorem Detached.descendants_eq {id : NodeId} (h : Detached a b id) (ha : a.Forest) :
    b.descendants id = a.descendants id := by
  refine ha.descendants_congr h.sound.forest fun n hn => ?_
  rw [children_of_cut (h.view n), filter_ne_of_not_mem fun hc => ha.not_under_child hc hn]

/-- The slots that `free` vacates, in this order, once the node is out of its parent: the walk below
the node meets live nodes only, and each of them once. -/
theorem exists_free_run (h : a.Sound) {id : NodeId} (hlive : a.isLive id) :
    ∃ b, (detach id).run a = .ok () b ∧ Detached a b id ∧
      (∀ n ∈ a.descendants id ++ [id], b.isLive n) ∧ (free id).run a
        = .ok () ((a.descendants id ++ [id]).foldl (fun a n => a.release n.index) b) := by
  obtain ⟨b, hrun, hd⟩ := detach_spec h id
  refine ⟨b, hrun, hd, fun n hn => ?_, ?_⟩
  · rw [hd.isLive_eq]
    exact (h.forest.mem_concat_descendants.mp hn).live hlive
  · unfold free
    rw [run_bind_of_ok (EStateM.run_get ..), if_neg (by simp [hlive]),
      ← hd.descendants_eq h.forest]
    exact run_bind_of_ok hrun _

/-- `free` refuses a node that is gone already; otherwise it and everything below it go. -/
theorem free_spec (h : a.Sound) (id : NodeId) :
    (a.get? id = none ∧ (free id).run a = .error (.freedTwice id) a) ∨
    a.isLive id ∧ ∃ b, (free id).run a = .ok () b ∧ Freed a b id := by
  by_cases hlive : a.isLive id = true
  · obtain ⟨a₁, -, hd, hlive₁, hrun⟩ := exists_free_run h hlive
    -- no node is met twice, so all releases succeed
    obtain ⟨hacc, hsize, hview⟩ :=
      releaseAll_spec hd.sound.accounted (h.forest.nodup_concat_descendants id) hlive₁
    generalize (a.descendants id ++ [id]).foldl (fun a n => a.release n.index) a₁ = b
      at hrun hacc hsize hview
    have hgone : ∀ n, a.Under id n → b.get? n = none := fun n hn => by
      rw [hview, if_pos (h.forest.mem_concat_descendants.mpr hn)]
    have hkept : ∀ n, ¬ a.Under id n → b.get? n = (a.get? n).map (cut id n) := fun n hn => by
      rw [hview, if_neg fun hm => hn (h.forest.mem_concat_descendants.mp hm), hd.view]
    exact Or.inr ⟨hlive, b, hrun, ⟨hacc, h.forest.freed hgone hkept⟩, hsize.trans hd.size_eq,
      hgone, hkept⟩
  · refine Or.inl ⟨by rwa [isLive, Option.not_isSome_iff_eq_none] at hlive, ?_⟩
    unfold free
    rw [run_bind_of_ok (EStateM.run_get ..), if_pos (by simp [hlive])]
    rfl

end Inlay.Arena
