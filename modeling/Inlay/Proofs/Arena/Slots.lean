import Inlay.Arena.Basic
import Mathlib.Data.List.Nodup
import Mathlib.Data.Finset.Card

/-!
# Slots and what they hold

An arena keeps account of its slots twice: by what stands in them, and by the list of vacant ones
with the number of live nodes. `Arena.Accounted` says that the accounts agree. The primitives that
change slots keep them so, and each has one equation for `Arena.get?`, the view through which the
links between nodes are studied:

* `get?_alloc`: the new node stands where no node was, without links;
* `get?_modifySlot`, `get?_release`: one node is changed or gone, all others are as before.

An index has 32 bits, so these hold as long as there are at most `2 ^ 32` slots (`Arena.Fits`).
-/

namespace Inlay.Arena

/-- There is an index for every slot. -/
def Fits (a : Arena) : Prop :=
  a.slots.size ≤ UInt32.size

instance (a : Arena) : Decidable a.Fits :=
  inferInstanceAs (Decidable (_ ≤ _))

/-- The vacant slots are listed, each once, and the others are counted. -/
structure Accounted (a : Arena) : Prop where
  nodup_vacant : a.vacant.Nodup
  mem_vacant_iff : ∀ i : UInt32,
    i ∈ a.vacant ↔ ∃ slot, a.slots[i.toNat]? = some slot ∧ slot.node = none
  live_eq : a.live = a.slots.countP (·.node.isSome)

theorem accounted_empty : Accounted empty where
  nodup_vacant := List.nodup_nil
  mem_vacant_iff := by simp [empty]
  live_eq := rfl

theorem get?_empty (id : NodeId) : empty.get? id = none := by
  simp [get?, empty]

/-- An id names the node in the slot `id.index`, if the slot has the generation `id.generation`. -/
theorem get?_eq_some_iff {a : Arena} {id : NodeId} {node : Node} :
    a.get? id = some node ↔ a.slots[id.index.toNat]? = some ⟨id.generation, some node⟩ := by
  unfold get?
  cases h : a.slots[id.index.toNat]? with
  | none => simp
  | some slot =>
    obtain ⟨generation, content⟩ := slot
    by_cases hg : generation = id.generation
    · simp [hg]
    · simp [hg]

theorem isLive_iff {a : Arena} {id : NodeId} :
    a.isLive id = true ↔ ∃ node, a.get? id = some node := by
  rw [isLive, Option.isSome_iff_exists]

theorem not_live_of_dead {a : Arena} {id : NodeId} (h : a.get? id = none) :
    ¬ a.isLive id = true := by
  rw [isLive, h, Option.isSome_none]
  exact Bool.false_ne_true

/-- An id that names a node is not one that names none: `m ≠ n`. -/
theorem ne_of_dead {a : Arena} {m n : NodeId} {node : Node} (hm : a.get? m = some node)
    (hn : a.get? n = none) : m ≠ n := by
  rintro rfl
  rw [hm] at hn
  exact absurd hn (by simp)

/-- An index and a generation name one slot each, so live nodes with `m.index = n.index` are the
same. -/
theorem eq_of_index_eq {a : Arena} {m n : NodeId} (hm : a.isLive m) (hn : a.isLive n)
    (h : m.index = n.index) : m = n := by
  obtain ⟨node, hm⟩ := isLive_iff.mp hm
  obtain ⟨node', hn⟩ := isLive_iff.mp hn
  rw [get?_eq_some_iff, h] at hm
  rw [get?_eq_some_iff, hm] at hn
  obtain ⟨i, g⟩ := m
  obtain ⟨j, k⟩ := n
  simp only at h
  simp only [Option.some.injEq, Slot.mk.injEq] at hn
  rw [h, hn.1]

/-- Different live nodes stand in different slots, so there are at most `a.slots.size` of them. -/
theorem length_le_of_nodup {a : Arena} {ids : List NodeId} (hnd : ids.Nodup)
    (hlive : ∀ id ∈ ids, a.isLive id) : ids.length ≤ a.slots.size := by
  have hinj : (ids.map (·.index.toNat)).Nodup := by
    refine List.Nodup.map_on (fun m hm n hn h => ?_) hnd
    exact eq_of_index_eq (hlive m hm) (hlive n hn) (UInt32.toNat_inj.mp h)
  have hsub : ids.map (·.index.toNat) ⊆ List.range a.slots.size := by
    intro i hi
    obtain ⟨id, hid, rfl⟩ := List.mem_map.mp hi
    obtain ⟨node, hget⟩ := isLive_iff.mp (hlive id hid)
    rw [get?_eq_some_iff] at hget
    exact List.mem_range.mpr (Array.getElem?_eq_some_iff.mp hget).1
  have h := (hinj.subperm hsub).length_le
  rwa [List.length_map, List.length_range] at h

/-! ### A change of one slot -/

/-- A change of the element `x` at one place changes a count by what it does to `p x`. -/
theorem countP_modify {α : Type} (p : α → Bool) (f : α → α) :
    ∀ (xs : List α) (i : Nat) (x : α), xs[i]? = some x →
      (xs.modify i f).countP p + (if p x then 1 else 0)
        = xs.countP p + (if p (f x) then 1 else 0)
  | y :: ys, 0, x, h => by
    simp only [List.length_cons, Nat.zero_lt_succ, List.getElem?_eq_getElem, List.getElem_cons_zero,
      Option.some.injEq] at h
    rw [List.modify_zero_cons, List.countP_cons, List.countP_cons, h]
    omega
  | y :: ys, i + 1, x, h => by
    rw [List.getElem?_cons_succ] at h
    have ih := countP_modify p f ys i x h
    rw [List.modify_succ_cons, List.countP_cons, List.countP_cons]
    omega

/-- A change of the slot `i` changes the number of filled slots by what it does to that slot. -/
theorem countP_modify_slot (a : Arena) (i : Nat) (f : Slot → Slot) (slot : Slot)
    (h : a.slots[i]? = some slot) :
    (a.slots.modify i f).countP (·.node.isSome) + (if slot.node.isSome then 1 else 0)
      = a.slots.countP (·.node.isSome) + (if (f slot).node.isSome then 1 else 0) := by
  rw [← Array.countP_toList, ← Array.countP_toList, Array.toList_modify]
  exact countP_modify _ f _ i slot (by rwa [Array.getElem?_toList])

/-- A change `f` of one slot that keeps its generation, or leaves it empty, shows under the id of
what stood there and under no other. -/
theorem get?_modify {a b : Arena} {id : NodeId} {content : Option Node} (f : Slot → Slot)
    (hslots : b.slots = a.slots.modify id.index.toNat f)
    (hslot : a.slots[id.index.toNat]? = some ⟨id.generation, content⟩)
    (hf : (f ⟨id.generation, content⟩).generation = id.generation ∨
      (f ⟨id.generation, content⟩).node = none) (n : NodeId) :
    b.get? n = if n = id then (f ⟨id.generation, content⟩).node else a.get? n := by
  obtain ⟨i, g⟩ := n
  obtain ⟨index, generation⟩ := id
  simp only at hslot hf hslots
  unfold get?
  simp only [hslots, Array.getElem?_modify, NodeId.mk.injEq]
  by_cases hi : index = i
  · subst hi
    simp only [hslot, Option.map_some, if_true, true_and]
    by_cases hg : generation = g
    · subst hg
      rw [if_pos rfl]
      split
      · rfl
      · rename_i hne
        exact (hf.resolve_left hne).symm
    · -- Under another generation the slot was empty and stays so.
      rw [if_neg (Ne.symm hg), if_neg hg]
      split
      · rename_i he
        exact hf.resolve_left fun hc => hg (hc.symm.trans he)
      · rfl
  · have hne : index.toNat ≠ i.toNat := fun he => hi (UInt32.toNat_inj.mp he)
    rw [if_neg hne, if_neg (fun hc => hi hc.1.symm)]

/-! ### Making a node -/

theorem size_le_size_alloc (a : Arena) (kind : NodeKind) :
    a.slots.size ≤ (a.alloc kind).2.slots.size := by
  unfold alloc
  split <;> simp

theorem size_alloc_le (a : Arena) (kind : NodeKind) :
    (a.alloc kind).2.slots.size ≤ a.slots.size + 1 := by
  unfold alloc
  split <;> simp

/-- A node that is made has an id with `a.get? id = none`, and no other id names anything else than
before. -/
theorem get?_alloc {a : Arena} (h : a.Accounted) (kind : NodeKind) (hfit : (a.alloc kind).2.Fits) :
    a.get? (a.alloc kind).1 = none ∧
    ∀ n, (a.alloc kind).2.get? n
      = if n = (a.alloc kind).1 then some ⟨kind, none, []⟩ else a.get? n := by
  unfold alloc at hfit ⊢
  split
  · rename_i index vacant hv
    obtain ⟨slot, hslot, hnode⟩ := (h.mem_vacant_iff index).mp (by simp [hv])
    simp only [hslot, Option.map_some, Option.getD_some]
    refine ⟨by simp [get?, hslot, hnode], fun n => ?_⟩
    exact get?_modify ({ · with node := some ⟨kind, none, []⟩ }) rfl hslot (.inl rfl) n
  · rename_i hv
    have hsize : a.slots.size < UInt32.size := by
      simp only [hv, Fits, Array.size_push] at hfit
      exact hfit
    -- The new slot has an index, since the arena with it still fits.
    have hindex : a.slots.size.toUInt32.toNat = a.slots.size := by
      rw [Nat.toUInt32_eq]
      exact UInt32.toNat_ofNat_of_lt' hsize
    refine ⟨by simp [get?, hindex], fun n => ?_⟩
    obtain ⟨i, g⟩ := n
    unfold get?
    simp only [Array.getElem?_push, NodeId.mk.injEq]
    by_cases hi : i.toNat = a.slots.size
    · have hi' : i = a.slots.size.toUInt32 := UInt32.toNat_inj.mp (by rw [hi, hindex])
      by_cases hg : g = 0
      · simp [hindex, hi', hg]
      · simp [hindex, hi', hg, Ne.symm hg]
    · have hi' : i ≠ a.slots.size.toUInt32 := fun he => hi (by rw [he, hindex])
      rw [if_neg hi, if_neg (fun hc => hi' hc.1)]

theorem Accounted.alloc {a : Arena} (h : a.Accounted) (kind : NodeKind) :
    (a.alloc kind).2.Accounted := by
  unfold Arena.alloc
  split
  · rename_i index vacant hv
    obtain ⟨slot, hslot, hnode⟩ := (h.mem_vacant_iff index).mp (by simp [hv])
    -- the slot that is used is the first of the vacant ones, and no other one is
    have hnd : (index :: vacant).Nodup := hv ▸ h.nodup_vacant
    have hcount := countP_modify_slot a index.toNat ({ · with node := some ⟨kind, none, []⟩ }) slot
      hslot
    refine ⟨(List.nodup_cons.mp hnd).2, fun i => ?_, ?_⟩
    · simp only [Array.getElem?_modify]
      by_cases hi : index = i
      · subst hi
        simp [hslot, (List.nodup_cons.mp hnd).1]
      · have hne : index.toNat ≠ i.toNat := fun he => hi (UInt32.toNat_inj.mp he)
        rw [if_neg hne, ← h.mem_vacant_iff, hv, List.mem_cons, or_iff_right (Ne.symm hi)]
    · simp only [hnode, Option.isSome_none, Option.isSome_some, Bool.false_eq_true, if_false,
        if_true] at hcount
      show a.live + 1 = (a.slots.modify index.toNat fun s => { s with node := some _ }).countP _
      rw [h.live_eq]
      omega
  · rename_i hv
    refine ⟨List.nodup_nil, fun i => ?_, ?_⟩
    · -- no slot was vacant, and the one that is added is not
      have hnone := h.mem_vacant_iff i
      rw [hv] at hnone
      simp only [List.not_mem_nil, false_iff] at hnone ⊢
      rintro ⟨slot, hslot, hnode⟩
      rw [Array.getElem?_push] at hslot
      split at hslot
      · simp only [Option.some.injEq] at hslot
        subst hslot
        simp at hnode
      · exact hnone ⟨slot, hslot, hnode⟩
    · show a.live + 1 = _
      rw [Array.countP_push, h.live_eq]
      simp

/-! ### Changing a node -/

@[simp] theorem size_modifySlot (a : Arena) (i : UInt32) (f : Node → Node) :
    (a.modifySlot i f).slots.size = a.slots.size := by
  simp [modifySlot]

/-- A change `f` of the node with the id `id` shows under that id and under no other. -/
theorem get?_modifySlot {a : Arena} {id : NodeId} {node : Node} (h : a.get? id = some node)
    (f : Node → Node) (n : NodeId) :
    (a.modifySlot id.index f).get? n = if n = id then some (f node) else a.get? n :=
  get?_modify (fun s => { s with node := s.node.map f }) rfl (get?_eq_some_iff.mp h) (.inl rfl) n

theorem Accounted.modifySlot {a : Arena} (h : a.Accounted) {id : NodeId} {node : Node}
    (hid : a.get? id = some node) (f : Node → Node) : (a.modifySlot id.index f).Accounted := by
  rw [get?_eq_some_iff] at hid
  refine ⟨h.nodup_vacant, fun i => ?_, ?_⟩
  · show i ∈ a.vacant ↔ _
    rw [h.mem_vacant_iff]
    simp only [Arena.modifySlot, Array.getElem?_modify]
    by_cases hi : id.index = i
    · subst hi
      simp [hid]
    · rw [if_neg fun he => hi (UInt32.toNat_inj.mp he)]
  · have hcount :=
      countP_modify_slot a id.index.toNat (fun s => { s with node := s.node.map f }) _ hid
    show a.live = _
    rw [h.live_eq]
    simpa [Arena.modifySlot] using hcount.symm

/-! ### Vacating a slot -/

@[simp] theorem size_release (a : Arena) (i : UInt32) :
    (a.release i).slots.size = a.slots.size := by
  simp [release]

/-- When its slot is vacated the id `id` names nothing any more; the other ids stay. -/
theorem get?_release {a : Arena} {id : NodeId} {node : Node} (h : a.get? id = some node)
    (n : NodeId) : (a.release id.index).get? n = if n = id then none else a.get? n :=
  get?_modify (fun s => ⟨s.generation + 1, none⟩) rfl (get?_eq_some_iff.mp h) (.inr rfl) n

/-- Vacating the slot of a live node keeps the accounts: it is counted out and put in front of
`vacant`. -/
theorem Accounted.release {a : Arena} (h : a.Accounted) {id : NodeId} {node : Node}
    (hid : a.get? id = some node) : (a.release id.index).Accounted := by
  rw [get?_eq_some_iff] at hid
  have hnot : id.index ∉ a.vacant := by
    rw [h.mem_vacant_iff, hid]
    simp
  refine ⟨List.nodup_cons.mpr ⟨hnot, h.nodup_vacant⟩, fun i => ?_, ?_⟩
  · show i ∈ id.index :: a.vacant ↔ _
    simp only [Arena.release, Array.getElem?_modify]
    by_cases hi : id.index = i
    · subst hi
      simp [hid]
    · rw [if_neg fun he => hi (UInt32.toNat_inj.mp he), ← h.mem_vacant_iff, List.mem_cons,
        or_iff_right (Ne.symm hi)]
  · have hcount := countP_modify_slot a id.index.toNat (fun s => ⟨s.generation + 1, none⟩) _ hid
    simp only [Option.isSome_none, Option.isSome_some, Bool.false_eq_true, if_false,
      if_true] at hcount
    show a.live - 1 = (a.slots.modify id.index.toNat fun s => ⟨s.generation + 1, none⟩).countP _
    rw [h.live_eq]
    omega

/-! ### Counting nodes -/

theorem countP_eq_countP_range {α : Type} (p : α → Bool) : ∀ xs : List α,
    xs.countP p = (List.range xs.length).countP fun i => (xs[i]?).any p
  | [] => rfl
  | x :: xs => by
    have hrest : (fun i => ((x :: xs)[i]?).any p) ∘ Nat.succ = fun i => (xs[i]?).any p := by
      funext i
      rw [Function.comp, Nat.succ_eq_add_one, List.getElem?_cons_succ]
    rw [List.length_cons, List.range_succ_eq_map, List.countP_cons, List.countP_cons,
      List.countP_map, hrest, ← countP_eq_countP_range p xs]
    simp

/-- Whether a node stands in the slot with that index. -/
def isOccupied (a : Arena) (i : Nat) : Bool :=
  (a.slots[i]?).any (·.node.isSome)

/-- The count of live nodes is right: `a.live` is the number of different ids that name one. -/
theorem Accounted.live_eq_length {a : Arena} (h : a.Accounted) (hfit : a.Fits) {ids : List NodeId}
    (hnd : ids.Nodup) (hids : ∀ id, id ∈ ids ↔ a.isLive id) : a.live = ids.length := by
  have hoccupied : (fun i => (a.slots.toList[i]?).any (·.node.isSome)) = a.isOccupied := by
    funext i
    rw [Array.getElem?_toList, isOccupied]
  have hlive : a.live = ((List.range a.slots.size).filter a.isOccupied).length := by
    rw [h.live_eq, ← Array.countP_toList, countP_eq_countP_range, hoccupied, Array.length_toList,
      List.countP_eq_length_filter]
  have hinj : (ids.map (·.index.toNat)).Nodup := by
    refine List.Nodup.map_on (fun m hm n hn he => ?_) hnd
    exact eq_of_index_eq ((hids m).mp hm) ((hids n).mp hn) (UInt32.toNat_inj.mp he)
  have hperm : ((List.range a.slots.size).filter a.isOccupied).Perm (ids.map (·.index.toNat)) := by
    rw [List.perm_ext_iff_of_nodup (List.nodup_range.filter _) hinj]
    intro i
    rw [List.mem_filter, List.mem_range, List.mem_map]
    constructor
    · rintro ⟨hlt, hi⟩
      -- the generation of the slot makes its index an id
      have hindex : i.toUInt32.toNat = i := by
        rw [Nat.toUInt32_eq]
        exact UInt32.toNat_ofNat_of_lt' (Nat.lt_of_lt_of_le hlt hfit)
      rw [isOccupied, Option.any_eq_true] at hi
      obtain ⟨⟨generation, content⟩, hslot, hcontent⟩ := hi
      obtain ⟨node, rfl⟩ := Option.isSome_iff_exists.mp hcontent
      refine ⟨⟨i.toUInt32, generation⟩, (hids _).mpr (isLive_iff.mpr ⟨node, ?_⟩), hindex⟩
      rw [get?_eq_some_iff, hindex, hslot]
    · rintro ⟨id, hid, rfl⟩
      obtain ⟨node, hnode⟩ := isLive_iff.mp ((hids id).mp hid)
      rw [get?_eq_some_iff] at hnode
      refine ⟨(Array.getElem?_eq_some_iff.mp hnode).1, ?_⟩
      simp [isOccupied, hnode]
  rw [hlive, hperm.length_eq, List.length_map]

end Inlay.Arena
