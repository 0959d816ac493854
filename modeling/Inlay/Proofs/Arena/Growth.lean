import Inlay.Proofs.Arena.Edit

/-!
# Growth

Edits of an arena are made of three steps: a node is made, a node that is there is changed, a slot
is vacated. A relation that the first two move an arena along (`Editing`) is one that all operations
but the freeing ones move it along. Freeing is apart, since it vacates the right slots only in a
forest.

No operation gives a slot back, so the number of slots never goes down (`Grows`). What fits into the
indices at the end of a computation has therefore fitted at every moment of it: `fits_of_bind` and
`fits_after` hand the assumption `Fits` from a computation to its parts.
-/

namespace Inlay.Arena

/-- Making a node and changing one move an arena along `R`. -/
structure Editing (R : Arena → Arena → Prop) : Prop where
  refl : ∀ a, R a a
  trans : ∀ {a b c}, R a b → R b c → R a c
  alloc : ∀ a kind, R a (a.alloc kind).2
  modify : ∀ {a id node} (f : Node → Node), a.get? id = some node → R a (a.modifySlot id.index f)

namespace Editing

variable {R : Arena → Arena → Prop} {α β : Type} (h : Editing R)

include h

/-- If both parts of a computation keep `R`, so does the whole, as `R` is transitive. -/
theorem bind {m : TreeM α} {f : α → TreeM β} (hm : Keeps R m) (hf : ∀ x, Keeps R (f x)) :
    Keeps R (m >>= f) :=
  Keeps.bind (R := R) h.trans hm hf

theorem pure (x : α) : Keeps R (pure x : TreeM α) :=
  keeps_pure h.refl x

theorem throw (f : TreeFault) : Keeps R (throw f : TreeM α) :=
  keeps_throw h.refl f

theorem get : Keeps R (get : TreeM Arena) :=
  keeps_get h.refl

theorem create (kind : NodeKind) : Keeps R (create kind) :=
  fun a => h.alloc a kind

/-- A change of a node that is there moves the arena along `R`; one of a node that is gone fails. -/
theorem update (id : NodeId) (f : Node → Node) : Keeps R (update id f) := by
  intro a
  unfold Arena.update
  rw [stateAfter_bind_of_ok (EStateM.run_get ..)]
  split
  · exact h.refl a
  · rename_i slot hslot
    split
    · rename_i hlive
      obtain ⟨node, hnode⟩ := Option.isSome_iff_exists.mp hlive.2
      have hget : a.get? id = some node := by
        rw [get?_eq_some_iff, hslot, ← hlive.1, ← hnode]
      exact h.modify f hget
    · exact h.refl a

theorem detach (id : NodeId) : Keeps R (detach id) := by
  refine h.bind h.get fun a => ?_
  split
  · exact h.pure _
  · exact h.bind (h.update _ _) fun _ => h.update _ _

/-- Appending a child is changes of nodes that are there, three at most, so it keeps `R`. -/
theorem appendChild (parent child : NodeId) : Keeps R (appendChild parent child) := by
  refine h.bind h.get fun a => ?_
  split
  · exact h.throw _
  · exact h.bind (h.detach _) fun _ => h.bind (h.update _ _) fun _ => h.update _ _

/-- So does inserting a child before any `reference`. -/
theorem insertBefore (parent child : NodeId) (reference : Option NodeId) :
    Keeps R (insertBefore parent child reference) := by
  unfold Arena.insertBefore
  split
  · exact h.appendChild _ _
  · split
    · exact h.pure _
    · refine h.bind h.get fun a => ?_
      split
      · exact h.throw _
      · refine h.bind h.get fun a => ?_
        split
        · exact h.throw _
        · refine h.bind (h.detach _) fun _ => h.bind h.get fun a => ?_
          split
          · exact h.throw _
          · exact h.bind (h.update _ _) fun _ => h.update _ _

theorem removeChild (parent child : NodeId) : Keeps R (removeChild parent child) := by
  refine h.bind h.get fun a => ?_
  split
  · exact h.throw _
  · exact h.detach _

theorem adopt (parent child : NodeId) : Keeps R (adopt parent child) :=
  h.bind (h.update _ _) fun _ => h.update _ _

mutual

/-- Planting a tree keeps `R`, as it makes a node, plants its subtrees and appends them. -/
theorem plant : ∀ t : Tree, Keeps R (plant t)
  | .node kind cs =>
    h.bind (h.create kind) fun id => h.bind (plantAll id cs) fun _ => h.pure _

theorem plantAll (parent : NodeId) : ∀ ts : List Tree, Keeps R (plantAll parent ts)
  | [] => h.pure _
  | t :: ts =>
    h.bind (plant t) fun c => h.bind (h.adopt parent c) fun _ => plantAll parent ts

end

/-- Copying keeps `R`, as it plants the tree that is found in the source. -/
theorem copyFrom (source : Arena) (id : NodeId) : Keeps R (copyFrom source id) := by
  unfold Arena.copyFrom
  split
  · exact h.throw _
  · exact h.plant _

end Editing

variable {a b : Arena}

/-- The computation does not lower the number of slots. -/
def Grows {α : Type} (m : TreeM α) : Prop :=
  Keeps (fun a b => a.slots.size ≤ b.slots.size) m

/-- The computation adds at most `n` slots. -/
def GrowsBy {α : Type} (n : Nat) (m : TreeM α) : Prop :=
  Keeps (fun a b => b.slots.size ≤ a.slots.size + n) m

/-- Edits do not shrink the list of slots: `a.slots.size ≤ b.slots.size`. -/
theorem editing_grows : Editing fun a b => a.slots.size ≤ b.slots.size where
  refl a := Nat.le_refl a.slots.size
  trans h h' := Nat.le_trans h h'
  alloc := size_le_size_alloc
  modify {a id _} f _ := Nat.le_of_eq (size_modifySlot a id.index f).symm

section Grows

variable {α β : Type}

theorem Grows.bind {m : TreeM α} {f : α → TreeM β} (hm : Grows m) (hf : ∀ x, Grows (f x)) :
    Grows (m >>= f) :=
  editing_grows.bind hm hf

theorem grows_pure (x : α) : Grows (pure x) :=
  editing_grows.pure x

theorem grows_throw (f : TreeFault) : Grows (throw f : TreeM α) :=
  editing_grows.throw f

theorem grows_get : Grows get :=
  editing_grows.get

theorem grows_create (kind : NodeKind) : Grows (create kind) :=
  editing_grows.create kind

theorem grows_detach (id : NodeId) : Grows (detach id) :=
  editing_grows.detach id

theorem grows_appendChild (parent child : NodeId) : Grows (appendChild parent child) :=
  editing_grows.appendChild parent child

theorem grows_insertBefore (parent child : NodeId) (reference : Option NodeId) :
    Grows (insertBefore parent child reference) :=
  editing_grows.insertBefore parent child reference

theorem grows_insertAllBefore (parent reference : NodeId) : ∀ ids : List NodeId,
    Grows (insertAllBefore parent reference ids)
  | [] => grows_pure _
  | id :: ids =>
    (grows_insertBefore parent id (some reference)).bind fun _ =>
      grows_insertAllBefore parent reference ids

theorem grows_removeChild (parent child : NodeId) : Grows (removeChild parent child) :=
  editing_grows.removeChild parent child

theorem grows_adopt (parent child : NodeId) : Grows (adopt parent child) :=
  editing_grows.adopt parent child

theorem grows_plantAll (parent : NodeId) (ts : List Tree) : Grows (plantAll parent ts) :=
  editing_grows.plantAll parent ts

theorem size_releaseAll (ids : List NodeId) (a : Arena) :
    (ids.foldl (fun a n => a.release n.index) a).slots.size = a.slots.size := by
  induction ids generalizing a with
  | nil => rfl
  | cons id ids ih => rw [List.foldl_cons, ih, size_release]

/-- Freeing does not shrink it either: slots are vacated, not dropped. -/
theorem grows_free (id : NodeId) : Grows (free id) := by
  refine grows_get.bind fun a => ?_
  split
  · exact grows_throw _
  · exact (grows_detach _).bind fun _ =>
      keeps_modify fun a => Nat.le_of_eq (size_releaseAll _ a).symm

theorem grows_freeLive : ∀ ids : List NodeId, Grows (freeLive ids)
  | [] => grows_pure _
  | id :: ids => by
    refine grows_get.bind fun a => ?_
    split
    · exact (grows_free id).bind fun _ => (grows_freeLive ids).bind fun _ => grows_pure _
    · exact grows_freeLive ids

theorem Fits.mono (h : b.Fits) (hle : a.slots.size ≤ b.slots.size) : a.Fits :=
  Nat.le_trans hle h

/-- What fits in the end fits on the way: `m >>= f` ends with at least as many slots as `m` does. -/
theorem fits_of_bind {m : TreeM α} {f : α → TreeM β} (hf : ∀ x, Grows (f x))
    (h : (stateAfter (m >>= f) a).Fits) : (stateAfter m a).Fits :=
  h.mono (Keeps.after (R := fun a b : Arena => a.slots.size ≤ b.slots.size)
    (fun a => Nat.le_refl a.slots.size) hf a)

theorem fits_after {m : TreeM α} {f : α → TreeM β} {x : α} (hrun : m.run a = .ok x b)
    (h : (stateAfter (m >>= f) a).Fits) : (stateAfter (f x) b).Fits := by
  rwa [stateAfter_bind_of_ok hrun] at h

end Grows

section GrowsBy

variable {α β : Type} {k l : Nat}

/-- One part adds at most `k` slots and the other at most `l`, so the whole adds at most `k + l`. -/
theorem GrowsBy.bind {m : TreeM α} {f : α → TreeM β} (hm : GrowsBy k m)
    (hf : ∀ x, GrowsBy l (f x)) : GrowsBy (k + l) (m >>= f) := by
  intro a
  have hfirst : (stateAfter m a).slots.size ≤ a.slots.size + k := hm a
  show (stateAfter (m >>= f) a).slots.size ≤ a.slots.size + (k + l)
  cases hrun : m.run a with
  | ok x b =>
    have hrest : (stateAfter (f x) b).slots.size ≤ b.slots.size + l := hf x b
    rw [stateAfter_of_ok hrun] at hfirst
    rw [stateAfter_bind_of_ok hrun]
    omega
  | error e b =>
    rw [stateAfter_of_error hrun] at hfirst
    rw [stateAfter_bind_of_error hrun]
    omega

theorem growsBy_pure (x : α) : GrowsBy 0 (pure x) :=
  keeps_pure (fun a => Nat.le_refl a.slots.size) x

theorem growsBy_create (kind : NodeKind) : GrowsBy 1 (create kind) :=
  fun a => size_alloc_le a kind

theorem growsBy_update (id : NodeId) (f : Node → Node) : GrowsBy 0 (update id f) :=
  fun a => Nat.le_of_eq (size_update id f a)

end GrowsBy

end Inlay.Arena
