import Inlay.Proofs.Arena.Reachable

/-!
# Refused operations

Most operations on an arena write more than once and look ids up in between. `Atomic m a` says that
`m` cannot fail at `a` with some of its writes done.

* `atomic_of_reachable`: in a reachable arena this holds of every operation that can be refused, for
  all ids. Once the checks at its beginning have passed, the forest of links leaves nothing for the
  later lookups to miss.
* `copyNodes_eq_copyFrom`: `copyNodes` makes the copy of a node before it looks at the children, and
  goes down from there; `copyFrom` knows the whole tree before it makes a node. Out of a sound arena
  both do the same.
-/

namespace Inlay.Arena

variable {α : Type} {a b source : Arena}

/-- If `m` fails at `a`, it has not changed anything. -/
def Atomic (m : TreeM α) (a : Arena) : Prop :=
  ∀ fault b, m.run a = .error fault b → b = a

/-- What succeeds is `Atomic`, since it does not have to say what a refusal leaves behind. -/
theorem atomic_of_ok {m : TreeM α} {x : α} (h : m.run a = .ok x b) : Atomic m a := by
  intro fault c hc
  rw [h] at hc
  exact absurd hc (by simp)

/-- A refusal that leaves `a` as it is changes nothing. -/
theorem atomic_of_error {m : TreeM α} {f : TreeFault} (h : m.run a = .error f a) : Atomic m a := by
  intro fault b hb
  rw [h] at hb
  injection hb with _ hab
  exact hab.symm

/-! ### Links -/

/-- In a sound arena both ends of a link are live, so `detach` always succeeds. -/
theorem atomic_detach (h : a.Sound) (id : NodeId) : Atomic (detach id) a := by
  obtain ⟨b, hrun, -⟩ := detach_spec h id
  exact atomic_of_ok hrun

/-- `appendChild` refuses before it takes the child out of its parent. -/
theorem atomic_appendChild (h : a.Sound) (parent child : NodeId) :
    Atomic (appendChild parent child) a := by
  rcases appendChild_spec h parent child with ⟨f, -, hrun⟩ | ⟨-, b, hrun, -⟩
  · exact atomic_of_error hrun
  · exact atomic_of_ok hrun

/-- So does `insertBefore`, with and without a reference. -/
theorem atomic_insertBefore (h : a.Sound) (parent child : NodeId) (reference : Option NodeId) :
    Atomic (insertBefore parent child reference) a := by
  cases reference with
  | none => exact atomic_appendChild h parent child
  | some r =>
    by_cases hr : r = child
    · have hrun : (insertBefore parent child (some r)).run a = .ok () a := by
        unfold insertBefore
        simp only [if_pos hr]
        rfl
      exact atomic_of_ok hrun
    · rcases insertBefore_spec h parent child r hr with ⟨f, hrun⟩ | ⟨-, -, b, _, _, hrun, -, -⟩
      · exact atomic_of_error hrun
      · exact atomic_of_ok hrun

theorem atomic_removeChild (h : a.Sound) (parent child : NodeId) :
    Atomic (removeChild parent child) a := by
  intro fault b hrun
  unfold removeChild at hrun
  rw [run_bind_of_ok (EStateM.run_get ..)] at hrun
  split at hrun
  · exact atomic_of_error rfl fault b hrun
  · exact atomic_detach h child fault b hrun

theorem atomic_free (h : a.Sound) (id : NodeId) : Atomic (free id) a := by
  rcases free_spec h id with ⟨-, hrun⟩ | ⟨-, b, hrun, -⟩
  · exact atomic_of_error hrun
  · exact atomic_of_ok hrun

/-! ### Copies -/

/-- A copy is refused only if `id` names no node, before any node is made. -/
theorem atomic_copyFrom (h : a.Sound) (hsource : source.Sound) (id : NodeId)
    (hfit : (stateAfter (copyFrom source id) a).Fits) : Atomic (copyFrom source id) a := by
  rcases copyFrom_spec h hsource.forest id hfit with ⟨-, hrun⟩ | ⟨_, copy, b, -, hrun, -⟩
  · exact atomic_of_error hrun
  · exact atomic_of_ok hrun

/-- Copies a node, then its children one by one, each with what is below it; at most `fuel` levels.
Each copy of a child gets its parent as soon as it stands. -/
def copyWithin (source : Arena) : Nat → NodeId → TreeM NodeId
  | 0, id => throw (.copyFreed id)
  | fuel + 1, id =>
    match source.get? id with
    | none => throw (.copyFreed id)
    | some node => do
      let copy ← create node.kind
      node.children.forM fun child => do
        adopt copy (← copyWithin source fuel child)
      return copy

/-- Copies the nodes at and below `id` as the walk down meets them. -/
def copyNodes (source : Arena) (id : NodeId) : TreeM NodeId :=
  source.copyWithin (source.slots.size + 1) id

mutual

/-- With levels for `t.size` nodes, the walk through the tree `t` is `plant t`: it makes the same
nodes in the same order. -/
theorem Shows.copyWithin_eq : ∀ {t : Tree} {id : NodeId} {fuel : Nat}, source.Shows id t →
    t.size ≤ fuel → source.copyWithin fuel id = plant t
  | .node _ cs, id, fuel, h, hfuel => by
    obtain ⟨node, hget, rfl, hcs⟩ := shows_node.mp h
    rw [Tree.size] at hfuel
    obtain ⟨fuel, rfl⟩ := Nat.exists_eq_add_of_le' (Nat.le_trans (Nat.succ_pos _) hfuel)
    have hrow := hcs.copyWithin_eq (Nat.le_of_succ_le_succ hfuel)
    rw [copyWithin, plant]
    simp only [hget, hrow]

theorem ShowsAll.copyWithin_eq : ∀ {ts : List Tree} {ids : List NodeId} {fuel : Nat},
    source.ShowsAll ids ts → Tree.sizeAll ts ≤ fuel → ∀ parent,
    (ids.forM fun child => source.copyWithin fuel child >>= adopt parent) = plantAll parent ts
  | [], ids, fuel, h, _, parent => by
    rw [showsAll_nil_iff.mp h, plantAll]
    rfl
  | t :: ts, ids, fuel, h, hfuel, parent => by
    obtain ⟨id, rest, rfl, ht, hts⟩ := showsAll_cons_iff.mp h
    rw [Tree.sizeAll] at hfuel
    show ((source.copyWithin fuel id >>= adopt parent) >>= fun _ =>
      rest.forM fun child => source.copyWithin fuel child >>= adopt parent) = _
    rw [ht.copyWithin_eq (by omega), hts.copyWithin_eq (by omega), bind_assoc, plantAll]

end

/-- Out of a forest, `copyNodes` and `copyFrom` are the same: both refuse an id that names no node,
and otherwise they make the same nodes in the same order. -/
theorem copyNodes_eq_copyFrom (hsource : source.Forest) (id : NodeId) :
    copyNodes source id = copyFrom source id := by
  unfold copyNodes copyFrom
  cases hlive : source.get? id with
  | none =>
    have htree : source.tree? id = none := by
      rw [tree?, treeWithin, hlive]
    rw [htree, copyWithin, hlive]
  | some node =>
    obtain ⟨t, hshows⟩ := hsource.exists_shows (isLive_iff.mpr ⟨node, hlive⟩)
    have hsize := hshows.size_le hsource
    rw [hshows.tree? hsource, hshows.copyWithin_eq (Nat.le_succ_of_le hsize)]

/-- **An operation that is refused changes nothing**: not the nodes, their links or their order, nor
the generations, the vacant slots or the number of live nodes. This holds in every reachable arena
and for all ids. The same goes for a copy out of any other reachable arena, and the copy that
allocates as it goes down is that copy. -/
theorem atomic_of_reachable (h : Reachable a) :
    (∀ parent child, Atomic (appendChild parent child) a) ∧
    (∀ parent child reference, Atomic (insertBefore parent child reference) a) ∧
    (∀ parent child, Atomic (removeChild parent child) a) ∧
    (∀ id, Atomic (detach id) a) ∧
    (∀ id, Atomic (free id) a) ∧
    ∀ source id, Reachable source → copyNodes source id = copyFrom source id ∧
      ((stateAfter (copyFrom source id) a).Fits → Atomic (copyFrom source id) a) := by
  refine ⟨atomic_appendChild h.sound, atomic_insertBefore h.sound, atomic_removeChild h.sound,
    atomic_detach h.sound, atomic_free h.sound, fun source id hsource => ⟨?_, fun hfit => ?_⟩⟩
  · exact copyNodes_eq_copyFrom hsource.sound.forest id
  · exact atomic_copyFrom h.sound hsource.sound id hfit

/-- A fragment with two texts, the second of them taken out again, and a text that was freed. -/
theorem unchanged_of_refused :
    let a := [Op.newFragment, .newText "x", .newText "y", .newText "z", .appendChild ⟨0, 0⟩ ⟨1, 0⟩,
      .appendChild ⟨0, 0⟩ ⟨2, 0⟩, .removeChild ⟨0, 0⟩ ⟨2, 0⟩, .free ⟨3, 0⟩].foldl Op.after empty
    (∃ b, (insertBefore ⟨0, 0⟩ ⟨1, 0⟩ (some ⟨2, 0⟩)).run a =
      .error (.foreignReference ⟨2, 0⟩ ⟨0, 0⟩) b ∧ b = a) ∧
    (∃ b, (appendChild ⟨0, 0⟩ ⟨0, 0⟩).run a = .error (.cycle ⟨0, 0⟩) b ∧ b = a) ∧
    (∃ b, (appendChild ⟨1, 0⟩ ⟨2, 0⟩).run a = .error (.childless ⟨1, 0⟩) b ∧ b = a) ∧
    (∃ b, (removeChild ⟨0, 0⟩ ⟨2, 0⟩).run a = .error (.notAChild ⟨2, 0⟩ ⟨0, 0⟩) b ∧ b = a) ∧
    (∃ b, (free ⟨3, 0⟩).run a = .error (.freedTwice ⟨3, 0⟩) b ∧ b = a) ∧
    ∃ b, (copyFrom a ⟨3, 0⟩).run a = .error (.copyFreed ⟨3, 0⟩) b ∧ b = a := by
  intro a
  have ha : Reachable a := Reachable.empty.foldl _ (by decide)
  obtain ⟨happend, hinsert, hremove, -, hfree, hcopy⟩ := atomic_of_reachable ha
  have hcopy := (hcopy a ⟨3, 0⟩ ha).2 (by decide)
  refine ⟨⟨_, rfl, ?_⟩, ⟨_, rfl, ?_⟩, ⟨_, rfl, ?_⟩, ⟨_, rfl, ?_⟩, ⟨_, rfl, ?_⟩, ⟨_, rfl, ?_⟩⟩
  · exact hinsert ⟨0, 0⟩ ⟨1, 0⟩ (some ⟨2, 0⟩) _ _ rfl
  · exact happend ⟨0, 0⟩ ⟨0, 0⟩ _ _ rfl
  · exact happend ⟨1, 0⟩ ⟨2, 0⟩ _ _ rfl
  · exact hremove ⟨0, 0⟩ ⟨2, 0⟩ _ _ rfl
  · exact hfree ⟨3, 0⟩ _ _ rfl
  · exact hcopy _ _ rfl

end Inlay.Arena
