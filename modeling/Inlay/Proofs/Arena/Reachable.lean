import Inlay.Arena.Listeners
import Inlay.Proofs.Markup.Raise

/-!
# Reachable arenas

`Reachable` is every arena that operations lead to from the empty one, in any order and with any
ids: ids of freed nodes, ids that another arena gave out, ids that nobody gave out. Operations that
refuse count as well; the arena is then what they left behind.

* `wellFormed_of_reachable`: in all of them the nodes form a forest, the accounts of the slots
  agree, and the loops that follow links come to an end.

The only assumption is that there is an index for every slot (`Fits`).
-/

namespace Inlay.Arena

/-- An operation on an arena, apart from copying out of another one. -/
inductive Op where
  | newElement (tag : String) (attrs : List (String × String))
  | newText (s : String)
  | newComment (s : String)
  | newFragment
  | appendChild (parent child : NodeId)
  | insertBefore (parent child : NodeId) (reference : Option NodeId)
  | removeChild (parent child : NodeId)
  | detach (id : NodeId)
  | free (id : NodeId)
  | parse (markup : String)
  | stripBlankTexts (root : NodeId)
  | removeByTag (root : NodeId) (tag : String)

/-- The arena after an operation, whether it succeeds or refuses. -/
def Op.after (a : Arena) : Op → Arena
  | newElement tag attrs => stateAfter (createElement tag attrs) a
  | newText s => stateAfter (create (.text s)) a
  | newComment s => stateAfter (create (.comment s)) a
  | newFragment => stateAfter (create .fragment) a
  | appendChild parent child => stateAfter (Arena.appendChild parent child) a
  | insertBefore parent child reference => stateAfter (Arena.insertBefore parent child reference) a
  | removeChild parent child => stateAfter (Arena.removeChild parent child) a
  | detach id => stateAfter (Arena.detach id) a
  | free id => stateAfter (Arena.free id) a
  | parse markup => stateAfter (Markup.parse markup) a
  | stripBlankTexts root => stateAfter (Markup.stripBlankTexts root) a
  | removeByTag root tag => stateAfter (Markup.removeByTag root tag) a

/-- The arenas that operations lead to. -/
inductive Reachable : Arena → Prop where
  | empty : Reachable empty
  | step {a : Arena} (op : Op) : Reachable a → (op.after a).Fits → Reachable (op.after a)
  | copy {a source : Arena} (id : NodeId) : Reachable a → Reachable source →
    (stateAfter (copyFrom source id) a).Fits → Reachable (stateAfter (copyFrom source id) a)

/-- What the links and the accounts of an arena promise. -/
structure WellFormed (a : Arena) : Prop where
  /-- A listed child is live and has the node that lists it as its parent. -/
  child_links : ∀ p node, a.get? p = some node → ∀ c ∈ node.children,
    ∃ child, a.get? c = some child ∧ child.parent = some p
  /-- A parent is live and lists the node exactly once. -/
  parent_links : ∀ c node p, a.get? c = some node → node.parent = some p →
    ∃ parent, a.get? p = some parent ∧ parent.children.count c = 1
  acyclic : ∀ n, ¬ a.Below n n
  container : ∀ n node, a.get? n = some node → node.children ≠ [] → node.kind.isContainer = true
  nodup_vacant : a.vacant.Nodup
  mem_vacant_iff : ∀ i, i ∈ a.vacant ↔ ∃ slot, a.slots[i.toNat]? = some slot ∧ slot.node = none
  live_eq : a.live = a.slots.countP (·.node.isSome)
  /-- The way up from any node ends. -/
  climbs : ∀ n, a.Climbs n (a.pathToRoot n)
  /-- The walk below any node ends. -/
  visits : ∀ n, a.Visits (a.children n) (a.descendants n)
  contains_iff : ∀ top n, a.contains top n = true ↔ a.Under top n
  /-- An event reaches the listeners on all of the way up. -/
  reached_eq : ∀ {α : Type} (r : Listeners α) (target : NodeId) (event : String)
    (path : List NodeId),
    a.Climbs target path → r.reached a target event = path.flatMap (r.hearing event)

variable {a b : Arena}

/-- In a sound arena the loops over links end, which is what `WellFormed` says beyond soundness. -/
theorem Sound.wellFormed (h : a.Sound) : a.WellFormed where
  child_links p node hp c hc := by
    exact parent?_eq_some_iff.mp (h.forest.up_of_mem hp hc)
  parent_links c node p hc hp := by
    have hmem := h.forest.mem_of_parent (p := p) (c := c) (by rw [parent?_of_get? hc, hp])
    obtain ⟨parent, hparent, hmem⟩ := get?_of_mem_children hmem
    have hnd := h.forest.nodup_children p
    rw [children_of_get? hparent] at hnd
    exact ⟨parent, hparent, List.count_eq_one_of_mem hnd hmem⟩
  acyclic := h.forest.acyclic
  container n node hn hne := by
    obtain ⟨kind, hkind, hcontainer⟩ := h.forest.container (n := n) (by rwa [children_of_get? hn])
    rw [kind?_of_get? hn, Option.some.injEq] at hkind
    rwa [hkind]
  nodup_vacant := h.accounted.nodup_vacant
  mem_vacant_iff := h.accounted.mem_vacant_iff
  live_eq := h.accounted.live_eq
  climbs := h.forest.climbs_pathToRoot
  visits := h.forest.visits_descendants
  contains_iff _ _ := h.forest.contains_iff
  reached_eq r target event path hpath := by
    rw [Listeners.reached, (h.forest.climbs_pathToRoot target).unique hpath]

/-! ### Each operation -/

theorem sound_create (h : a.Sound) (kind : NodeKind) (hfit : (stateAfter (create kind) a).Fits) :
    (stateAfter (create kind) a).Sound := by
  obtain ⟨id, b, hrun, hc⟩ := create_spec h kind hfit
  rw [stateAfter_of_ok hrun]
  exact hc.sound

theorem sound_detach (h : a.Sound) (id : NodeId) : (stateAfter (detach id) a).Sound := by
  obtain ⟨b, hrun, hd⟩ := detach_spec h id
  rw [stateAfter_of_ok hrun]
  exact hd.sound

/-- `appendChild` keeps an arena sound, whether it moves the child or refuses. -/
theorem sound_appendChild (h : a.Sound) (parent child : NodeId) :
    (stateAfter (appendChild parent child) a).Sound := by
  rcases appendChild_spec h parent child with ⟨f, -, hrun⟩ | ⟨-, b, hrun, hm⟩
  · rwa [stateAfter_of_error hrun]
  · rw [stateAfter_of_ok hrun]
    exact hm.sound

/-- So does `insertBefore`, whatever the reference is. -/
theorem sound_insertBefore (h : a.Sound) (parent child : NodeId) (reference : Option NodeId) :
    (stateAfter (insertBefore parent child reference) a).Sound := by
  cases reference with
  | none => exact sound_appendChild h parent child
  | some r =>
    by_cases hr : r = child
    · unfold insertBefore
      simp only [if_pos hr]
      exact h
    · rcases insertBefore_spec h parent child r hr with
        ⟨f, hrun⟩ | ⟨-, -, b, pre, post, hrun, -, hm⟩
      · rwa [stateAfter_of_error hrun]
      · rw [stateAfter_of_ok hrun]
        exact hm.sound

theorem sound_removeChild (h : a.Sound) (parent child : NodeId) :
    (stateAfter (removeChild parent child) a).Sound := by
  unfold removeChild
  rw [stateAfter_bind_of_ok (EStateM.run_get ..)]
  split
  · exact h
  · exact sound_detach h child

/-- So does `free`, with the id of a node that is gone too. -/
theorem sound_free (h : a.Sound) (id : NodeId) : (stateAfter (free id) a).Sound := by
  rcases free_spec h id with ⟨-, hrun⟩ | ⟨-, b, hrun, hf⟩
  · rwa [stateAfter_of_error hrun]
  · rw [stateAfter_of_ok hrun]
    exact hf.sound

/-- Whatever comes of it, a sound arena stays sound. -/
def StaysSound {α : Type} (m : TreeM α) : Prop :=
  Keeps (fun a b : Arena => a.Sound → b.Sound) m

/-- If both parts of `m >>= f` keep arenas sound, so does the whole. -/
theorem StaysSound.bind {α β : Type} {m : TreeM α} {f : α → TreeM β} (hm : StaysSound m)
    (hf : ∀ x, StaysSound (f x)) : StaysSound (m >>= f) :=
  Keeps.bind (fun h h' hs => h' (h hs)) hm hf

theorem staysSound_pure {α : Type} (x : α) : StaysSound (pure x) :=
  keeps_pure (fun _ h => h) x

theorem staysSound_get : StaysSound get :=
  keeps_get fun _ h => h

theorem staysSound_freeAll : ∀ ids : List NodeId, StaysSound (Markup.freeAll ids)
  | [] => staysSound_pure _
  | id :: ids => StaysSound.bind (fun _ h => sound_free h id) fun _ => staysSound_freeAll ids

theorem staysSound_freeLive : ∀ ids : List NodeId, StaysSound (freeLive ids)
  | [] => staysSound_pure _
  | id :: ids => by
    refine staysSound_get.bind fun a => ?_
    split
    · exact StaysSound.bind (fun _ h => sound_free h id) fun _ =>
        (staysSound_freeLive ids).bind fun _ => staysSound_pure _
    · exact staysSound_freeLive ids

theorem staysSound_stripBlankTexts (root : NodeId) : StaysSound (Markup.stripBlankTexts root) :=
  staysSound_get.bind fun _ => staysSound_freeAll _

/-- Every operation, with any ids, keeps an arena `Sound` as long as the slots can be numbered. -/
theorem sound_after (h : a.Sound) (op : Op) (hfit : (op.after a).Fits) : (op.after a).Sound := by
  cases op with
  | newElement tag attrs => exact sound_create h _ hfit
  | newText s => exact sound_create h _ hfit
  | newComment s => exact sound_create h _ hfit
  | newFragment => exact sound_create h _ hfit
  | appendChild parent child => exact sound_appendChild h parent child
  | insertBefore parent child reference => exact sound_insertBefore h parent child reference
  | removeChild parent child => exact sound_removeChild h parent child
  | detach id => exact sound_detach h id
  | free id => exact sound_free h id
  | parse markup =>
    obtain ⟨fragment, b, hrun, hp⟩ := Markup.parse_spec h markup hfit
    rw [Op.after, stateAfter_of_ok hrun]
    exact hp.sound
  | stripBlankTexts root => exact staysSound_stripBlankTexts root a h
  | removeByTag root tag => exact staysSound_freeLive _ a h

/-- So does a copy out of another arena that is `Sound`. -/
theorem sound_copyFrom (h : a.Sound) {source : Arena} (hsource : source.Sound) (id : NodeId)
    (hfit : (stateAfter (copyFrom source id) a).Fits) :
    (stateAfter (copyFrom source id) a).Sound := by
  rcases copyFrom_spec h hsource.forest id hfit with ⟨-, hrun⟩ | ⟨t, copy, b, -, hrun, hp⟩
  · rwa [stateAfter_of_error hrun]
  · rw [stateAfter_of_ok hrun]
    exact hp.sound

/-- **Reachable arenas are sound**, by induction on the operations that lead there. -/
theorem Reachable.sound (h : Reachable a) : a.Sound := by
  induction h with
  | empty => exact sound_empty
  | step op _ hfit ih => exact sound_after ih op hfit
  | copy id _ _ hfit ih ihsource => exact sound_copyFrom ih ihsource id hfit

theorem Reachable.fits (h : Reachable a) : a.Fits := by
  cases h with
  | empty => exact Nat.zero_le _
  | step op _ hfit => exact hfit
  | copy id _ _ hfit => exact hfit

/-! ### Runs of operations -/

theorem grows_freeAll : ∀ ids : List NodeId, Grows (Markup.freeAll ids)
  | [] => grows_pure _
  | id :: ids => (grows_free id).bind fun _ => grows_freeAll ids

theorem grows_stripBlankTexts (root : NodeId) : Grows (Markup.stripBlankTexts root) :=
  grows_get.bind fun _ => grows_freeAll _

/-- No operation shrinks the list of slots: `a.slots.size ≤ (op.after a).slots.size`. -/
theorem size_le_size_after (a : Arena) (op : Op) : a.slots.size ≤ (op.after a).slots.size := by
  cases op with
  | newElement tag attrs => exact grows_create _ a
  | newText s => exact grows_create _ a
  | newComment s => exact grows_create _ a
  | newFragment => exact grows_create _ a
  | appendChild parent child => exact grows_appendChild parent child a
  | insertBefore parent child reference => exact grows_insertBefore parent child reference a
  | removeChild parent child => exact grows_removeChild parent child a
  | detach id => exact grows_detach id a
  | free id => exact grows_free id a
  | parse markup => exact Markup.grows_buildFragment _ a
  | stripBlankTexts root => exact grows_stripBlankTexts root a
  | removeByTag root tag => exact grows_freeLive _ a

theorem size_le_size_foldl_after (ops : List Op) (a : Arena) :
    a.slots.size ≤ (ops.foldl Op.after a).slots.size := by
  induction ops generalizing a with
  | nil => exact Nat.le_refl _
  | cons op ops ih => exact Nat.le_trans (size_le_size_after a op) (ih _)

/-- A run of `ops` stays within bounds if it ends within bounds. -/
theorem Reachable.foldl (h : Reachable a) (ops : List Op) (hfit : (ops.foldl Op.after a).Fits) :
    Reachable (ops.foldl Op.after a) := by
  induction ops generalizing a with
  | nil => exact h
  | cons op ops ih => exact ih (.step op h (hfit.mono (size_le_size_foldl_after ops _))) hfit

/-- **In every reachable arena the nodes form a forest**, the accounts of the slots agree, and the
loops that follow links come to an end. -/
theorem wellFormed_of_reachable (h : Reachable a) : a.WellFormed :=
  h.sound.wellFormed

/-- A text in a fragment; the attempt to put the fragment into its own text; the fragment freed, and
a new node in its slot, before the freed text is named once more. -/
theorem wellFormed_after_reuse :
    ([Op.newFragment, .newText "x", .appendChild ⟨0, 0⟩ ⟨1, 0⟩, .appendChild ⟨1, 0⟩ ⟨0, 0⟩,
      .free ⟨0, 0⟩, .newComment "y", .detach ⟨1, 0⟩].foldl Op.after empty).WellFormed :=
  wellFormed_of_reachable (Reachable.empty.foldl _ (by decide))

end Inlay.Arena
