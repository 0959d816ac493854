import Inlay.Proofs.Arena.Reachable
import Inlay.Proofs.Arena.Splice

/-!
# Moving nodes

An insertion takes a node out of where it was and puts it to its new place; what lies below it comes
along, and nothing else is different (`Relocated`).

* `relocated_of_reachable`: this holds of every insertion that a reachable arena accepts, among
  siblings as well as from one parent to another; inserting nodes one by one before the same
  reference brings them there in the order of the list.
* `seated_of_reachable`: after an accepted insertion the node is a child of the parent, and a
  reference that is not a child of the parent is refused. There is one exception: a node that is
  its own reference is accepted without a look at anything, and nothing happens
  (`unseated_of_own_reference`).
-/

namespace Inlay.Arena

variable {a b : Arena} {parent child : NodeId} {siblings : List NodeId}

/-! ### One node -/

/-- `b` is `a` with `child` moved to stand among the children of `parent`, which are `siblings`
then. -/
structure Relocated (a b : Arena) (parent child : NodeId) (siblings : List NodeId) : Prop where
  children_eq : b.children parent = siblings
  /-- Another parent that the child had before keeps its other children in their order. -/
  children_former : ∀ p, a.parent? child = some p → p ≠ parent →
    b.children p = (a.children p).filter (· ≠ child)
  children_other : ∀ n, n ≠ parent → a.parent? child ≠ some n → b.children n = a.children n
  parent_eq : b.parent? child = some parent
  parent_other : ∀ n, n ≠ child → b.parent? n = a.parent? n
  kind_eq : ∀ n, b.kind? n = a.kind? n
  isLive_eq : ∀ n, b.isLive n = a.isLive n
  live_eq : b.live = a.live
  /-- What lies below the child comes along. -/
  descendants_eq : b.descendants child = a.descendants child
  tree_eq : b.tree? child = a.tree? child

/-- A node `n` that is neither the new parent nor the former one keeps its children. -/
theorem Moved.children_other (h : Moved a b parent child siblings) (hf : a.Forest) {n : NodeId}
    (hn : n ≠ parent) (hformer : a.parent? child ≠ some n) : b.children n = a.children n := by
  rw [h.children_of_ne hn, filter_ne_of_not_mem fun hc => hformer (hf.parent_of_mem hc)]

/-- A move in a reachable arena changes the parent of `child`, two lists of children, and nothing
else. -/
theorem Moved.relocated (h : Moved a b parent child siblings) (ha : a.Sound) (hfit : a.Fits)
    (hmay : a.mayInsert parent child = .ok ()) : Relocated a b parent child siblings := by
  obtain ⟨hlive, hnot, kind, hkind, -⟩ := (mayInsert_ok_iff ha.forest).mp hmay
  have hparent : a.isLive parent := by
    rw [kind?, Option.map_eq_some_iff] at hkind
    obtain ⟨node, hnode, -⟩ := hkind
    exact isLive_iff.mpr ⟨node, hnode⟩
  -- under the child there is neither its new parent nor its old one
  have hunder : ∀ n, a.Under child n → b.children n = a.children n := by
    intro n hn
    apply h.children_other ha.forest
    · rintro rfl
      exact hnot hn
    · intro hup
      exact ha.forest.not_under_child (ha.forest.mem_of_parent hup) hn
  constructor
  case children_eq => exact h.children_eq hparent
  case children_former => exact fun p _ hp => h.children_of_ne hp
  case children_other => exact fun n => h.children_other ha.forest
  case parent_eq => rw [h.parent?_eq hlive, if_pos rfl]
  case parent_other =>
    intro n hn
    rw [h.parent?_eq hlive, if_neg hn]
  case kind_eq => exact h.kind?_eq
  case isLive_eq => exact h.isLive_eq
  case live_eq =>
    have hfit' : b.Fits := hfit.mono (Nat.le_of_eq h.size_eq)
    exact ha.accounted.live_eq_of_isLive h.sound.accounted hfit hfit' h.isLive_eq
  case descendants_eq => exact ha.forest.descendants_congr h.sound.forest hunder
  case tree_eq =>
    apply ha.forest.tree?_congr h.sound.forest hlive
    intro n hn
    rw [content?_eq, content?_eq, h.kind?_eq, hunder n hn]

theorem relocated_of_appendChild (h : Reachable a)
    (hrun : (appendChild parent child).run a = .ok () b) :
    Relocated a b parent child ((a.children parent).filter (· ≠ child) ++ [child]) := by
  rcases appendChild_spec h.sound parent child with ⟨f, -, hrun'⟩ | ⟨hmay, c, hrun', hm⟩
  · rw [hrun] at hrun'
    exact absurd hrun' (by simp)
  · rw [hrun] at hrun'
    obtain rfl : b = c := by injection hrun'
    exact hm.relocated h.sound h.fits hmay

/-- An insertion before another node `r` is accepted only where `r` is a child of the parent, and
moves the child right before it. -/
theorem moved_of_insertBefore {r : NodeId} (h : a.Sound) (hne : r ≠ child)
    (hrun : (insertBefore parent child (some r)).run a = .ok () b) :
    a.parent? r = some parent ∧ a.mayInsert parent child = .ok () ∧
      ∃ pre post, (a.children parent).filter (· ≠ child) = pre ++ r :: post ∧
        Moved a b parent child (pre ++ child :: r :: post) := by
  rcases insertBefore_spec h parent child r hne with
    ⟨f, hrun'⟩ | ⟨hr, hmay, c, pre, post, hrun', hsplit, hm⟩
  · rw [hrun] at hrun'
    exact absurd hrun' (by simp)
  · rw [hrun] at hrun'
    obtain rfl : b = c := by injection hrun'
    exact ⟨hr, hmay, pre, post, hsplit, hm⟩

theorem relocated_of_insertBefore {r : NodeId} (h : Reachable a) (hne : r ≠ child)
    (hrun : (insertBefore parent child (some r)).run a = .ok () b) :
    ∃ pre post, (a.children parent).filter (· ≠ child) = pre ++ r :: post ∧
      Relocated a b parent child (pre ++ child :: r :: post) := by
  obtain ⟨-, hmay, pre, post, hsplit, hm⟩ := moved_of_insertBefore h.sound hne hrun
  exact ⟨pre, post, hsplit, hm.relocated h.sound h.fits hmay⟩

/-! ### Several nodes -/

theorem inserted_of_insertBefore {r : NodeId} (h : a.Sound) (hne : r ≠ child)
    (hrun : (insertBefore parent child (some r)).run a = .ok () b) :
    Inserted a b parent r [child] := by
  obtain ⟨hr, hmay, pre, post, hsplit, hm⟩ := moved_of_insertBefore h hne hrun
  exact hm.inserted h hr ((mayInsert_ok_iff h.forest).mp hmay).1 hsplit

/-- Of a node that is inserted more than once, the last time counts: `ids.dedup` stands before
`r`. -/
theorem inserted_of_insertAllBefore {r : NodeId} : ∀ {ids : List NodeId} {a : Arena}, a.Sound →
    r ∉ ids → (insertAllBefore parent r ids).run a = .ok () b → Inserted a b parent r ids.dedup
  | [], a, h, _, hrun => by
    obtain rfl : a = b := by injection hrun
    exact h.inserted_nil parent r
  | x :: xs, a, h, hr, hrun => by
    rw [List.mem_cons, not_or] at hr
    obtain ⟨⟨⟩, a₁, hrun₁, hrest⟩ := exists_of_run_bind_eq_ok hrun
    have hfirst := inserted_of_insertBefore h hr.1 hrun₁
    have hothers := inserted_of_insertAllBefore hfirst.sound hr.2 hrest
    have hrest : r ∉ xs.dedup := fun hm => hr.2 (List.mem_dedup.mp hm)
    by_cases hx : x ∈ xs
    · rw [List.dedup_cons_of_mem hx]
      exact hfirst.again hothers (List.mem_dedup.mpr hx) hrest
    · rw [List.dedup_cons_of_notMem hx]
      exact hfirst.cons hothers (fun hm => hx (List.mem_dedup.mp hm)) hrest hr.1

/-- Nodes inserted one by one stand right before `r`, in the order of the list, each once. -/
theorem children_of_insertAllBefore {r : NodeId} {ids : List NodeId} (h : a.Sound) (hr : r ∉ ids)
    (hids : ids ≠ []) (hrun : (insertAllBefore parent r ids).run a = .ok () b) :
    ∃ pre post, (a.children parent).filter (· ∉ ids) = pre ++ r :: post ∧
      b.children parent = pre ++ (ids.dedup ++ r :: post) := by
  have hinserted := inserted_of_insertAllBefore h hr hrun
  -- the first insertion has looked at the reference
  have hup : a.parent? r = some parent := by
    obtain ⟨x, xs, rfl⟩ := List.exists_cons_of_ne_nil hids
    obtain ⟨⟨⟩, a₁, hrun₁, -⟩ := exists_of_run_bind_eq_ok hrun
    exact (moved_of_insertBefore h (List.ne_of_not_mem_cons hr) hrun₁).1
  obtain ⟨pre, post, hsplit, hchildren⟩ :=
    hinserted.children_eq h.forest hup fun hm => hr (List.mem_dedup.mp hm)
  simp only [List.mem_dedup] at hsplit
  exact ⟨pre, post, hsplit, hchildren⟩

/-- **An accepted insertion moves a node and does nothing else.** `appendChild` puts it behind the
other children, `insertBefore` right before the reference, wherever it was before. Nodes that are
inserted one by one before the same reference stand there in the order of the list, each once. -/
theorem relocated_of_reachable (h : Reachable a) :
    (∀ parent child b, (appendChild parent child).run a = .ok () b →
      Relocated a b parent child ((a.children parent).filter (· ≠ child) ++ [child])) ∧
    (∀ parent child b, (insertBefore parent child none).run a = .ok () b →
      Relocated a b parent child ((a.children parent).filter (· ≠ child) ++ [child])) ∧
    (∀ parent child r b, r ≠ child → (insertBefore parent child (some r)).run a = .ok () b →
      ∃ pre post, (a.children parent).filter (· ≠ child) = pre ++ r :: post ∧
        Relocated a b parent child (pre ++ child :: r :: post)) ∧
    ∀ parent r ids b, r ∉ ids → (insertAllBefore parent r ids).run a = .ok () b →
      Inserted a b parent r ids.dedup ∧
      (ids ≠ [] → ∃ pre post, (a.children parent).filter (· ∉ ids) = pre ++ r :: post ∧
        b.children parent = pre ++ (ids.dedup ++ r :: post)) := by
  refine ⟨fun parent child b hrun => ?_, fun parent child b hrun => ?_,
    fun parent child r b hne hrun => ?_, fun parent r ids b hr hrun => ⟨?_, fun hids => ?_⟩⟩
  · exact relocated_of_appendChild h hrun
  · exact relocated_of_appendChild h hrun
  · exact relocated_of_insertBefore h hne hrun
  · exact inserted_of_insertAllBefore h.sound hr hrun
  · exact children_of_insertAllBefore h.sound hr hids hrun

/-- A fragment with three children, the second of them an element with a text. -/
theorem relocated_in_fragment :
    let a := [Op.newFragment, .newText "x", .newElement "p" [], .newText "y", .newText "z",
      .appendChild ⟨0, 0⟩ ⟨1, 0⟩, .appendChild ⟨0, 0⟩ ⟨2, 0⟩, .appendChild ⟨0, 0⟩ ⟨3, 0⟩,
      .appendChild ⟨2, 0⟩ ⟨4, 0⟩].foldl Op.after empty
    Relocated a (stateAfter (appendChild ⟨0, 0⟩ ⟨1, 0⟩) a) ⟨0, 0⟩ ⟨1, 0⟩
      [⟨2, 0⟩, ⟨3, 0⟩, ⟨1, 0⟩] ∧
    Relocated a (stateAfter (insertBefore ⟨2, 0⟩ ⟨3, 0⟩ none) a) ⟨2, 0⟩ ⟨3, 0⟩
      [⟨4, 0⟩, ⟨3, 0⟩] ∧
    Relocated a (stateAfter (insertBefore ⟨0, 0⟩ ⟨3, 0⟩ (some ⟨1, 0⟩)) a) ⟨0, 0⟩ ⟨3, 0⟩
      [⟨3, 0⟩, ⟨1, 0⟩, ⟨2, 0⟩] ∧
    Inserted a (stateAfter (insertAllBefore ⟨0, 0⟩ ⟨2, 0⟩ [⟨3, 0⟩, ⟨4, 0⟩, ⟨3, 0⟩]) a) ⟨0, 0⟩ ⟨2, 0⟩
      [⟨4, 0⟩, ⟨3, 0⟩] := by
  intro a
  obtain ⟨happend, hlast, hbefore, hall⟩ :=
    relocated_of_reachable (a := a) (Reachable.empty.foldl _ (by decide +kernel))
  refine ⟨?_, ?_, ?_, ?_⟩
  · have hmoved := happend ⟨0, 0⟩ ⟨1, 0⟩ _ (run_of_succeeds (by decide +kernel))
    rwa [show a.children ⟨0, 0⟩ = [⟨1, 0⟩, ⟨2, 0⟩, ⟨3, 0⟩] by decide +kernel] at hmoved
  · have hmoved := hlast ⟨2, 0⟩ ⟨3, 0⟩ _ (run_of_succeeds (by decide +kernel))
    rwa [show a.children ⟨2, 0⟩ = [⟨4, 0⟩] by decide +kernel] at hmoved
  · obtain ⟨pre, post, -, hmoved⟩ := hbefore ⟨0, 0⟩ ⟨3, 0⟩ ⟨1, 0⟩ _ (by decide)
      (run_of_succeeds (by decide +kernel))
    rwa [← hmoved.children_eq,
      show Arena.children _ _ = [⟨3, 0⟩, ⟨1, 0⟩, ⟨2, 0⟩] by decide +kernel] at hmoved
  · have hinserted := (hall ⟨0, 0⟩ ⟨2, 0⟩ [⟨3, 0⟩, ⟨4, 0⟩, ⟨3, 0⟩] _ (by decide)
      (run_of_succeeds (by decide +kernel))).1
    rwa [show ([⟨3, 0⟩, ⟨4, 0⟩, ⟨3, 0⟩] : List NodeId).dedup = [⟨4, 0⟩, ⟨3, 0⟩] by decide]
      at hinserted

/-! ### What an accepted insertion promises -/

/-- `child` is live and one of the children of `parent`, which is an element or a fragment. -/
structure Seated (a : Arena) (parent child : NodeId) : Prop where
  live : a.isLive child
  container : ∃ kind, a.kind? parent = some kind ∧ kind.isContainer = true
  mem : child ∈ a.children parent

theorem Forest.seated (h : a.Forest) (hup : a.parent? child = some parent) :
    Seated a parent child := by
  have hmem := h.mem_of_parent hup
  exact ⟨Up.live hup, h.container (List.ne_nil_of_mem hmem), hmem⟩

theorem seated_of_appendChild (h : Reachable a)
    (hrun : (appendChild parent child).run a = .ok () b) : Seated b parent child := by
  have hsound := sound_appendChild h.sound parent child
  rw [stateAfter_of_ok hrun] at hsound
  exact hsound.forest.seated (relocated_of_appendChild h hrun).parent_eq

/-- A node as its own reference is accepted, whatever `parent` and `child` are, and nothing
happens. -/
theorem insertBefore_self (a : Arena) (parent child : NodeId) :
    (insertBefore parent child (some child)).run a = .ok () a := by
  unfold insertBefore
  simp only [↓reduceIte]
  rfl

/-- **An accepted insertion inserts**, and a reference that is not a child of the parent is refused
without any change, unless the node to insert is its own reference. -/
theorem seated_of_reachable (h : Reachable a) (parent child : NodeId) :
    (∀ b, (appendChild parent child).run a = .ok () b → Seated b parent child) ∧
    (∀ reference b, reference ≠ some child →
      (insertBefore parent child reference).run a = .ok () b → Seated b parent child) ∧
    (∀ r, r ≠ child → r ∉ a.children parent →
      (insertBefore parent child (some r)).run a = .error (.foreignReference r parent) a) ∧
    (insertBefore parent child (some child)).run a = .ok () a := by
  refine ⟨fun b hrun => seated_of_appendChild h hrun, fun reference b hne hrun => ?_,
    fun r hne hr => ?_, insertBefore_self a parent child⟩
  · cases reference with
    | none => exact seated_of_appendChild h hrun
    | some r =>
      have hne : r ≠ child := fun he => hne (congrArg some he)
      obtain ⟨pre, post, -, hmoved⟩ := relocated_of_insertBefore h hne hrun
      have hsound := sound_insertBefore h.sound parent child (some r)
      rw [stateAfter_of_ok hrun] at hsound
      exact hsound.forest.seated hmoved.parent_eq
  · have hup : a.parent? r ≠ some parent := fun hup => hr (h.sound.forest.mem_of_parent hup)
    unfold insertBefore
    simp only [if_neg hne]
    rw [run_bind_of_ok (EStateM.run_get ..), if_pos hup]
    rfl

/-- A text is accepted as its own reference under another text, and stays without a parent. -/
theorem unseated_of_own_reference :
    let a := [Op.newText "x", .newText "y"].foldl Op.after empty
    (insertBefore ⟨0, 0⟩ ⟨1, 0⟩ (some ⟨1, 0⟩)).run a = .ok () a ∧
    ⟨1, 0⟩ ∉ a.children ⟨0, 0⟩ ∧ ¬ Seated a ⟨0, 0⟩ ⟨1, 0⟩ := by
  intro a
  have hunlisted : ⟨1, 0⟩ ∉ a.children ⟨0, 0⟩ := by decide +kernel
  exact ⟨insertBefore_self a _ _, hunlisted, fun hseated => hunlisted hseated.mem⟩

end Inlay.Arena
