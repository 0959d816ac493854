import Inlay.Proofs.Arena.Reachable

/-!
# Document order

The nodes below a node can be had in three ways: by a walk down with an agenda (`Visits`), by
recursion on the children (`Outline`), and by asking of every node whether the node in question
stands on its way up (`contains`).

* `outline_iff_visits`: in any arena the walk ends with what the recursion lists, or neither ends;
* `preorder_of_reachable`: in every reachable arena both walks end. The one down lists the outline
  below the node, which has no repetition and consists of the other nodes whose way up leads to the
  node.
-/

namespace Inlay.Arena

/-- The nodes of the trees at a row of nodes, in document order: each node, then those of the trees
at its children. -/
inductive Outline (a : Arena) : List NodeId → List NodeId → Prop where
  | nil : Outline a [] []
  | cons {n : NodeId} {row below beside : List NodeId} :
    Outline a (a.children n) below → Outline a row beside →
      Outline a (n :: row) (n :: below ++ beside)

variable {a : Arena} {row out : List NodeId}

/-- The outline of `row ++ row'` is that of `row` followed by that of `row'`. -/
theorem Outline.split : ∀ {row row' out : List NodeId}, a.Outline (row ++ row') out →
    ∃ us vs, out = us ++ vs ∧ a.Outline row us ∧ a.Outline row' vs
  | [], _, out, h => ⟨[], out, rfl, .nil, h⟩
  | n :: row, row', _, .cons hbelow hbeside => by
    obtain ⟨us, vs, rfl, hus, hvs⟩ := hbeside.split
    exact ⟨_, vs, (List.append_assoc ..).symm, .cons hbelow hus, hvs⟩

/-- The recursive outline and the walk with an agenda are the same: the agenda leads through the
whole tree at one node before it gets to the next. -/
theorem outline_iff_visits : a.Outline row out ↔ a.Visits row out := by
  constructor
  · intro h
    induction h with
    | nil => exact .done
    | cons _ _ ihbelow ihbeside => exact .visit (ihbelow.append ihbeside)
  · intro h
    induction h with
    | done => exact .nil
    | visit _ ih =>
      obtain ⟨us, vs, rfl, hbelow, hbeside⟩ := ih.split
      exact .cons hbelow hbeside

/-- A walk that meets no node twice meets none after one that is `Below` it. -/
theorem Visits.pairwise (hf : a.Forest) {agenda : List NodeId} (h : a.Visits agenda out) :
    out.Nodup → out.Pairwise fun x y => ¬ a.Below y x := by
  induction h with
  | done => exact fun _ => .nil
  | visit hvisit ih =>
    intro hnd
    rw [List.nodup_cons] at hnd
    refine List.pairwise_cons.mpr ⟨fun y hy hbelow => hnd.1 ?_, ih hnd.2⟩
    -- what is below a node of the walk is on the walk as well
    obtain ⟨m, hm, hunder⟩ := (hvisit.mem_iff hf).mp hy
    exact (hvisit.mem_iff hf).mpr ⟨m, hm, hunder.trans hbelow.under⟩

theorem Forest.pairwise_descendants (h : a.Forest) (top : NodeId) :
    (a.descendants top).Pairwise fun x y => ¬ a.Below y x :=
  (h.visits_descendants top).pairwise h (h.nodup_descendants top)

/-- **The walks down and up agree.** From whatever node they start, they end. The walk down lists
the nodes below in document order and each of them once, and these are the other nodes from which
the way up leads to the node. -/
theorem preorder_of_reachable (h : Reachable a) (top : NodeId) :
    a.Visits (a.children top) (a.descendants top) ∧
    (∀ out, a.Outline (a.children top) out ↔ a.descendants top = out) ∧
    (a.descendants top).Nodup ∧
    ∀ n, a.Climbs n (a.pathToRoot n) ∧
      (n ∈ a.descendants top ↔ n ≠ top ∧ a.contains top n = true) := by
  have hf := h.sound.forest
  have hvisits := hf.visits_descendants top
  refine ⟨hvisits, fun out => ?_, hf.nodup_descendants top, fun n => ⟨hf.climbs_pathToRoot n, ?_⟩⟩
  · rw [outline_iff_visits]
    constructor
    · exact fun hout => hout.descendants_eq hf
    · rintro rfl
      exact hvisits
  · rw [hf.mem_descendants, hf.contains_iff, under_iff_eq_or_below]
    constructor
    · intro hbelow
      refine ⟨?_, Or.inr hbelow⟩
      rintro rfl
      exact hf.acyclic n hbelow
    · rintro ⟨hne, hunder⟩
      exact hunder.resolve_left hne

/-- Two children, the first with a child of its own; a tree beside them, in a slot that was
freed. -/
theorem preorder_of_siblings :
    let a := [Op.newComment "k", .newElement "div" [], .newElement "p" [], .newText "x",
      .newElement "span" [], .appendChild ⟨1, 0⟩ ⟨2, 0⟩, .appendChild ⟨2, 0⟩ ⟨3, 0⟩,
      .appendChild ⟨1, 0⟩ ⟨4, 0⟩, .free ⟨0, 0⟩, .newText "y"].foldl Op.after empty
    Reachable a ∧ a.Outline (a.children ⟨1, 0⟩) [⟨2, 0⟩, ⟨3, 0⟩, ⟨4, 0⟩] ∧
      a.contains ⟨1, 0⟩ ⟨3, 0⟩ = true ∧ a.contains ⟨1, 0⟩ ⟨0, 1⟩ = false := by
  intro a
  have ha : Reachable a := Reachable.empty.foldl _ (by decide +kernel)
  obtain ⟨-, houtline, -, hwalks⟩ := preorder_of_reachable ha ⟨1, 0⟩
  have hdown : a.descendants ⟨1, 0⟩ = [⟨2, 0⟩, ⟨3, 0⟩, ⟨4, 0⟩] := by decide +kernel
  have hup : ∀ n, n ∈ [⟨2, 0⟩, ⟨3, 0⟩, ⟨4, 0⟩] ↔ n ≠ ⟨1, 0⟩ ∧ a.contains ⟨1, 0⟩ n = true :=
    fun n => hdown ▸ (hwalks n).2
  refine ⟨ha, (houtline _).mpr hdown, ((hup ⟨3, 0⟩).mp (by decide)).2, ?_⟩
  rw [Bool.eq_false_iff]
  exact fun hcontains => absurd ((hup ⟨0, 1⟩).mpr ⟨by decide, hcontains⟩) (by decide)

end Inlay.Arena
