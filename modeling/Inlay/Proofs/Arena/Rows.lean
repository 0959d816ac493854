import Inlay.Proofs.Arena.Shows

/-!
# Rows

The nodes at and below a node, in document order and each with its depth, are as good as the tree:
`Shows.map_row?` says that they are the rows of what the node shows. Depth is counted in links to
the root, so it does not depend on where the walk begins.
-/

namespace Inlay

/-- The text of a node of that kind, if it is a text. -/
def NodeKind.ownText : NodeKind → String
  | .text s => s
  | .element _ | .comment _ | .fragment => ""

namespace Tree

mutual

/-- At whatever depth `d` the top is said to stand, the kinds in the rows are the same. -/
theorem map_snd_rows (d e : Nat) : ∀ t : Tree, (t.rows d).map (·.2) = (t.rows e).map (·.2)
  | node kind cs => by
    rw [rows, rows, List.map_cons, List.map_cons, map_snd_rowsAll (d + 1) (e + 1) cs]

theorem map_snd_rowsAll (d e : Nat) : ∀ ts : List Tree,
    (rowsAll d ts).map (·.2) = (rowsAll e ts).map (·.2)
  | [] => rfl
  | t :: ts => by
    rw [rowsAll, rowsAll, List.map_append, List.map_append, map_snd_rows d e t,
      map_snd_rowsAll d e ts]

end

end Tree

namespace Arena

variable {a : Arena}

/-- Number of nodes above a node. -/
def depth (a : Arena) (n : NodeId) : Nat :=
  (a.pathToRoot n).length - 1

/-- Depth and kind of a live node. -/
def row? (a : Arena) (n : NodeId) : Option (Nat × NodeKind) :=
  (a.kind? n).map (a.depth n, ·)

theorem row?_of_get? {n : NodeId} {node : Node} (h : a.get? n = some node) :
    a.row? n = some (a.depth n, node.kind) := by
  rw [row?, kind?_of_get? h, Option.map_some]

theorem depth_of_top (hf : a.Forest) {n : NodeId} (h : a.parent? n = none) : a.depth n = 0 := by
  rw [depth, (hf.climbs_pathToRoot n).unique (.top h), List.length_singleton]

/-- A child is one link deeper than its parent: `a.depth c = a.depth p + 1`. -/
theorem depth_of_up (hf : a.Forest) {c p : NodeId} (h : a.Up c p) : a.depth c = a.depth p + 1 := by
  have hp := hf.climbs_pathToRoot p
  have hpath : a.pathToRoot p ≠ [] := List.ne_nil_of_mem (hp.mem_iff.mpr (Under.refl p))
  have hpos := List.length_pos_iff.mpr hpath
  rw [depth, depth, (hf.climbs_pathToRoot c).unique (.up h hp), List.length_cons]
  omega

mutual

/-- The walk from `id` meets the rows of its tree, in order, from the depth of `id` on. -/
theorem Shows.exists_visits (hf : a.Forest) : ∀ {t : Tree} {id : NodeId}, a.Shows id t →
    ∃ out, a.Visits [id] out ∧ out.map a.row? = (t.rows (a.depth id)).map some
  | .node _ cs, id, h => by
    obtain ⟨node, hget, rfl, hcs⟩ := shows_node.mp h
    have hdepth : ∀ c ∈ node.children, a.depth c = a.depth id + 1 := fun c hc =>
      depth_of_up hf (hf.up_of_mem hget hc)
    obtain ⟨out, hout, hrows⟩ := hcs.exists_visits hf hdepth
    refine ⟨id :: out, .visit ?_, ?_⟩
    · rwa [List.append_nil, children_of_get? hget]
    · rw [List.map_cons, row?_of_get? hget, hrows, Tree.rows, List.map_cons]

theorem ShowsAll.exists_visits (hf : a.Forest) : ∀ {ts : List Tree} {ids : List NodeId} {d : Nat},
    a.ShowsAll ids ts → (∀ id ∈ ids, a.depth id = d) →
    ∃ out, a.Visits ids out ∧ out.map a.row? = (Tree.rowsAll d ts).map some
  | [], ids, _, h, _ => by
    rw [showsAll_nil_iff] at h
    subst h
    exact ⟨[], .done, rfl⟩
  | t :: ts, ids, d, h, hdepth => by
    obtain ⟨id, rest, rfl, ht, hts⟩ := showsAll_cons_iff.mp h
    obtain ⟨us, hus, hrows⟩ := ht.exists_visits hf
    obtain ⟨vs, hvs, hrest⟩ := hts.exists_visits hf fun n hn => hdepth n (List.mem_cons_of_mem _ hn)
    refine ⟨us ++ vs, hus.append hvs, ?_⟩
    rw [List.map_append, hrows, hrest, hdepth id List.mem_cons_self, Tree.rowsAll, List.map_append]

end

/-- What stands at and below a node are the rows of its tree: `(t.rows (a.depth id)).map some`. -/
theorem Shows.map_row? (hf : a.Forest) {t : Tree} {id : NodeId} (h : a.Shows id t) :
    (id :: a.descendants id).map a.row? = (t.rows (a.depth id)).map some := by
  obtain ⟨out, hvisits, hrows⟩ := h.exists_visits hf
  cases hvisits with
  | visit hbelow =>
    rw [List.append_nil] at hbelow
    rwa [hbelow.descendants_eq hf]

/-- As many nodes stand at and below a node as its tree has: `t.size`. -/
theorem Shows.length_descendants (hf : a.Forest) {t : Tree} {id : NodeId} (h : a.Shows id t) :
    (id :: a.descendants id).length = t.size := by
  obtain ⟨out, hvisits, hlen⟩ := h.visits
  cases hvisits with
  | visit hbelow =>
    rw [List.append_nil] at hbelow
    rwa [hbelow.descendants_eq hf]

theorem ownText_eq (n : NodeId) :
    a.ownText n = ((a.row? n).map fun row => row.2.ownText).getD "" := by
  rw [ownText, row?]
  cases a.kind? n with
  | none => rfl
  | some kind => cases kind <;> rfl

/-- The text of a node joins `ownText` of the rows of its tree. -/
theorem Shows.textContent (hf : a.Forest) {t : Tree} {id : NodeId} (h : a.Shows id t) :
    a.textContent id = String.join ((t.rows (a.depth id)).map fun row => row.2.ownText) := by
  have htexts : a.ownText = (fun row? => (row?.map fun row => row.2.ownText).getD "") ∘ a.row? :=
    funext ownText_eq
  rw [Arena.textContent, htexts, ← List.map_map, h.map_row? hf, List.map_map]
  rfl

end Arena

end Inlay
