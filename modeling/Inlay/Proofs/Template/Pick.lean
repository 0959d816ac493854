import Inlay.Proofs.Template.Layout
import Inlay.Template.Compile

/-!
# Picking placeholders

The walk that picks the placeholders of a tree finds them at the positions `Tree.marks`, wherever
the tree stands (`map_fst_placeholdersBelow`), and a tree nothing has come for yet is laid out with
each placeholder held by the element that was found (`laidOut_placeholdersBelow`).
-/

namespace Inlay.Arena

open Template (isPlaceholder pickPlaceholders placeholdersBelow)

variable {a : Arena}

mutual

/-- The placeholders of the tree at a node, with their elements. -/
def found (a : Arena) (next : Position) : Tree → NodeId → List (Position × NodeId)
  | .node (.element e) cs, id =>
    if e.tag = Placeholder.tag then [(next, id)] else foundAll a (next + 1) cs (a.children id)
  | .node _ _, _ => []

def foundAll (a : Arena) (next : Position) : List Tree → List NodeId → List (Position × NodeId)
  | t :: ts, id :: ids => found a next t id ++ foundAll a (next + t.span) ts ids
  | _, _ => []

end

theorem isPlaceholder_of_get? {id : NodeId} {node : Node} {e : Element} (h : a.get? id = some node)
    (hkind : node.kind = .element e) : isPlaceholder a id = decide (e.tag = Placeholder.tag) := by
  rw [isPlaceholder, tag?, element?, kind?_of_get? h, Option.bind_some, hkind, NodeKind.element?,
    Option.map_some]
  by_cases htag : e.tag = Placeholder.tag
  · simp [htag]
  · simp [htag]

theorem isElement_of_get? {id : NodeId} {node : Node} (h : a.get? id = some node) :
    a.isElement id = node.kind.element?.isSome := by
  rw [isElement, element?, kind?_of_get? h, Option.bind_some]

theorem filter_isElement_eq_nil {id : NodeId} {t : Tree} (h : a.Shows id t)
    (hkind : t.kind.element? = none) : [id].filter a.isElement = [] := by
  obtain ⟨node, hget, hnode, -⟩ := h.get?
  rw [List.filter_cons_of_neg, List.filter_nil]
  rw [isElement_of_get? hget, hnode, hkind]
  simp

mutual

/-- The walk picks what is found in the first tree, which takes `t.span` positions, and goes on with
the agenda. -/
theorem pickPlaceholders_node : ∀ {t : Tree} {id : NodeId} {fuel : Nat} {next : Nat}
    {agenda : List NodeId}, a.Shows id t → t.span ≤ fuel →
    pickPlaceholders a fuel next ([id].filter a.isElement ++ agenda)
      = found a next t id ++ pickPlaceholders a (fuel - t.span) (next + t.span) agenda
  | .node (.element e) cs, id, fuel, next, agenda, h, hfuel => by
    obtain ⟨node, hget, hkind, hcs⟩ := shows_node.mp h
    have helement : a.isElement id = true := by
      rw [isElement_of_get? hget, hkind]
      rfl
    rw [Tree.span] at hfuel ⊢
    rw [List.filter_cons_of_pos helement, List.filter_nil, List.singleton_append, found]
    -- A placeholder is taken as it is; another element is counted and its children come next.
    by_cases htag : e.tag = Placeholder.tag
    · rw [if_pos htag] at hfuel ⊢
      obtain ⟨fuel, rfl⟩ := Nat.exists_eq_add_of_le' hfuel
      rw [if_pos htag, pickPlaceholders, isPlaceholder_of_get? hget hkind, if_pos (by simp [htag]),
        Nat.add_sub_cancel]
      rfl
    · rw [if_neg htag] at hfuel ⊢
      obtain ⟨fuel, rfl⟩ := Nat.exists_eq_add_of_le' (Nat.le_trans (Nat.le_add_left 1 _) hfuel)
      have hcs' : a.ShowsAll (a.children id) cs := by rwa [children_of_get? hget]
      rw [if_neg htag, pickPlaceholders, isPlaceholder_of_get? hget hkind, if_neg (by simp [htag]),
        elementChildren, pickPlaceholders_row hcs' (by omega)]
      have hnext : next + 1 + Tree.spanAll cs = next + (Tree.spanAll cs + 1) := by omega
      have hrest : fuel - Tree.spanAll cs = fuel + 1 - (Tree.spanAll cs + 1) := by omega
      rw [hnext, hrest]
  | .node (.text _) _, _, _, _, _, h, _ => by
    rw [filter_isElement_eq_nil h rfl]
    rfl
  | .node (.comment _) _, _, _, _, _, h, _ => by
    rw [filter_isElement_eq_nil h rfl]
    rfl
  | .node .fragment _, _, _, _, _, h, _ => by
    rw [filter_isElement_eq_nil h rfl]
    rfl

theorem pickPlaceholders_row : ∀ {ts : List Tree} {ids : List NodeId} {fuel : Nat} {next : Nat}
    {agenda : List NodeId}, a.ShowsAll ids ts → Tree.spanAll ts ≤ fuel →
    pickPlaceholders a fuel next (ids.filter a.isElement ++ agenda)
      = foundAll a next ts ids ++
        pickPlaceholders a (fuel - Tree.spanAll ts) (next + Tree.spanAll ts) agenda
  | [], ids, fuel, next, agenda, h, _ => by
    rw [showsAll_nil_iff.mp h]
    rfl
  | t :: ts, ids, fuel, next, agenda, h, hfuel => by
    obtain ⟨id, rest, rfl, ht, hts⟩ := showsAll_cons_iff.mp h
    rw [Tree.spanAll] at hfuel ⊢
    have hsplit : (id :: rest).filter a.isElement ++ agenda
        = [id].filter a.isElement ++ (rest.filter a.isElement ++ agenda) := by
      rw [← List.append_assoc, ← List.filter_append, List.singleton_append]
    have hnext : next + t.span + Tree.spanAll ts = next + (t.span + Tree.spanAll ts) := by omega
    have hrest : fuel - t.span - Tree.spanAll ts = fuel - (t.span + Tree.spanAll ts) := by omega
    rw [hsplit, pickPlaceholders_node ht (by omega), pickPlaceholders_row hts (by omega), foundAll,
      List.append_assoc, hnext, hrest]

end

/-- The walk finds the placeholders of the tree that the root shows,
`foundAll a 0 t.children (a.children root)`. -/
theorem placeholdersBelow_eq (hf : a.Forest) {root : NodeId} {t : Tree} (h : a.Shows root t) :
    placeholdersBelow a root = foundAll a 0 t.children (a.children root) := by
  have hsize := h.size_le hf
  obtain ⟨kind, cs⟩ := t
  obtain ⟨node, hget, -, hcs⟩ := shows_node.mp h
  have hspan := Tree.spanAll_le_sizeAll cs
  rw [Tree.size] at hsize
  have hrow : a.ShowsAll (a.children root) cs := by rwa [children_of_get? hget]
  have hpick : pickPlaceholders a a.slots.size 0 ((a.children root).filter a.isElement ++ []) = _ :=
    pickPlaceholders_row hrow (by omega)
  rw [List.append_nil] at hpick
  rw [placeholdersBelow, elementChildren, hpick]
  cases a.slots.size - Tree.spanAll cs <;> simp [pickPlaceholders, Tree.children]

mutual

/-- What is found has the positions `t.marks next`. -/
theorem map_fst_found : ∀ {t : Tree} {id : NodeId} {next : Position}, a.Shows id t →
    (found a next t id).map (·.1) = t.marks next
  | .node (.element e) cs, id, next, h => by
    obtain ⟨node, hget, -, hcs⟩ := shows_node.mp h
    rw [found, Tree.marks]
    split
    · rfl
    · exact map_fst_foundAll (by rwa [children_of_get? hget])
  | .node (.text _) _, _, _, _ => rfl
  | .node (.comment _) _, _, _, _ => rfl
  | .node .fragment _, _, _, _ => rfl

theorem map_fst_foundAll : ∀ {ts : List Tree} {ids : List NodeId} {next : Position},
    a.ShowsAll ids ts → (foundAll a next ts ids).map (·.1) = Tree.marksAll next ts
  | [], ids, _, h => by
    rw [showsAll_nil_iff.mp h]
    rfl
  | t :: ts, ids, next, h => by
    obtain ⟨id, rest, rfl, ht, hts⟩ := showsAll_cons_iff.mp h
    rw [foundAll, Tree.marksAll, List.map_append, map_fst_found ht, map_fst_foundAll hts]

end

/-- Positions do not depend on where the tree stands: they are `Tree.marksAll 0 t.children`. -/
theorem map_fst_placeholdersBelow (hf : a.Forest) {root : NodeId} {t : Tree} (h : a.Shows root t) :
    (placeholdersBelow a root).map (·.1) = Tree.marksAll 0 t.children := by
  obtain ⟨node, hget, -, hcs⟩ := h.get?
  rw [placeholdersBelow_eq hf h, map_fst_foundAll (by rwa [children_of_get? hget])]

/-! ### Nothing has come yet -/

mutual

/-- A tree without outputs is laid out with each placeholder at its own element,
`spots x.1 = [x.2]`. -/
theorem lays_found {spots : Spots} : ∀ {t : Tree} {id : NodeId} {next : Position}, a.Shows id t →
    (∀ x ∈ found a next t id, spots x.1 = [x.2]) → a.Lays spots (fun _ => none) next t [id]
  | .node (.element e) cs, id, next, h, hspots => by
    rw [found] at hspots
    rw [Lays]
    split at hspots
    · rename_i htag
      rw [if_pos htag]
      exact ⟨(hspots _ List.mem_cons_self).symm, showsAll_singleton_iff.mpr h⟩
    · rename_i htag
      obtain ⟨node, hget, hkind, hcs⟩ := shows_node.mp h
      rw [children_of_get? hget] at hspots
      rw [if_neg htag]
      exact ⟨id, node, rfl, hget, hkind, laysAll_foundAll hcs hspots⟩
  | .node (.text _) _, id, _, h, _ => ⟨id, rfl, h⟩
  | .node (.comment _) _, id, _, h, _ => ⟨id, rfl, h⟩
  | .node .fragment _, id, _, h, _ => ⟨id, rfl, h⟩

theorem laysAll_foundAll {spots : Spots} : ∀ {ts : List Tree} {ids : List NodeId} {next : Position},
    a.ShowsAll ids ts → (∀ x ∈ foundAll a next ts ids, spots x.1 = [x.2]) →
    a.LaysAll spots (fun _ => none) next ts ids
  | [], _, _, h, _ => showsAll_nil_iff.mp h
  | t :: ts, _, next, h, hspots => by
    obtain ⟨id, rest, rfl, ht, hts⟩ := showsAll_cons_iff.mp h
    rw [foundAll] at hspots
    exact ⟨[id], rest, rfl, lays_found ht fun x hx => hspots x (List.mem_append_left _ hx),
      laysAll_foundAll hts fun x hx => hspots x (List.mem_append_right _ hx)⟩

end

theorem lookup_eq_some_of_mem {α : Type} {p : Position} {x : α} : ∀ {l : List (Position × α)},
    (l.map (·.1)).Nodup → (p, x) ∈ l → l.lookup p = some x
  | (q, y) :: l, hnd, h => by
    rw [List.map_cons, List.nodup_cons] at hnd
    rw [List.lookup_cons]
    rcases List.mem_cons.mp h with he | hl
    · obtain ⟨rfl, rfl⟩ := Prod.mk.inj he
      rw [beq_self_eq_true]
    · have hne : p ≠ q := by
        rintro rfl
        exact hnd.1 (List.mem_map.mpr ⟨(p, x), hl, rfl⟩)
      rw [beq_false_of_ne hne]
      exact lookup_eq_some_of_mem hnd.2 hl

/-- No position is given twice: the positions found are `Nodup`. -/
theorem nodup_positions (hf : a.Forest) {root : NodeId} {t : Tree} (h : a.Shows root t) :
    ((placeholdersBelow a root).map (·.1)).Nodup := by
  rw [map_fst_placeholdersBelow hf h]
  exact (Tree.pairwise_marksAll _ _).imp fun hlt => Nat.ne_of_lt hlt

/-- A `root` without outputs is laid out, each placeholder held by its own element. -/
theorem laidOut_placeholdersBelow (hf : a.Forest) {root : NodeId} {t : Tree} (h : a.Shows root t)
    (htop : a.parent? root = none) :
    a.LaidOut (fun p => ((placeholdersBelow a root).lookup p).toList) (fun _ => none) root t := by
  obtain ⟨node, hget, hkind, hcs⟩ := h.get?
  refine ⟨htop, node, hget, hkind, laysAll_foundAll hcs fun x hx => ?_⟩
  have hmem : (x.1, x.2) ∈ placeholdersBelow a root := by
    rw [placeholdersBelow_eq hf h, children_of_get? hget]
    exact hx
  rw [lookup_eq_some_of_mem (nodup_positions hf h) hmem]
  rfl

end Inlay.Arena
