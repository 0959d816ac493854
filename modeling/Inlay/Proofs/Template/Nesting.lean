import Inlay.Proofs.Markup.Plain
import Inlay.Proofs.Template.Pick
import Mathlib.Data.List.Forall2

/-!
# Nested placeholders

The placeholder elements of a tree, wherever they stand (`Tree.placeholders`), and whether one lies
inside another (`Tree.Unnested`). The walk that numbers elements does not search the content of
placeholders, yet it is enough:

* `unnested_iff_found`: if one lies inside another, then one lies inside one that the walk finds;
* `forall₂_found`: otherwise the walk finds all of them, in document order.
-/

namespace Inlay

/-- The element, if it is a placeholder. -/
def NodeKind.placeholder? (kind : NodeKind) : Option Element :=
  kind.element?.filter (·.tag = Placeholder.tag)

namespace Tree

mutual

/-- The placeholder elements of a tree in document order. -/
def placeholders : Tree → List Element
  | node kind cs => kind.placeholder?.toList ++ placeholdersAll cs

def placeholdersAll : List Tree → List Element
  | [] => []
  | t :: ts => t.placeholders ++ placeholdersAll ts

end

mutual

/-- No placeholder lies inside another one. -/
def Unnested : Tree → Prop
  | node kind cs => (kind.placeholder? ≠ none → placeholdersAll cs = []) ∧ UnnestedAll cs

def UnnestedAll : List Tree → Prop
  | [] => True
  | t :: ts => t.Unnested ∧ UnnestedAll ts

end

mutual

/-- With `placeholders = []` none lies inside another one. -/
theorem unnested_of_placeholders : ∀ {t : Tree}, t.placeholders = [] → t.Unnested
  | node kind cs, h => by
    rw [placeholders, List.append_eq_nil_iff] at h
    exact ⟨fun _ => h.2, unnestedAll_of_placeholdersAll h.2⟩

theorem unnestedAll_of_placeholdersAll : ∀ {ts : List Tree}, placeholdersAll ts = [] →
    UnnestedAll ts
  | [], _ => trivial
  | t :: ts, h => by
    rw [placeholdersAll, List.append_eq_nil_iff] at h
    exact ⟨unnested_of_placeholders h.1, unnestedAll_of_placeholdersAll h.2⟩

end

/-! ### Blank texts -/

theorem Plain.placeholders_of_isBlank {t : Tree} (h : t.Plain) (hblank : t.kind.isBlank = true) :
    t.placeholders = [] := by
  obtain ⟨kind, cs⟩ := t
  cases kind with
  | text s =>
    obtain rfl : cs = [] := h
    rfl
  | element e => exact absurd hblank (by simp [kind, NodeKind.isBlank])
  | comment s => exact absurd hblank (by simp [kind, NodeKind.isBlank])
  | fragment => exact absurd hblank (by simp [kind, NodeKind.isBlank])

mutual

/-- Without blank texts, a plain tree has the same `placeholders`, and they are nested as they
were. -/
theorem Plain.placeholders_stripped : ∀ {t : Tree}, t.Plain →
    t.stripped.placeholders = t.placeholders ∧ (t.stripped.Unnested ↔ t.Unnested)
  | node (.element e) cs, h => by
    rw [stripped, placeholders, placeholders, Unnested, Unnested]
    split
    · exact ⟨rfl, Iff.rfl⟩
    · obtain ⟨hplaceholders, hunnested⟩ := PlainAll.placeholdersAll_stripped h
      rw [hplaceholders, hunnested]
      exact ⟨rfl, Iff.rfl⟩
  | node (.text s) cs, h => by
    obtain rfl : cs = [] := h
    exact ⟨rfl, Iff.rfl⟩
  | node (.comment s) cs, h => by
    obtain rfl : cs = [] := h
    exact ⟨rfl, Iff.rfl⟩

theorem PlainAll.placeholdersAll_stripped : ∀ {ts : List Tree}, PlainAll ts →
    placeholdersAll (strippedAll ts) = placeholdersAll ts ∧
      (UnnestedAll (strippedAll ts) ↔ UnnestedAll ts)
  | [], _ => ⟨rfl, Iff.rfl⟩
  | t :: ts, h => by
    obtain ⟨hrest, hrest'⟩ := PlainAll.placeholdersAll_stripped h.2
    rw [strippedAll]
    split
    · rename_i hblank
      have hnone := h.1.placeholders_of_isBlank hblank
      rw [placeholdersAll, hnone, List.nil_append, UnnestedAll, hrest, hrest']
      exact ⟨rfl, by simp [unnested_of_placeholders hnone]⟩
    · obtain ⟨hfirst, hfirst'⟩ := h.1.placeholders_stripped
      rw [placeholdersAll, placeholdersAll, UnnestedAll, UnnestedAll, hfirst, hfirst',
        hrest, hrest']
      exact ⟨rfl, Iff.rfl⟩

end

end Tree

namespace Arena

open Template (isPlaceholder)

variable {a : Arena}

/-! ### Inside a placeholder -/

theorem isPlaceholder_eq_isSome {id : NodeId} {node : Node} (h : a.get? id = some node) :
    isPlaceholder a id = node.kind.placeholder?.isSome := by
  rw [NodeKind.placeholder?]
  cases hkind : node.kind with
  | element e =>
    rw [isPlaceholder_of_get? h hkind, NodeKind.element?, Option.isSome_filter, Option.any_some]
  | text s => simp [isPlaceholder, tag?, element?, kind?_of_get? h, hkind, NodeKind.element?]
  | comment s => simp [isPlaceholder, tag?, element?, kind?_of_get? h, hkind, NodeKind.element?]
  | fragment => simp [isPlaceholder, tag?, element?, kind?_of_get? h, hkind, NodeKind.element?]

mutual

/-- There is a placeholder at or below `id` if there is one in its tree `t`. -/
theorem exists_isPlaceholder_iff (hf : a.Forest) : ∀ {t : Tree} {id : NodeId}, a.Shows id t →
    ((∃ n, a.Under id n ∧ isPlaceholder a n = true) ↔ t.placeholders ≠ [])
  | .node kind cs, id, h => by
    obtain ⟨node, hget, rfl, hcs⟩ := shows_node.mp h
    have hrow := exists_isPlaceholder_row hf hcs
    rw [← children_of_get? hget] at hrow
    have hself : isPlaceholder a id = true ↔ node.kind.placeholder?.toList ≠ [] := by
      rw [isPlaceholder_eq_isSome hget]
      cases node.kind.placeholder? <;> simp
    rw [Tree.placeholders, ne_eq, List.append_eq_nil_iff, not_and_or, ← ne_eq, ← ne_eq, ← hself,
      ← hrow]
    constructor
    · rintro ⟨n, hunder, hn⟩
      rcases under_iff_eq_or_below.mp hunder with rfl | hbelow
      · exact Or.inl hn
      · obtain ⟨c, hc, hcn⟩ := (below_iff hf).mp hbelow
        exact Or.inr ⟨c, hc, n, hcn, hn⟩
    · rintro (hn | ⟨c, hc, n, hcn, hn⟩)
      · exact ⟨id, Under.refl id, hn⟩
      · exact ⟨n, ((below_iff hf).mpr ⟨c, hc, hcn⟩).under, hn⟩

theorem exists_isPlaceholder_row (hf : a.Forest) : ∀ {ts : List Tree} {ids : List NodeId},
    a.ShowsAll ids ts →
    ((∃ id ∈ ids, ∃ n, a.Under id n ∧ isPlaceholder a n = true) ↔ Tree.placeholdersAll ts ≠ [])
  | [], ids, h => by
    rw [showsAll_nil_iff.mp h]
    simp [Tree.placeholdersAll]
  | t :: ts, ids, h => by
    obtain ⟨id, rest, rfl, ht, hts⟩ := showsAll_cons_iff.mp h
    rw [Tree.placeholdersAll, ne_eq, List.append_eq_nil_iff, not_and_or, ← ne_eq, ← ne_eq,
      ← exists_isPlaceholder_iff hf ht, ← exists_isPlaceholder_row hf hts]
    simp only [List.mem_cons, exists_eq_or_imp]

end

/-- Searching the content of `id` finds no placeholder if its tree has none below the root. -/
theorem any_descendants_eq_false_iff (hf : a.Forest) {t : Tree} {id : NodeId} (h : a.Shows id t) :
    (a.descendants id).any (isPlaceholder a) = false ↔ Tree.placeholdersAll t.children = [] := by
  obtain ⟨node, hget, -, hcs⟩ := h.get?
  rw [← children_of_get? hget] at hcs
  have hrow := exists_isPlaceholder_row hf hcs
  rw [← not_iff_not, ← ne_eq (Tree.placeholdersAll _), ← hrow, Bool.not_eq_false, List.any_eq_true]
  constructor
  · rintro ⟨n, hn, hplaceholder⟩
    obtain ⟨c, hc, hunder⟩ := (below_iff hf).mp (hf.mem_descendants.mp hn)
    exact ⟨c, hc, n, hunder, hplaceholder⟩
  · rintro ⟨c, hc, n, hunder, hplaceholder⟩
    exact ⟨n, hf.mem_descendants.mpr ((below_iff hf).mpr ⟨c, hc, hunder⟩), hplaceholder⟩

/-! ### The placeholders that the walk finds -/

theorem placeholder?_element {e : Element} :
    (NodeKind.element e).placeholder? = if e.tag = Placeholder.tag then some e else none := by
  rw [NodeKind.placeholder?, NodeKind.element?]
  by_cases htag : e.tag = Placeholder.tag
  · simp [htag]
  · simp [htag]

mutual

/-- Whether a placeholder lies inside another one can be seen at those `found`, which are the
outermost. -/
theorem unnested_iff_found (hf : a.Forest) : ∀ {t : Tree} {id : NodeId} {next : Position}, t.Plain →
    a.Shows id t →
    (t.Unnested ↔ ∀ x ∈ found a next t id, (a.descendants x.2).any (isPlaceholder a) = false)
  | .node (.element e) cs, id, next, hplain, h => by
    obtain ⟨node, hget, -, hcs⟩ := shows_node.mp h
    rw [Tree.Unnested, placeholder?_element, found]
    by_cases htag : e.tag = Placeholder.tag
    · rw [if_pos htag, if_pos htag]
      simp only [List.mem_singleton, forall_eq, any_descendants_eq_false_iff hf h]
      constructor
      · exact fun hunnested => hunnested.1 (by simp)
      · exact fun hnone => ⟨fun _ => hnone, Tree.unnestedAll_of_placeholdersAll hnone⟩
    · rw [if_neg htag, if_neg htag]
      rw [← children_of_get? hget] at hcs
      rw [← unnestedAll_iff_found hf hplain hcs]
      simp
  | .node (.text s) cs, id, next, hplain, _ => by
    obtain rfl : cs = [] := hplain
    simp [Tree.Unnested, Tree.UnnestedAll, Tree.placeholdersAll, found]
  | .node (.comment s) cs, id, next, hplain, _ => by
    obtain rfl : cs = [] := hplain
    simp [Tree.Unnested, Tree.UnnestedAll, Tree.placeholdersAll, found]

theorem unnestedAll_iff_found (hf : a.Forest) : ∀ {ts : List Tree} {ids : List NodeId}
    {next : Position}, Tree.PlainAll ts → a.ShowsAll ids ts →
    (Tree.UnnestedAll ts ↔
      ∀ x ∈ foundAll a next ts ids, (a.descendants x.2).any (isPlaceholder a) = false)
  | [], ids, next, _, h => by
    rw [showsAll_nil_iff.mp h]
    simp [Tree.UnnestedAll, foundAll]
  | t :: ts, ids, next, hplain, h => by
    obtain ⟨id, rest, rfl, ht, hts⟩ := showsAll_cons_iff.mp h
    rw [Tree.UnnestedAll, foundAll, unnested_iff_found hf hplain.1 ht,
      unnestedAll_iff_found hf hplain.2 hts, List.forall_mem_append]

end

mutual

/-- If no placeholder lies inside another one, the walk finds all of them, `t.placeholders`, in
order. -/
theorem forall₂_found : ∀ {t : Tree} {id : NodeId} {next : Position}, t.Plain → t.Unnested →
    a.Shows id t →
    List.Forall₂ (fun x e => a.element? x.2 = some e) (found a next t id) t.placeholders
  | .node (.element e) cs, id, next, hplain, hunnested, h => by
    obtain ⟨node, hget, hkind, hcs⟩ := shows_node.mp h
    rw [Tree.Unnested, placeholder?_element] at hunnested
    rw [Tree.placeholders, placeholder?_element, found]
    by_cases htag : e.tag = Placeholder.tag
    · rw [if_pos htag] at hunnested ⊢
      rw [if_pos htag, hunnested.1 (by simp), List.append_nil]
      refine .cons ?_ .nil
      rw [element?, kind?_of_get? hget, hkind]
      rfl
    · rw [if_neg htag, if_neg htag]
      rw [← children_of_get? hget] at hcs
      exact forall₂_foundAll hplain hunnested.2 hcs
  | .node (.text s) cs, id, next, hplain, _, _ => by
    obtain rfl : cs = [] := hplain
    exact .nil
  | .node (.comment s) cs, id, next, hplain, _, _ => by
    obtain rfl : cs = [] := hplain
    exact .nil

theorem forall₂_foundAll : ∀ {ts : List Tree} {ids : List NodeId} {next : Position},
    Tree.PlainAll ts → Tree.UnnestedAll ts → a.ShowsAll ids ts →
    List.Forall₂ (fun x e => a.element? x.2 = some e) (foundAll a next ts ids)
      (Tree.placeholdersAll ts)
  | [], ids, next, _, _, h => by
    rw [showsAll_nil_iff.mp h]
    exact .nil
  | t :: ts, ids, next, hplain, hunnested, h => by
    obtain ⟨id, rest, rfl, ht, hts⟩ := showsAll_cons_iff.mp h
    rw [foundAll, Tree.placeholdersAll]
    exact List.rel_append (forall₂_found hplain.1 hunnested.1 ht)
      (forall₂_foundAll hplain.2 hunnested.2 hts)

end

end Arena

end Inlay
