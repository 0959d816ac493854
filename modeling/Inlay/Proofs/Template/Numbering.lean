import Inlay.Proofs.Arena.Reachable
import Inlay.Proofs.Template.Acceptance

/-!
# What a position says

The position of a placeholder is the number of elements in front of it, those inside placeholders
left out (`numbered_placeholdersBelow`). That does not depend on the ids of the nodes, so a template
and all its copies agree on it: `positions_of_copy`.
-/

namespace Inlay

open Template (isPlaceholder placeholdersBelow)

namespace Arena

variable {a b : Arena}

/-! ### Elements in no placeholder -/

/-- Whether the node lies inside a placeholder. -/
def inPlaceholder (a : Arena) (id : NodeId) : Bool :=
  (a.pathToRoot id).tail.any (isPlaceholder a)

/-- Whether the node takes a position: it is an element and lies in no placeholder. -/
def isNumbered (a : Arena) (id : NodeId) : Bool :=
  a.isElement id && !a.inPlaceholder id

/-- How many nodes below `root` take a position before `id` in document order. -/
def countBefore (a : Arena) (root id : NodeId) : Nat :=
  ((a.descendants root).takeWhile (· ≠ id)).countP a.isNumbered

theorem inPlaceholder_of_top {id : NodeId} (h : a.parent? id = none) :
    a.inPlaceholder id = false := by
  rw [inPlaceholder, pathToRoot, climb, h]
  rfl

/-- A node `c` lies in a placeholder if its parent `p` is one or lies in one. -/
theorem inPlaceholder_of_up (hf : a.Forest) {c p : NodeId} (h : a.Up c p) :
    a.inPlaceholder c = (isPlaceholder a p || a.inPlaceholder p) := by
  have hpath : a.pathToRoot c = c :: a.pathToRoot p :=
    (hf.climbs_pathToRoot c).unique (.up h (hf.climbs_pathToRoot p))
  rw [inPlaceholder, hpath, List.tail_cons]
  rfl

/-- Whatever is `Below` a placeholder lies in one. -/
theorem inPlaceholder_of_below (hf : a.Forest) {p n : NodeId} (hp : isPlaceholder a p = true)
    (h : a.Below p n) : a.inPlaceholder n = true := by
  induction h using Relation.TransGen.head_induction_on with
  | single hup => rw [inPlaceholder_of_up hf hup, hp, Bool.true_or]
  | head hup _ ih => rw [inPlaceholder_of_up hf hup, ih, Bool.or_true]

/-- The children of an `id` that is neither a placeholder nor in one are in none. -/
theorem inPlaceholder_child (hf : a.Forest) {id c : NodeId} (hnot : isPlaceholder a id = false)
    (hout : a.inPlaceholder id = false) (hc : c ∈ a.children id) : a.inPlaceholder c = false := by
  rw [inPlaceholder_of_up hf (hf.parent_of_mem hc), hnot, hout, Bool.or_false]

/-! ### Counting along a walk -/

/-- `xs` are some of the nodes of a walk, in the same order. The position of each is the number of
nodes in front of it that take one, counted from `next` on. -/
structure Tally (a : Arena) (next : Position) (out : List NodeId) (xs : List (Position × NodeId)) :
    Prop where
  sublist : (xs.map (·.2)).Sublist out
  position_eq : ∀ x ∈ xs, ∃ pre post, out = pre ++ x.2 :: post ∧
    x.1 = next + pre.countP a.isNumbered

namespace Tally

variable {next : Position} {out us vs : List NodeId} {xs ys : List (Position × NodeId)}

theorem nil : a.Tally next out [] :=
  ⟨List.nil_sublist out, fun _ hx => absurd hx List.not_mem_nil⟩

/-- Tallies are put together: the second goes on where the first one ends, at
`next + us.countP a.isNumbered`. -/
theorem append (hx : a.Tally next us xs) (hy : a.Tally (next + us.countP a.isNumbered) vs ys) :
    a.Tally next (us ++ vs) (xs ++ ys) := by
  refine ⟨?_, fun x hmem => ?_⟩
  · rw [List.map_append]
    exact hx.sublist.append hy.sublist
  · rcases List.mem_append.mp hmem with hmem | hmem
    · obtain ⟨pre, post, rfl, hposition⟩ := hx.position_eq x hmem
      exact ⟨pre, post ++ vs, by simp, hposition⟩
    · obtain ⟨pre, post, rfl, hposition⟩ := hy.position_eq x hmem
      refine ⟨us ++ pre, post, by simp, ?_⟩
      rw [hposition, List.countP_append, Nat.add_assoc]

/-- A node in front that takes the position `next` moves the others to `next + 1`. -/
theorem cons {id : NodeId} (hid : a.isNumbered id = true) (h : a.Tally (next + 1) out xs) :
    a.Tally next (id :: out) xs := by
  refine ⟨h.sublist.cons id, fun x hmem => ?_⟩
  obtain ⟨pre, post, rfl, hposition⟩ := h.position_eq x hmem
  refine ⟨id :: pre, post, rfl, ?_⟩
  rw [hposition, List.countP_cons_of_pos hid]
  exact Nat.add_right_comm next 1 _

theorem head (id : NodeId) : a.Tally next (id :: out) [(next, id)] := by
  refine ⟨List.cons_sublist_cons.mpr (List.nil_sublist out), fun x hmem => ?_⟩
  rw [List.mem_singleton.mp hmem]
  exact ⟨[], out, rfl, rfl⟩

end Tally

/-- A text or a comment takes no position: `out.countP a.isNumbered = 0`. -/
theorem exists_tally_leaf {id : NodeId} {kind : NodeKind} (h : a.Shows id (.node kind []))
    (hkind : kind.element? = none) (next : Position) :
    ∃ out, a.Visits [id] out ∧ out.countP a.isNumbered = 0 ∧ a.Tally next out [] := by
  obtain ⟨node, hget, rfl, hcs⟩ := shows_node.mp h
  rw [showsAll_nil_iff, ← children_of_get? hget] at hcs
  have hnot : a.isNumbered id = false := by
    rw [isNumbered, isElement_of_get? hget, hkind]
    rfl
  refine ⟨[id], .visit ?_, ?_, .nil⟩
  · rw [hcs]
    exact .done
  · simp [hnot]

mutual

/-- The walk that picks placeholders numbers the nodes under `id` as they come in document order,
`t.span` of them. -/
theorem exists_tally (hf : a.Forest) : ∀ {t : Tree} {id : NodeId} (next : Position), t.Plain →
    a.Shows id t → a.inPlaceholder id = false →
    ∃ out, a.Visits [id] out ∧ out.countP a.isNumbered = t.span ∧
      a.Tally next out (found a next t id)
  | .node (.element e) cs, id, next, hplain, h, hout => by
    obtain ⟨node, hget, hkind, hcs⟩ := shows_node.mp h
    rw [← children_of_get? hget] at hcs
    have hself : a.isNumbered id = true := by
      rw [isNumbered, isElement_of_get? hget, hkind, hout]
      rfl
    have hplaceholder := isPlaceholder_of_get? hget hkind
    rw [Tree.span, found]
    by_cases htag : e.tag = Placeholder.tag
    · rw [decide_eq_true htag] at hplaceholder
      obtain ⟨out, hvisits⟩ := hf.exists_visits (a.children id)
      -- the content is there to be visited, but it is not counted
      have hcontent : out.countP a.isNumbered = 0 := by
        refine List.countP_eq_zero.mpr fun n hn => ?_
        have hbelow : a.Below id n := (below_iff hf).mpr ((hvisits.mem_iff hf).mp hn)
        rw [isNumbered, inPlaceholder_of_below hf hplaceholder hbelow]
        simp
      rw [if_pos htag, if_pos htag]
      refine ⟨id :: out, .visit (by rwa [List.append_nil]), ?_, .head id⟩
      rw [List.countP_cons_of_pos hself, hcontent]
    · rw [decide_eq_false htag] at hplaceholder
      obtain ⟨out, hvisits, hcount, htally⟩ := exists_tally_row hf (next + 1) hplain hcs fun c hc =>
        inPlaceholder_child hf hplaceholder hout hc
      rw [if_neg htag, if_neg htag]
      refine ⟨id :: out, .visit (by rwa [List.append_nil]), ?_, htally.cons hself⟩
      rw [List.countP_cons_of_pos hself, hcount]
  | .node (.text s) cs, id, next, hplain, h, _ => by
    obtain rfl : cs = [] := hplain
    exact exists_tally_leaf h rfl next
  | .node (.comment s) cs, id, next, hplain, h, _ => by
    obtain rfl : cs = [] := hplain
    exact exists_tally_leaf h rfl next

theorem exists_tally_row (hf : a.Forest) : ∀ {ts : List Tree} {ids : List NodeId} (next : Position),
    Tree.PlainAll ts → a.ShowsAll ids ts → (∀ id ∈ ids, a.inPlaceholder id = false) →
    ∃ out, a.Visits ids out ∧ out.countP a.isNumbered = Tree.spanAll ts ∧
      a.Tally next out (foundAll a next ts ids)
  | [], ids, next, _, h, _ => by
    rw [showsAll_nil_iff.mp h]
    exact ⟨[], .done, rfl, .nil⟩
  | t :: ts, ids, next, hplain, h, hout => by
    obtain ⟨id, rest, rfl, ht, hts⟩ := showsAll_cons_iff.mp h
    rw [List.forall_mem_cons] at hout
    obtain ⟨us, hus, hcount, htally⟩ := exists_tally hf next hplain.1 ht hout.1
    obtain ⟨vs, hvs, hcount', htally'⟩ :=
      exists_tally_row hf (next + t.span) hplain.2 hts hout.2
    -- the count goes on where it stands after the first tree
    rw [← hcount] at htally'
    refine ⟨us ++ vs, hus.append hvs, ?_, ?_⟩
    · rw [List.countP_append, hcount, hcount', Tree.spanAll]
    · rw [foundAll, ← hcount]
      exact htally.append htally'

end

/-! ### The positions below a root -/

/-- The placeholders below `root` are found in document order, with ascending positions, and each
position is the number of elements in front that lie in no placeholder. -/
structure Numbered (a : Arena) (root : NodeId) : Prop where
  sublist : ((placeholdersBelow a root).map (·.2)).Sublist (a.descendants root)
  ascending : ((placeholdersBelow a root).map (·.1)).Pairwise (· < ·)
  position_eq : ∀ x ∈ placeholdersBelow a root, x.1 = a.countBefore root x.2

/-- What stands in front of `n` in a list without repetition is `pre`. -/
theorem takeWhile_ne_of_nodup {pre post : List NodeId} {n : NodeId}
    (h : (pre ++ n :: post).Nodup) : (pre ++ n :: post).takeWhile (· ≠ n) = pre := by
  have hpre : ∀ m ∈ pre, m ≠ n := fun m hm => by
    rintro rfl
    exact List.disjoint_of_nodup_append h hm List.mem_cons_self
  rw [List.takeWhile_append_of_pos fun m hm => decide_eq_true (hpre m hm),
    List.takeWhile_cons_of_neg (by simp), List.append_nil]

/-- **The position of a placeholder is the number of elements in front of it** that lie in no
placeholder. -/
theorem numbered_placeholdersBelow (hf : a.Forest) {root : NodeId} {t : Tree} (h : a.Shows root t)
    (hplain : t.Plain) (htop : a.parent? root = none) (hnot : isPlaceholder a root = false) :
    a.Numbered root := by
  obtain ⟨node, hget, -, hcs⟩ := h.get?
  rw [← children_of_get? hget] at hcs
  obtain ⟨out, hvisits, -, htally⟩ := exists_tally_row hf 0 hplain.children hcs fun c hc =>
    inPlaceholder_child hf hnot (inPlaceholder_of_top htop) hc
  rw [← placeholdersBelow_eq hf h] at htally
  have hwalk : a.descendants root = out := hvisits.preorder_eq (hvisits.length_le hf)
  constructor
  case sublist => exact hwalk ▸ htally.sublist
  case ascending => exact (Template.pairwise_pickPlaceholders _ _ _ _).1
  case position_eq =>
    intro x hx
    obtain ⟨pre, post, hsplit, hposition⟩ := htally.position_eq x hx
    -- the walk comes to each node once, so there is only one way to split it there
    have hnodup := hf.nodup_descendants root
    rw [hwalk, hsplit] at hnodup
    rw [countBefore, hwalk, hsplit, takeWhile_ne_of_nodup hnodup, hposition, Nat.zero_add]

/-! ### The same tree in two arenas -/

/-- Two elements stand at the same position and show the same tree. -/
def Alike (a b : Arena) (x y : Position × NodeId) : Prop :=
  x.1 = y.1 ∧ ∃ t, a.Shows x.2 t ∧ b.Shows y.2 t

mutual

/-- Walks through two copies of one tree `t` find the same, one by one. -/
theorem alike_found : ∀ {t : Tree} {id id' : NodeId} {next : Position}, a.Shows id t →
    b.Shows id' t → List.Forall₂ (a.Alike b) (found a next t id) (found b next t id')
  | .node (.element e) cs, id, id', next, h, h' => by
    rw [found, found]
    by_cases htag : e.tag = Placeholder.tag
    · rw [if_pos htag, if_pos htag]
      exact .cons ⟨rfl, _, h, h'⟩ .nil
    · obtain ⟨node, hget, -, hcs⟩ := shows_node.mp h
      obtain ⟨node', hget', -, hcs'⟩ := shows_node.mp h'
      rw [if_neg htag, if_neg htag, children_of_get? hget, children_of_get? hget']
      exact alike_foundAll hcs hcs'
  | .node (.text _) _, _, _, _, _, _ => .nil
  | .node (.comment _) _, _, _, _, _, _ => .nil
  | .node .fragment _, _, _, _, _, _ => .nil

theorem alike_foundAll : ∀ {ts : List Tree} {ids ids' : List NodeId} {next : Position},
    a.ShowsAll ids ts → b.ShowsAll ids' ts →
    List.Forall₂ (a.Alike b) (foundAll a next ts ids) (foundAll b next ts ids')
  | [], ids, ids', _, h, h' => by
    rw [showsAll_nil_iff.mp h, showsAll_nil_iff.mp h']
    exact .nil
  | t :: ts, ids, ids', next, h, h' => by
    obtain ⟨id, rest, rfl, ht, hts⟩ := showsAll_cons_iff.mp h
    obtain ⟨id', rest', rfl, ht', hts'⟩ := showsAll_cons_iff.mp h'
    exact List.rel_append (alike_found ht ht') (alike_foundAll hts hts')

end

/-- Wherever a tree `t` stands, the same placeholders are found in it, at the same positions. -/
theorem alike_placeholdersBelow (hf : a.Forest) (hf' : b.Forest) {root root' : NodeId} {t : Tree}
    (h : a.Shows root t) (h' : b.Shows root' t) :
    List.Forall₂ (a.Alike b) (placeholdersBelow a root) (placeholdersBelow b root') := by
  obtain ⟨node, hget, -, hcs⟩ := h.get?
  obtain ⟨node', hget', -, hcs'⟩ := h'.get?
  rw [placeholdersBelow_eq hf h, placeholdersBelow_eq hf' h', children_of_get? hget,
    children_of_get? hget']
  exact alike_foundAll hcs hcs'

theorem Shows.element? {id : NodeId} {t : Tree} (h : a.Shows id t) :
    a.element? id = t.kind.element? := by
  obtain ⟨node, hget, hkind, -⟩ := h.get?
  rw [Arena.element?, kind?_of_get? hget, Option.bind_some, hkind]

end Arena

namespace Template

variable {t : Template} {source : String} {ds ds' : List Diagnostic}

/-- The element `y` of another arena is a copy of the one that the placeholder `x` was read off, and
it stands at the position of `x`. -/
structure Copied (t : Template) (b : Arena) (x : Placeholder) (y : Position × NodeId) : Prop where
  position_eq : y.1 = x.position
  exists_original : ∃ n e tree, (x.position, n) ∈ placeholdersBelow t.arena t.root ∧
    t.arena.element? n = some e ∧ Placeholder.ofElement e x.position false = .ok x ∧
    b.element? y.2 = some e ∧ t.arena.tree? n = some tree ∧ b.tree? y.2 = some tree

/-- A template is a plain tree `r`, planted in an empty arena. -/
theorem Compiled.exists_planted (h : Compiled source t) (hfit : t.arena.Fits) :
    ∃ r : Tree, r.Plain ∧ Arena.Planted .empty t.arena t.root r := by
  obtain ⟨r, helements, hplanted⟩ := planted_canonicalRoot h.root_eq hfit
  exact ⟨r.stripped, (plain_of_elements_eq helements).stripped, hplanted⟩

/-- **Positions are the same in every copy.** The root of a template can be copied to any arena. The
placeholders of the copy are those of the template, in the same order and at the same positions, and
each shows the same tree. The position is in both the number of elements in front that lie in no
placeholder. -/
theorem positions_of_copy (hcompile : (compile source).run ds = .ok t ds')
    (hsingle : t.single = false) (hfit : t.arena.Fits) {a : Arena} (ha : a.Reachable)
    (hcopy : (stateAfter (Arena.copyFrom t.arena t.root) a).Fits) :
    ∃ copy b, (Arena.copyFrom t.arena t.root).run a = .ok copy b ∧
      List.Forall₂ (t.Copied b) t.placeholders (placeholdersBelow b copy) ∧
      t.placeholders.map (·.position) = (placeholdersBelow t.arena t.root).map (·.1) ∧
      t.arena.Numbered t.root ∧ b.Numbered copy := by
  have hcompiled := compiled_compile hcompile
  obtain ⟨hnot, hpositions⟩ := hcompiled.positions hsingle
  obtain ⟨r, hplain, hplanted⟩ := hcompiled.exists_planted hfit
  have hf := hplanted.sound.forest
  obtain ⟨hdead, -⟩ | ⟨r', copy, b, hr', hrun, hplanted'⟩ :=
    Arena.copyFrom_spec ha.sound hf t.root hcopy
  · exact absurd hcompiled.isLive_root (Arena.not_live_of_dead hdead)
  -- what is copied is all that the root of the template shows
  obtain rfl := hplanted.shows.unique hr'
  have hf' := hplanted'.sound.forest
  have hexamined := hcompiled.examined
  rw [elements, hnot, if_neg (by simp), hsingle] at hexamined
  have halike := Arena.alike_placeholdersBelow hf hf' hplanted.shows hplanted'.shows
  have hmem := (List.forall₂_and_left _ _).mpr ⟨fun _ hx => hx, hexamined⟩
  refine ⟨copy, b, hrun, ?_, hpositions, ?_, ?_⟩
  · refine forall₂_of_common ?_ hmem halike
    rintro ⟨p, n⟩ x ⟨q, m⟩ ⟨hmem, hx⟩ ⟨rfl, u, hn, hm⟩
    obtain rfl : x.position = p := hx.read.position_eq
    obtain ⟨e, he, hread⟩ := hx.exists_element
    refine ⟨rfl, n, e, u, hmem, he, hread, ?_, hn.tree? hf, hm.tree? hf'⟩
    rw [hm.element?, ← hn.element?, he]
  · exact Arena.numbered_placeholdersBelow hf hplanted.shows hplain hplanted.top hnot
  · have hnot' : isPlaceholder b copy = false := by
      rw [isPlaceholder, Arena.tag?, hplanted'.shows.element?, ← hplanted.shows.element?]
      exact hnot
    exact Arena.numbered_placeholdersBelow hf' hplanted'.shows hplain hplanted'.top hnot'

/-- Two placeholders, the first one with content, copied to an arena that has a node already. -/
theorem positions_past_content :
    ∃ (t : Template) (ds : List Diagnostic) (copy : NodeId) (b : Arena),
      (compile
        "<div><request src=a><i>x</i></request><p><request src=b></request></p></div>").run [] =
          .ok t ds ∧
      t.single = false ∧ t.arena.Fits ∧
      ((Arena.Op.newElement "ul" []).after .empty).Reachable ∧
      (stateAfter (Arena.copyFrom t.arena t.root)
        ((Arena.Op.newElement "ul" []).after .empty)).Fits ∧
      t.placeholders.map (·.position) = [0, 2] ∧
      (Arena.copyFrom t.arena t.root).run ((Arena.Op.newElement "ul" []).after .empty) =
        .ok copy b ∧
      List.Forall₂ (t.Copied b) t.placeholders (placeholdersBelow b copy) ∧ b.Numbered copy := by
  have hcompiles : (outcome (compile
      "<div><request src=a><i>x</i></request><p><request src=b></request></p></div>")
        []).toOption.any (fun t =>
          decide (t.single = false ∧ t.arena.Fits ∧
            (stateAfter (Arena.copyFrom t.arena t.root)
              ((Arena.Op.newElement "ul" []).after .empty)).Fits ∧
            t.placeholders.map (·.position) = [0, 2])) = true := by
    decide +kernel
  have hreachable : ((Arena.Op.newElement "ul" []).after .empty).Reachable :=
    .step _ .empty (by decide +kernel)
  obtain ⟨t, ds, hcompile, hplaced⟩ := exists_of_any_outcome hcompiles
  obtain ⟨hsingle, hfit, hcopy, hpositions⟩ := of_decide_eq_true hplaced
  obtain ⟨copy, b, hrun, hcopied, -, -, hnumbered⟩ :=
    positions_of_copy hcompile hsingle hfit hreachable hcopy
  exact ⟨t, ds, copy, b, hcompile, hsingle, hfit, hreachable, hcopy, hpositions, hrun, hcopied,
    hnumbered⟩

end Template

end Inlay
