import Inlay.Proofs.Arena.Splice
import Inlay.Proofs.Template.Fill
import Mathlib.Logic.Function.Basic

/-!
# Where the placeholders of a tree stand

`a.Lays spots outputs` says that the nodes of a tree with placeholders are in place: its own nodes
show it, and the placeholder at position `p` is held by the nodes `spots p`, side by side, which
show its output, or the placeholder itself while it has none.

* `LaidOut.shows`: a root that is laid out shows the filled tree;
* `LaidOut.splice`: it stays laid out when the nodes of one placeholder give way to others.
-/

namespace Inlay.Arena

variable {a b : Arena}

/-- The nodes that hold the placeholders. -/
abbrev Spots := Position → List NodeId

/-- What has come for the placeholders. -/
abbrev Outputs := Position → Option (List Tree)

mutual

/-- The row of nodes in the place of a tree whose first element has the position `next`. -/
def Lays (a : Arena) (spots : Spots) (outputs : Outputs) (next : Position) :
    Tree → List NodeId → Prop
  | .node (.element e) cs, ids =>
    if e.tag = Placeholder.tag then
      ids = spots next ∧ a.ShowsAll ids ((outputs next).getD [.node (.element e) cs])
    else ∃ id node, ids = [id] ∧ a.get? id = some node ∧ node.kind = .element e ∧
      LaysAll a spots outputs (next + 1) cs node.children
  | .node kind cs, ids => ∃ id, ids = [id] ∧ a.Shows id (.node kind cs)

def LaysAll (a : Arena) (spots : Spots) (outputs : Outputs) (next : Position) :
    List Tree → List NodeId → Prop
  | [], ids => ids = []
  | t :: ts, ids => ∃ xs ys, ids = xs ++ ys ∧ Lays a spots outputs next t xs ∧
      LaysAll a spots outputs (next + t.span) ts ys

end

mutual

/-- A row that is laid out shows `t.fill outputs`. -/
theorem Lays.shows {spots : Spots} {outputs : Outputs} : ∀ {t : Tree} {next : Position}
    {ids : List NodeId}, a.Lays spots outputs next t ids → a.ShowsAll ids (t.fill outputs next)
  | .node (.element e) cs, next, ids, h => by
    rw [Lays] at h
    rw [Tree.fill]
    split at h
    · rename_i htag
      rw [if_pos htag]
      exact h.2
    · rename_i htag
      obtain ⟨id, node, rfl, hget, hkind, hcs⟩ := h
      rw [if_neg htag]
      exact showsAll_singleton_iff.mpr (shows_node.mpr ⟨node, hget, hkind, hcs.shows⟩)
  | .node (.text _) _, _, _, ⟨_, hids, h⟩ => hids ▸ showsAll_singleton_iff.mpr h
  | .node (.comment _) _, _, _, ⟨_, hids, h⟩ => hids ▸ showsAll_singleton_iff.mpr h
  | .node .fragment _, _, _, ⟨_, hids, h⟩ => hids ▸ showsAll_singleton_iff.mpr h

theorem LaysAll.shows {spots : Spots} {outputs : Outputs} : ∀ {ts : List Tree} {next : Position}
    {ids : List NodeId}, a.LaysAll spots outputs next ts ids →
    a.ShowsAll ids (Tree.fillAll outputs next ts)
  | [], _, _, h => showsAll_nil_iff.mpr h
  | _ :: _, _, _, ⟨_, _, hids, ht, hts⟩ => hids ▸ ht.shows.append hts.shows

end

mutual

/-- The nodes of a placeholder, `spots p`, show what has come for it. -/
theorem Lays.output {spots : Spots} {outputs : Outputs} {p : Position} {trees : List Tree}
    (houtput : outputs p = some trees) : ∀ {t : Tree} {next : Position} {ids : List NodeId},
    a.Lays spots outputs next t ids → p ∈ t.marks next → a.ShowsAll (spots p) trees
  | .node (.element e) cs, next, ids, h, hp => by
    rw [Lays] at h
    rw [Tree.marks] at hp
    split at h
    · rename_i htag
      rw [if_pos htag, List.mem_singleton] at hp
      obtain ⟨hids, hshows⟩ := h
      rwa [hids, ← hp, houtput, Option.getD_some] at hshows
    · rename_i htag
      rw [if_neg htag] at hp
      obtain ⟨id, node, -, -, -, hcs⟩ := h
      exact hcs.output houtput hp
  | .node (.text _) _, _, _, _, hp => absurd hp List.not_mem_nil
  | .node (.comment _) _, _, _, _, hp => absurd hp List.not_mem_nil
  | .node .fragment _, _, _, _, hp => absurd hp List.not_mem_nil

theorem LaysAll.output {spots : Spots} {outputs : Outputs} {p : Position} {trees : List Tree}
    (houtput : outputs p = some trees) : ∀ {ts : List Tree} {next : Position} {ids : List NodeId},
    a.LaysAll spots outputs next ts ids → p ∈ Tree.marksAll next ts → a.ShowsAll (spots p) trees
  | [], _, _, _, hp => absurd hp List.not_mem_nil
  | t :: ts, next, _, ⟨xs, ys, _, ht, hts⟩, hp => by
    rw [Tree.marksAll, List.mem_append] at hp
    rcases hp with hp | hp
    · exact ht.output houtput hp
    · exact hts.output houtput hp

end

/-! ### What does not concern a placeholder -/

mutual

/-- A row stays in place where nothing under it changes, and neither do `spots` and `outputs` at its
positions. -/
theorem Lays.frame (hf : a.Forest) {spots spots' : Spots} {outputs outputs' : Outputs} :
    ∀ {t : Tree} {next : Position} {ids : List NodeId}, a.Lays spots outputs next t ids →
    (∀ q ∈ t.marks next, spots' q = spots q ∧ outputs' q = outputs q) →
    (∀ x ∈ ids, ∀ n, a.Under x n → b.content? n = a.content? n) →
    b.Lays spots' outputs' next t ids
  | .node (.element e) cs, next, ids, h, hsame, hcontent => by
    rw [Lays] at h ⊢
    rw [Tree.marks] at hsame
    split at h
    · rename_i htag
      rw [if_pos htag] at hsame ⊢
      -- In the place of a placeholder stand the nodes of its own output.
      obtain ⟨hspots, houtputs⟩ := hsame next List.mem_cons_self
      rw [hspots, houtputs]
      exact ⟨h.1, h.2.frame hf hcontent⟩
    · rename_i htag
      rw [if_neg htag] at hsame ⊢
      obtain ⟨id, node, rfl, hget, hkind, hcs⟩ := h
      have hself := hcontent id List.mem_cons_self
      obtain ⟨node', hget', hkind', hchildren⟩ :=
        exists_get?_of_content? (hself id (Under.refl id)) hget
      refine ⟨id, node', rfl, hget', hkind'.trans hkind, ?_⟩
      rw [hchildren]
      exact hcs.frame hf hsame fun c hc n hn => hself n ((hf.up_of_mem hget hc).under.trans hn)
  | .node (.text _) _, _, _, ⟨id, hids, h⟩, _, hcontent =>
    ⟨id, hids, h.frame hf (hcontent id (hids ▸ List.mem_cons_self))⟩
  | .node (.comment _) _, _, _, ⟨id, hids, h⟩, _, hcontent =>
    ⟨id, hids, h.frame hf (hcontent id (hids ▸ List.mem_cons_self))⟩
  | .node .fragment _, _, _, ⟨id, hids, h⟩, _, hcontent =>
    ⟨id, hids, h.frame hf (hcontent id (hids ▸ List.mem_cons_self))⟩

theorem LaysAll.frame (hf : a.Forest) {spots spots' : Spots} {outputs outputs' : Outputs} :
    ∀ {ts : List Tree} {next : Position} {ids : List NodeId}, a.LaysAll spots outputs next ts ids →
    (∀ q ∈ Tree.marksAll next ts, spots' q = spots q ∧ outputs' q = outputs q) →
    (∀ x ∈ ids, ∀ n, a.Under x n → b.content? n = a.content? n) →
    b.LaysAll spots' outputs' next ts ids
  | [], _, _, h, _, _ => h
  | t :: ts, next, _, ⟨xs, ys, hids, ht, hts⟩, hsame, hcontent => by
    subst hids
    refine ⟨xs, ys, rfl, ht.frame hf (fun q hq => hsame q ?_) fun x hx => hcontent x ?_,
      hts.frame hf (fun q hq => hsame q ?_) fun y hy => hcontent y ?_⟩
    · exact List.mem_append_left _ hq
    · exact List.mem_append_left _ hx
    · exact List.mem_append_right _ hq
    · exact List.mem_append_right _ hy

end

/-! ### The nodes of a placeholder -/

mutual

/-- The nodes of a placeholder are under the row that it belongs to: each under some `x ∈ ids`. -/
theorem Lays.under (hf : a.Forest) {spots : Spots} {outputs : Outputs} {p : Position} :
    ∀ {t : Tree} {next : Position} {ids : List NodeId}, a.Lays spots outputs next t ids →
    p ∈ t.marks next → ∀ d ∈ spots p, ∃ x ∈ ids, a.Under x d
  | .node (.element e) cs, next, ids, h, hp, d, hd => by
    rw [Lays] at h
    rw [Tree.marks] at hp
    split at h
    · rename_i htag
      rw [if_pos htag, List.mem_singleton] at hp
      exact ⟨d, by rw [h.1, ← hp]; exact hd, Under.refl d⟩
    · rename_i htag
      rw [if_neg htag] at hp
      obtain ⟨id, node, rfl, hget, -, hcs⟩ := h
      obtain ⟨c, hc, hunder⟩ := hcs.under hf hp d hd
      exact ⟨id, List.mem_cons_self, (hf.up_of_mem hget hc).under.trans hunder⟩
  | .node (.text _) _, _, _, _, hp, _, _ => absurd hp List.not_mem_nil
  | .node (.comment _) _, _, _, _, hp, _, _ => absurd hp List.not_mem_nil
  | .node .fragment _, _, _, _, hp, _, _ => absurd hp List.not_mem_nil

theorem LaysAll.under (hf : a.Forest) {spots : Spots} {outputs : Outputs} {p : Position} :
    ∀ {ts : List Tree} {next : Position} {ids : List NodeId}, a.LaysAll spots outputs next ts ids →
    p ∈ Tree.marksAll next ts → ∀ d ∈ spots p, ∃ x ∈ ids, a.Under x d
  | [], _, _, _, hp, _, _ => absurd hp List.not_mem_nil
  | t :: ts, next, _, ⟨xs, ys, hids, ht, hts⟩, hp, d, hd => by
    subst hids
    rw [Tree.marksAll, List.mem_append] at hp
    rcases hp with hp | hp
    · obtain ⟨x, hx, hunder⟩ := ht.under hf hp d hd
      exact ⟨x, List.mem_append_left _ hx, hunder⟩
    · obtain ⟨y, hy, hunder⟩ := hts.under hf hp d hd
      exact ⟨y, List.mem_append_right _ hy, hunder⟩

end

mutual

/-- The nodes of a placeholder stand side by side below one node `m`. -/
theorem Lays.place (hf : a.Forest) {spots : Spots} {outputs : Outputs} {p : Position} :
    ∀ {t : Tree} {next : Position} {ids pre post : List NodeId} {n : NodeId},
    a.Lays spots outputs next t ids → p ∈ t.marks next → a.children n = pre ++ ids ++ post →
    ∃ m pre post, a.Under n m ∧ a.children m = pre ++ spots p ++ post
  | .node (.element e) cs, next, ids, pre, post, n, h, hp, hn => by
    rw [Lays] at h
    rw [Tree.marks] at hp
    split at h
    · rename_i htag
      rw [if_pos htag, List.mem_singleton] at hp
      exact ⟨n, pre, post, Under.refl n, by rw [hn, h.1, hp]⟩
    · rename_i htag
      rw [if_neg htag] at hp
      obtain ⟨id, node, rfl, hget, -, hcs⟩ := h
      have hid : a.Up id n := hf.parent_of_mem (by rw [hn]; simp)
      have hchildren : a.children id = [] ++ node.children ++ [] := by
        rw [children_of_get? hget, List.nil_append, List.append_nil]
      obtain ⟨m, pre', post', hm, hsplit⟩ := hcs.place hf hp hchildren
      exact ⟨m, pre', post', hid.under.trans hm, hsplit⟩
  | .node (.text _) _, _, _, _, _, _, _, hp, _ => absurd hp List.not_mem_nil
  | .node (.comment _) _, _, _, _, _, _, _, hp, _ => absurd hp List.not_mem_nil
  | .node .fragment _, _, _, _, _, _, _, hp, _ => absurd hp List.not_mem_nil

theorem LaysAll.place (hf : a.Forest) {spots : Spots} {outputs : Outputs} {p : Position} :
    ∀ {ts : List Tree} {next : Position} {ids pre post : List NodeId} {n : NodeId},
    a.LaysAll spots outputs next ts ids → p ∈ Tree.marksAll next ts →
    a.children n = pre ++ ids ++ post →
    ∃ m pre post, a.Under n m ∧ a.children m = pre ++ spots p ++ post
  | [], _, _, _, _, _, _, hp, _ => absurd hp List.not_mem_nil
  | t :: ts, next, _, pre, post, n, ⟨xs, ys, hids, ht, hts⟩, hp, hn => by
    subst hids
    rw [Tree.marksAll, List.mem_append] at hp
    rcases hp with hp | hp
    · have hxs : a.children n = pre ++ xs ++ (ys ++ post) := by
        rw [hn]
        simp
      exact ht.place hf hp hxs
    · have hys : a.children n = (pre ++ xs) ++ ys ++ post := by
        rw [hn]
        simp
      exact hts.place hf hp hys

end

mutual

/-- The nodes of different placeholders `p` and `q` are not under each other. -/
theorem Lays.apart (hf : a.Forest) {spots : Spots} {outputs : Outputs} {p q : Position}
    (hne : p ≠ q) : ∀ {t : Tree} {next : Position} {ids : List NodeId},
    a.Lays spots outputs next t ids → p ∈ t.marks next → q ∈ t.marks next →
    ∀ d ∈ spots p, ∀ e ∈ spots q, ¬ a.Under d e
  | .node (.element e) cs, next, ids, h, hp, hq => by
    rw [Lays] at h
    rw [Tree.marks] at hp hq
    split at h
    · rename_i htag
      rw [if_pos htag, List.mem_singleton] at hp hq
      exact absurd (hp.trans hq.symm) hne
    · rename_i htag
      rw [if_neg htag] at hp hq
      obtain ⟨id, node, rfl, hget, -, hcs⟩ := h
      have hchildren := children_of_get? hget
      exact hcs.apart hf hne hp hq (hchildren ▸ hf.nodup_children id) fun x hx y hy n hxn hyn =>
        hf.disjoint_siblings (hchildren ▸ hx) (hchildren ▸ hy) hxn hyn
  | .node (.text _) _, _, _, _, hp, _ => absurd hp List.not_mem_nil
  | .node (.comment _) _, _, _, _, hp, _ => absurd hp List.not_mem_nil
  | .node .fragment _, _, _, _, hp, _ => absurd hp List.not_mem_nil

theorem LaysAll.apart (hf : a.Forest) {spots : Spots} {outputs : Outputs} {p q : Position}
    (hne : p ≠ q) : ∀ {ts : List Tree} {next : Position} {ids : List NodeId},
    a.LaysAll spots outputs next ts ids → p ∈ Tree.marksAll next ts → q ∈ Tree.marksAll next ts →
    ids.Nodup → (∀ x ∈ ids, ∀ y ∈ ids, ∀ n, a.Under x n → a.Under y n → x = y) →
    ∀ d ∈ spots p, ∀ e ∈ spots q, ¬ a.Under d e
  | [], _, _, _, hp, _, _, _ => absurd hp List.not_mem_nil
  | t :: ts, next, _, ⟨xs, ys, hids, ht, hts⟩, hp, hq, hrow, hdisjoint => by
    subst hids
    have hrow' := List.nodup_append.mp hrow
    have hcross : ∀ x ∈ xs, ∀ y ∈ ys, ∀ n, a.Under x n → ¬ a.Under y n := fun x hx y hy n hxn hyn =>
      hrow'.2.2 x hx y hy
        (hdisjoint x (List.mem_append_left _ hx) y (List.mem_append_right _ hy) n hxn hyn)
    intro d hd e he hunder
    rw [Tree.marksAll, List.mem_append] at hp hq
    rcases hp with hp | hp <;> rcases hq with hq | hq
    · exact ht.apart hf hne hp hq d hd e he hunder
    · obtain ⟨x, hx, hxd⟩ := ht.under hf hp d hd
      obtain ⟨y, hy, hye⟩ := hts.under hf hq e he
      exact hcross x hx y hy e (hxd.trans hunder) hye
    · obtain ⟨y, hy, hyd⟩ := hts.under hf hp d hd
      obtain ⟨x, hx, hxe⟩ := ht.under hf hq e he
      exact hcross x hx y hy e hxe (hyd.trans hunder)
    · exact hts.apart hf hne hp hq hrow'.2.1 (fun x hx y hy => hdisjoint x
        (List.mem_append_right _ hx) y (List.mem_append_right _ hy)) d hd e he hunder

end

/-! ### Replacing the nodes of a placeholder -/

section Splice

variable {spots : Spots} {outputs : Outputs} {p : Position} {r : NodeId} {news : List NodeId}
  {trees : List Tree}

/-- Between `a` and `b` the lists of children under `x` change by `news` taking the place of `olds`,
of which `r` is the last. -/
def SwapsUnder (a b : Arena) (r : NodeId) (olds news : List NodeId) (x : NodeId) : Prop :=
  ∀ n, a.Under x n → (∀ d ∈ olds, ¬ a.Under d n) →
    b.content? n = (a.content? n).map fun c => (c.1, swap r olds news c.2)

/-- Under a node that has none of `olds` under it nothing changes. -/
theorem SwapsUnder.content_eq (hf : a.Forest) {olds : List NodeId} {x : NodeId} (hr : r ∈ olds)
    (h : SwapsUnder a b r olds news x) (hapart : ∀ d ∈ olds, ∀ n, a.Under x n → ¬ a.Under d n)
    (n : NodeId) (hn : a.Under x n) : b.content? n = a.content? n := by
  rw [h n hn fun d hd => hapart d hd n hn]
  cases hc : a.content? n with
  | none => rfl
  | some c =>
    rw [Option.map_some, swap_of_disjoint hr fun y hy hold => ?_]
    have hup : a.Up y n := hf.parent_of_mem (by rwa [content?_children n hc])
    exact hapart y hold y (hn.trans hup.under) (Under.refl y)

mutual

/-- When `news` take the place of the nodes at `p`, the row is laid out with these, and shows what
they show at `p`. -/
theorem Lays.splice (hf : a.Forest) (hr : (spots p).getLast? = some r) (hnd : (spots p).Nodup)
    (hnews : ∀ x ∈ news, x ∉ spots p) (hshows : b.ShowsAll news trees) :
    ∀ {t : Tree} {next : Position} {ids : List NodeId}, a.Lays spots outputs next t ids →
    p ∈ t.marks next → (∀ x ∈ ids, SwapsUnder a b r (spots p) news x) →
    b.Lays (Function.update spots p news) (Function.update outputs p (some trees)) next t
      (swap r (spots p) news ids)
  | .node (.element e) cs, next, ids, h, hp, hswaps => by
    have hrmem : r ∈ spots p := List.mem_of_getLast? hr
    rw [Lays] at h ⊢
    rw [Tree.marks] at hp
    split at h
    · rename_i htag
      rw [if_pos htag, List.mem_singleton] at hp
      subst hp
      rw [if_pos htag, h.1, swap_self hr hnd hnews, Function.update_self, Function.update_self]
      exact ⟨rfl, hshows⟩
    · rename_i htag
      rw [if_neg htag] at hp ⊢
      obtain ⟨id, node, rfl, hget, hkind, hcs⟩ := h
      have hchildren := children_of_get? hget
      -- the nodes that go are below `id`
      have hunder := hcs.under hf hp
      have hnot : ∀ d ∈ spots p, ¬ a.Under d id := fun d hd hdid => by
        obtain ⟨c, hc, hcd⟩ := hunder d hd
        exact hf.not_under_child (hchildren ▸ hc) (hcd.trans hdid)
      have hself : ∀ c ∈ [id], c ∉ spots p := fun c hc hold => by
        obtain rfl := List.mem_singleton.mp hc
        exact hnot c hold (Under.refl c)
      have hswap := hswaps id List.mem_cons_self
      have hcontent := hswap id (Under.refl id) hnot
      rw [content?, content?, hget, Option.map_some, Option.map_some, Option.map_eq_some_iff]
        at hcontent
      obtain ⟨node', hget', he⟩ := hcontent
      obtain ⟨hkind', hchildren'⟩ := Prod.mk.inj he
      rw [swap_of_disjoint hrmem hself]
      refine ⟨id, node', rfl, hget', hkind'.trans hkind, ?_⟩
      rw [hchildren']
      refine hcs.splice hf hr hnd hnews hshows hp (hchildren ▸ hf.nodup_children id)
        (fun x hx y hy n hxn hyn => hf.disjoint_siblings (hchildren ▸ hx) (hchildren ▸ hy) hxn hyn)
        fun c hc n hn => hswap n (Under.trans (Up.under ?_) hn)
      exact hf.parent_of_mem (hchildren ▸ hc)
  | .node (.text _) _, _, _, _, hp, _ => absurd hp List.not_mem_nil
  | .node (.comment _) _, _, _, _, hp, _ => absurd hp List.not_mem_nil
  | .node .fragment _, _, _, _, hp, _ => absurd hp List.not_mem_nil

theorem LaysAll.splice (hf : a.Forest) (hr : (spots p).getLast? = some r) (hnd : (spots p).Nodup)
    (hnews : ∀ x ∈ news, x ∉ spots p) (hshows : b.ShowsAll news trees) :
    ∀ {ts : List Tree} {next : Position} {ids : List NodeId}, a.LaysAll spots outputs next ts ids →
    p ∈ Tree.marksAll next ts → ids.Nodup →
    (∀ x ∈ ids, ∀ y ∈ ids, ∀ n, a.Under x n → a.Under y n → x = y) →
    (∀ x ∈ ids, SwapsUnder a b r (spots p) news x) →
    b.LaysAll (Function.update spots p news) (Function.update outputs p (some trees)) next ts
      (swap r (spots p) news ids)
  | [], _, _, _, hp, _, _, _ => absurd hp List.not_mem_nil
  | t :: ts, next, _, ⟨xs, ys, hids, ht, hts⟩, hp, hrow, hdisjoint, hswaps => by
    subst hids
    have hrmem : r ∈ spots p := List.mem_of_getLast? hr
    have hrow' := List.nodup_append.mp hrow
    have hother : ∀ q, q ≠ p → Function.update spots p news q = spots q ∧
        Function.update outputs p (some trees) q = outputs q := fun q hq =>
      ⟨Function.update_of_ne hq news spots, Function.update_of_ne hq (some trees) outputs⟩
    rw [Tree.marksAll, List.mem_append] at hp
    rw [swap_append]
    rcases hp with hp | hp
    · -- the nodes that go are under `xs`, so nothing changes under `ys`
      have hapart : ∀ y ∈ ys, ∀ d ∈ spots p, ∀ n, a.Under y n → ¬ a.Under d n :=
        fun y hy d hd n hyn hdn => by
          obtain ⟨x, hx, hxd⟩ := ht.under hf hp d hd
          have he := hdisjoint x (List.mem_append_left _ hx) y (List.mem_append_right _ hy) n
            (hxd.trans hdn) hyn
          exact hrow'.2.2 x hx y hy he
      have hys : swap r (spots p) news ys = ys := swap_of_disjoint hrmem
        (fun y hy hold => hapart y hy y hold y (Under.refl y) (Under.refl y)) news
      rw [hys]
      refine ⟨_, ys, rfl, ht.splice hf hr hnd hnews hshows hp fun x hx =>
        hswaps x (List.mem_append_left _ hx), hts.frame hf (fun q hq => hother q ?_) fun y hy =>
        (hswaps y (List.mem_append_right _ hy)).content_eq hf hrmem (hapart y hy)⟩
      rintro rfl
      exact absurd (Tree.mem_marks_bounds hp).2 (Nat.not_lt.mpr (Tree.mem_marksAll_bounds hq).1)
    · have hapart : ∀ x ∈ xs, ∀ d ∈ spots p, ∀ n, a.Under x n → ¬ a.Under d n :=
        fun x hx d hd n hxn hdn => by
          obtain ⟨y, hy, hyd⟩ := hts.under hf hp d hd
          have he := hdisjoint x (List.mem_append_left _ hx) y (List.mem_append_right _ hy) n hxn
            (hyd.trans hdn)
          exact hrow'.2.2 x hx y hy he
      have hxs : swap r (spots p) news xs = xs := swap_of_disjoint hrmem
        (fun x hx hold => hapart x hx x hold x (Under.refl x) (Under.refl x)) news
      rw [hxs]
      refine ⟨xs, _, rfl, ht.frame hf (fun q hq => hother q ?_) fun x hx =>
        (hswaps x (List.mem_append_left _ hx)).content_eq hf hrmem (hapart x hx),
        hts.splice hf hr hnd hnews hshows hp hrow'.2.1 (fun x hx y hy n hxn hyn =>
          hdisjoint x (List.mem_append_right _ hx) y (List.mem_append_right _ hy) n hxn hyn)
        fun y hy => hswaps y (List.mem_append_right _ hy)⟩
      rintro rfl
      exact absurd (Tree.mem_marks_bounds hq).2 (Nat.not_lt.mpr (Tree.mem_marksAll_bounds hp).1)

end

end Splice

/-! ### From the root -/

/-- The tree below `root`, which has no parent, is in place. -/
structure LaidOut (a : Arena) (spots : Spots) (outputs : Outputs) (root : NodeId) (t : Tree) :
    Prop where
  top : a.parent? root = none
  row : ∃ node, a.get? root = some node ∧ node.kind = t.kind ∧
    a.LaysAll spots outputs 0 t.children node.children

namespace LaidOut

variable {spots : Spots} {outputs : Outputs} {root : NodeId} {t : Tree} {p : Position}

/-- A root that is laid out shows the filled tree, `t.filled outputs`. -/
theorem shows (h : a.LaidOut spots outputs root t) : a.Shows root (t.filled outputs) := by
  obtain ⟨node, hget, hkind, hrow⟩ := h.row
  obtain ⟨kind, cs⟩ := t
  exact shows_node.mpr ⟨node, hget, hkind, hrow.shows⟩

/-- The nodes `spots p` of a placeholder show what has come for it. -/
theorem output (h : a.LaidOut spots outputs root t) (hp : p ∈ Tree.marksAll 0 t.children)
    {trees : List Tree} (houtput : outputs p = some trees) : a.ShowsAll (spots p) trees := by
  obtain ⟨node, -, -, hrow⟩ := h.row
  exact hrow.output houtput hp

/-- The nodes of a placeholder stand side by side somewhere below the root, as
`pre ++ spots p ++ post`. -/
theorem place (hf : a.Forest) (h : a.LaidOut spots outputs root t)
    (hp : p ∈ Tree.marksAll 0 t.children) :
    ∃ parent pre post, a.Under root parent ∧ a.children parent = pre ++ spots p ++ post := by
  obtain ⟨node, hget, -, hrow⟩ := h.row
  have hchildren : a.children root = [] ++ node.children ++ [] := by
    rw [children_of_get? hget, List.nil_append, List.append_nil]
  exact hrow.place hf hp hchildren

/-- The nodes of different placeholders, `p ≠ q`, are not under each other. -/
theorem apart (hf : a.Forest) (h : a.LaidOut spots outputs root t) {q : Position} (hne : p ≠ q)
    (hp : p ∈ Tree.marksAll 0 t.children) (hq : q ∈ Tree.marksAll 0 t.children) :
    ∀ d ∈ spots p, ∀ e ∈ spots q, ¬ a.Under d e := by
  obtain ⟨node, hget, -, hrow⟩ := h.row
  have hchildren := children_of_get? hget
  exact hrow.apart hf hne hp hq (hchildren ▸ hf.nodup_children root) fun x hx y hy n hxn hyn =>
    hf.disjoint_siblings (hchildren ▸ hx) (hchildren ▸ hy) hxn hyn

/-- The root stays laid out when the nodes at `p` give way to `news`. -/
theorem splice (hf : a.Forest) (h : a.LaidOut spots outputs root t)
    (hp : p ∈ Tree.marksAll 0 t.children) {r : NodeId} {news : List NodeId} {trees : List Tree}
    (hr : (spots p).getLast? = some r) (hnews : ∀ x ∈ news, x ∉ spots p)
    (hshows : b.ShowsAll news trees) (htop : b.parent? root = none)
    (hswaps : SwapsUnder a b r (spots p) news root) :
    b.LaidOut (Function.update spots p news) (Function.update outputs p (some trees)) root t := by
  obtain ⟨parent, pre, post, hparent, hsplit⟩ := h.place hf hp
  obtain ⟨node, hget, hkind, hrow⟩ := h.row
  have hchildren := children_of_get? hget
  have hnd : (spots p).Nodup := by
    have hnd := hf.nodup_children parent
    rw [hsplit] at hnd
    exact (List.nodup_append.mp (List.nodup_append.mp hnd).1).2.1
  -- The root has no parent and the spots have one, so the root is under none of them.
  have hnot : ∀ d ∈ spots p, ¬ a.Under d root := fun d hd hunder => by
    have hup : a.Up d parent := hf.parent_of_mem (by rw [hsplit]; simp [hd])
    obtain rfl := (under_iff_of_top h.top).mp hunder
    rw [Up, h.top] at hup
    exact absurd hup (by simp)
  have hcontent := hswaps root (Under.refl root) hnot
  rw [content?, content?, hget, Option.map_some, Option.map_some,
    Option.map_eq_some_iff] at hcontent
  obtain ⟨node', hget', he⟩ := hcontent
  obtain ⟨hkind', hchildren'⟩ := Prod.mk.inj he
  refine ⟨htop, node', hget', hkind'.trans hkind, ?_⟩
  rw [hchildren']
  refine hrow.splice hf hr hnd hnews hshows hp (hchildren ▸ hf.nodup_children root)
    (fun x hx y hy n hxn hyn => hf.disjoint_siblings (hchildren ▸ hx) (hchildren ▸ hy) hxn hyn)
    fun c hc n hn => hswaps n (Under.trans (Up.under ?_) hn)
  exact hf.parent_of_mem (hchildren ▸ hc)

end LaidOut

end Inlay.Arena
