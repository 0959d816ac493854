import Inlay.Proofs.Arena.Prune

/-!
# Splicing

Nodes that stand side by side are replaced by others: the others are inserted before the last of
them, and then they are freed. `swap r olds news` is what that does to every list of children, `r`
being the last of `olds`, and `Inserted.spliced` that it is all that happens to the nodes that stay.
-/

namespace Inlay.Arena

variable {a b : Arena}

/-! ### Inserting several nodes -/

/-- The list with `xs` right before `r`. -/
def withBefore (r : NodeId) (xs cs : List NodeId) : List NodeId :=
  cs.flatMap fun c => if c = r then xs ++ [r] else [c]

theorem withBefore_of_not_mem {r : NodeId} {cs : List NodeId} (h : r ∉ cs) (xs : List NodeId) :
    withBefore r xs cs = cs := by
  unfold withBefore
  induction cs with
  | nil => rfl
  | cons c cs ih =>
    rw [List.mem_cons, not_or] at h
    rw [List.flatMap_cons, if_neg (Ne.symm h.1), ih h.2, List.singleton_append]

/-- In a row where `r` comes once, the nodes `xs` are put right before it. -/
theorem withBefore_append_cons {r : NodeId} {pre post : List NodeId} (hpre : r ∉ pre)
    (hpost : r ∉ post) (xs : List NodeId) :
    withBefore r xs (pre ++ r :: post) = pre ++ (xs ++ r :: post) := by
  have h₁ := withBefore_of_not_mem hpre xs
  have h₂ := withBefore_of_not_mem hpost xs
  unfold withBefore at h₁ h₂ ⊢
  rw [List.flatMap_append, List.flatMap_cons, h₁, h₂, if_pos rfl, List.append_assoc,
    List.singleton_append]

theorem not_mem_of_nodup_middle {r : NodeId} {pre post : List NodeId}
    (h : (pre ++ r :: post).Nodup) : r ∉ pre ∧ r ∉ post := by
  rw [List.nodup_middle, List.nodup_cons, List.mem_append, not_or] at h
  exact h.1

theorem withBefore_nil (r : NodeId) (cs : List NodeId) : withBefore r [] cs = cs := by
  unfold withBefore
  induction cs with
  | nil => rfl
  | cons c cs ih =>
    rw [List.flatMap_cons, ih]
    split
    · rename_i hc
      rw [hc]
      rfl
    · rfl

/-- Putting `x` before `r` first and then `xs` is putting `x :: xs` there. -/
theorem withBefore_withBefore {r x : NodeId} {xs : List NodeId} (hx : x ∉ xs) (hr : r ∉ xs)
    (hrx : r ≠ x) (cs : List NodeId) :
    withBefore r xs ((withBefore r [x] (cs.filter (· ≠ x))).filter (· ∉ xs))
      = withBefore r (x :: xs) (cs.filter (· ∉ x :: xs)) := by
  unfold withBefore
  induction cs with
  | nil => rfl
  | cons c cs ih =>
    by_cases hcx : c = x
    · simpa [hcx] using ih
    · by_cases hcr : c = r
      · subst hcr
        simpa [hcx, Ne.symm hcx, hx, hr] using ih
      · by_cases hcxs : c ∈ xs
        · simpa [hcx, hcr, hcxs] using ih
        · simpa [hcx, hcr, hcxs] using ih

/-- Of a node `x ∈ xs` that comes more than once, the last time counts. -/
theorem withBefore_again {r x : NodeId} {xs : List NodeId} (hx : x ∈ xs) (hr : r ∉ xs)
    (cs : List NodeId) :
    withBefore r xs ((withBefore r [x] (cs.filter (· ≠ x))).filter (· ∉ xs))
      = withBefore r xs (cs.filter (· ∉ xs)) := by
  apply congrArg
  unfold withBefore
  induction cs with
  | nil => rfl
  | cons c cs ih =>
    by_cases hcx : c = x
    · simpa [hcx, hx] using ih
    · by_cases hcr : c = r
      · subst hcr
        simpa [hcx, hx, hr] using ih
      · by_cases hcxs : c ∈ xs
        · simpa [hcx, hcr, hcxs] using ih
        · simpa [hcx, hcr, hcxs] using ih

/-- `b` is `a` with the nodes `ids` moved to stand right before `r`. -/
structure Inserted (a b : Arena) (parent r : NodeId) (ids : List NodeId) : Prop where
  sound : b.Sound
  size_eq : b.slots.size = a.slots.size
  parent_eq : ∀ n, b.parent? n = if n ∈ ids then some parent else a.parent? n
  content : ∀ n, b.content? n =
    (a.content? n).map fun c => (c.1, withBefore r ids (c.2.filter (· ∉ ids)))

/-- Insertion makes no node and frees none: `b.isLive n = a.isLive n`. -/
theorem Inserted.live {parent r : NodeId} {ids : List NodeId} (h : Inserted a b parent r ids)
    (n : NodeId) : b.isLive n = a.isLive n := by
  have hcontent := congrArg Option.isSome (h.content n)
  rwa [Option.isSome_map, content?, content?, Option.isSome_map, Option.isSome_map] at hcontent

theorem Inserted.isTop {parent r : NodeId} {ids : List NodeId} (h : Inserted a b parent r ids)
    {n : NodeId} (hn : b.IsTop n) : a.IsTop n := by
  obtain ⟨hlive, htop⟩ := hn
  rw [h.live] at hlive
  rw [h.parent_eq] at htop
  split at htop
  · exact absurd htop (by simp)
  · exact ⟨hlive, htop⟩

/-- The nodes `ids` stand right before `r`, in the order of the list. -/
theorem Inserted.children_eq {parent r : NodeId} {ids : List NodeId} (h : Inserted a b parent r ids)
    (hf : a.Forest) (hr : a.parent? r = some parent) (hnot : r ∉ ids) :
    ∃ pre post, (a.children parent).filter (· ∉ ids) = pre ++ r :: post ∧
      b.children parent = pre ++ (ids ++ r :: post) := by
  have hmem : r ∈ (a.children parent).filter (· ∉ ids) := by
    rw [List.mem_filter, decide_eq_true_eq]
    exact ⟨hf.mem_of_parent hr, hnot⟩
  obtain ⟨pre, post, hsplit, -⟩ := List.eq_append_cons_of_mem hmem
  have hnd := (hf.nodup_children parent).filter (· ∉ ids)
  rw [hsplit] at hnd
  obtain ⟨hpre, hpost⟩ := not_mem_of_nodup_middle hnd
  obtain ⟨node, hnode⟩ := isLive_iff.mp (Up.parent_live hf hr)
  have hcontent := h.content parent
  rw [content?_eq, content?_eq, kind?_of_get? hnode, Option.map_some, Option.map_some,
    Option.map_eq_some_iff] at hcontent
  obtain ⟨kind, -, he⟩ := hcontent
  refine ⟨pre, post, hsplit, ?_⟩
  rw [(Prod.mk.inj he).2, hsplit, withBefore_append_cons hpre hpost]

theorem content?_children (n : NodeId) {c : NodeKind × List NodeId} (h : a.content? n = some c) :
    a.children n = c.2 := by
  rw [content?, Option.map_eq_some_iff] at h
  obtain ⟨node, hget, rfl⟩ := h
  exact children_of_get? hget

theorem Sound.inserted_nil (h : a.Sound) (parent r : NodeId) : Inserted a a parent r [] where
  sound := h
  size_eq := rfl
  parent_eq n := by simp
  content n := by
    cases a.content? n with
    | none => rfl
    | some c => simp [withBefore_nil]

/-- A node `x` that is moved to stand before `r` was inserted there. -/
theorem Moved.inserted {parent r x : NodeId} {pre post : List NodeId}
    (hmoved : Moved a b parent x (pre ++ x :: r :: post)) (h : a.Sound)
    (hr : a.parent? r = some parent) (hlive : a.isLive x)
    (hsplit : (a.children parent).filter (· ≠ x) = pre ++ r :: post) :
    Inserted a b parent r [x] := by
  have hchildren : ∀ n, b.children n = withBefore r [x] ((a.children n).filter (· ∉ [x])) := by
    intro n
    have hfilter : (a.children n).filter (· ∉ [x]) = (a.children n).filter (· ≠ x) := by simp
    rw [hfilter]
    by_cases hn : n = parent
    · subst hn
      have hnd := (h.forest.nodup_children n).filter (· ≠ x)
      rw [hsplit] at hnd ⊢
      obtain ⟨hpre, hpost⟩ := not_mem_of_nodup_middle hnd
      rw [hmoved.children_eq (Up.parent_live h.forest hr), withBefore_append_cons hpre hpost]
      rfl
    · rw [hmoved.children_of_ne hn, withBefore_of_not_mem]
      intro hmem'
      exact hn (Up.unique (h.forest.parent_of_mem (List.mem_filter.mp hmem').1) hr)
  refine ⟨hmoved.sound, hmoved.size_eq, fun n => ?_, fun n => ?_⟩
  · rw [hmoved.parent?_eq hlive]
    simp only [List.mem_singleton]
  · rw [content?_eq, content?_eq, hmoved.kind?_eq, hchildren, Option.map_map]
    rfl

/-- Inserting `x` before `r` succeeds, if `r ≠ x` and the parent is not under `x`. -/
theorem inserted_one (h : a.Sound) {parent r x : NodeId} (hrx : r ≠ x)
    (hr : a.parent? r = some parent) (hlive : a.isLive x) (hnot : ¬ a.Under x parent) :
    ∃ b, (insertBefore parent x (some r)).run a = .ok () b ∧ Inserted a b parent r [x] := by
  have hmem := h.forest.mem_of_parent hr
  have hmay : a.mayInsert parent x = .ok () :=
    (mayInsert_ok_iff h.forest).mpr ⟨hlive, hnot, h.forest.container (List.ne_nil_of_mem hmem)⟩
  obtain ⟨b, pre, post, hrun, hsplit, hmoved⟩ := insertBefore_of_mayInsert h hrx hr hmay
  exact ⟨b, hrun, hmoved.inserted h hr hlive hsplit⟩

/-- One insertion after another: `x` before `r`, then `xs` before `r`, as the children of each node
see it. -/
theorem Inserted.content_of_two {c : Arena} {parent r x : NodeId} {xs : List NodeId}
    (h₁ : Inserted a b parent r [x]) (h₂ : Inserted b c parent r xs) (n : NodeId) :
    c.content? n = (a.content? n).map fun k =>
      (k.1, withBefore r xs ((withBefore r [x] (k.2.filter (· ≠ x))).filter (· ∉ xs))) := by
  rw [h₂.content, h₁.content, Option.map_map]
  cases a.content? n with
  | none => rfl
  | some k =>
    have hfilter : k.2.filter (· ∉ [x]) = k.2.filter (· ≠ x) := by simp
    rw [Option.map_some, Option.map_some, Function.comp, hfilter]

/-- The insertion of `x`, and then that of `xs` without it, are the insertion of `x :: xs`. -/
theorem Inserted.cons {c : Arena} {parent r x : NodeId} {xs : List NodeId}
    (h₁ : Inserted a b parent r [x]) (h₂ : Inserted b c parent r xs) (hx : x ∉ xs) (hr : r ∉ xs)
    (hrx : r ≠ x) : Inserted a c parent r (x :: xs) where
  sound := h₂.sound
  size_eq := h₂.size_eq.trans h₁.size_eq
  parent_eq n := by
    rw [h₂.parent_eq, h₁.parent_eq]
    by_cases hnx : n = x <;> by_cases hnxs : n ∈ xs <;> simp [hnx, hnxs]
  content n := by
    simp only [h₁.content_of_two h₂, withBefore_withBefore hx hr hrx]

/-- The insertion of `x`, and then that of `xs` with it, are the insertion of `xs`. -/
theorem Inserted.again {c : Arena} {parent r x : NodeId} {xs : List NodeId}
    (h₁ : Inserted a b parent r [x]) (h₂ : Inserted b c parent r xs) (hx : x ∈ xs) (hr : r ∉ xs) :
    Inserted a c parent r xs where
  sound := h₂.sound
  size_eq := h₂.size_eq.trans h₁.size_eq
  parent_eq n := by
    rw [h₂.parent_eq, h₁.parent_eq]
    by_cases hn : n ∈ xs
    · rw [if_pos hn, if_pos hn]
    · have hnx : n ≠ x := fun he => hn (he ▸ hx)
      rw [if_neg hn, if_neg hn, if_neg (by simpa using hnx)]
  content n := by
    simp only [h₁.content_of_two h₂, withBefore_again hx hr]

/-- Nodes `ids` that are live and not above the parent can be inserted one after the other before
`r`. -/
theorem insertAllBefore_spec {parent r : NodeId} : ∀ {ids : List NodeId} {a : Arena}, a.Sound →
    a.parent? r = some parent → (r :: ids).Nodup →
    (∀ x ∈ ids, a.isLive x ∧ ¬ a.Under x parent) →
    ∃ b, (insertAllBefore parent r ids).run a = .ok () b ∧ Inserted a b parent r ids
  | [], a, h, _, _, _ => ⟨a, rfl, h.inserted_nil parent r⟩
  | x :: xs, a, h, hr, hnd, hids => by
    have hrx : r ≠ x := fun he => (List.nodup_cons.mp hnd).1 (he ▸ List.mem_cons_self)
    have hrxs : r ∉ xs := fun hm => (List.nodup_cons.mp hnd).1 (List.mem_cons_of_mem _ hm)
    obtain ⟨hxxs, hndxs⟩ := List.nodup_cons.mp (List.nodup_cons.mp hnd).2
    obtain ⟨hlive, hnot⟩ := hids x List.mem_cons_self
    obtain ⟨a₁, hrun₁, h₁⟩ := inserted_one h hrx hr hlive hnot
    have hother : ∀ m, m ≠ x → a₁.parent? m = a.parent? m := fun m hm => by
      rw [h₁.parent_eq, if_neg (by simpa using hm)]
    have hparents : ∀ m, ¬ a.Under x m → a₁.parent? m = a.parent? m := fun m hm =>
      hother m fun he => hm (he ▸ Under.refl _)
    obtain ⟨b, hrun, hrest⟩ := insertAllBefore_spec h₁.sound ((hother r hrx).trans hr)
      (List.nodup_cons.mpr ⟨hrxs, hndxs⟩) fun y hy => by
        obtain ⟨hylive, hynot⟩ := hids y (List.mem_cons_of_mem _ hy)
        exact ⟨(h₁.live y).trans hylive, fun hunder =>
          hynot ((under_iff_of_parents hparents hnot).mp hunder)⟩
    refine ⟨b, ?_, h₁.cons hrest hxxs hrxs hrx⟩
    rw [insertAllBefore, run_bind_of_ok hrun₁, hrun]

/-! ### Replacing nodes by others -/

/-- A list of children after the nodes `olds`, of which `r` is the last, have given way to
`news`. -/
def swap (r : NodeId) (olds news cs : List NodeId) : List NodeId :=
  (withBefore r news cs).filter (· ∉ olds)

theorem swap_append (r : NodeId) (olds news cs ds : List NodeId) :
    swap r olds news (cs ++ ds) = swap r olds news cs ++ swap r olds news ds := by
  rw [swap, withBefore, List.flatMap_append, List.filter_append]
  rfl

theorem swap_of_disjoint {r : NodeId} {olds cs : List NodeId} (hr : r ∈ olds)
    (h : ∀ c ∈ cs, c ∉ olds) (news : List NodeId) : swap r olds news cs = cs := by
  rw [swap, withBefore_of_not_mem (fun hm => h r hm hr), List.filter_eq_self]
  exact fun c hc => decide_eq_true (h c hc)

/-- A row `olds` that ends in `r` gives way to `news` as a whole. -/
theorem swap_self {r : NodeId} {olds news : List NodeId} (hr : olds.getLast? = some r)
    (hnd : olds.Nodup) (h : ∀ x ∈ news, x ∉ olds) : swap r olds news olds = news := by
  obtain ⟨pre, rfl⟩ := List.getLast?_eq_some_iff.mp hr
  have hpre : r ∉ pre := fun hm => (List.nodup_append.mp hnd).2.2 r hm r (by simp) rfl
  have hgone : pre.filter (· ∉ pre ++ [r]) = [] := by
    rw [List.filter_eq_nil_iff]
    intro c hc
    simp [hc]
  have hkept : news.filter (· ∉ pre ++ [r]) = news := by
    rw [List.filter_eq_self]
    exact fun c hc => decide_eq_true (h c hc)
  rw [swap, withBefore_append_cons hpre List.not_mem_nil, List.filter_append, List.filter_append,
    hgone, hkept]
  simp

/-- What makes nodes fit to take the place of `olds`, which are children of `parent`. -/
structure Replaces (a : Arena) (parent : NodeId) (olds news : List NodeId) : Prop where
  parent_eq : ∀ d ∈ olds, a.parent? d = some parent
  nodup : news.Nodup
  live : ∀ x ∈ news, a.isLive x
  /-- None of them is above the place. -/
  not_above : ∀ x ∈ news, ¬ a.Under x parent
  /-- None of them is among what goes. -/
  apart : ∀ x ∈ news, ∀ d ∈ olds, ¬ a.Under d x
  /-- None of them is below another. -/
  antichain : ∀ x ∈ news, ∀ y ∈ news, a.Under x y → x = y

/-- `b` is `a` with `news` in the place of `olds`, of which `r` is the last. -/
structure Spliced (a b : Arena) (parent r : NodeId) (olds news : List NodeId) : Prop where
  sound : b.Sound
  size_eq : b.slots.size = a.slots.size
  content : ∀ n, (∀ d ∈ olds, ¬ a.Under d n) →
    b.content? n = (a.content? n).map fun c => (c.1, swap r olds news (c.2.filter (· ∉ news)))
  parent_eq : ∀ n, (∀ d ∈ olds, ¬ a.Under d n) →
    b.parent? n = if n ∈ news then some parent else a.parent? n
  shows : ∀ ts, a.ShowsAll news ts → b.ShowsAll news ts
  tops : ∀ n, b.IsTop n → a.IsTop n

theorem Replaces.not_mem {parent : NodeId} {olds news : List NodeId}
    (h : a.Replaces parent olds news) : ∀ x ∈ news, x ∉ olds :=
  fun x hx hold => h.apart x hx x hold (Under.refl x)

/-- What a new node `x` brings along is not under an old one. -/
theorem Replaces.not_under {parent : NodeId} {olds news : List NodeId}
    (h : a.Replaces parent olds news) {x d n : NodeId} (hx : x ∈ news) (hd : d ∈ olds)
    (hxn : a.Under x n) : ¬ a.Under d n := by
  intro hdn
  rcases hdn.linear hxn with hdx | hxd
  · exact h.apart x hx d hd hdx
  · rcases (under_iff_of_up (h.parent_eq d hd)).mp hxd with rfl | hparent
    · exact h.not_mem d hx hd
    · exact h.not_above x hx hparent

/-- Inserting the new nodes brings nothing under the old ones: what is under `d` was so before. -/
theorem Inserted.under_old {parent r d n : NodeId} {olds news : List NodeId}
    (hi : Inserted a b parent r news) (h : a.Replaces parent olds news) (hd : d ∈ olds)
    (hunder : b.Under d n) : a.Under d n := by
  have hdb : b.parent? d = some parent := by
    rw [hi.parent_eq, if_neg fun hm => h.not_mem d hm hd, h.parent_eq d hd]
  have hforest := hi.sound.forest
  induction hunder using Relation.ReflTransGen.head_induction_on with
  | refl => exact Under.refl d
  | @head m p hup hpath ih =>
    by_cases hm : m ∈ news
    · -- an old and a new node are different children of the parent
      have hmb : b.parent? m = some parent := by rw [hi.parent_eq, if_pos hm]
      have hdm : b.Under d m := Relation.ReflTransGen.head hup hpath
      obtain rfl := hforest.disjoint_siblings (hforest.mem_of_parent hdb)
        (hforest.mem_of_parent hmb) hdm (Under.refl m)
      exact absurd hd (h.not_mem d hm)
    · refine ih.trans (Up.under ?_)
      rwa [Up, hi.parent_eq, if_neg hm] at hup

/-- What stays keeps its kind, and of its children those not in `ids`. -/
theorem Pruned.content {ids : List NodeId} (h : Pruned a b ids) {n : NodeId}
    (hn : ∀ d ∈ ids, ¬ a.Under d n) :
    b.content? n = (a.content? n).map fun c => (c.1, c.2.filter (· ∉ ids)) := by
  rw [content?, content?, h.kept n hn]
  cases a.get? n <;> rfl

theorem Pruned.parent {ids : List NodeId} (h : Pruned a b ids) {n : NodeId}
    (hn : ∀ d ∈ ids, ¬ a.Under d n) : b.parent? n = a.parent? n := by
  rw [parent?, parent?, h.kept n hn]
  cases a.get? n <;> rfl

/-- Inserting the new nodes before the last old one and then freeing the old ones replaces `olds` by
`news`. -/
theorem Inserted.spliced {c : Arena} {parent r : NodeId} {olds news : List NodeId} (ha : a.Sound)
    (h : a.Replaces parent olds news) (hr : r ∈ olds) (hi : Inserted a b parent r news)
    (hp : Pruned b c olds) : Spliced a c parent r olds news := by
  -- what stays is not under the old nodes, whether the new ones are in place or not
  have hkept : ∀ n, (∀ d ∈ olds, ¬ a.Under d n) → ∀ d ∈ olds, ¬ b.Under d n :=
    fun n hn d hd hunder => hn d hd (hi.under_old h hd hunder)
  have hcontent : ∀ n, (∀ d ∈ olds, ¬ a.Under d n) → c.content? n =
      (a.content? n).map fun c => (c.1, swap r olds news (c.2.filter (· ∉ news))) := fun n hn => by
    rw [hp.content (hkept n hn), hi.content, Option.map_map]
    rfl
  refine ⟨hp.sound, hp.size_eq.trans hi.size_eq, hcontent, fun n hn => ?_, fun ts hts => ?_,
    fun n hn => hi.isTop (hp.isTop hn).1⟩
  · rw [hp.parent (hkept n hn), hi.parent_eq]
  · refine hts.frame ha.forest fun x hx n hxn => ?_
    rw [hcontent n fun d hd => h.not_under hx hd hxn]
    cases hc : a.content? n with
    | none => rfl
    | some c =>
      have hchild : ∀ y ∈ c.2, a.Up y n := fun y hy =>
        ha.forest.parent_of_mem (by rwa [content?_children n hc])
      -- below a new node there is no other new one, and no old one either
      have hnews : c.2.filter (· ∉ news) = c.2 := by
        refine List.filter_eq_self.mpr fun y hy => decide_eq_true fun hm => ?_
        obtain rfl := h.antichain x hx y hm (hxn.trans (hchild y hy).under)
        exact ha.forest.acyclic x (Relation.TransGen.head' (hchild x hy) hxn)
      rw [Option.map_some, hnews, swap_of_disjoint hr fun y hy hold => ?_]
      obtain rfl := (hchild y hy).unique (h.parent_eq y hold)
      exact h.not_above x hx hxn

end Inlay.Arena
