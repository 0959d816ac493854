import Inlay.Proofs.Arena.Splice

/-!
# Exchanging nodes for parsed content

The life of a response in an arena: it is parsed into a fragment of its own, loses its scripts
(`prepare_spec`), and its nodes take the place of others, after which the empty fragment goes
(`Prepared.exchanged`). Seen from the nodes that were there before, the only change is the exchange.
-/

namespace Inlay

/-- What a response brings: its top-level trees, without scripts at any depth. -/
def contentTrees (body : String) : List Tree :=
  Tree.withoutAll "script" (Markup.treeOf (Markup.tokenize body)).children

/-- What then stands in the place of a placeholder: a tracked one never goes without a node. -/
def outputTrees (tracked : Bool) (body : String) : List Tree :=
  if tracked ∧ contentTrees body = [] then [.node (.comment "") []] else contentTrees body

theorem children_without (body : String) :
    ((Markup.treeOf (Markup.tokenize body)).without "script").children = contentTrees body := by
  rw [contentTrees]
  cases Markup.treeOf (Markup.tokenize body) with
  | node kind cs => rfl

namespace Arena

variable {a b c x : Arena} {fragment parent r : NodeId} {olds news : List NodeId}
  {trees : List Tree}

/-- `x` is `a` with a new fragment and new nodes `news` that show `trees`: the children of the
fragment, or a single node if it has none. -/
structure Prepared (a x : Arena) (fragment : NodeId) (news : List NodeId) (trees : List Tree) :
    Prop where
  sound : x.Sound
  kept : Kept a x
  fresh_fragment : a.get? fragment = none
  live : x.isLive fragment
  top : x.parent? fragment = none
  children : ∀ n ∈ x.children fragment, n ∈ news
  apart : fragment ∉ news
  fresh : ∀ n ∈ news, a.get? n = none
  nodup : news.Nodup
  loose : ∀ n ∈ news, x.parent? n = some fragment ∨ x.parent? n = none ∧ news = [n]
  shows : x.ShowsAll news trees
  tops : ∀ n, x.IsTop n → n = fragment ∨ n ∈ news ∨ a.IsTop n

/-- Pruning below nodes `ids` that were not in `a` changes no node of `a`. -/
theorem Kept.pruned (ha : a.Forest) (h : Kept a b) {ids : List NodeId} (hp : Pruned b c ids)
    (hfresh : ∀ d ∈ ids, a.get? d = none) : Kept a c := by
  intro n node hn
  have hnot : ∀ d ∈ ids, ¬ b.Under d n := fun d hd hunder => by
    rw [dead_of_under_fresh ha h.parent? (hfresh d hd) hunder] at hn
    exact absurd hn (by simp)
  rw [hp.kept n hnot, h n node hn, Option.map_some, List.filter_eq_self.mpr]
  intro y hy
  exact decide_eq_true fun hm => not_live_of_dead (hfresh y hm) (ha.up_of_mem hn hy).live

/-- A response is parsed and loses its scripts. What is left below its `fragment` shows
`contentTrees body`. -/
theorem prepare_spec (ha : a.Sound) (body : String)
    (hfit : (stateAfter (Markup.parse body) a).Fits) :
    ∃ fragment a₁ count x, (Markup.parse body).run a = .ok fragment a₁ ∧
      (Markup.removeByTag fragment "script").run a₁ = .ok count x ∧
      Prepared a x fragment (x.children fragment) (contentTrees body) := by
  obtain ⟨fragment, a₁, hrun₁, hplanted⟩ := Markup.parse_spec ha body hfit
  obtain ⟨count, x, ids, hrun₂, hpruned, hbelow, hshows⟩ :=
    removeByTag_spec hplanted.sound fragment "script"
  -- all that lies under the fragment is new, so no node of before is removed
  have hdead : ∀ n, a₁.Under fragment n → a.get? n = none := fun n hn =>
    dead_of_under_fresh ha.forest hplanted.kept.parent? hplanted.fresh hn
  have hnot : ∀ d ∈ ids, ¬ a₁.Under d fragment := fun d hd hunder =>
    hplanted.sound.forest.acyclic d (Relation.TransGen.trans_left (hbelow d hd) hunder)
  have hkept : Kept a x := hplanted.kept.pruned ha.forest hpruned fun d hd =>
    hdead d (hbelow d hd).under
  have hx := hshows _ hplanted.shows
  obtain ⟨node, hnode, -, htrees⟩ := hx.get?
  have htop : x.parent? fragment = none := by
    rw [hpruned.parent hnot, hplanted.top]
  have hforest := hpruned.sound.forest
  refine ⟨fragment, a₁, count, x, hrun₁, hrun₂, ?_⟩
  constructor
  case sound => exact hpruned.sound
  case kept => exact hkept
  case fresh_fragment => exact hplanted.fresh
  case live => exact hx.live
  case top => exact htop
  case children => exact fun n hn => hn
  case apart => exact fun hn => absurd (Under.refl fragment) (hforest.not_under_child hn)
  case fresh =>
    intro n hn
    exact dead_of_under_fresh ha.forest hkept.parent? hplanted.fresh
      (Up.under (hforest.parent_of_mem hn))
  case nodup => exact hforest.nodup_children fragment
  case loose => exact fun n hn => Or.inl (hforest.parent_of_mem hn)
  case shows =>
    rw [children_of_get? hnode]
    rwa [children_without] at htrees
  case tops =>
    intro n hn
    exact (hplanted.tops n (hpruned.isTop hn).1).imp_right Or.inr

/-- Read in an empty arena, a response has `contentTrees body` at the top. -/
theorem tree?_removeByTag_parse (body : String)
    (hfit : (stateAfter (Markup.parse body) empty).Fits) :
    ∃ fragment a count b t, (Markup.parse body).run empty = .ok fragment a ∧
      (Markup.removeByTag fragment "script").run a = .ok count b ∧
      b.tree? fragment = some t ∧ t.children = contentTrees body := by
  obtain ⟨fragment, a, hparse, hplanted⟩ := Markup.parse_spec sound_empty body hfit
  obtain ⟨count, b, ids, hremove, hpruned, -, hshows⟩ :=
    removeByTag_spec hplanted.sound fragment "script"
  exact ⟨fragment, a, count, b, _, hparse, hremove,
    (hshows _ hplanted.shows).tree? hpruned.sound.forest, children_without body⟩

/-- Where a response has no nodes, an empty comment can take their place, `[id]` for `[]`. -/
theorem Prepared.comment (h : Prepared a x fragment [] trees) {id : NodeId}
    (hc : Created x b (.comment "") id) :
    Prepared a b fragment [id] [.node (.comment "") []] := by
  obtain ⟨node, hnode⟩ := isLive_iff.mp h.live
  -- making the comment leaves the fragment as it is, with no children
  have hnode' := hc.get?_of_live hnode
  constructor
  case sound => exact hc.sound
  case kept => exact h.kept.trans hc.kept
  case fresh_fragment => exact h.fresh_fragment
  case live => exact isLive_iff.mpr ⟨node, hnode'⟩
  case top =>
    have htop := h.top
    rw [parent?_of_get? hnode] at htop
    rw [parent?_of_get? hnode', htop]
  case children =>
    intro n hn
    have hnil := h.children n
    rw [children_of_get? hnode] at hnil
    rw [children_of_get? hnode'] at hn
    exact absurd (hnil hn) List.not_mem_nil
  case apart =>
    intro hn
    obtain rfl := List.mem_singleton.mp hn
    exact not_live_of_dead hc.fresh h.live
  case fresh =>
    intro n hn
    obtain rfl := List.mem_singleton.mp hn
    exact h.kept.dead hc.fresh
  case nodup => exact List.nodup_singleton id
  case loose =>
    intro n hn
    obtain rfl := List.mem_singleton.mp hn
    exact Or.inr ⟨by rw [parent?_of_get? hc.get?_self], rfl⟩
  case shows =>
    exact showsAll_singleton_iff.mpr
      (shows_node.mpr ⟨_, hc.get?_self, rfl, showsAll_nil_iff.mpr rfl⟩)
  case tops =>
    intro n hn
    rcases hc.isTop hn with rfl | hn
    · exact Or.inr (Or.inl List.mem_cons_self)
    · rcases h.tops n hn with rfl | hnil | hn
      · exact Or.inl rfl
      · exact absurd hnil List.not_mem_nil
      · exact Or.inr (Or.inr hn)

/-- The prepared nodes `news` fit into the place of any `olds` with one parent. -/
theorem Prepared.replaces (ha : a.Sound) (h : Prepared a x fragment news trees)
    (hparent : a.isLive parent) (holds : ∀ d ∈ olds, a.parent? d = some parent) :
    x.Replaces parent olds news := by
  have hlive : ∀ d ∈ olds, a.isLive d := fun d hd => Up.live (holds d hd)
  have hne : ∀ n, a.get? n = none → ∀ d ∈ olds, n ≠ d := by
    rintro n hn d hd rfl
    exact not_live_of_dead hn (hlive n hd)
  constructor
  case parent_eq => exact fun d hd => (h.kept.parent? d (hlive d hd)).trans (holds d hd)
  case nodup => exact h.nodup
  case live => exact h.shows.live
  case not_above =>
    intro n hn hunder
    have hdead := dead_of_under_fresh ha.forest h.kept.parent? (h.fresh n hn) hunder
    exact not_live_of_dead hdead hparent
  case apart =>
    intro n hn d hd hunder
    -- above a new node there is nothing but the fragment, which is new as well
    have hnd := hne n (h.fresh n hn) d hd
    rcases h.loose n hn with hup | ⟨htop, -⟩
    · rcases (under_iff_of_up hup).mp hunder with he | hunder
      · exact hnd he
      · exact hne fragment h.fresh_fragment d hd ((under_iff_of_top h.top).mp hunder)
    · exact hnd ((under_iff_of_top htop).mp hunder)
  case antichain =>
    intro n hn m hm hunder
    rcases h.loose m hm with hup | ⟨-, hone⟩
    · rcases (under_iff_of_up hup).mp hunder with he | hunder
      · exact he.symm
      · obtain rfl := (under_iff_of_top h.top).mp hunder
        exact absurd hn h.apart
    · rw [hone] at hn
      exact List.mem_singleton.mp hn

/-! ### The exchange -/

/-- Seen from the nodes that `a` has, `b` is `a` with `news` in the place of `olds`, of which `r` is
the last; the new nodes show `trees`. -/
structure Exchanged (a b : Arena) (parent r : NodeId) (olds news : List NodeId)
    (trees : List Tree) : Prop where
  sound : b.Sound
  fresh : ∀ n ∈ news, a.get? n = none
  content : ∀ n, a.isLive n → (∀ d ∈ olds, ¬ a.Under d n) →
    b.content? n = (a.content? n).map fun c => (c.1, swap r olds news c.2)
  parent_eq : ∀ n, a.isLive n → (∀ d ∈ olds, ¬ a.Under d n) → b.parent? n = a.parent? n
  news_parent : ∀ n ∈ news, b.parent? n = some parent
  shows : b.ShowsAll news trees
  tops : ∀ n, b.IsTop n → a.IsTop n

/-- Freeing a node `id` without a parent changes nothing but what lies under it. -/
theorem Freed.get?_of_top (hf : a.Forest) {id n : NodeId} (h : Freed a b id)
    (htop : a.parent? id = none) (hn : ¬ a.Under id n) : b.get? n = a.get? n := by
  rw [h.kept n hn]
  cases hget : a.get? n with
  | none => rfl
  | some node =>
    have hne : n ≠ id := fun he => hn (he ▸ Under.refl _)
    have hlisted : ∀ y ∈ node.children, y ≠ id := by
      rintro y hy rfl
      have hup : a.parent? y = some n := hf.up_of_mem hget hy
      rw [htop] at hup
      exact absurd hup (by simp)
    rw [Option.map_some, cut, if_neg hne,
      List.filter_eq_self.mpr fun y hy => decide_eq_true (hlisted y hy)]

section Prepared

variable (ha : a.Sound) (h : Prepared a x fragment news trees)
  (holds : ∀ d ∈ olds, a.parent? d = some parent) (hs : Spliced x c parent r olds news)

include h

theorem Prepared.ne_fragment {n : NodeId} (hn : a.isLive n) : n ≠ fragment := by
  rintro rfl
  exact not_live_of_dead h.fresh_fragment hn

include holds in
/-- What goes is not above the fragment: `¬ x.Under d fragment`. -/
theorem Prepared.fragment_apart : ∀ d ∈ olds, ¬ x.Under d fragment := fun d hd hunder =>
  h.ne_fragment (Up.live (holds d hd)) ((under_iff_of_top h.top).mp hunder).symm

include ha

/-- A node `n` that is not under what goes is not under it either when the prepared nodes are
there. -/
theorem Prepared.stay {n : NodeId} (hn : a.isLive n) (hnot : ∀ d ∈ olds, ¬ a.Under d n) :
    ∀ d ∈ olds, ¬ x.Under d n := fun d hd hunder =>
  hnot d hd (under_of_parents_kept ha.forest h.kept.parent? hn hunder)

include hs

/-- What stays keeps its parent: `c.parent? n = a.parent? n`. -/
theorem Prepared.parent?_spliced {n : NodeId} (hn : a.isLive n)
    (hnot : ∀ d ∈ olds, ¬ a.Under d n) : c.parent? n = a.parent? n := by
  have hnew : n ∉ news := fun hm => not_live_of_dead (h.fresh n hm) hn
  rw [hs.parent_eq n (h.stay ha hn hnot), if_neg hnew, h.kept.parent? n hn]

theorem Prepared.content?_spliced {n : NodeId} (hn : a.isLive n)
    (hnot : ∀ d ∈ olds, ¬ a.Under d n) :
    c.content? n = (a.content? n).map fun c => (c.1, swap r olds news c.2) := by
  rw [hs.content n (h.stay ha hn hnot), h.kept.content? hn]
  cases hc : a.content? n with
  | none => rfl
  | some content =>
    have hold : ∀ y ∈ content.2, y ∉ news := fun y hy hm =>
      not_live_of_dead (h.fresh y hm)
        (Up.live (ha.forest.parent_of_mem (p := n) (by rwa [content?_children n hc])))
    rw [Option.map_some, Option.map_some,
      List.filter_eq_self.mpr fun y hy => decide_eq_true (hold y hy)]

/-- The fragment is not above what stays: `¬ c.Under fragment n`. -/
theorem Prepared.not_under_fragment {n : NodeId} (hn : a.isLive n)
    (hnot : ∀ d ∈ olds, ¬ a.Under d n) : ¬ c.Under fragment n := by
  intro hunder
  -- the way up from `n` is the same as before, and the fragment was not on it
  induction hunder using Relation.ReflTransGen.head_induction_on with
  | refl => exact h.ne_fragment hn rfl
  | @head m p hmp _ ih =>
    have hmp' : a.Up m p := by rwa [Up, ← h.parent?_spliced ha hs hn hnot]
    exact ih (hmp'.parent_live ha.forest) fun d hd hdp => hnot d hd (hdp.trans hmp'.under)

end Prepared

/-- When `news` have taken the place of `olds`, the fragment is freed, and they are exchanged. -/
theorem Prepared.exchanged (ha : a.Sound) (h : Prepared a x fragment news trees)
    (hparent : a.isLive parent) (holds : ∀ d ∈ olds, a.parent? d = some parent)
    (hs : Spliced x c parent r olds news) :
    ∃ b, (free fragment).run c = .ok () b ∧ Exchanged a b parent r olds news trees := by
  have hreplaces := h.replaces ha hparent holds
  have hloose := h.fragment_apart holds
  have htop : c.parent? fragment = none := by
    rw [hs.parent_eq fragment hloose, if_neg h.apart, h.top]
  have hnews : ∀ n ∈ news, c.parent? n = some parent := fun n hn => by
    rw [hs.parent_eq n fun d hd => hreplaces.apart n hn d hd, if_pos hn]
  -- the fragment is empty by now: it stands apart from all nodes that matter
  have hold : ∀ n, a.isLive n → (∀ d ∈ olds, ¬ a.Under d n) → ¬ c.Under fragment n :=
    fun n hn hnot => h.not_under_fragment ha hs hn hnot
  have hplace : ∀ d ∈ olds, ¬ a.Under d parent := fun d hd =>
    ha.forest.not_under_child (ha.forest.mem_of_parent (holds d hd))
  have hnew : ∀ n ∈ news, ¬ c.Under fragment n := fun n hn hunder => by
    rcases (under_iff_of_up (hnews n hn)).mp hunder with he | hunder
    · exact h.apart (he ▸ hn)
    · exact hold parent hparent hplace hunder
  have hlive : c.isLive fragment := by
    obtain ⟨node, hnode⟩ := isLive_iff.mp h.live
    have hcontent := congrArg Option.isSome (hs.content fragment hloose)
    rwa [Option.isSome_map, content?, content?, Option.isSome_map, Option.isSome_map,
      hnode] at hcontent
  obtain ⟨hdead, -⟩ | ⟨-, b, hrun, hfreed⟩ := free_spec hs.sound fragment
  · exact absurd hlive (not_live_of_dead hdead)
  have hsame : ∀ n, ¬ c.Under fragment n → b.get? n = c.get? n := fun n hn =>
    hfreed.get?_of_top hs.sound.forest htop hn
  refine ⟨b, hrun, ?_⟩
  constructor
  case sound => exact hfreed.sound
  case fresh => exact h.fresh
  case content =>
    intro n hn hnot
    rw [content?_eq_of_get? (hsame n (hold n hn hnot)), h.content?_spliced ha hs hn hnot]
  case parent_eq =>
    intro n hn hnot
    rw [parent?, hsame n (hold n hn hnot), ← parent?, h.parent?_spliced ha hs hn hnot]
  case news_parent =>
    intro n hn
    rw [parent?, hsame n (hnew n hn), ← parent?, hnews n hn]
  case shows =>
    -- nothing is under both a new node and the fragment, since neither is under the other
    refine (hs.shows trees h.shows).frame hs.sound.forest fun m hm n hmn => ?_
    refine content?_eq_of_get? (hsame n fun hunder => ?_)
    rcases hmn.linear hunder with hunder | hunder
    · exact h.apart ((under_iff_of_top htop).mp hunder ▸ hm)
    · exact hnew m hm hunder
  case tops =>
    intro n hn
    obtain ⟨hn, hgone⟩ := (hfreed.pruned hfreed.sound.pruned_nil).isTop hn
    rcases h.tops n (hs.tops n hn) with rfl | hmem | hn'
    · exact absurd (Under.refl n) (hgone n List.mem_cons_self)
    · have hup := hnews n hmem
      rw [hn.2] at hup
      exact absurd hup (by simp)
    · exact hn'

/-- What is above a node that stays was there before, and above it. -/
theorem Exchanged.under {top n : NodeId} (h : Exchanged a b parent r olds news trees)
    (hf : a.Forest) (hn : a.isLive n) (hnot : ∀ d ∈ olds, ¬ a.Under d n) (hunder : b.Under top n) :
    a.isLive top ∧ a.Under top n := by
  induction hunder using Relation.ReflTransGen.head_induction_on with
  | refl => exact ⟨hn, Under.refl top⟩
  | @head m p hmp _ ih =>
    have hmp' : a.Up m p := by rwa [Up, ← h.parent_eq m hn hnot]
    obtain ⟨hlive, hp⟩ :=
      ih (hmp'.parent_live hf) fun d hd hdp => hnot d hd (hdp.trans hmp'.under)
    exact ⟨hlive, hp.trans hmp'.under⟩

/-- Of the children of what stays, `olds` give way to `news`: `swap r olds news`. -/
theorem Exchanged.children {n : NodeId} (h : Exchanged a b parent r olds news trees)
    (hn : a.isLive n) (hnot : ∀ d ∈ olds, ¬ a.Under d n) :
    b.isLive n ∧ b.children n = swap r olds news (a.children n) := by
  obtain ⟨node, hnode⟩ := isLive_iff.mp hn
  have hcontent := h.content n hn hnot
  rw [content?, content?, hnode, Option.map_some, Option.map_some,
    Option.map_eq_some_iff] at hcontent
  obtain ⟨node', hnode', he⟩ := hcontent
  obtain ⟨-, hchildren⟩ := Prod.mk.inj he
  refine ⟨isLive_iff.mpr ⟨node', hnode'⟩, ?_⟩
  rw [children_of_get? hnode', children_of_get? hnode, hchildren]

end Arena

end Inlay
