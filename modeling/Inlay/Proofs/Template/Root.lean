import Inlay.Proofs.Markup.Plain
import Inlay.Proofs.Arena.Exchange
import Inlay.Proofs.Arena.Reachable
import Inlay.Proofs.Template.Pick

/-!
# The root of a template

A template is the only element on the top level of its source. That element is taken out of the
fragment that it was parsed into, the fragment is freed with all that is left in it, and blank texts
are removed.

* `canonicalRoot_spec`: this succeeds just if there is one such element, and then the arena has its
  tree without blank texts and nothing else.
-/

namespace Inlay

/-- The elements on the top level. -/
def Tree.elements (t : Tree) : List Tree :=
  t.children.filter (·.kind.element?.isSome)

namespace Arena

variable {a b : Arena}

theorem ShowsAll.filter_isElement {ts : List Tree} {ids : List NodeId} (h : a.ShowsAll ids ts) :
    a.ShowsAll (ids.filter a.isElement) (ts.filter (·.kind.element?.isSome)) := by
  induction ts generalizing ids with
  | nil =>
    rw [showsAll_nil_iff.mp h]
    exact showsAll_nil_iff.mpr rfl
  | cons t ts ih =>
    obtain ⟨id, rest, rfl, ht, hts⟩ := showsAll_cons_iff.mp h
    obtain ⟨node, hget, hkind, -⟩ := ht.get?
    have helement : a.isElement id = t.kind.element?.isSome := by rw [isElement_of_get? hget, hkind]
    have hrest := ih hts
    cases hcase : t.kind.element?.isSome with
    | true =>
      rw [List.filter_cons_of_pos (helement.trans hcase), List.filter_cons_of_pos (by exact hcase)]
      exact showsAll_cons_iff.mpr ⟨id, _, rfl, ht, hrest⟩
    | false =>
      rw [List.filter_cons_of_neg (by rw [helement, hcase]; simp),
        List.filter_cons_of_neg (by rw [hcase]; simp)]
      exact hrest

/-- A node that is taken out of its parent shows the same tree `t` as before. -/
theorem Detached.shows (hf : a.Forest) {id : NodeId} (h : Detached a b id) {t : Tree}
    (ht : a.Shows id t) : b.Shows id t := by
  refine ht.frame hf fun n hn => ?_
  rw [content?, content?, h.view]
  cases hget : a.get? n with
  | none => rfl
  | some node =>
    -- its parent is not under it
    have hlisted : ∀ c ∈ node.children, c ≠ id := by
      rintro c hc rfl
      exact hf.acyclic c (Relation.TransGen.head' (hf.up_of_mem hget hc) hn)
    rw [Option.map_some, Option.map_some, Option.map_some, cut,
      List.filter_eq_self.mpr fun c hc => decide_eq_true (hlisted c hc)]

end Arena

namespace Template

open Arena (Planted)

variable {a : Arena} {source : String} {root fragment : NodeId}

/-- The only top-level element of a fragment is made a tree of its own. -/
def isolate (root fragment : NodeId) : TreeM Unit := do
  Arena.detach root
  Arena.free fragment
  Markup.stripBlankTexts root

theorem grows_isolate (root fragment : NodeId) : Arena.Grows (isolate root fragment) :=
  (Arena.grows_detach root).bind fun _ => (Arena.grows_free fragment).bind fun _ =>
    Arena.grows_stripBlankTexts root

/-- An element `root` that is taken out of a fragment stands alone when the fragment is freed, and
shows `r` as before. -/
theorem exists_freed {t r : Tree} (h : Planted .empty a fragment t)
    (hmem : root ∈ a.children fragment) (hr : a.Shows root r) :
    ∃ a₁ a₂, (Arena.detach root).run a = .ok () a₁ ∧ (Arena.free fragment).run a₁ = .ok () a₂ ∧
      a₂.Sound ∧ a₂.Shows root r ∧ a₂.parent? root = none ∧ ∀ n, a₂.IsTop n → n = root := by
  have hf := h.sound.forest
  obtain ⟨a₁, hrun₁, hdetached⟩ := Arena.detach_spec h.sound root
  have hf₁ := hdetached.sound.forest
  have hparent₁ := fun n => Arena.parent?_of_cut (hdetached.view n)
  have hr₁ : a₁.Shows root r := hdetached.shows hf hr
  have hne : fragment ≠ root := by
    rintro rfl
    exact hf.not_under_child hmem (Arena.Under.refl fragment)
  have htop₁ : a₁.parent? root = none := by rw [hparent₁, if_pos rfl]
  have hfragment₁ : a₁.parent? fragment = none := by rw [hparent₁, if_neg hne, h.top]
  rcases Arena.free_spec hdetached.sound fragment with ⟨hdead, -⟩ | ⟨-, a₂, hrun₂, hfreed⟩
  · obtain ⟨node, hnode⟩ := Arena.isLive_iff.mp h.shows.live
    rw [hdetached.view, hnode] at hdead
    exact absurd hdead (by simp)
  have hapart : ∀ n, a₁.Under root n → ¬ a₁.Under fragment n := by
    intro n hrootn hfragmentn
    rcases hrootn.linear hfragmentn with hunder | hunder
    · exact hne ((Arena.under_iff_of_top hfragment₁).mp hunder)
    · exact hne ((Arena.under_iff_of_top htop₁).mp hunder).symm
  have hkept₂ : ∀ n, a₁.Under root n → a₂.get? n = a₁.get? n := fun n hn =>
    hfreed.get?_of_top hf₁ hfragment₁ (hapart n hn)
  have hr₂ : a₂.Shows root r := hr₁.frame hf₁ fun n hn => Arena.content?_eq_of_get? (hkept₂ n hn)
  have htop₂ : a₂.parent? root = none := by
    rw [hfreed.parent? (hapart root (Arena.Under.refl root)), htop₁]
  refine ⟨a₁, a₂, hrun₁, hrun₂, hfreed.sound, hr₂, htop₂, ?_⟩
  -- every other node without a parent was the fragment or in nothing at all
  rintro n ⟨hlive, htop⟩
  have hnot₁ : ¬ a₁.Under fragment n := fun hunder =>
    Arena.not_live_of_dead (hfreed.gone n hunder) hlive
  by_contra hnroot
  rw [hfreed.parent? hnot₁, hparent₁, if_neg hnroot] at htop
  have hlive₁ : a.isLive n := by
    rw [Arena.isLive, hfreed.kept n hnot₁, hdetached.view, Option.isSome_map, Option.isSome_map]
      at hlive
    exact hlive
  obtain rfl := h.eq_of_isTop ⟨hlive₁, htop⟩
  exact hnot₁ (Arena.Under.refl n)

/-- An element in a fragment that has been parsed is all that is left in the end, without blank
texts: `r.stripped`. -/
theorem isolate_spec {t r : Tree} (h : Planted .empty a fragment t)
    (hmem : root ∈ a.children fragment) (hr : a.Shows root r) (hnot : r.kind.isBlank = false) :
    ∃ b, (isolate root fragment).run a = .ok () b ∧ Planted .empty b root r.stripped := by
  obtain ⟨a₁, a₂, hrun₁, hrun₂, hsound₂, hr₂, htop₂, htops₂⟩ := exists_freed h hmem hr
  obtain ⟨b, ids, hrun₃, hpruned, hbelow, hshows⟩ := Arena.stripBlankTexts_spec hsound₂ hr₂ hnot
  refine ⟨b, ?_, ?_⟩
  · rw [isolate, run_bind_of_ok hrun₁, run_bind_of_ok hrun₂, hrun₃]
  have hroot : ∀ d ∈ ids, ¬ a₂.Under d root := by
    intro d hd hunder
    obtain rfl := (Arena.under_iff_of_top htop₂).mp hunder
    exact hsound₂.forest.acyclic _ (hbelow _ hd)
  constructor
  case sound => exact hpruned.sound
  case kept =>
    intro n node hn
    rw [Arena.get?_empty] at hn
    exact absurd hn (by simp)
  case fresh => exact Arena.get?_empty root
  case top =>
    rw [Arena.parent?, hpruned.kept root hroot, ← htop₂, Arena.parent?]
    cases a₂.get? root <;> rfl
  case shows => exact hshows
  case tops => exact fun n hn => Or.inl (htops₂ n (hpruned.isTop hn).1)

/-- Parsing takes no more slots than what is left of it in `a`, as none are dropped. -/
theorem fits_parse_of_canonicalRoot (h : canonicalRoot source = .ok (root, a)) (hfit : a.Fits) :
    (stateAfter (Markup.parse source) .empty).Fits := by
  unfold canonicalRoot at h
  cases hparse : (Markup.parse source).run .empty with
  | error fault a₁ =>
    rw [hparse] at h
    exact absurd h (by simp)
  | ok fragment a₁ =>
    rw [hparse] at h
    simp only at h
    split at h
    · exact absurd h (by simp)
    · rename_i top _
      split at h
      · rename_i a₂ hclean
        obtain ⟨rfl, rfl⟩ := Prod.mk.inj (Except.ok.inj h)
        have hclean' : (isolate top fragment).run a₁ = .ok () a₂ := hclean
        have hgrows := grows_isolate top fragment a₁
        rw [stateAfter_of_ok hclean'] at hgrows
        rw [stateAfter_of_ok hparse]
        exact hfit.mono hgrows
      · exact absurd h (by simp)
    · exact absurd h (by simp)

/-- There is a root if the source has one element `r` on its top level, and only then. -/
theorem canonicalRoot_spec (hfit : (stateAfter (Markup.parse source) .empty).Fits) :
    (∃ r root a, (Markup.treeOf (Markup.tokenize source)).elements = [r] ∧
      canonicalRoot source = .ok (root, a) ∧ Planted .empty a root r.stripped) ∨
    (∀ r, (Markup.treeOf (Markup.tokenize source)).elements ≠ [r]) ∧
      ∃ e, canonicalRoot source = .error e := by
  obtain ⟨fragment, a, hparse, hplanted⟩ := Markup.parse_spec Arena.sound_empty source hfit
  obtain ⟨node, hget, -, hcs⟩ := hplanted.shows.get?
  rw [← Arena.children_of_get? hget] at hcs
  -- The elements among the nodes are the elements among the trees, one for one.
  have hrow := hcs.filter_isElement
  rw [← Arena.elementChildren, ← Tree.elements] at hrow
  have hlength := hrow.length_eq
  unfold canonicalRoot
  rw [hparse]
  simp only
  split
  · rename_i hnil
    refine Or.inr ⟨fun r hr => ?_, _, rfl⟩
    rw [hnil, hr] at hlength
    exact absurd hlength (by simp)
  · rename_i root hroot
    rw [hroot] at hrow hlength
    obtain ⟨r, hr⟩ := List.length_eq_one_iff.mp hlength.symm
    rw [hr, Arena.showsAll_singleton_iff] at hrow
    have hmem : root ∈ a.elementChildren fragment := hroot ▸ List.mem_singleton_self root
    have hr' : r ∈ (Markup.treeOf (Markup.tokenize source)).elements :=
      hr ▸ List.mem_singleton_self r
    -- Only a text is cut off as blank, and the root is an element.
    have hnot : r.kind.isBlank = false := by
      have helement := (List.mem_filter.mp hr').2
      cases hkind : r.kind with
      | text s =>
        rw [hkind] at helement
        exact absurd helement (by simp [NodeKind.element?])
      | element e => rfl
      | comment s => rfl
      | fragment => rfl
    obtain ⟨b, hrun, hplanted'⟩ := isolate_spec hplanted (List.mem_filter.mp hmem).1 hrow hnot
    refine Or.inl ⟨r, root, b, hr, ?_, hplanted'⟩
    rw [isolate] at hrun
    rw [hrun]
  · rename_i hnil hone
    refine Or.inr ⟨fun r hr => ?_, _, rfl⟩
    rw [hr, List.length_singleton] at hlength
    obtain ⟨root, hroot⟩ := List.length_eq_one_iff.mp hlength
    exact hone root hroot

/-- The root of a template stands in an arena of its own, and shows `r.stripped`. -/
theorem planted_canonicalRoot (h : canonicalRoot source = .ok (root, a)) (hfit : a.Fits) :
    ∃ r, (Markup.treeOf (Markup.tokenize source)).elements = [r] ∧
      Planted .empty a root r.stripped := by
  obtain ⟨r, root', a', hr, hok, hplanted⟩ | ⟨-, e, herror⟩ :=
    canonicalRoot_spec (fits_parse_of_canonicalRoot h hfit)
  · rw [h] at hok
    obtain ⟨rfl, rfl⟩ := Prod.mk.inj (Except.ok.inj hok)
    exact ⟨r, hr, hplanted⟩
  · rw [h] at herror
    exact absurd herror (by simp)

end Template

end Inlay
