import Inlay.Proofs.Template.Compiled
import Inlay.Proofs.Template.Nesting

/-!
# What can be compiled

Whether a source can be compiled, said about the tree that it is parsed to (`Tree.IsTemplate`), and
what comes of it: `compile_iff`. All placeholders count for that, also those that the walk which
numbers elements passes by.
-/

namespace Inlay

open Template (isPlaceholder placeholdersBelow)

/-- `r` is the only element on the top level. It is a placeholder or contains some, none of them
inside another, and all have the attributes of one. -/
structure Tree.IsTemplate (t r : Tree) : Prop where
  elements_eq : t.elements = [r]
  placeholders_ne : r.placeholders ≠ []
  unnested : r.Unnested
  eligible : ∀ e ∈ r.placeholders, e.Eligible r.kind.placeholder?.isSome

theorem Tree.Plain.children {t : Tree} (h : t.Plain) : Tree.PlainAll t.children := by
  obtain ⟨kind, cs⟩ := t
  cases kind with
  | element e => exact h
  | text s =>
    obtain rfl : cs = [] := h
    trivial
  | comment s =>
    obtain rfl : cs = [] := h
    trivial
  | fragment => exact absurd h not_false

namespace Template

variable {a : Arena} {root : NodeId} {t : Template} {r : Tree} {source : String}

/-! ### The elements of a template -/

/-- Whether a placeholder lies inside another one is decided at `elements a root`, which are
validated. If none does, these are all placeholders of the tree `r`. -/
theorem elements_spec (hf : a.Forest) (hshows : a.Shows root r) (hplain : r.Plain) :
    (r.Unnested ↔ ∀ x ∈ elements a root, (a.descendants x.2).any (isPlaceholder a) = false) ∧
    (r.Unnested →
      List.Forall₂ (fun x e => a.element? x.2 = some e) (elements a root) r.placeholders) := by
  obtain ⟨kind, cs⟩ := r
  obtain ⟨node, hget, hkind, hcs⟩ := Arena.shows_node.mp hshows
  have hroot : isPlaceholder a root = kind.placeholder?.isSome := by
    rw [Arena.isPlaceholder_eq_isSome hget, hkind]
  cases hcase : kind.placeholder? with
  | some e =>
    rw [hcase, Option.isSome_some] at hroot
    -- the root is what the walk would find first, if it began there
    have hfound : Arena.found a 0 (.node kind cs) root = elements a root := by
      rw [elements, if_pos hroot]
      cases kind with
      | element e' =>
        rw [Arena.placeholder?_element] at hcase
        split at hcase
        · rename_i htag
          rw [Arena.found, if_pos htag]
        · exact absurd hcase (by simp)
      | text s => exact absurd hcase (by simp [NodeKind.placeholder?, NodeKind.element?])
      | comment s => exact absurd hcase (by simp [NodeKind.placeholder?, NodeKind.element?])
      | fragment => exact absurd hplain not_false
    rw [← hfound]
    exact ⟨Arena.unnested_iff_found hf hplain hshows,
      fun hunnested => Arena.forall₂_found hplain hunnested hshows⟩
  | none =>
    rw [hcase, Option.isSome_none] at hroot
    rw [← Arena.children_of_get? hget] at hcs
    have helements : elements a root = Arena.foundAll a 0 cs (a.children root) := by
      rw [elements, hroot, if_neg (by simp), Arena.placeholdersBelow_eq hf hshows, Tree.children]
    rw [helements, Tree.Unnested, Tree.placeholders, hcase, Option.toList_none, List.nil_append]
    simp only [ne_eq, not_true_eq_false, false_imp_iff, true_and]
    exact ⟨Arena.unnestedAll_iff_found hf hplain.children hcs,
      fun hunnested => Arena.forall₂_foundAll hplain.children hunnested hcs⟩

/-- There are no fragments in an element `r` of a markup text. -/
theorem plain_of_elements_eq (h : (Markup.treeOf (Markup.tokenize source)).elements = [r]) :
    r.Plain := by
  have hmem : r ∈ (Markup.treeOf (Markup.tokenize source)).elements := h ▸ List.mem_singleton_self r
  exact Tree.plainAll_iff.mp (Markup.plainAll_treeOf _) r (List.mem_filter.mp hmem).1

theorem exists_forall₂ {α β : Type} {R : α → β → Prop} : ∀ {xs : List α}, (∀ x ∈ xs, ∃ y, R x y) →
    ∃ ys, List.Forall₂ R xs ys
  | [], _ => ⟨[], .nil⟩
  | x :: xs, h => by
    obtain ⟨y, hy⟩ := h x List.mem_cons_self
    obtain ⟨ys, hys⟩ := exists_forall₂ fun z hz => h z (List.mem_cons_of_mem x hz)
    exact ⟨y :: ys, .cons hy hys⟩

/-- If `xs` agrees with `ys` and with `zs`, one by one, `ys` agrees with `zs`. -/
theorem forall₂_of_common {α β γ : Type} {R : α → β → Prop} {S : α → γ → Prop} {T : β → γ → Prop}
    (hT : ∀ x y z, R x y → S x z → T y z) : ∀ {xs : List α} {ys : List β} {zs : List γ},
    List.Forall₂ R xs ys → List.Forall₂ S xs zs → List.Forall₂ T ys zs
  | _, _, _, .nil, .nil => .nil
  | _, _, _, .cons hy hys, .cons hz hzs => .cons (hT _ _ _ hy hz) (forall₂_of_common hT hys hzs)

/-- The elements pass if no placeholder lies inside another one and all are eligible,
`e.Eligible single`. -/
theorem exists_examined_iff (hf : a.Forest) (hshows : a.Shows root r) (hplain : r.Plain)
    (single : Bool) :
    (∃ xs, List.Forall₂ (fun y x => Examined a single y.1 y.2 x) (elements a root) xs) ↔
      r.Unnested ∧ ∀ e ∈ r.placeholders, e.Eligible single := by
  obtain ⟨hunnested, hall⟩ := elements_spec hf hshows hplain
  constructor
  · rintro ⟨xs, hxs⟩
    have hpasses : ∀ y ∈ elements a root, ∃ x, Examined a single y.1 y.2 x := fun y hy => by
      obtain ⟨x, -, hx⟩ := exists_of_mem_forall₂ hxs.flip hy
      exact ⟨x, hx⟩
    have hr : r.Unnested := hunnested.mpr fun y hy => by
      obtain ⟨x, hx⟩ := hpasses y hy
      exact hx.unnested
    refine ⟨hr, fun e he => ?_⟩
    obtain ⟨y, hy, hye⟩ := exists_of_mem_forall₂ (hall hr) he
    obtain ⟨x, hx⟩ := hpasses y hy
    obtain ⟨e', he', hread⟩ := hx.exists_element
    obtain rfl : e' = e := Option.some.inj (he'.symm.trans hye)
    exact (Element.eligible_iff y.1).mpr ⟨x, hread⟩
  · rintro ⟨hr, heligible⟩
    refine exists_forall₂ fun y hy => ?_
    obtain ⟨e, he, hye⟩ := exists_of_mem_forall₂ (hall hr).flip hy
    obtain ⟨x, hx⟩ := (Element.eligible_iff y.1).mp (heligible e he)
    exact ⟨x, hunnested.mp hr y hy, e, hye, hx⟩

/-! ### Compiling -/

/-- What `compile` makes of a tree whose only top-level element is `r`. -/
structure MadeFrom (t : Template) (r : Tree) : Prop where
  single_eq : t.single = r.kind.placeholder?.isSome
  tree_eq : t.arena.tree? t.root = some r.stripped
  /-- There is nothing else in the arena. -/
  mem : ∀ n, t.arena.isLive n → n ∈ t.root :: t.arena.descendants t.root
  placeholders : List.Forall₂ (fun x e => x.ReadFrom e t.single) t.placeholders r.placeholders

theorem isPlaceholder_root (h : a.Shows root r.stripped) :
    isPlaceholder a root = r.kind.placeholder?.isSome := by
  obtain ⟨node, hget, hkind, -⟩ := h.get?
  rw [Arena.isPlaceholder_eq_isSome hget, hkind, Tree.kind_stripped]

/-- A template that was compiled is made from the only element on the top level, `r`. -/
theorem Compiled.madeFrom (h : Compiled source t) (hplain : r.Plain)
    (hplanted : Arena.Planted .empty t.arena t.root r.stripped) : MadeFrom t r := by
  have hf := hplanted.sound.forest
  have hplain' := hplain.stripped
  obtain ⟨hunnested, -⟩ := (exists_examined_iff hf hplanted.shows hplain' _).mp ⟨_, h.examined⟩
  have hall := (elements_spec hf hplanted.shows hplain').2 hunnested
  rw [hplain.placeholders_stripped.1] at hall
  constructor
  case single_eq => rw [h.single_eq, isPlaceholder_root hplanted.shows]
  case tree_eq => exact hplanted.shows.tree? hf
  case mem =>
    intro n hn
    rw [hf.mem_cons_descendants]
    exact hplanted.under hn
  case placeholders =>
    refine forall₂_of_common ?_ h.examined hall
    intro y x e hx he
    obtain ⟨e', he', hread⟩ := hx.exists_element
    obtain rfl : e' = e := Option.some.inj (he'.symm.trans he)
    exact (Placeholder.ofElement_ok_iff.mp hread).2

/-- A source that has `r` as its only top-level element can be compiled if `r` is a template. -/
theorem exists_compiled_iff {f : Tree} (htop : f.elements = [r])
    (hcanonical : canonicalRoot source = .ok (root, a)) (hplain : r.Plain)
    (hplanted : Arena.Planted .empty a root r.stripped) :
    (∃ t, Compiled source t) ↔ source ≠ "" ∧ f.IsTemplate r := by
  have hf := hplanted.sound.forest
  have hplain' := hplain.stripped
  obtain ⟨hplaceholders, hunnested⟩ := hplain.placeholders_stripped
  have hexamined := exists_examined_iff hf hplanted.shows hplain'
    r.kind.placeholder?.isSome
  have hall := (elements_spec hf hplanted.shows hplain').2
  rw [hplaceholders, hunnested] at hexamined hall
  -- the walk may pass placeholders by, but then it has found the ones around them
  have hne : r.Unnested → (elements a root ≠ [] ↔ r.placeholders ≠ []) := by
    intro hr
    have hlength := (hall hr).length_eq
    rw [← List.length_pos_iff, ← List.length_pos_iff, hlength]
  have hsingle := isPlaceholder_root hplanted.shows
  constructor
  · rintro ⟨⟨arena, root', single, xs⟩, hempty, hroot, hsame, helements, hxs⟩
    rw [hcanonical] at hroot
    obtain ⟨rfl, rfl⟩ := Prod.mk.inj (Except.ok.inj hroot)
    obtain rfl : single = _ := hsame.trans hsingle
    obtain ⟨hr, heligible⟩ := hexamined.mp ⟨xs, hxs⟩
    exact ⟨by simpa using hempty, htop, (hne hr).mp helements, hr, heligible⟩
  · rintro ⟨hsource, -, hplaceholders, hr, heligible⟩
    have hempty : source.isEmpty = false := by simpa using hsource
    obtain ⟨xs, hxs⟩ := hexamined.mpr ⟨hr, heligible⟩
    exact ⟨⟨a, root, _, xs⟩, hempty, hcanonical, hsingle.symm, (hne hr).mpr hplaceholders, hxs⟩

/-- **What can be compiled.** A text is parsed to a tree in any case, and it can be compiled if it
is not empty and that tree is a template. Then the template is the only top-level element without
blank texts, alone in its arena, and its placeholders are those of the tree in document order, as
their attributes say. -/
theorem compile_iff (hfit : (stateAfter (Markup.parse source) .empty).Fits) (ds : List Diagnostic) :
    ∃ fragment a f, (Markup.parse source).run .empty = .ok fragment a ∧ a.tree? fragment = some f ∧
      ((∃ t ds', (compile source).run ds = .ok t ds') ↔ source ≠ "" ∧ ∃ r, f.IsTemplate r) ∧
      ∀ t ds', (compile source).run ds = .ok t ds' → ∃ r, f.IsTemplate r ∧ t.MadeFrom r := by
  obtain ⟨fragment, a, hparse, hplanted⟩ := Markup.parse_spec Arena.sound_empty source hfit
  refine ⟨fragment, a, _, hparse, hplanted.shows.tree? hplanted.sound.forest, ?_⟩
  simp only [compile_ok_iff]
  obtain ⟨r, root, a', helements, hcanonical, hplanted'⟩ | ⟨hnone, e, herror⟩ :=
    canonicalRoot_spec hfit
  · have hplain := plain_of_elements_eq helements
    have hiff := exists_compiled_iff helements hcanonical hplain hplanted'
    constructor
    · rw [hiff]
      constructor
      · exact fun h => ⟨h.1, r, h.2⟩
      · rintro ⟨hsource, r', hr'⟩
        obtain rfl : r = r' := List.singleton_inj.mp (helements.symm.trans hr'.elements_eq)
        exact ⟨hsource, hr'⟩
    · intro t ds' hcompile
      have hcompiled := compiled_compile hcompile
      have hroot := hcompiled.root_eq
      rw [hcanonical] at hroot
      obtain ⟨rfl, rfl⟩ := Prod.mk.inj (Except.ok.inj hroot)
      exact ⟨r, (hiff.mp ⟨t, hcompiled⟩).2, hcompiled.madeFrom hplain hplanted'⟩
  · -- without a single root nothing else is looked at
    have hfails : ∀ t, ¬ Compiled source t := fun t ht => by
      have hroot := ht.root_eq
      rw [herror] at hroot
      exact absurd hroot (by simp)
    refine ⟨⟨fun ⟨t, ht⟩ => absurd ht (hfails t), fun ⟨_, r, hr⟩ => ?_⟩, fun t ds' hcompile => ?_⟩
    · exact absurd hr.elements_eq (hnone r)
    · exact absurd (compiled_compile hcompile) (hfails t)

/-- A placeholder with a trigger, and a blank text in front of it. -/
theorem madeFrom_of_trigger :
    (stateAfter (Markup.parse
      "<i> <request src=a method=Put after=x:b mode=One></request><b></b></i>") .empty).Fits ∧
    ∃ (t : Template) (ds : List Diagnostic) (f r : Tree),
      (compile "<i> <request src=a method=Put after=x:b mode=One></request><b></b></i>").run [] =
        .ok t ds ∧
      t.placeholders.map (·.method) = [.put] ∧ f.IsTemplate r ∧ t.MadeFrom r := by
  have hfit : (stateAfter (Markup.parse
      "<i> <request src=a method=Put after=x:b mode=One></request><b></b></i>") .empty).Fits := by
    decide +kernel
  have hcompiles : (outcome (compile
      "<i> <request src=a method=Put after=x:b mode=One></request><b></b></i>") []).toOption.any
        (fun t => decide (t.placeholders.map (·.method) = [.put])) = true := by
    decide +kernel
  obtain ⟨t, ds, hcompile, hmethod⟩ := exists_of_any_outcome hcompiles
  obtain ⟨fragment, a, f, -, -, -, hmade⟩ := compile_iff hfit []
  obtain ⟨r, hr, hmade⟩ := hmade t ds hcompile
  exact ⟨hfit, t, ds, f, r, hcompile, of_decide_eq_true hmethod, hr, hmade⟩

end Template

end Inlay
