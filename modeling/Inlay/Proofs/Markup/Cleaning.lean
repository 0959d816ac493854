import Inlay.Proofs.Arena.Preorder
import Inlay.Proofs.Markup.Strip

/-!
# Cleaning

Two operations take nodes out of what was parsed. What they leave is the arena without these nodes
(`Arena.Thinned`): the others have their kinds, parents and order as before.

* `removed_of_reachable`: removing the elements of a tag below a node takes out these elements with
  all that is inside them, and counts those that are not inside another one;
* `stripped_of_reachable`: stripping takes out the blank texts at and below a node on whose way up
  to it nothing preserves white space, and stripping again takes out nothing.
-/

namespace Inlay

namespace Arena

variable {a b : Arena} {ids : List NodeId} {gone : NodeId → Prop}

/-! ### What is left -/

/-- `b` is `a` without the nodes of which `gone` holds. -/
structure Thinned (a b : Arena) (gone : NodeId → Prop) : Prop where
  get?_eq_none_iff : ∀ n, b.get? n = none ↔ a.get? n = none ∨ gone n
  kind_eq : ∀ n, ¬ gone n → b.kind? n = a.kind? n
  parent_eq : ∀ n, ¬ gone n → b.parent? n = a.parent? n
  /-- The children that are left stand in the order in which they stood. -/
  children_eq : ∀ n, b.children n = (a.children n).filter b.isLive
  /-- So does everything that is left below a node. -/
  descendants_eq : ∀ top, b.descendants top = (a.descendants top).filter b.isLive

/-- A walk skips what is gone, if nothing is left below that: it visits `out.filter b.isLive`. -/
theorem Visits.filter_isLive {agenda out : List NodeId} (h : a.Visits agenda out)
    (hchildren : ∀ n, b.children n = (a.children n).filter b.isLive) :
    b.Visits (agenda.filter b.isLive) (out.filter b.isLive) := by
  induction h with
  | done => exact .done
  | @visit n agenda out _ ih =>
    rw [List.filter_append, ← hchildren] at ih
    by_cases hn : b.isLive n = true
    · rw [List.filter_cons_of_pos hn, List.filter_cons_of_pos hn]
      exact .visit ih
    · have hdead : b.get? n = none := by rwa [isLive, Option.not_isSome_iff_eq_none] at hn
      rw [children_of_dead hdead, List.nil_append] at ih
      rwa [List.filter_cons_of_neg hn, List.filter_cons_of_neg hn]

/-- The children that are left are those that are live in `b`. -/
theorem Pruned.children_eq (h : Pruned a b ids) (hf : a.Forest) (n : NodeId) :
    b.children n = (a.children n).filter b.isLive := by
  by_cases hgone : ∃ d ∈ ids, a.Under d n
  · -- what was below a node that is gone is gone as well
    obtain ⟨d, hd, hunder⟩ := hgone
    rw [children_of_dead (h.gone n ⟨d, hd, hunder⟩), eq_comm, List.filter_eq_nil_iff]
    intro c hc
    have hup : a.Up c n := hf.parent_of_mem hc
    exact not_live_of_dead (h.gone c ⟨d, hd, hunder.trans hup.under⟩)
  · have hkept : ∀ d ∈ ids, ¬ a.Under d n := fun d hd hunder => hgone ⟨d, hd, hunder⟩
    have hlisted : b.children n = (a.children n).filter (· ∉ ids) := by
      rw [children, children, h.kept n hkept]
      cases a.get? n <;> rfl
    rw [hlisted]
    refine List.filter_congr fun c hc => ?_
    have hup : a.Up c n := hf.parent_of_mem hc
    obtain ⟨node, hnode⟩ := isLive_iff.mp hup.live
    -- the node itself is left, so a child goes just if it is one of `ids`
    by_cases hmem : c ∈ ids
    · rw [isLive, h.gone c ⟨c, hmem, Under.refl c⟩]
      simp [hmem]
    · have hkeptc : ∀ d ∈ ids, ¬ a.Under d c := by
        intro d hd hunder
        rcases (under_iff_of_up hup).mp hunder with rfl | hunder
        · exact hmem hd
        · exact hkept d hd hunder
      rw [isLive, h.kept c hkeptc, hnode]
      simp [hmem]

/-- What is pruned is thinned by all that is under one of `ids`. -/
theorem Pruned.thinned (h : Pruned a b ids) (hf : a.Forest)
    (hgone : ∀ n, gone n ↔ ∃ d ∈ ids, a.Under d n) : Thinned a b gone := by
  have hkept : ∀ n, ¬ gone n → b.get? n = (a.get? n).map fun node =>
      { node with children := node.children.filter (· ∉ ids) } := fun n hn =>
    h.kept n fun d hd hunder => hn ((hgone n).mpr ⟨d, hd, hunder⟩)
  constructor
  case get?_eq_none_iff =>
    intro n
    by_cases hn : gone n
    · simp [hn, h.gone n ((hgone n).mp hn)]
    · simp [hn, hkept n hn]
  case kind_eq =>
    intro n hn
    rw [kind?, kind?, hkept n hn]
    cases a.get? n <;> rfl
  case parent_eq =>
    intro n hn
    rw [parent?, parent?, hkept n hn]
    cases a.get? n <;> rfl
  case children_eq => exact h.children_eq hf
  case descendants_eq =>
    intro top
    have hvisits := (hf.visits_descendants top).filter_isLive (h.children_eq hf)
    rw [← h.children_eq hf] at hvisits
    exact hvisits.descendants_eq h.sound.forest

theorem Thinned.isLive_iff (h : Thinned a b gone) {n : NodeId} :
    b.isLive n = true ↔ a.isLive n = true ∧ ¬ gone n := by
  have hdead := h.get?_eq_none_iff n
  rw [isLive, isLive, ← not_iff_not, Option.not_isSome_iff_eq_none, hdead, not_and_or, not_not,
    Option.not_isSome_iff_eq_none]

/-- Below a node is what was below it and is live in `b`. -/
theorem Thinned.below_iff (h : Thinned a b gone) (ha : a.Forest) (hb : b.Forest) {top n : NodeId} :
    b.Below top n ↔ a.Below top n ∧ b.isLive n = true := by
  rw [← hb.mem_descendants, h.descendants_eq, List.mem_filter, ha.mem_descendants]

/-! ### Counting what was freed -/

/-- Freeing `id` changes nothing about what is below what, but for what is under `id`. -/
theorem Freed.below_iff {id top n : NodeId} (h : Freed a b id) (hn : ¬ a.Under id n) :
    b.Below top n ↔ a.Below top n := by
  have hup : ∀ p, b.Up n p ↔ a.Up n p := fun p => by rw [Up, Up, h.parent? hn]
  rw [Below, Below, Relation.TransGen.head'_iff, Relation.TransGen.head'_iff]
  refine exists_congr fun p => ?_
  rw [hup]
  refine and_congr_right fun hnp => h.under_iff fun hp => hn ?_
  exact hp.trans hnp.under

theorem Freed.below_of_below {id top n : NodeId} (h : Freed a b id) (hbelow : b.Below top n) :
    a.Below top n := by
  obtain ⟨p, hup, -⟩ := Relation.TransGen.head'_iff.mp hbelow
  exact (h.below_iff fun hn => not_live_of_dead (h.gone n hn) hup.live).mp hbelow

/-- If no node of the list comes after one below it, those that `freeLive` counts are the ones that
are not below another. -/
theorem freeLive_count : ∀ {ids : List NodeId} {a b : Arena} {count : Nat}, a.Sound → ids.Nodup →
    (ids.Pairwise fun x y => ¬ a.Below y x) → (freeLive ids).run a = .ok count b →
    ∃ tops : List NodeId, tops.Nodup ∧ tops.length = count ∧
      ∀ n, n ∈ tops ↔ n ∈ ids ∧ a.isLive n = true ∧ ∀ d ∈ ids, ¬ a.Below d n
  | [], a, b, count, _, _, _, hrun => by
    injection hrun with hcount _
    exact ⟨[], List.nodup_nil, hcount, by simp⟩
  | id :: ids, a, b, count, h, hnd, horder, hrun => by
    rw [List.nodup_cons] at hnd
    rw [List.pairwise_cons] at horder
    unfold freeLive at hrun
    rw [run_bind_of_ok (EStateM.run_get ..)] at hrun
    rcases free_spec h id with ⟨hdead, -⟩ | ⟨hlive, a₁, hrun₁, hfreed⟩
    · -- it went with another one and is passed over; nothing is below it any more
      rw [if_neg (not_live_of_dead hdead)] at hrun
      obtain ⟨tops, htops, hcount, hmem⟩ := freeLive_count h hnd.2 horder.2 hrun
      refine ⟨tops, htops, hcount, fun n => ?_⟩
      have hnone : ¬ a.Below id n := fun hbelow => by
        obtain ⟨c, hc, -⟩ := (below_iff h.forest).mp hbelow
        rw [children_of_dead hdead] at hc
        exact List.not_mem_nil hc
      rw [hmem, List.forall_mem_cons, and_iff_right hnone, List.mem_cons]
      refine and_congr_left fun hn => (or_iff_right ?_).symm
      rintro rfl
      exact not_live_of_dead hdead hn.1
    · rw [if_pos hlive, run_bind_of_ok hrun₁] at hrun
      obtain ⟨count₁, b₁, hrest, hrun⟩ := exists_of_run_bind_eq_ok hrun
      injection hrun with hcount _
      have horder₁ : ids.Pairwise fun x y => ¬ a₁.Below y x :=
        horder.2.imp fun hnot hbelow => hnot (hfreed.below_of_below hbelow)
      obtain ⟨tops, htops, hlength, hmem⟩ := freeLive_count hfreed.sound hnd.2 horder₁ hrest
      refine ⟨id :: tops, ?_, ?_, fun n => ?_⟩
      · exact List.nodup_cons.mpr ⟨fun hid => hnd.1 ((hmem id).mp hid).1, htops⟩
      · rw [List.length_cons, hlength, hcount]
      · rw [List.mem_cons, hmem, List.mem_cons, List.forall_mem_cons]
        by_cases hn : n = id
        · subst hn
          refine iff_of_true (Or.inl rfl) ⟨Or.inl rfl, hlive, h.forest.acyclic n, horder.1⟩
        · rw [or_iff_right hn, or_iff_right hn]
          refine and_congr_right fun _ => ?_
          by_cases hunder : a.Under id n
          · -- freed together with `id`
            have hbelow := (under_iff_eq_or_below.mp hunder).resolve_left hn
            refine iff_of_false (fun hc => ?_) fun hc => hc.2.1 hbelow
            exact not_live_of_dead (hfreed.gone n hunder) hc.1
          · have hlive₁ : a₁.isLive n = a.isLive n := by
              rw [isLive, isLive, hfreed.kept n hunder, Option.isSome_map]
            have hnot : ¬ a.Below id n := fun hbelow => hunder hbelow.under
            rw [hlive₁, and_iff_right hnot]
            simp only [hfreed.below_iff hunder]

end Arena

namespace Markup

open Arena

variable {a : Arena}

/-! ### Removing elements by tag -/

/-- **Removing the elements of a tag never fails.** What is gone are these elements below the node,
with all that was inside them, and the count is that of the outermost ones. -/
theorem removed_of_reachable (h : Reachable a) (root : NodeId) (tag : String) :
    ∃ count b, (removeByTag root tag).run a = .ok count b ∧
      (∀ n, b.Below root n → b.hasTag n tag = false) ∧
      Thinned a b (fun n => ∃ d, a.Below root d ∧ a.hasTag d tag = true ∧ a.Under d n) ∧
      ∃ tops : List NodeId, tops.Nodup ∧ tops.length = count ∧
        ∀ n, n ∈ tops ↔ a.Below root n ∧ a.hasTag n tag = true ∧
          ∀ d, a.Below root d → a.hasTag d tag = true → ¬ a.Below d n := by
  have hf := h.sound.forest
  have hids : ∀ n, n ∈ (a.descendants root).filter (a.hasTag · tag) ↔
      a.Below root n ∧ a.hasTag n tag = true := fun n => by
    rw [List.mem_filter, hf.mem_descendants]
  have hnd := (hf.nodup_descendants root).filter (a.hasTag · tag)
  have horder := (hf.pairwise_descendants root).filter (a.hasTag · tag)
  have hrun : (removeByTag root tag).run a =
      (freeLive ((a.descendants root).filter (a.hasTag · tag))).run a := rfl
  rw [hrun]
  generalize (a.descendants root).filter (a.hasTag · tag) = ids at hids hnd horder
  obtain ⟨count, b, hfree, hpruned⟩ := freeLive_spec ids h.sound
  have hthinned : Thinned a b
      (fun n => ∃ d, a.Below root d ∧ a.hasTag d tag = true ∧ a.Under d n) :=
    hpruned.thinned hf fun n => by simp only [hids, and_assoc]
  obtain ⟨tops, htops, hcount, hmem⟩ := freeLive_count h.sound hnd horder hfree
  refine ⟨count, b, hfree, fun n hbelow => ?_, hthinned, tops, htops, hcount, fun n => ?_⟩
  · obtain ⟨hbelow, hlive⟩ := (hthinned.below_iff hf hpruned.sound.forest).mp hbelow
    obtain ⟨-, hkept⟩ := hthinned.isLive_iff.mp hlive
    have hsame : b.hasTag n tag = a.hasTag n tag := by
      rw [hasTag, tag?, element?, hthinned.kind_eq n hkept, hasTag, tag?, element?]
    rw [hsame, ← Bool.not_eq_true]
    exact fun htag => hkept ⟨n, hbelow, htag, Under.refl n⟩
  · simp only [hmem, hids, and_imp, and_assoc]
    refine and_congr_right fun hbelow => and_congr_right fun _ => and_iff_right ?_
    obtain ⟨p, hup, -⟩ := Relation.TransGen.head'_iff.mp hbelow
    exact hup.live

/-- The outermost of three is freed with one that is written in the other case inside it, so two are
counted. The order of the texts around them stays. -/
theorem removed_of_nested :
    let a := (Op.parse "<p><b>1<i><B>2</B></i></b>3<b></b>4</p>").after empty
    ∃ b, (removeByTag ⟨1, 0⟩ "b").run a = .ok 2 b ∧ b.isLive ⟨4, 0⟩ = false ∧
      b.children ⟨1, 0⟩ = (a.children ⟨1, 0⟩).filter b.isLive ∧
      ∃ tops : List NodeId, tops.length = 2 ∧ ⟨2, 0⟩ ∈ tops ∧ ⟨5, 0⟩ ∉ tops := by
  intro a
  have ha : Reachable a := .step _ .empty (by decide +kernel)
  have hf := ha.sound.forest
  obtain ⟨count, b, hrun, -, hthinned, tops, -, hlength, hmem⟩ :=
    removed_of_reachable ha ⟨1, 0⟩ "b"
  have hcount : (match (removeByTag ⟨1, 0⟩ "b").run a with
      | .ok count _ => count
      | .error _ _ => 0) = 2 := by decide +kernel
  rw [hrun] at hcount
  obtain rfl : count = 2 := hcount
  have hbelow : ∀ m n, n ∈ a.descendants m → a.Below m n := fun _ _ hn => hf.mem_descendants.mp hn
  have houter := hbelow ⟨1, 0⟩ ⟨2, 0⟩ (by decide +kernel)
  have hinside : a.Below ⟨2, 0⟩ ⟨4, 0⟩ := hbelow ⟨2, 0⟩ ⟨4, 0⟩ (by decide +kernel)
  have htag : a.hasTag ⟨2, 0⟩ "b" = true := by decide +kernel
  refine ⟨b, hrun, ?_, hthinned.children_eq ⟨1, 0⟩, tops, hlength, ?_, fun hinner => ?_⟩
  · rw [isLive, (hthinned.get?_eq_none_iff ⟨4, 0⟩).mpr (Or.inr ⟨_, houter, htag, hinside.under⟩)]
    rfl
  · refine (hmem _).mpr ⟨houter, htag, fun d hd htagd hbelow => ?_⟩
    have hd' := hf.mem_descendants.mpr hd
    have hnone : ∀ d ∈ a.descendants ⟨1, 0⟩, a.hasTag d "b" = true → ⟨2, 0⟩ ∉ a.descendants d := by
      decide +kernel
    exact hnone d hd' htagd (hf.mem_descendants.mpr hbelow)
  · exact ((hmem _).mp hinner).2.2 ⟨2, 0⟩ houter htag (hbelow _ _ (by decide +kernel))

/-! ### Stripping -/

/-- **Stripping never fails.** What is gone are the blank texts at and below the node that have no
element above them, up to the node, whose white space matters. Stripping again changes nothing. -/
theorem stripped_of_reachable (h : Reachable a) (root : NodeId) :
    ∃ b, (stripBlankTexts root).run a = .ok () b ∧ Thinned a b (a.Blank root) ∧
      (stripBlankTexts root).run b = .ok () b := by
  have hf := h.sound.forest
  obtain ⟨b, ids, hrun, hpruned, hids⟩ := exists_stripBlankTexts_run h.sound root
  have hb := hpruned.sound.forest
  have hthinned : Thinned a b (a.Blank root) := hpruned.thinned hf fun n => by
    constructor
    · exact fun hn => ⟨n, (hids n).mpr hn, Under.refl n⟩
    · rintro ⟨d, hd, hunder⟩
      rwa [eq_of_under_isBlank hf ((hids d).mp hd).blank hunder, ← hids]
  refine ⟨b, hrun, hthinned, ?_⟩
  have hnone : ∀ n, ¬ b.Blank root n := fun n hblank => by
    have hlive : b.isLive n = true := live_of_isBlank hblank.blank
    obtain ⟨-, hkept⟩ := hthinned.isLive_iff.mp hlive
    refine hkept ⟨?_, ?_, fun p hp hbelow => ?_⟩
    · rcases under_iff_eq_or_below.mp hblank.under with rfl | hbelow
      · exact Under.refl n
      · exact ((hthinned.below_iff hf hb).mp hbelow).1.under
    · rw [isBlank, ← hthinned.kind_eq n hkept]
      exact hblank.blank
    · -- what stands above a node that is left is left
      have hbelow' := (hthinned.below_iff hf hb).mpr ⟨hbelow, hlive⟩
      obtain ⟨c, -, hup⟩ := Relation.TransGen.tail'_iff.mp hbelow'
      have hplive : b.isLive p = true := Up.parent_live hb hup
      have hp' : b.Under root p := by
        rcases under_iff_eq_or_below.mp hp with rfl | hp
        · exact Under.refl p
        · exact ((hthinned.below_iff hf hb).mpr ⟨hp, hplive⟩).under
      have hexposed := hblank.exposed p hp' hbelow'
      rwa [isPreserving, hthinned.kind_eq p (hthinned.isLive_iff.mp hplive).2] at hexposed
  obtain ⟨ids', hcollect, -, hids'⟩ := exists_blankTexts hb root
  obtain rfl : ids' = [] := List.eq_nil_iff_forall_not_mem.mpr fun n hn => hnone n ((hids' n).mp hn)
  rw [stripBlankTexts, run_bind_of_ok (EStateM.run_get ..), hcollect]
  rfl

/-- A blank text in an ordinary element inside one that preserves white space stays, one beside it
goes, and so does a node that is a blank text itself. -/
theorem stripped_of_preserving :
    let a := (Op.parse "<div> <pre>\n<b>\t</b></pre></div>").after empty
    (∃ b, (stripBlankTexts ⟨0, 0⟩).run a = .ok () b ∧ b.isLive ⟨2, 0⟩ = false ∧
      b.isLive ⟨6, 0⟩ = true ∧ (stripBlankTexts ⟨0, 0⟩).run b = .ok () b) ∧
    ∃ b, (stripBlankTexts ⟨6, 0⟩).run a = .ok () b ∧ b.isLive ⟨6, 0⟩ = false := by
  intro a
  have ha : Reachable a := .step _ .empty (by decide +kernel)
  have hf := ha.sound.forest
  have hunder : ∀ m n, a.contains m n = true → a.Under m n := fun _ _ => hf.contains_iff.mp
  have hgone : ∀ {b root n}, Thinned a b (a.Blank root) → a.Blank root n → b.isLive n = false :=
    fun hthinned hblank => by
      rw [isLive, (hthinned.get?_eq_none_iff _).mpr (Or.inr hblank)]
      rfl
  obtain ⟨b, hrun, hthinned, hagain⟩ := stripped_of_reachable ha ⟨0, 0⟩
  obtain ⟨b', hrun', hthinned', -⟩ := stripped_of_reachable ha ⟨6, 0⟩
  refine ⟨⟨b, hrun, hgone hthinned ⟨hunder _ _ (by decide +kernel), by decide +kernel, ?_⟩,
    hthinned.isLive_iff.mpr ⟨by decide +kernel, fun hblank => ?_⟩, hagain⟩, b', hrun',
    hgone hthinned' ⟨Under.refl _, by decide +kernel, fun p hp hbelow => ?_⟩⟩
  · intro p _ hbelow
    have hnone : ∀ p ∈ a.pathToRoot ⟨2, 0⟩, a.isPreserving p = false := by decide +kernel
    exact hnone p (hf.mem_pathToRoot.mpr hbelow.under)
  · have hpre := hblank.exposed ⟨3, 0⟩ (hunder _ _ (by decide +kernel))
      (hf.mem_descendants.mp (by decide +kernel))
    exact absurd hpre (by decide +kernel)
  · exact absurd (Relation.TransGen.trans_left hbelow hp) (hf.acyclic _)

end Markup

end Inlay
