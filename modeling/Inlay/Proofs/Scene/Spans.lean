import Inlay.Proofs.Scene.Standing

/-!
# What an instance keeps about its placeholders

Regions and records name nodes of the tree by their ids, while the responses for other placeholders
free nodes and make others in their slots. `Spans t copy outputs spots i`: what the instance `i`
says about each placeholder of `t` is true of the nodes `spots` in its place, and these still stand
side by side where its element stood in `copy`, the instance when it was new.
-/

namespace Inlay

/-- The parent of the element of a placeholder. -/
def Instance.seat? (i : Instance) (p : Position) : Option NodeId :=
  (i.elements.lookup p).bind i.arena.parent?

namespace Scene

open Arena (Outputs Spots)

variable {t : Template} {home : Position → Destination} {tree : Tree} {outputs : Outputs}
  {spots : Spots} {copy i j : Instance} {x : Placeholder} {job : Job}

/-- The nodes in the place `p` stand side by side among the children of `seat`, which no response
for any placeholder removes. -/
structure Seated (t : Template) (spots : Spots) (i : Instance) (p : Position) (seat : NodeId) : Prop
    where
  live : i.arena.isLive seat
  children : ∃ pre post, i.arena.children seat = pre ++ spots p ++ post
  stays : ∀ y ∈ t.placeholders, ∀ d ∈ spots y.position, ¬ i.arena.Under d seat

structure Spans (t : Template) (copy : Instance) (outputs : Outputs) (spots : Spots)
    (i : Instance) : Prop where
  seated : ∀ x ∈ t.placeholders,
    ∃ seat, copy.seat? x.position = some seat ∧ Seated t spots i x.position seat
  /-- A region is kept for tracked placeholders only. -/
  untracked : ∀ x ∈ t.placeholders, x.isTracked = false → i.region? x.position = none
  unanswered : ∀ x ∈ t.placeholders, outputs x.position = none → i.response? x.position = none ∧
    ∃ e, copy.elements.lookup x.position = some e ∧ spots x.position = [e]
  /-- The response is recorded as it came, without the comment that keeps an empty place. -/
  answered : ∀ x ∈ t.placeholders, ∀ trees, outputs x.position = some trees →
    i.response? x.position = some (spots x.position) ∨ x.isTracked = true ∧
      i.response? x.position = some [] ∧ trees = [.node (.comment "") []]

/-- In a copy `spots` holds the element of each placeholder, below its seat. -/
theorem Copy.spans {id : Nat} (h : Copy t id i)
    (hstanding : Standing t i.home tree (fun _ => none) spots i) :
    Spans t i (fun _ => none) spots i := by
  have hf := hstanding.sound.forest
  -- the element of each placeholder, which has a parent
  have helement : ∀ x ∈ t.placeholders, ∃ e seat pre post, spots x.position = [e] ∧
      i.elements.lookup x.position = some e ∧ i.arena.parent? e = some seat ∧
      i.arena.children seat = pre ++ [e] ++ post := by
    intro x hx
    obtain ⟨e, hhome, hspots, -⟩ := hstanding.untouched x hx rfl
    obtain ⟨seat, pre, post, -, hchildren⟩ := hstanding.laid.place hf (hstanding.marked x hx)
    rw [hspots] at hchildren
    refine ⟨e, seat, pre, post, hspots, ?_, hf.parent_of_mem (by rw [hchildren]; simp), hchildren⟩
    rw [Instance.home] at hhome
    split at hhome
    · rename_i e' hlookup
      rw [hlookup, Destination.element.inj hhome]
    · exact absurd hhome (by simp)
  constructor
  case seated =>
    intro x hx
    obtain ⟨e, seat, pre, post, hspots, hlookup, hup, hchildren⟩ := helement x hx
    refine ⟨seat, by rw [Instance.seat?, hlookup, Option.bind_some, hup],
      Arena.Up.parent_live hf hup,
      ⟨pre, post, by rw [hchildren, hspots]⟩, fun y hy d hd hunder => ?_⟩
    have hde : i.arena.Under d e := hunder.trans (Arena.Up.under hup)
    by_cases hne : y.position = x.position
    · rw [hne, hspots, List.mem_singleton] at hd
      subst hd
      exact hf.not_under_child (hf.mem_of_parent hup) hunder
    · exact hstanding.laid.apart hf hne (hstanding.marked y hy) (hstanding.marked x hx) d hd e
        (by rw [hspots]; exact List.mem_cons_self) hde
  case untracked =>
    intro x _ _
    rw [Instance.region?, h.regions_eq, List.lookup_nil]
  case unanswered =>
    intro x hx _
    obtain ⟨e, -, -, -, hspots, hlookup, -⟩ := helement x hx
    exact ⟨h.response?_eq_none x.position, e, hlookup, hspots⟩
  case answered => exact fun x _ trees hsome => absurd hsome (by simp)

namespace Spans

theorem sameContents (h : Spans t copy outputs spots i) (hsame : SameContents i j) :
    Spans t copy outputs spots j := by
  have hregion : ∀ p, j.region? p = i.region? p := fun p => by
    rw [Instance.region?, hsame.regions_eq, ← Instance.region?]
  constructor
  case seated =>
    intro x hx
    obtain ⟨seat, hseat, hlive, hchildren, hstays⟩ := h.seated x hx
    refine ⟨seat, hseat, ?_, ?_, ?_⟩ <;> rwa [hsame.arena_eq]
  case untracked =>
    intro x hx htracked
    rw [hregion]
    exact h.untracked x hx htracked
  case unanswered =>
    intro x hx hnone
    rw [hsame.responses_eq]
    exact h.unanswered x hx hnone
  case answered =>
    intro x hx trees hsome
    rw [hsame.responses_eq]
    exact h.answered x hx trees hsome

section Answered

variable {body : String} {id parent r : NodeId} {news : List NodeId}

/-- Every placeholder `y` keeps its seat when the spot of `x` becomes `news`. -/
theorem seated_answered (hstanding : Standing t home tree outputs spots i)
    (hx : x ∈ t.placeholders) (hheld : i.Held job id parent r (spots x.position))
    (ha : i.Answered j job body parent r (spots x.position) news) {y : Placeholder}
    (hy : y ∈ t.placeholders) {seat : NodeId} (h : Seated t spots i y.position seat) :
    Seated t (Function.update spots x.position news) j y.position seat := by
  have hf := hstanding.sound.forest
  have hnot := h.stays x hx
  have hlast := List.mem_of_getLast? hheld.last
  obtain ⟨hlive, hchildren⟩ := ha.exchanged.children h.live hnot
  constructor
  case live => exact hlive
  case children =>
    obtain ⟨pre, post, hsplit⟩ := h.children
    -- The exchange takes the spots of `x` for the new nodes and no other spots with them.
    have hswap : Arena.swap r (spots x.position) news (spots y.position)
        = Function.update spots x.position news y.position := by
      by_cases hp : y.position = x.position
      · have hnd := hf.nodup_children seat
        rw [hsplit] at hnd
        have hnd' := (List.nodup_append.mp (List.nodup_append.mp hnd).1).2.1
        rw [hp] at hnd' ⊢
        rw [Function.update_self]
        refine Arena.swap_self hheld.last hnd' fun n hn hold => ?_
        exact Arena.not_live_of_dead (ha.exchanged.fresh n hn)
          (Arena.Up.live (hheld.parent_eq n hold))
      · rw [Function.update_of_ne hp]
        refine Arena.swap_of_disjoint hlast (fun n hn hold => ?_) news
        exact hstanding.laid.apart hf (Ne.symm hp) (hstanding.marked x hx) (hstanding.marked y hy) n
          hold n hn (Arena.Under.refl n)
    exact ⟨Arena.swap r (spots x.position) news pre, Arena.swap r (spots x.position) news post,
      by rw [hchildren, hsplit, Arena.swap_append, Arena.swap_append, hswap]⟩
  case stays =>
    intro z hz d hd hunder
    -- What stands under the seat afterwards and is not new stood under it before.
    obtain ⟨hdlive, hunder'⟩ := ha.exchanged.under hf h.live hnot hunder
    by_cases hp : z.position = x.position
    · rw [hp, Function.update_self] at hd
      exact Arena.not_live_of_dead (ha.exchanged.fresh d hd) hdlive
    · rw [Function.update_of_ne hp] at hd
      exact h.stays z hz d hd hunder'

/-- The spot of `x` is `news` and its output is that of `body`, when the response has been put
in. -/
theorem answered_of (h : Spans t copy outputs spots i)
    (hstanding : Standing t home tree outputs spots i) (ht : t.Housed home)
    (hx : x ∈ t.placeholders) (hjob : x.Describes home job)
    (hheld : i.Held job id parent r (spots x.position))
    (ha : i.Answered j job body parent r (spots x.position) news)
    (hrecord : (i.record? job.position).isSome) :
    Spans t copy (Function.update outputs x.position (some (outputTrees job.tracked body)))
      (Function.update spots x.position news) j := by
  have hresponse := ha.response?_eq hrecord
  rw [hjob.position] at hresponse
  constructor
  case seated =>
    intro y hy
    obtain ⟨seat, hseat, hseated⟩ := h.seated y hy
    exact ⟨seat, hseat, seated_answered hstanding hx hheld ha hy hseated⟩
  case untracked =>
    intro y hy htracked
    rw [ha.region, if_neg, h.untracked y hy htracked]
    rintro ⟨hjobtracked, hp⟩
    obtain rfl := ht.eq_of_position hy hx (hp.trans hjob.position)
    rw [hjob.tracked, htracked] at hjobtracked
    exact absurd hjobtracked (by simp)
  case unanswered =>
    intro y hy hnone
    have hp : y.position ≠ x.position := ne_of_update_eq_none hnone
    rw [Function.update_of_ne hp] at hnone ⊢
    rw [hresponse, if_neg hp]
    exact h.unanswered y hy hnone
  case answered =>
    intro y hy trees hsome
    by_cases hp : y.position = x.position
    · obtain rfl := ht.eq_of_position hy hx hp
      rw [Function.update_self, Option.some.injEq] at hsome
      rw [hresponse, if_pos rfl, Function.update_self, Instance.recorded]
      by_cases hempty : contentTrees body = []
      · rw [if_pos hempty]
        by_cases htracked : y.isTracked = true
        · refine Or.inr ⟨htracked, rfl, ?_⟩
          rw [← hsome, outputTrees, if_pos ⟨hjob.tracked.trans htracked, hempty⟩]
        · -- no nodes have come, and none keep the place
          have hlength := ha.exchanged.shows.length_eq
          rw [outputTrees, if_neg (fun hc => htracked (hjob.tracked.symm.trans hc.1)),
            hempty] at hlength
          rw [List.length_eq_zero_iff.mp hlength]
          exact Or.inl rfl
      · rw [if_neg hempty]
        exact Or.inl rfl
    · rw [Function.update_of_ne hp] at hsome ⊢
      rw [hresponse, if_neg hp]
      exact h.answered y hy trees hsome

end Answered

end Spans

end Scene

end Inlay
