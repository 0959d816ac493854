import Inlay.Proofs.Arena.Listeners
import Inlay.Scene.Dispatch

/-!
# Which placeholders an event reaches, and in what order

An event reaches the subscriptions for it at its target and above (`Instance.Hears`), nearest first
and in the order in which they were made within a node (`Nearer`). A placeholder can have several of
them; what counts is the one that the event comes to first, and so each placeholder is reached once
(`Instance.Reaches`). `reaches_reachedBy` shows that `reachedBy` computes just that.
-/

namespace Inlay

namespace Instance

variable {i : Instance} {target : NodeId} {event : String}

/-- The subscription is for the event, at its target or above. -/
structure Hears (i : Instance) (target : NodeId) (event : String) (l : Listening Position) :
    Prop where
  active : l ∈ i.listeners.active
  event_eq : l.event = event
  under : i.arena.Under l.node target

/-- Each placeholder that has a subscription for the event, at its target or above, is there once. A
placeholder comes before another if one of its subscriptions is nearer than all of the other's. -/
structure Reaches (i : Instance) (target : NodeId) (event : String) (ps : List Position) :
    Prop where
  nodup : ps.Nodup
  mem_iff : ∀ p, p ∈ ps ↔ ∃ l, i.Hears target event l ∧ l.listener = p
  ordered : ps.Pairwise fun p q => ∃ l, i.Hears target event l ∧ l.listener = p ∧
    ∀ m, i.Hears target event m → m.listener = q → Nearer i.arena l m

/-! ### Each of them once -/

/-- Of equal images the first one stays, so an image `p` in front of `q` is that of an `x` in front
of all with the image `q`. -/
theorem pairwise_eraseDups_map {α β : Type} [DecidableEq β] {R : α → α → Prop} (f : α → β)
    {l : List α} (h : l.Pairwise R) : (l.map f).eraseDups.Pairwise fun p q =>
      p ≠ q ∧ ∃ x ∈ l, f x = p ∧ ∀ y ∈ l, f y = q → R x y := by
  match l with
  | [] => simp
  | a :: l =>
    obtain ⟨hfirst, hrest⟩ := List.pairwise_cons.mp h
    -- what has the same image as the first one is left out
    have hothers : (l.map f).filter (fun p => !p == f a) = (l.filter fun x => f x ≠ f a).map f := by
      rw [List.filter_map]
      refine congrArg (List.map f) (List.filter_congr fun x _ => ?_)
      by_cases hx : f x = f a <;> simp [hx]
    have hkept : ∀ {p : β}, p ∈ ((l.filter fun x => f x ≠ f a).map f).eraseDups → p ≠ f a := by
      intro p hp
      obtain ⟨x, hx, rfl⟩ := List.mem_map.mp (List.mem_eraseDups.mp hp)
      exact of_decide_eq_true (List.mem_filter.mp hx).2
    have hmem : ∀ {y : α} {q : β}, y ∈ a :: l → f y = q → q ≠ f a → y ∈ l := by
      rintro y q hy rfl hne
      exact (List.mem_cons.mp hy).resolve_left fun he => hne (he ▸ rfl)
    rw [List.map_cons, List.eraseDups_cons, hothers, List.pairwise_cons]
    constructor
    · intro q hq
      refine ⟨(hkept hq).symm, a, List.mem_cons_self, rfl, fun y hy hyq => ?_⟩
      exact hfirst y (hmem hy hyq (hkept hq))
    · have ih := pairwise_eraseDups_map f (hrest.filter fun x => f x ≠ f a)
      refine ih.imp_of_mem fun {p q} _ hq hpq => ?_
      obtain ⟨hne, x, hx, hxp, hbefore⟩ := hpq
      refine ⟨hne, x, List.mem_cons_of_mem a (List.mem_of_mem_filter hx), hxp, fun y hy hyq => ?_⟩
      have hya : f y ≠ f a := hyq ▸ hkept hq
      exact hbefore y (List.mem_filter.mpr ⟨hmem hy hyq (hkept hq), decide_eq_true hya⟩) hyq
termination_by l.length
decreasing_by exact Nat.lt_succ_of_le (List.length_filter_le _ _)

/-! ### The way of an event -/

/-- What an event reaches at `target` is what `Hears` it there. -/
theorem mem_reached (hf : i.arena.Forest) {l : Listening Position} :
    l ∈ i.listeners.reached i.arena target event ↔ i.Hears target event l := by
  rw [Listeners.mem_reached hf]
  constructor
  · rintro ⟨hactive, hevent, hunder⟩
    exact ⟨hactive, hevent, hunder⟩
  · rintro ⟨hactive, hevent, hunder⟩
    exact ⟨hactive, hevent, hunder⟩

/-- The list `reachedBy` is what the event reaches, nearest first, each once. -/
theorem reaches_reachedBy (hf : i.arena.Forest) (hordered : i.listeners.Ordered) :
    i.Reaches target event (i.reachedBy target event) := by
  have hreached : (i.listeners.reached i.arena target event).Pairwise (Nearer i.arena) :=
    Listeners.pairwise_reached hf hordered
  have hpairwise := pairwise_eraseDups_map (·.listener) hreached
  constructor
  case nodup => exact hpairwise.imp And.left
  case mem_iff =>
    intro p
    rw [reachedBy, List.mem_eraseDups, List.mem_map]
    simp only [mem_reached hf]
  case ordered =>
    refine hpairwise.imp fun {p q} hpq => ?_
    obtain ⟨-, l, hl, hlp, hbefore⟩ := hpq
    exact ⟨l, (mem_reached hf).mp hl, hlp, fun m hm => hbefore m ((mem_reached hf).mpr hm)⟩

/-- There is only one way in which an event comes to what it reaches: `ps = qs`. -/
theorem Reaches.unique (hf : i.arena.Forest) {ps qs : List Position}
    (h : i.Reaches target event ps) (h' : i.Reaches target event qs) : ps = qs := by
  have hperm : ps.Perm qs := (List.perm_ext_iff_of_nodup h.nodup h'.nodup).mpr fun p =>
    (h.mem_iff p).trans (h'.mem_iff p).symm
  refine hperm.eq_of_pairwise (fun p q _ _ hpq hqp => ?_) h.ordered h'.ordered
  obtain ⟨l, hl, hlp, hfirst⟩ := hpq
  obtain ⟨m, hm, hmq, hsecond⟩ := hqp
  exact absurd (hsecond l hl hlp) ((hfirst m hm hmq).asymm hf)

/-- Above a node that is gone there is nothing, but what was subscribed at the node itself,
`l.node = target`, is still reached. -/
theorem hears_iff_of_dead (hdead : i.arena.get? target = none) {l : Listening Position} :
    i.Hears target event l ↔
      l ∈ i.listeners.active ∧ l.event = event ∧ l.node = target := by
  have htop : i.arena.Under l.node target ↔ target = l.node :=
    Arena.under_iff_of_top (Arena.parent?_of_dead hdead)
  constructor
  · rintro ⟨hactive, hevent, hunder⟩
    exact ⟨hactive, hevent, (htop.mp hunder).symm⟩
  · rintro ⟨hactive, hevent, hnode⟩
    exact ⟨hactive, hevent, htop.mpr hnode.symm⟩

end Instance

end Inlay
