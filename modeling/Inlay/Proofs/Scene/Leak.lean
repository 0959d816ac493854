import Inlay.Proofs.Scene.Display

/-!
# Nothing is left over

Each response brings a fragment, the nodes in it, its scripts, and perhaps a comment that keeps a
place. Whatever of that is not shown afterwards is freed again: `mem_descendants_of_run`.

A node that is left over would be under a node without a parent, so it is enough to know these
(`Tidy`). In an instance whose template is a single placeholder that takes an invariant of its own
(`invariant_tidy`), in the others it is part of `Standing`.
-/

namespace Inlay.Scene

variable {σ : Type} {t : Template} {s : Scene σ} {observe : Observer σ}
  {responses : List (Position × Response)} {i j : Instance}

/-- Only the root and the response that is shown as a whole have no parent. -/
structure Tidy (i : Instance) : Prop where
  sound : i.arena.Sound
  root : i.arena.IsTop i.root
  fragment : ∀ f, i.fragment = some f → i.arena.IsTop f ∧ f ≠ i.root
  tops : ∀ n, i.arena.IsTop n → n = i.root ∨ i.fragment = some n

namespace Tidy

theorem sameContents (h : Tidy i) (hsame : SameContents i j) : Tidy j := by
  obtain ⟨hsound, hroot, hfragment, htops⟩ := h
  constructor
  · rwa [hsame.arena_eq]
  · rwa [hsame.arena_eq, hsame.root_eq]
  · rwa [hsame.arena_eq, hsame.root_eq, hsame.fragment_eq]
  · rwa [hsame.arena_eq, hsame.root_eq, hsame.fragment_eq]

/-- When `fragment` takes the place of another one, nothing of that is left over. -/
theorem renewed (h : Tidy i) {fragment : NodeId} (hrenewed : i.Renewed j fragment) : Tidy j := by
  obtain ⟨hroot, hshown⟩ : j.root = i.root ∧ j.fragment = some fragment := by
    rw [hrenewed.rest]
    exact ⟨rfl, rfl⟩
  constructor
  case sound => exact hrenewed.sound
  case root =>
    rw [hroot]
    exact hrenewed.kept i.root h.root fun he => (h.fragment i.root he).2 rfl
  case fragment =>
    intro f hf
    obtain rfl : fragment = f := Option.some.inj (hshown.symm.trans hf)
    refine ⟨hrenewed.top, ?_⟩
    rintro rfl
    rw [hroot] at hrenewed
    exact Arena.not_live_of_dead hrenewed.fresh h.root.1
  case tops =>
    intro n hn
    rw [hroot, hshown]
    -- the fragment that was shown before is not there any more
    rcases hrenewed.tops n hn with rfl | ⟨htop, hne⟩
    · exact Or.inr rfl
    · exact Or.inl ((h.tops n htop).resolve_right hne)

/-- Every live node is in `i.root` and its descendants, or in the fragment and its descendants. -/
theorem mem (h : Tidy i) {n : NodeId} (hn : i.arena.isLive n) :
    n ∈ i.root :: i.arena.descendants i.root ∨
      ∃ f, i.fragment = some f ∧ n ∈ f :: i.arena.descendants f := by
  obtain ⟨top, htop, hunder⟩ := h.sound.forest.exists_top hn
  rw [← h.sound.forest.mem_cons_descendants] at hunder
  rcases h.tops top htop with rfl | hfragment
  · exact Or.inl hunder
  · exact Or.inr ⟨top, hfragment, hunder⟩

end Tidy

theorem Copy.tidy {source : String} (hcompiled : Template.Compiled source t)
    (htemplate : t.arena.Fits) {id : Nat} (h : Copy t id i) (hfit : i.arena.Fits) : Tidy i := by
  obtain ⟨tree, -, hplanted⟩ := h.planted hcompiled htemplate hfit
  constructor
  case sound => exact hplanted.sound
  case root => exact ⟨hplanted.shows.live, hplanted.top⟩
  case fragment =>
    intro f hf
    rw [h.fragment_eq] at hf
    exact absurd hf (by simp)
  case tops => exact fun n hn => Or.inl (hplanted.eq_of_isTop hn)

/-- A turn leaves things tidy, if `home` is `.whole` everywhere. -/
theorem tidy_turn {home : Position → Destination} (hobserve : Tame t home observe)
    (hflow : Flow t home s) (hhome : ∀ p, home p = .whole) {id : TaskId} {task : Task}
    (hmem : (id, task) ∈ s.requests) (h : Tidy s.inst)
    (hfit : (s.turn observe id task).inst.arena.Fits) : Tidy (s.turn observe id task).inst := by
  rcases tree_turn hobserve hflow hmem with hsame | ⟨r, i, -, -, hbefore, hafter⟩
  · exact h.sameContents hsame
  · have hi := h.sameContents hbefore
    obtain ⟨x, -, hjob⟩ := hflow.jobs _ hmem
    rw [hafter.arena_eq] at hfit
    obtain ⟨ns, j, fragment, hrun, hrenewed⟩ := Instance.insertResponse_spec_of_whole hi.sound
      (hjob.destination.trans (hhome x.position)) (fun f hf => (hi.fragment f hf).1.1) hfit
    rw [stateAfter_of_ok hrun] at hafter
    exact (hi.renewed hrenewed).sameContents hafter

/-- After every run with `t.single = true` things are tidy. -/
theorem invariant_tidy {source : String} (hcompiled : Template.Compiled source t)
    (hsingle : t.single = true) (htemplate : t.arena.Fits) (hobserve : Lawful observe) :
    Invariant observe t fun home _ s =>
      (∀ p, home p = .whole) ∧ (s.inst.arena.Fits → Tidy s.inst) where
  opened hcopy _ hopened := by
    refine ⟨hcopy.home_eq_whole hsingle, fun hfit => ?_⟩
    rw [hopened.tree.arena_eq] at hfit
    exact (hcopy.tidy hcompiled htemplate hfit).sameContents hopened.tree
  fire p _ _ hquiet h := by
    refine ⟨h.1, fun hfit => ?_⟩
    rw [hquiet.tree.arena_eq] at hfit
    exact (h.2 hfit).sameContents hquiet.tree
  turn ht hflow hmem h := by
    have hobserve' := hobserve.tame ht
    refine ⟨h.1, fun hfit => ?_⟩
    have hbefore := h.2 (hfit.mono (size_le_turn hobserve' hflow hmem))
    exact tidy_turn hobserve' hflow h.1 hmem hbefore hfit
  elsewhere host memory pending _ h := by
    refine ⟨h.1, fun hfit => ?_⟩
    exact (h.2 hfit).sameContents ⟨⟨rfl, rfl, rfl, rfl⟩, rfl, fun _ => rfl⟩

/-- **No node is ever left over.** Between steps every live node is the root or below it, or, where
the template is a single placeholder, the response or below it; so otherwise the number of live
nodes is that of the nodes of the tree. -/
theorem mem_descendants_of_run {source : String} {ds ds' : List Diagnostic}
    (hcompile : (Template.compile source).run ds = .ok t ds') (htemplate : t.arena.Fits)
    (hobserve : Lawful observe) (hrun : Run observe t responses s) (hfit : s.inst.arena.Fits) :
    s.inst.arena.isLive s.inst.root ∧
      (∀ n, s.inst.arena.isLive n → n ∈ s.inst.root :: s.inst.arena.descendants s.inst.root ∨
        t.single = true ∧
          ∃ f, s.inst.fragment = some f ∧ n ∈ f :: s.inst.arena.descendants f) ∧
      (t.single = false →
        s.inst.arena.live = 1 + (s.inst.arena.descendants s.inst.root).length) := by
  have hcompiled := Template.compiled_compile hcompile
  cases hsingle : t.single with
  | true =>
    obtain ⟨home, -, -, -, -, h⟩ :=
      (invariant_tidy hcompiled hsingle htemplate hobserve).of_run hcompiled hobserve hrun
    have htidy := h hfit
    exact ⟨htidy.root.1, fun n hn => (htidy.mem hn).imp_right fun hf => ⟨rfl, hf⟩, by simp⟩
  | false =>
    obtain ⟨home, -, -, -, h⟩ :=
      (invariant_displays hcompiled hsingle htemplate hobserve).of_run hcompiled hobserve hrun
    obtain ⟨copy, tree, -, -, ⟨spots, hstanding, -⟩, -⟩ := h hfit
    have hf := hstanding.sound.forest
    have hunder : ∀ n, s.inst.arena.isLive n → s.inst.arena.Under s.inst.root n := fun n hn =>
      hf.under_of_only_top hstanding.tops hn
    refine ⟨hstanding.isLive_root, fun n hn => Or.inl (hf.mem_cons_descendants.mpr (hunder n hn)),
      ?_⟩
    exact fun _ => hstanding.sound.live_eq hfit hstanding.isLive_root hunder

/-- Of two responses to one placeholder and a script nothing is left but the comment that keeps the
place of the second. -/
theorem live_once_refreshed : ∃ (t : Template) (ds : List Diagnostic) (s : Scene Unit),
    (Template.compile "<i><b></b><request src=a after=click:b></request></i>").run [] = .ok t ds ∧
    Run (fun _ _ s => s) t [(1, ⟨200, "x<script></script>"⟩), (1, ⟨200, ""⟩)] s ∧
    s.inst.arena.html s.inst.root = "<i><b></b><!----></i>" ∧
    s.inst.arena.live = 1 + (s.inst.arena.descendants s.inst.root).length ∧
    ∀ n, s.inst.arena.isLive n → n ∈ s.inst.root :: s.inst.arena.descendants s.inst.root := by
  obtain ⟨t, ds, s, hcompile, hrun, hsingle, htemplate, hfit, hhtml⟩ := exists_run_refreshed
  have hrecording : Recording fun _ _ (s : Scene Unit) => s := fun _ _ s => ⟨s.memory, rfl⟩
  obtain ⟨-, hmem, hlive⟩ :=
    mem_descendants_of_run hcompile htemplate hrecording.lawful hrun hfit
  refine ⟨t, ds, s, hcompile, hrun, hhtml, hlive hsingle, fun n hn => ?_⟩
  refine (hmem n hn).resolve_right fun hwhole => ?_
  rw [hsingle] at hwhole
  exact absurd hwhole.1 (by simp)

end Inlay.Scene
