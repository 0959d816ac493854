import Inlay.Proofs.Instance.Reached
import Inlay.Proofs.Scene.Unfailing

/-!
# Who is subscribed

Subscriptions are numbered as they are made and cancelled by their numbers. `Instance.Registered`
says that the registry is in order and that what a placeholder would cancel is its own; it holds
after every run (`registered_of_run`), and so a placeholder that stops listening takes along its own
subscriptions and no others (`active_standDown`).
-/

namespace Inlay

/-! ### Numbers -/

namespace Listeners

variable {α : Type} {r : Listeners α}

theorem Numbered.subscribeAll (event : String) (listener : α) : ∀ (nodes : List NodeId)
    {r : Listeners α}, r.Numbered → (r.subscribeAll event listener nodes).2.Numbered
  | [], _, h => h
  | node :: nodes, _, h => (h.subscribe node event listener).subscribeAll event listener nodes

theorem next_le_subscribeAll (event : String) (listener : α) : ∀ (nodes : List NodeId)
    (r : Listeners α), r.next ≤ (r.subscribeAll event listener nodes).2.next
  | [], _ => Nat.le_refl _
  | node :: nodes, r =>
    Nat.le_of_succ_le
      (next_le_subscribeAll event listener nodes (r.subscribe node event listener).2)

/-- The numbers of new subscriptions are from `r.next` on. -/
theorem number_subscribeAll (event : String) (listener : α) : ∀ (nodes : List NodeId)
    (r : Listeners α), ∀ s ∈ (r.subscribeAll event listener nodes).1,
      r.next ≤ s.number ∧ s.number < (r.subscribeAll event listener nodes).2.next
  | [], _, _, hs => absurd hs List.not_mem_nil
  | node :: nodes, r, s, hs => by
    have hnext := next_le_subscribeAll event listener nodes (r.subscribe node event listener).2
    rcases List.mem_cons.mp hs with rfl | hs
    · exact ⟨Nat.le_refl _, hnext⟩
    · obtain ⟨hle, hlt⟩ := number_subscribeAll event listener nodes _ s hs
      exact ⟨Nat.le_of_succ_le hle, hlt⟩

end Listeners

/-! ### Owners -/

namespace Instance

variable {i j : Instance}

/-- The registry is in order, and what a standby would cancel is its placeholder's. -/
structure Registered (i : Instance) : Prop where
  numbered : i.listeners.Numbered
  known : ∀ b ∈ i.standbys, ∀ s ∈ b.subscriptions, s.number < i.listeners.next
  owned : ∀ b ∈ i.standbys, ∀ l ∈ i.listeners.active, l.subscription ∈ b.subscriptions →
    l.listener = b.job.position

namespace Registered

theorem becomes (h : i.Registered) (hj : i.Becomes j) : j.Registered where
  numbered := by
    refine ⟨h.numbered.ordered.sublist hj.active, fun l hl => ?_⟩
    rw [hj.next_eq]
    exact h.numbered.made l (hj.active.subset hl)
  known b hb s hs := by
    obtain ⟨b', hb', -, hsubset⟩ := hj.owned b hb
    rw [hj.next_eq]
    exact h.known b' hb' s (hsubset hs)
  owned b hb l hl hs := by
    obtain ⟨b', hb', hjob, hsubset⟩ := hj.owned b hb
    rw [hjob]
    exact h.owned b' hb' l (hj.active.subset hl) (hsubset hs)

theorem standBy (h : i.Registered) (job : Job) (mode : Mode) (event : String)
    (nodes : List NodeId) : (i.standBy job mode event nodes).Registered := by
  have hnext := Listeners.next_le_subscribeAll event job.position nodes i.listeners
  have hnumber := Listeners.number_subscribeAll event job.position nodes i.listeners
  constructor
  case numbered => exact h.numbered.subscribeAll event job.position nodes
  case known =>
    intro b hb s hs
    rcases List.mem_append.mp hb with hb | hb
    · exact Nat.lt_of_lt_of_le (h.known b hb s hs) hnext
    · obtain rfl := List.mem_singleton.mp hb
      exact (hnumber s hs).2
  case owned =>
    -- a number that is new on one side cannot be there already on the other
    intro b hb l hl hs
    rcases List.mem_append.mp hb with hb | hb
    · rcases mem_active_subscribeAll nodes i.listeners hl with hl | ⟨-, hnew⟩
      · exact h.owned b hb l hl hs
      · exact absurd (h.known b hb _ hs) (Nat.not_lt_of_le (hnumber _ hnew).1)
    · obtain rfl := List.mem_singleton.mp hb
      rcases mem_active_subscribeAll nodes i.listeners hl with hl | ⟨hlistener, -⟩
      · exact absurd (h.numbered.made l hl) (Nat.not_lt_of_le (hnumber _ hs).1)
      · exact hlistener

/-- When `p` stops listening, just the subscriptions with `listener = p` go. -/
theorem active_standDown (h : i.Registered) (hattended : i.Attended) (p : Position) :
    (i.standDown p).listeners.active = i.listeners.active.filter (·.listener ≠ p) := by
  rw [Instance.active_standDown]
  refine List.filter_congr fun l hl => decide_eq_decide.mpr (not_congr ⟨fun hs => ?_, fun he => ?_⟩)
  · cases hb : i.standby? p with
    | none =>
      rw [hb] at hs
      exact absurd hs List.not_mem_nil
    | some b =>
      rw [hb] at hs
      obtain ⟨hmem, hposition⟩ := standby?_mem hb
      rw [h.owned b hmem l hl hs, hposition]
  · obtain ⟨b, hb, hs⟩ := hattended l hl
    rw [← he, hb]
    exact hs

end Registered

end Instance

namespace Scene

variable {σ : Type} {t : Template} {s s' : Scene σ} {observe : Observer σ}
  {responses : List (Position × Response)} {source : String}

/-! ### Runs -/

/-- Subscriptions are `Registered`, whatever happens. -/
theorem lasting_registered :
    Lasting fun s s' : Scene σ => s.inst.Registered → s'.inst.Registered where
  refl _ h := h
  trans h h' hs := h' (h hs)
  inst _ _ hinst h := h.becomes hinst
  phase _ _ _ h := h
  board {_ s'} b request _ _ hsame h := (hsame h).becomes (becomes_board s' b.job request)
  elsewhere _ _ _ _ h := h

theorem survives_registered (plan : Plan) :
    Survives (fun s : Scene σ => s.inst.Registered) plan := by
  cases plan with
  | start job => exact fun s request _ h => h.becomes (becomes_board s job request)
  | standBy job mode event nodes => exact fun s h => h.standBy job mode event nodes

theorem registered_of_run (hobserve : Lawful observe) (hrun : Run observe t responses s) :
    s.inst.Registered := by
  obtain ⟨given, start, sent, hhistory⟩ := hrun.exists_history
  refine hhistory.of_lasting lasting_registered hobserve
    fun {id host inst host' memory} _ hmade => ?_
  obtain ⟨i, plans, htemplate, -, hcarry⟩ := exists_plans hmade
  have hcopy := copy_ofTemplate htemplate
  have hbegin : i.Registered := by
    refine ⟨⟨?_, ?_⟩, ?_, ?_⟩
    · rw [Listeners.Ordered, hcopy.listeners_eq]
      exact List.Pairwise.nil
    · rw [hcopy.listeners_eq]
      exact fun l hl => absurd hl List.not_mem_nil
    · rw [hcopy.standbys_eq]
      exact fun b hb => absurd hb List.not_mem_nil
    · rw [hcopy.standbys_eq]
      exact fun b hb => absurd hb List.not_mem_nil
  exact lasting_registered.carryOutAll hobserve (fun plan _ => survives_registered plan)
    hbegin hcarry

/-- After every run whose arena `Fits`, it is `Sound`. -/
theorem sound_of_run (hcompiled : Template.Compiled source t) (htemplate : t.arena.Fits)
    (hobserve : Lawful observe) (hrun : Run observe t responses s) (hfit : s.inst.arena.Fits) :
    s.inst.arena.Sound := by
  cases hsingle : t.single with
  | true =>
    obtain ⟨home, -, -, -, -, h⟩ :=
      (invariant_tidy hcompiled hsingle htemplate hobserve).of_run hcompiled hobserve hrun
    exact (h hfit).sound
  | false =>
    obtain ⟨home, -, -, -, h⟩ :=
      (invariant_displays hcompiled hsingle htemplate hobserve).of_run hcompiled hobserve hrun
    obtain ⟨copy, tree, -, -, hdisplays⟩ := h hfit
    obtain ⟨spots, hstanding, -⟩ := hdisplays.standing
    exact hstanding.sound

end Scene

end Inlay
