import Inlay.Proofs.Session.Run

/-!
# Waiting

While a program waits, requests get their turns and time passes, and nothing else happens: what has
ended stays so, none are started, and nobody takes any (`Waited`). Every request ends in as many
rounds as the loops of a session are given (`waited_waitRounds`), so waiting for a request gives its
result.
-/

namespace Inlay.Session

variable {t : Template} {taken : Nat → List (Position × TaskId)} {s s' s'' : Session} {id : TaskId}

/-- The session goes on while the program waits. -/
structure Waited (t : Template) (taken : Nat → List (Position × TaskId)) (s s' : Session) : Prop
    where
  run : Run t taken s'
  pendings : SamePendings s s'
  length_eq : s'.host.tasks.length = s.host.tasks.length
  isEnded : ∀ id, s.host.isEnded id = true → s'.host.isEnded id = true

namespace Waited

theorem refl (h : Run t taken s) : Waited t taken s s :=
  ⟨h, .refl s, rfl, fun _ hid => hid⟩

theorem trans (h : Waited t taken s s') (h' : Waited t taken s' s'') : Waited t taken s s'' where
  run := h'.run
  pendings := h.pendings.trans h'.pendings
  length_eq := h'.length_eq.trans h.length_eq
  isEnded id hid := h'.isEnded id (h.isEnded id hid)

theorem count (h : Waited t taken s s') (spent : Nat) : Waited t taken s { s' with spent } where
  run := .elsewhere s'.host s'.watch s'.taken spent h.run rfl (fun _ hid => hid) h.run.kept.1.calm
  pendings := h.pendings
  length_eq := h.length_eq
  isEnded := h.isEnded

end Waited

/-! ### Turns and time -/

/-- `n` turns do not raise `toil`, and if the queue is not empty then, they have lowered it. -/
theorem waited_turns : ∀ (n : Nat) {s : Session}, Run t taken s → Waited t taken s (turns n s) ∧
    (turns n s).host.toil ≤ s.host.toil ∧
    ((turns n s).host.ready ≠ [] → n ≠ 0 → (turns n s).host.toil < s.host.toil)
  | 0, s, h => ⟨.refl h, Nat.le_refl _, fun _ hn => absurd rfl hn⟩
  | n + 1, s, h => by
    unfold turns
    cases hready : s.host.ready with
    | nil => exact ⟨.refl h, Nat.le_refl _, fun hne => absurd hready hne⟩
    | cons id rest =>
      obtain ⟨-, -, hless, hpendings, hlength, hended⟩ := h.kept.1.next h.kept.2 hready
      -- the first turn leaves less to do, and the others leave no more
      have hfirst : Waited t taken s _ := ⟨.turn h hready, hpendings, hlength, hended⟩
      obtain ⟨hrest, hle, -⟩ := waited_turns n hfirst.run
      exact ⟨hfirst.trans hrest, Nat.le_of_lt (Nat.lt_of_le_of_lt hle hless), fun _ _ =>
        Nat.lt_of_le_of_lt hle hless⟩

/-- A pause does not raise `toil`, and if the queue is not empty then, it has lowered it. -/
theorem waited_pause (h : Run t taken s) : Waited t taken s s.pause ∧
    s.pause.host.toil ≤ s.host.toil ∧
    (s.pause.host.ready ≠ [] → s.pause.host.toil < s.host.toil) := by
  obtain ⟨hturns, hle, hless⟩ := waited_turns Pace.batch h
  exact ⟨hturns.count 0, hle, fun hne => hless hne (by decide)⟩

/-- Going on to the next time lowers `toil`, if the queue is empty. -/
theorem waited_skip (h : Run t taken s) {limit : Option Nat} (hskip : s.skip? limit = some s') :
    Waited t taken s s' ∧ (s.host.ready = [] → s'.host.toil < s.host.toil) := by
  unfold skip? at hskip
  cases hnext : s.host.nextWake with
  | none =>
    rw [hnext] at hskip
    exact absurd hskip (by simp)
  | some time =>
    rw [hnext] at hskip
    simp only [Option.ite_none_right_eq_some, Option.some.injEq] at hskip
    obtain ⟨-, rfl⟩ := hskip
    refine ⟨⟨?_, .refl s, rfl, fun _ hid => hid⟩, fun hempty => Host.toil_advance_lt hempty hnext⟩
    exact .elsewhere (s.host.advance time) s.watch s.taken s.spent h rfl
      (fun _ hid => List.mem_append_left _ hid) h.kept.1.calm

/-! ### Waiting for requests -/

/-- While `id` goes on and `ready = []`, there is a next time. -/
theorem skip?_ne_none (h : Run t taken s) (hknown : id.number < s.host.tasks.length)
    (hunended : s.host.isEnded id = false) (hempty : s.host.ready = []) : s.skip? none ≠ none := by
  have htask : s.host.task? id = some s.host.tasks[id.number] := List.getElem?_eq_getElem hknown
  have hgoes : s.host.tasks[id.number].isEnded = false := by
    rwa [Host.isEnded, htask] at hunended
  obtain ⟨time, htime⟩ := h.kept.2.exists_nextWake htask hgoes hempty
  rw [skip?, htime]
  simp

/-- With more rounds than `toil` the request has ended. -/
theorem waited_waitRounds (id : TaskId) : ∀ (n : Nat) {s : Session}, Run t taken s →
    Waited t taken s (waitRounds id n s) ∧
    (s.host.toil < n → id.number < s.host.tasks.length → (waitRounds id n s).host.isEnded id = true)
  | 0, s, h => ⟨.refl h, fun hn => absurd hn (Nat.not_lt_zero _)⟩
  | n + 1, s, h => by
    unfold waitRounds
    cases hended : s.host.isEnded id with
    | true =>
      rw [if_pos rfl]
      exact ⟨.refl h, fun _ _ => hended⟩
    | false =>
      rw [if_neg (by simp)]
      simp only
      obtain ⟨hpause, hle, hless⟩ := waited_pause h
      split
      · rename_i hstop
        obtain ⟨hrest, hrounds⟩ := waited_waitRounds id n hpause.run
        refine ⟨hpause.trans hrest, fun hn hknown => ?_⟩
        rw [Bool.or_eq_true, Bool.not_eq_true', ← Bool.not_eq_true, List.isEmpty_iff] at hstop
        rcases hstop with hdone | hne
        · exact hrest.isEnded id hdone
        · -- the queue is not empty yet, so the whole batch has had turns
          exact hrounds (by have := hless hne; omega) (hpause.length_eq ▸ hknown)
      · rename_i hstop
        rw [Bool.or_eq_true, not_or, Bool.not_eq_true, Bool.not_eq_true', Bool.not_eq_false,
          List.isEmpty_iff] at hstop
        obtain ⟨hunended, hempty⟩ := hstop
        split
        · rename_i s₂ hskip
          obtain ⟨hskipped, hless₂⟩ := waited_skip hpause.run hskip
          obtain ⟨hrest, hrounds⟩ := waited_waitRounds id n hskipped.run
          refine ⟨hpause.trans (hskipped.trans hrest), fun hn hknown => hrounds ?_ ?_⟩
          · have := hless₂ hempty
            omega
          · rwa [hskipped.length_eq, hpause.length_eq]
        · rename_i hskip
          refine ⟨hpause, fun _ hknown => absurd hskip ?_⟩
          exact skip?_ne_none hpause.run (hpause.length_eq ▸ hknown) hunended hempty

/-- Loops are given more rounds than there is to do: `s.host.toil < s.bound`. -/
theorem toil_lt_bound (s : Session) : s.host.toil < s.bound := by
  have hle := s.host.toil_le
  have htasks : s.host.tasks.length ≤ s.host.tasks.length + s.watch.charges * s.standbyCount :=
    Nat.le_add_right _ _
  unfold bound
  omega

/-- **Waiting for a request gives its result**, and the request has ended: `isEnded id`. -/
theorem waited_waitFor (h : Run t taken s) (hknown : id.number < s.host.tasks.length) :
    Waited t taken s (s.waitFor id).2 ∧ (s.waitFor id).1.isSome = true ∧
      (s.waitFor id).2.host.isEnded id = true := by
  have hbefore : Waited t taken s (if s.spent < Pace.allowance then s else s.pause) := by
    split
    · exact .refl h
    · exact (waited_pause h).1
  unfold waitFor
  generalize (if s.spent < Pace.allowance then s else s.pause) = s₁ at hbefore ⊢
  obtain ⟨hrounds, hends⟩ := waited_waitRounds id s₁.bound hbefore.run
  have hended := hends s₁.toil_lt_bound (hbefore.length_eq ▸ hknown)
  refine ⟨(hbefore.trans hrounds).count _, ?_, hended⟩
  obtain ⟨task, htask, hresult⟩ := Host.isEnded_iff.mp hended
  simp only [htask, Option.bind_some]
  exact hresult

/-- Waiting for `requests` gives a result for each, and all of them have ended. -/
theorem waited_waitForAll : ∀ {requests : List (Position × TaskId)} {s : Session}, Run t taken s →
    (∀ x ∈ requests, x.2.number < s.host.tasks.length) →
    Waited t taken s (s.waitForAll requests).2 ∧
      (∀ r ∈ (s.waitForAll requests).1, r.2.isSome = true) ∧
      ∀ x ∈ requests, (s.waitForAll requests).2.host.isEnded x.2 = true
  | [], s, h, _ => ⟨.refl h, fun r hr => absurd hr List.not_mem_nil, fun x hx =>
      absurd hx List.not_mem_nil⟩
  | (p, id) :: rest, s, h, hknown => by
    obtain ⟨hknown, hknowns⟩ := List.forall_mem_cons.mp hknown
    obtain ⟨hfirst, hsome, hended⟩ := waited_waitFor h hknown
    obtain ⟨hrest, hsomes, hendeds⟩ := waited_waitForAll hfirst.run fun x hx =>
      hfirst.length_eq ▸ hknowns x hx
    unfold waitForAll
    refine ⟨hfirst.trans hrest, ?_, ?_⟩
    · exact List.forall_mem_cons.mpr ⟨hsome, hsomes⟩
    · exact List.forall_mem_cons.mpr ⟨hrest.isEnded id hended, hendeds⟩

end Inlay.Session
