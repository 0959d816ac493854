import Inlay.Proofs.Request.Verdict
import Inlay.Request.Timeline

/-!
# Waiting for a signal

A program that waits for a signal lets other calls happen meanwhile and is told the verdict at the
end (`Timeline.await_spec`). Each round of waiting leaves less to do (`Timeline.effort`), so the
rounds are enough and the wait goes on only until there is a reason or patience is over
(`isOver_waitFor`).

* `Signals.verdict_of_course`: after any calls on any signals, at times that do not decrease, the
  reason of a signal is the verdict, and so is what each call on it was told and what a wait for it
  ends with.
-/

namespace Inlay

namespace Timeline

open Signals (Course)

variable {t : Timeline} {moment : Nat} {id : Option SignalId}

theorem course_turn (t : Timeline) (i : SignalId) (delay : Nat) :
    ∃ log, Course t.signals log (t.turn i delay).signals := by
  unfold turn
  split
  · exact ⟨_, .single (.abort i)⟩
  · exact ⟨[], .refl⟩

/-- Turns do nothing to signals but what a `Course` can do. -/
theorem course_turns : ∀ (n : Nat) (t : Timeline), ∃ log, Course t.signals log (turns n t).signals
  | 0, t => ⟨[], .refl⟩
  | n + 1, t => by
    unfold turns
    split
    · exact ⟨[], .refl⟩
    · rename_i i delay rest _
      obtain ⟨log, hfirst⟩ := course_turn { t with ready := rest } i delay
      obtain ⟨log', hrest⟩ := course_turns n (turn { t with ready := rest } i delay)
      exact ⟨log ++ log', hfirst.trans hrest⟩

theorem course_waitRounds (moment : Nat) (id : Option SignalId) : ∀ (n : Nat) (t : Timeline),
    ∃ log, Course t.signals log (waitRounds moment id n t).signals
  | 0, t => ⟨[], .refl⟩
  | n + 1, t => by
    unfold waitRounds
    split
    · exact ⟨[], .refl⟩
    · split
      · obtain ⟨log, hrest⟩ := course_waitRounds moment id n (t.advance (t.nextMoment moment))
        exact ⟨_, (Steps.single (.advance _ _)).trans hrest⟩
      · obtain ⟨log, hfirst⟩ := course_turns Pace.batch t
        obtain ⟨log', hrest⟩ := course_waitRounds moment id n t.pause
        exact ⟨log ++ log', Steps.trans hfirst hrest⟩

/-- How many steps there can be before all aborts have been made: an abort with a delay gets a turn,
then the delay ends, then it gets another turn. -/
def effort (t : Timeline) : Nat :=
  t.ready.length + 2 * t.ready.countP (·.2 ≠ 0) + 2 * t.delayed.length

/-- What is still to do is bounded: at most `3` steps for each abort whose turn it is and `2` for
each delay. -/
theorem effort_le (t : Timeline) : t.effort ≤ 3 * t.ready.length + 2 * t.delayed.length := by
  have hready : t.ready.countP (·.2 ≠ 0) ≤ t.ready.length := List.countP_le_length
  unfold effort
  omega

/-- A turn of what is ready leaves less to do:
`(turn { t with ready := rest } i delay).effort < t.effort`. -/
theorem effort_turn {i : SignalId} {delay : Nat} {rest : List (SignalId × Nat)}
    (h : t.ready = (i, delay) :: rest) :
    (turn { t with ready := rest } i delay).effort < t.effort := by
  unfold turn effort
  rw [h, List.length_cons]
  by_cases hdelay : delay = 0
  · rw [if_pos hdelay, List.countP_cons_of_neg (by simp [hdelay])]
    show rest.length + 2 * rest.countP (·.2 ≠ 0) + 2 * t.delayed.length < _
    omega
  · rw [if_neg hdelay, List.countP_cons_of_pos (by simp [hdelay])]
    show rest.length + 2 * rest.countP (·.2 ≠ 0) + 2 * (t.delayed ++ [_]).length < _
    rw [List.length_append, List.length_singleton]
    omega

theorem effort_turns_le : ∀ (n : Nat) (t : Timeline), (turns n t).effort ≤ t.effort
  | 0, t => Nat.le_refl _
  | n + 1, t => by
    unfold turns
    split
    · exact Nat.le_refl _
    · rename_i hready
      exact Nat.le_trans (effort_turns_le n _) (Nat.le_of_lt (effort_turn hready))

/-- As long as something is ready, `n ≠ 0` turns leave less to do. -/
theorem effort_turns_lt (hready : t.ready ≠ []) : ∀ {n : Nat}, n ≠ 0 → (turns n t).effort < t.effort
  | 0, hn => absurd rfl hn
  | n + 1, _ => by
    unfold turns
    split
    · rename_i hnone
      exact absurd hnone hready
    · rename_i hsome
      exact Nat.lt_of_le_of_lt (effort_turns_le n _) (effort_turn hsome)

/-- A batch of turns lowers `effort`. -/
theorem effort_pause_lt (h : t.ready ≠ []) : t.pause.effort < t.effort := by
  show (turns Pace.batch t).effort < t.effort
  apply effort_turns_lt h
  decide

/-- The next moment is the one `moment` that the program waits for, or one at which a delay is
over. -/
theorem nextMoment_cases (t : Timeline) (moment : Nat) :
    t.nextMoment moment = moment ∨ ∃ a ∈ t.delayed, a.2 = t.nextMoment moment := by
  have hmin : ∀ (l : List (SignalId × Nat)) (first : Nat),
      l.foldl (fun earliest a => min earliest a.2) first = first ∨
        ∃ a ∈ l, a.2 = l.foldl (fun earliest a => min earliest a.2) first := by
    intro l
    induction l with
    | nil => exact fun first => Or.inl rfl
    | cons a l ih =>
      intro first
      rw [List.foldl_cons]
      rcases ih (min first a.2) with he | ⟨b, hb, he⟩
      · rw [he]
        rcases Nat.le_total first a.2 with hle | hle
        · exact Or.inl (Nat.min_eq_left hle)
        · exact Or.inr ⟨a, List.mem_cons_self, (Nat.min_eq_right hle).symm⟩
      · exact Or.inr ⟨b, List.mem_cons_of_mem a hb, he⟩
  exact hmin t.delayed moment

/-- When a delay is over, `effort` is lower. -/
theorem effort_advance_lt {now : Nat} (hready : t.ready = []) (h : ∃ a ∈ t.delayed, a.2 ≤ now) :
    (t.advance now).effort < t.effort := by
  have hsplit := List.length_eq_countP_add_countP (fun a : SignalId × Nat => decide (a.2 ≤ now))
    (l := t.delayed)
  have hpos : 0 < t.delayed.countP fun a => decide (a.2 ≤ now) := by
    obtain ⟨a, ha, hle⟩ := h
    exact List.countP_pos_iff.mpr ⟨a, ha, decide_eq_true hle⟩
  have hover : (t.delayed.filter (·.2 ≤ now)).length =
      t.delayed.countP fun a => decide (a.2 ≤ now) :=
    List.countP_eq_length_filter.symm
  have hstill : (t.delayed.filter (now < ·.2)).length
      = t.delayed.countP fun a => decide ¬ decide (a.2 ≤ now) = true := by
    rw [List.countP_eq_length_filter]
    simp
  -- whose delay is over has none left
  have hnone : ∀ l : List (SignalId × Nat), (l.map fun a => (a.1, 0)).countP (·.2 ≠ 0) = 0 := by
    intro l
    rw [List.countP_map, List.countP_eq_zero]
    simp
  unfold advance effort
  rw [hready]
  simp only [List.nil_append, List.length_map, hnone, List.length_nil, List.countP_nil]
  omega

theorem waitRounds_of_isOver (h : t.isOver moment id = true) : ∀ n, waitRounds moment id n t = t
  | 0 => rfl
  | n + 1 => by
    unfold waitRounds
    rw [if_pos h]

/-- With as many rounds as there are steps to take, `t.effort < n`, the program can go on. -/
theorem isOver_waitRounds (moment : Nat) (id : Option SignalId) : ∀ (n : Nat) {t : Timeline},
    t.effort < n → (waitRounds moment id n t).isOver moment id = true
  | 0, t, h => absurd h (Nat.not_lt_zero _)
  | n + 1, t, h => by
    by_cases hover : t.isOver moment id = true
    · rw [waitRounds_of_isOver hover]
      exact hover
    unfold waitRounds
    rw [if_neg hover]
    split
    · rename_i hempty
      rw [List.isEmpty_iff] at hempty
      rcases nextMoment_cases t moment with he | ⟨a, ha, he⟩
      · -- the moment has come
        have hcome : (t.advance (t.nextMoment moment)).isOver moment id = true := by
          rw [he, isOver, Bool.or_eq_true, decide_eq_true_iff]
          exact Or.inl (Nat.le_max_right _ _)
        rw [waitRounds_of_isOver hcome]
        exact hcome
      · have hless := effort_advance_lt hempty ⟨a, ha, Nat.le_of_eq he⟩
        exact isOver_waitRounds moment id n (by omega)
    · rename_i hready
      rw [List.isEmpty_iff] at hready
      have hless := effort_pause_lt hready
      exact isOver_waitRounds moment id n (by omega)

/-- Waiting for a `moment` or a signal `id` comes to an end. -/
theorem isOver_waitFor (t : Timeline) (moment : Nat) (id : Option SignalId) :
    (t.waitFor moment id).isOver moment id = true := by
  apply isOver_waitRounds
  have := t.effort_le
  omega

/-- Somebody who waits is told the verdict, after whatever `log` of acts has happened meanwhile, and
is told no reason only if its patience is over: `t.signals.now + patience ≤ now` at the end. -/
theorem await_spec (t : Timeline) {id : SignalId} {deadline : Option Nat} {aborts : List Nat}
    (h : t.signals.Follows id deadline aborts) (patience : Nat) :
    ∃ log, Course t.signals log (t.await id patience).2.signals ∧
      (t.await id patience).1 = Signal.verdict deadline (aborts ++ Signals.abortTimes id log)
        (t.await id patience).2.signals.now ∧
      ((t.await id patience).1 = none →
        t.signals.now + patience ≤ (t.await id patience).2.signals.now) := by
  unfold await
  cases hreason : t.signals.reason id with
  | some r =>
    have hverdict := h.reason_eq
    rw [hreason] at hverdict
    refine ⟨[], .refl, ?_, fun hnone => absurd hnone (by simp)⟩
    rw [Signals.abortTimes_nil, List.append_nil]
    exact hverdict
  | none =>
    simp only
    generalize hmoment : (((t.signals.get? id).bind (·.deadline)).map
      (min (t.signals.now + patience))).getD (t.signals.now + patience) = moment
    obtain ⟨log, hcourse⟩ := course_waitRounds moment (some id)
      (3 * t.ready.length + 2 * t.delayed.length + 2) t
    have hafter : (t.waitFor moment (some id)).signals.Follows id deadline
        (aborts ++ Signals.abortTimes id log) := h.course hcourse
    refine ⟨log, hcourse, hafter.reason_eq, fun hnone => ?_⟩
    have hover := isOver_waitFor t moment (some id)
    rw [isOver, Option.bind_some, hnone, Option.isSome_none, Bool.or_false,
      decide_eq_true_iff] at hover
    -- the deadline cannot have passed without a reason
    obtain ⟨x, hx, hfollows⟩ := h
    rw [hx, Option.bind_some, hfollows.deadline_eq] at hmoment
    cases deadline with
    | none =>
      rw [Option.map_none, Option.getD_none] at hmoment
      omega
    | some d =>
      rw [Option.map_some, Option.getD_some] at hmoment
      obtain ⟨y, hy, hafter⟩ := hafter
      have hnow : (t.waitFor moment (some id)).signals.now < d := by
        rcases Nat.lt_or_ge (t.waitFor moment (some id)).signals.now d with hlt | hpassed
        · exact hlt
        · have hsome := Signals.isSome_reason_of_deadline hy hafter.deadline_eq hpassed
          rw [hnone] at hsome
          simp at hsome
      omega

end Timeline

namespace Signals

/-- **The reason of a signal follows from its deadline and its aborts.** Whatever was done with a
signal and with others since it was made, its reason is the verdict; each call was told the verdict
of its moment; who asked when makes no difference; a reason stays; and somebody who waits for the
signal is told the verdict, and goes on waiting without one until patience is over. -/
theorem verdict_of_course {s s' : Signals} {log : List Act} (timeout : Option Nat)
    (h : Course (s.create timeout).2 log s') :
    let id := (s.create timeout).1
    let deadline := timeout.map (s.now + ·)
    s'.reason id = Signal.verdict deadline (abortTimes id log) s'.now ∧
      (∀ pre post u c, log = pre ++ .call u id c :: post →
        c.Tells (Signal.verdict deadline (abortTimes id pre) u)) ∧
      (∀ other s'', Course (s.create timeout).2 other s'' →
        abortTimes id other = abortTimes id log → s''.now = s'.now →
          s''.reason id = s'.reason id) ∧
      (∀ next s'' r, Course s' next s'' → s'.reason id = some r → s''.reason id = some r) ∧
      ∀ (t : Timeline) (patience : Nat), t.signals = s' →
        ∃ meanwhile, Course s' meanwhile (t.await id patience).2.signals ∧
          (t.await id patience).1 = Signal.verdict deadline (abortTimes id (log ++ meanwhile))
            (t.await id patience).2.signals.now ∧
          ((t.await id patience).1 = none →
            s'.now + patience ≤ (t.await id patience).2.signals.now) := by
  intro id deadline
  have hreason : ∀ {log s'}, Course (s.create timeout).2 log s' →
      s'.Follows id deadline (abortTimes id log) := fun h => (follows_create s timeout).course h
  refine ⟨(hreason h).reason_eq, ?_, ?_, ?_, ?_⟩
  · intro pre post u c hlog
    obtain ⟨t, t', hpre, hcall, -⟩ := h.split hlog
    cases hcall with
    | abort => exact trivial
    | look _ _ htold =>
      rw [← (hreason hpre).reason_eq]
      exact htold
  · intro other s'' hother haborts hnow
    rw [(hreason hother).reason_eq, (hreason h).reason_eq, haborts, hnow]
  · intro next s'' r hnext hr
    exact (onward_of_course hnext).reason_eq hr
  · rintro t patience rfl
    obtain ⟨meanwhile, hcourse, htold, hpatience⟩ := t.await_spec (hreason h) patience
    rw [← abortTimes_append] at htold
    exact ⟨meanwhile, hcourse, htold, hpatience⟩

/-- A signal that is asked before its deadline and aborted at its very deadline: it stays without a
reason when asked, and the abort comes too late. -/
theorem verdict_of_late_abort :
    ∃ s', Course (empty.create (some 50)).2
        [.call 0 ⟨0⟩ (.reason none), .advance 50, .call 50 ⟨0⟩ .abort] s' ∧
      s'.reason ⟨0⟩ = some .timedOut ∧
      ∀ next s'', Course s' next s'' → s''.reason ⟨0⟩ = some .timedOut := by
  have hasked : Course (empty.create (some 50)).2 [.call 0 ⟨0⟩ (.reason none)]
      ((empty.create (some 50)).2.look ⟨0⟩).2 := .single (.look ⟨0⟩ (by simp) rfl)
  have haborted := (hasked.next (.advance 50 50)).next (.abort ⟨0⟩)
  obtain ⟨hreason, -, -, hstays, -⟩ := verdict_of_course (s := empty) (some 50) haborted
  have hlate : _ = some StopReason.timedOut := hreason.trans (by decide)
  exact ⟨_, haborted, hlate, fun next s'' hnext => hstays next s'' _ hnext hlate⟩

end Signals

end Inlay
