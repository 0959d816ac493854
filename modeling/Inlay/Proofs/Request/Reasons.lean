import Inlay.Request.Signal

/-!
# Reasons stay

`Signals.Onward` is everything that can happen to the signals of a host: new ones are made, they are
looked at and aborted, and time passes, with the timers behind. A signal that has a reason keeps it
through all of that (`Signals.Onward.reason_eq`), although a passed deadline is noticed only by
whoever looks next. So does a signal that stirs those who wait for it (`Signals.Onward.stirs`), and
then they find a reason (`Signals.exists_reason_of_stirs`).
-/

namespace Inlay

namespace Signal

variable {s : Signal} {now later rung : Nat} {r : StopReason}

/-- A reason that was noticed holds at all times: `s.reasonAt now = some r`. -/
theorem reasonAt_of_noticed (h : s.noticed = some r) (now : Nat) : s.reasonAt now = some r := by
  rw [reasonAt, h]

/-- A reason stays: one that holds at `now` holds at every `later`. -/
theorem reasonAt_mono (h : s.reasonAt now = some r) (hle : now ≤ later) :
    s.reasonAt later = some r := by
  cases hnoticed : s.noticed with
  | some r' =>
    -- the deadline does not matter any more
    rw [reasonAt_of_noticed hnoticed] at h ⊢
    exact h
  | none =>
    rw [reasonAt, hnoticed, isOverdue] at h ⊢
    cases hdeadline : s.deadline with
    | none =>
      rw [hdeadline] at h
      exact absurd h (by simp)
    | some d =>
      simp only [hdeadline, decide_eq_true_eq] at h ⊢
      split at h
      · rename_i hd
        rw [if_pos (Nat.le_trans hd hle)]
        exact h
      · exact absurd h (by simp)

theorem reasonAt_look (h : s.reasonAt now = some r) : (s.look now).2.reasonAt now = some r :=
  reasonAt_of_noticed h now

theorem reasonAt_abort (h : s.reasonAt now = some r) : (s.abort now).reasonAt now = some r := by
  rw [abort, h]
  exact reasonAt_of_noticed rfl now

/-- From the deadline `d` on there is a reason. -/
theorem isSome_reasonAt_of_deadline {d : Nat} (h : s.deadline = some d) (hle : d ≤ now) :
    (s.reasonAt now).isSome := by
  unfold reasonAt isOverdue
  split
  · rfl
  · simp [h, hle]

/-- A deadline passes once: `d ≤ now` and `now ≤ later` give `d ≤ later`. -/
theorem isOverdue_mono (h : s.isOverdue now = true) (hle : now ≤ later) :
    s.isOverdue later = true := by
  unfold isOverdue at h ⊢
  split at h
  · exact decide_eq_true (Nat.le_trans (of_decide_eq_true h) hle)
  · exact absurd h (by simp)

/-- Whoever was woken when timers had rung up to `now` is woken at every `later`. -/
theorem stirs_mono (h : s.stirs now = true) (hle : now ≤ later) : s.stirs later = true := by
  unfold stirs at h ⊢
  rcases Bool.or_eq_true_iff.mp h with hnoticed | hoverdue
  · rw [hnoticed, Bool.true_or]
  · rw [isOverdue_mono hoverdue hle, Bool.or_true]

/-- A timer is never early: for `rung ≤ now`, whoever is woken finds a reason. -/
theorem isSome_reasonAt_of_stirs (h : s.stirs rung = true) (hle : rung ≤ now) :
    (s.reasonAt now).isSome := by
  unfold reasonAt
  split
  · rfl
  · rename_i hnoticed
    rw [stirs, hnoticed, Option.isSome_none, Bool.false_or] at h
    rw [if_pos (isOverdue_mono h hle)]
    rfl

theorem stirs_look (h : s.stirs rung = true) (hle : rung ≤ now) :
    (s.look now).2.stirs rung = true := by
  rw [stirs, look, isSome_reasonAt_of_stirs h hle, Bool.true_or]

/-- Aborting a signal wakes whoever waits for it, `rung` or not. -/
theorem stirs_abort (s : Signal) (now rung : Nat) : (s.abort now).stirs rung = true := by
  unfold abort stirs
  split <;> rfl

end Signal

namespace Signals

variable {s s' s'' : Signals} {id : SignalId} {r : StopReason}

theorem reason_eq_some_iff :
    s.reason id = some r ↔ ∃ x, s.get? id = some x ∧ x.reasonAt s.now = some r := by
  rw [reason, Option.bind_eq_some_iff]

theorem stirs_eq_true_iff :
    s.stirs id = true ↔ ∃ x, s.get? id = some x ∧ x.stirs s.rung = true := by
  rw [stirs, Option.any_eq_true]

/-- What is kept of a signal after a change `f` of the one with the id `i`. -/
theorem get?_modify (s : Signals) (i id : SignalId) (f : Signal → Signal) :
    ({ s with table := s.table.modify i.number f } : Signals).get? id =
      (s.get? id).map fun x => if i = id then f x else x := by
  obtain ⟨i⟩ := i
  obtain ⟨n⟩ := id
  show (s.table.modify i f)[n]? = s.table[n]?.map _
  rw [List.getElem?_modify]
  by_cases hi : i = n <;> simp [hi]

/-- A change `f` of one signal that keeps its reason keeps every reason. -/
theorem reason_modify {f : Signal → Signal} (i : SignalId)
    (hf : ∀ x, x.reasonAt s.now = some r → (f x).reasonAt s.now = some r)
    (h : s.reason id = some r) :
    ({ s with table := s.table.modify i.number f } : Signals).reason id = some r := by
  obtain ⟨x, hx, hr⟩ := reason_eq_some_iff.mp h
  refine reason_eq_some_iff.mpr ⟨_, by rw [get?_modify, hx, Option.map_some], ?_⟩
  split
  · exact hf x hr
  · exact hr

/-- A change `f` of one signal that keeps it stirring keeps all that stir. -/
theorem stirs_modify {f : Signal → Signal} (i : SignalId)
    (hf : ∀ x, x.stirs s.rung = true → (f x).stirs s.rung = true) (h : s.stirs id = true) :
    ({ s with table := s.table.modify i.number f } : Signals).stirs id = true := by
  obtain ⟨x, hx, hr⟩ := stirs_eq_true_iff.mp h
  refine stirs_eq_true_iff.mpr ⟨_, by rw [get?_modify, hx, Option.map_some], ?_⟩
  split
  · exact hf x hr
  · exact hr

/-- New signals are added at the end, so `get? id` is the same for the others. -/
theorem get?_create (timeout : Option Nat) {x : Signal} (hx : s.get? id = some x) :
    (s.create timeout).2.get? id = some x := by
  rw [get?] at hx ⊢
  exact List.getElem?_append_left (List.getElem?_eq_some_iff.mp hx).1 ▸ hx

/-- The moment up to which timers have rung does not go back: `s.rung ≤ (s.pass now rung).rung`. -/
theorem rung_le_rung_pass (s : Signals) (now rung : Nat) : s.rung ≤ (s.pass now rung).rung := by
  have hle := s.rung_le_now
  change s.rung ≤ min (max s.rung rung) (max s.now now)
  omega

/-- When the clock is set, all timers ring that are due by then: the moment is `max s.rung now`. -/
theorem rung_advance (s : Signals) (now : Nat) : (s.advance now).rung = max s.rung now := by
  have hle := s.rung_le_now
  change min (max s.rung now) (max s.now now) = max s.rung now
  omega

/-- What can happen to signals. -/
inductive Onward : Signals → Signals → Prop where
  | refl (s : Signals) : Onward s s
  | create {s s' : Signals} (timeout : Option Nat) : Onward s s' → Onward s (s'.create timeout).2
  | look {s s' : Signals} (id : SignalId) : Onward s s' → Onward s (s'.look id).2
  | abort {s s' : Signals} (id : SignalId) : Onward s s' → Onward s (s'.abort id)
  | pass {s s' : Signals} (now rung : Nat) : Onward s s' → Onward s (s'.pass now rung)

theorem Onward.trans (h : Onward s s') (h' : Onward s' s'') : Onward s s'' := by
  induction h' with
  | refl => exact h
  | create timeout _ ih => exact .create timeout ih
  | look id _ ih => exact .look id ih
  | abort id _ ih => exact .abort id ih
  | pass now rung _ ih => exact .pass now rung ih

/-- **A reason stays, whatever happens.** -/
theorem Onward.reason_eq (h : Onward s s') (hr : s.reason id = some r) : s'.reason id = some r := by
  induction h with
  | refl => exact hr
  | create timeout _ ih =>
    obtain ⟨x, hx, hreason⟩ := reason_eq_some_iff.mp ih
    exact reason_eq_some_iff.mpr ⟨x, get?_create timeout hx, hreason⟩
  | look i _ ih => exact reason_modify i (fun _ => Signal.reasonAt_look) ih
  | abort i _ ih => exact reason_modify i (fun _ => Signal.reasonAt_abort) ih
  | pass now rung _ ih =>
    obtain ⟨x, hx, hreason⟩ := reason_eq_some_iff.mp ih
    exact reason_eq_some_iff.mpr ⟨x, hx, Signal.reasonAt_mono hreason (Nat.le_max_left _ _)⟩

/-- **Who waits for a signal and was woken is woken from then on.** -/
theorem Onward.stirs (h : Onward s s') (hs : s.stirs id = true) : s'.stirs id = true := by
  induction h with
  | refl => exact hs
  | create timeout _ ih =>
    obtain ⟨x, hx, hstirs⟩ := stirs_eq_true_iff.mp ih
    exact stirs_eq_true_iff.mpr ⟨x, get?_create timeout hx, hstirs⟩
  | @look s' i _ ih =>
    exact stirs_modify i (fun _ hx => Signal.stirs_look hx s'.rung_le_now) ih
  | abort i _ ih => exact stirs_modify i (fun x _ => Signal.stirs_abort x _ _) ih
  | @pass s' now rung _ ih =>
    obtain ⟨x, hx, hstirs⟩ := stirs_eq_true_iff.mp ih
    exact stirs_eq_true_iff.mpr
      ⟨x, hx, Signal.stirs_mono hstirs (rung_le_rung_pass s' now rung)⟩

/-- Who is woken by a signal finds a reason, for `s.rung ≤ s.now`. -/
theorem exists_reason_of_stirs (h : s.stirs id = true) : ∃ r, s.reason id = some r := by
  obtain ⟨x, hx, hstirs⟩ := stirs_eq_true_iff.mp h
  obtain ⟨r, hr⟩ :=
    Option.isSome_iff_exists.mp (Signal.isSome_reasonAt_of_stirs hstirs s.rung_le_now)
  exact ⟨r, reason_eq_some_iff.mpr ⟨x, hx, hr⟩⟩

/-- A signal that was aborted stirs: `(s.abort id).stirs id`. -/
theorem stirs_abort (h : (s.get? id).isSome) : (s.abort id).stirs id = true := by
  obtain ⟨x, hx⟩ := Option.isSome_iff_exists.mp h
  refine stirs_eq_true_iff.mpr ⟨x.abort s.now, ?_, Signal.stirs_abort x _ _⟩
  rw [abort, get?_modify, hx, Option.map_some, if_pos rfl]

/-- A signal stirs from the moment on at which the timer of its deadline rings: `d ≤ s.rung`. -/
theorem stirs_of_deadline {x : Signal} {d : Nat} (hx : s.get? id = some x)
    (hd : x.deadline = some d) (hle : d ≤ s.rung) : s.stirs id = true := by
  refine stirs_eq_true_iff.mpr ⟨x, hx, ?_⟩
  rw [Signal.stirs, Signal.isOverdue, hd]
  simp [hle]

/-- A signal has a reason from its deadline on: `d ≤ s.now`. -/
theorem isSome_reason_of_deadline {x : Signal} {d : Nat} (hx : s.get? id = some x)
    (hd : x.deadline = some d) (hle : d ≤ s.now) : (s.reason id).isSome := by
  rw [reason, hx]
  exact Signal.isSome_reasonAt_of_deadline hd hle

end Signals

end Inlay
