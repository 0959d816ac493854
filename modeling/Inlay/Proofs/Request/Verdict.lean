import Inlay.Proofs.Request.Reasons
import Inlay.Proofs.Steps

/-!
# What a signal says

The reason of a signal follows from its deadline and from when it was aborted, and from nothing else
(`Signal.verdict`). What is kept of a signal does depend on who looked at it and when, since a
passed deadline is noticed only then; `Signal.Follows` is what holds of it whatever has been
noticed, and each call keeps it. Clones of a signal are copies of its id.

* `Signals.Follows.reason_eq`: the reason of a signal is the verdict;
* `Signals.Follows.course`: it stays so whatever is done with this signal and with others, at times
  that do not decrease.
-/

namespace Inlay

namespace Signal

/-- The reason at a time, of a signal with this deadline that was aborted at these times before. An
abort counts if it came before the deadline. -/
def verdict (deadline : Option Nat) (aborts : List Nat) (now : Nat) : Option StopReason :=
  if ∃ u ∈ aborts, ∀ d ∈ deadline, u < d then some .aborted
  else if ∃ d ∈ deadline, d ≤ now then some .timedOut
  else none

variable {deadline : Option Nat} {aborts : List Nat} {now next : Nat} {r : StopReason} {x : Signal}

/-- An abort at `u`, before the deadline if there is one, is the reason at all times. -/
theorem verdict_of_abort {u : Nat} (hu : u ∈ aborts) (hbefore : ∀ d ∈ deadline, u < d) :
    verdict deadline aborts now = some .aborted :=
  if_pos ⟨u, hu, hbefore⟩

/-- Without an abort before the deadline, the reason is that the deadline `d` has passed:
`d ≤ now`. -/
theorem verdict_of_late (hlate : ¬ ∃ u ∈ aborts, ∀ d ∈ deadline, u < d) :
    verdict deadline aborts now = if ∃ d ∈ deadline, d ≤ now then some .timedOut else none :=
  if_neg hlate

/-- A verdict is not revised: that of `now` is the one of every `next` with `now ≤ next`. -/
theorem verdict_mono (h : verdict deadline aborts now = some r) (hle : now ≤ next) :
    verdict deadline aborts next = some r := by
  by_cases hearly : ∃ u ∈ aborts, ∀ d ∈ deadline, u < d
  · obtain ⟨u, hu, hbefore⟩ := hearly
    rw [verdict_of_abort hu hbefore] at h ⊢
    exact h
  · rw [verdict_of_late hearly] at h ⊢
    split at h
    · rename_i hpassed
      obtain ⟨d, hd, hdnow⟩ := hpassed
      rw [if_pos ⟨d, hd, by omega⟩]
      exact h
    · simp at h

/-- An abort changes nothing if there is a reason:
`verdict deadline (aborts ++ [now]) now = verdict deadline aborts now`. -/
theorem verdict_concat (h : verdict deadline aborts now = some r) :
    verdict deadline (aborts ++ [now]) now = some r := by
  by_cases hearly : ∃ u ∈ aborts, ∀ d ∈ deadline, u < d
  · obtain ⟨u, hu, hbefore⟩ := hearly
    rw [verdict_of_abort hu hbefore] at h
    rw [verdict_of_abort (List.mem_append_left _ hu) hbefore]
    exact h
  · rw [verdict_of_late hearly] at h
    split at h
    · rename_i hpassed
      obtain ⟨d, hd, hdnow⟩ := hpassed
      have hlate : ¬ ∃ u ∈ aborts ++ [now], ∀ d ∈ deadline, u < d := by
        rintro ⟨u, hu, hbefore⟩
        rcases List.mem_append.mp hu with hu | hu
        · exact hearly ⟨u, hu, hbefore⟩
        · have := hbefore d hd
          rw [List.mem_singleton] at hu
          omega
      rw [verdict_of_late hlate, if_pos ⟨d, hd, hdnow⟩]
      exact h
    · simp at h

/-- Without a reason the deadline is still to come, so an abort at `now` counts. -/
theorem verdict_concat_of_none (h : verdict deadline aborts now = none) :
    verdict deadline (aborts ++ [now]) now = some .aborted := by
  apply verdict_of_abort (List.mem_append_right _ (List.mem_singleton_self now))
  intro d hd
  rcases Nat.lt_or_ge now d with hlt | hpassed
  · exact hlt
  unfold verdict at h
  split at h
  · simp at h
  · rw [if_pos ⟨d, hd, hpassed⟩] at h
    simp at h

/-! ### One signal -/

/-- What is kept of a signal: what was noticed is the verdict, and an abort does not go
unnoticed. -/
structure Follows (deadline : Option Nat) (aborts : List Nat) (now : Nat) (x : Signal) : Prop where
  deadline_eq : x.deadline = deadline
  noticed : ∀ r, x.noticed = some r → verdict deadline aborts now = some r
  unnoticed : x.noticed = none → aborts = []

/-- What is read off the signal is `verdict deadline aborts now`. -/
theorem Follows.reasonAt_eq (h : Follows deadline aborts now x) :
    x.reasonAt now = verdict deadline aborts now := by
  unfold reasonAt
  cases hnoticed : x.noticed with
  | some r => exact (h.noticed r hnoticed).symm
  | none =>
    rw [h.unnoticed hnoticed, verdict_of_late (by simp), isOverdue, h.deadline_eq]
    cases deadline with
    | none => simp
    | some d => simp

theorem follows_new (deadline : Option Nat) (now : Nat) :
    Follows deadline [] now ⟨deadline, none⟩ where
  deadline_eq := rfl
  noticed r hr := by simp at hr
  unnoticed _ := rfl

theorem Follows.later (h : Follows deadline aborts now x) (hle : now ≤ next) :
    Follows deadline aborts next x where
  deadline_eq := h.deadline_eq
  noticed r hr := verdict_mono (h.noticed r hr) hle
  unnoticed := h.unnoticed

/-- Looking at a signal, which notices what has passed, leaves it at `verdict deadline aborts`. -/
theorem Follows.look (h : Follows deadline aborts now x) :
    Follows deadline aborts now (x.look now).2 where
  deadline_eq := h.deadline_eq
  noticed r hr := by
    rw [← h.reasonAt_eq]
    exact hr
  unnoticed hnone := by
    apply h.unnoticed
    -- whoever has noticed something goes on seeing it
    cases hnoticed : x.noticed with
    | none => rfl
    | some r =>
      have hreason : x.reasonAt now = none := hnone
      rw [reasonAt_of_noticed hnoticed] at hreason
      exact hreason

theorem Follows.abort (h : Follows deadline aborts now x) :
    Follows deadline (aborts ++ [now]) now (x.abort now) := by
  have hreason := h.reasonAt_eq
  unfold Signal.abort
  cases hr : x.reasonAt now with
  | some r =>
    rw [hr] at hreason
    refine ⟨h.deadline_eq, fun r' hr' => ?_, fun hnone => ?_⟩
    · obtain rfl := Option.some.inj hr'
      exact verdict_concat hreason.symm
    · simp at hnone
  | none =>
    rw [hr] at hreason
    refine ⟨h.deadline_eq, fun r' hr' => ?_, fun hnone => ?_⟩
    · obtain rfl := Option.some.inj hr'
      exact verdict_concat_of_none hreason.symm
    · simp at hnone

/-- A call on a signal and what it was told. Somebody who waits for the signal looks at it again and
again, and each time is a call: it goes on waiting if it is told no reason. -/
inductive Call where
  | abort
  | reason (told : Option StopReason)
  | aborted (told : Bool)
  | cancelled (told : Option StopReason)

/-- What a call is told is `r`. -/
def Call.Tells (r : Option StopReason) : Call → Prop
  | abort => True
  | reason told => told = r
  | aborted told => told = r.isSome
  | cancelled told => told = r

end Signal

namespace Signals

/-- Something that happens to the signals of a host. -/
inductive Act where
  | create (timeout : Option Nat)
  | advance (now : Nat)
  | call (time : Nat) (id : SignalId) (c : Signal.Call)

/-- What happens, and the signals after it. -/
inductive Does (s : Signals) : Act → Signals → Prop where
  | create (timeout : Option Nat) : Does s (.create timeout) (s.create timeout).2
  /-- Time passes, whether or not timers ring meanwhile. -/
  | advance (now rung : Nat) : Does s (.advance now) (s.pass now rung)
  | abort (id : SignalId) : Does s (.call s.now id .abort) (s.abort id)
  | look (id : SignalId) {c : Signal.Call} (hc : c ≠ .abort) (htold : c.Tells (s.look id).1) :
    Does s (.call s.now id c) (s.look id).2

/-- One thing happens after the other. -/
abbrev Course (s : Signals) (log : List Act) (s' : Signals) : Prop :=
  Steps Does s log s'

/-- When a signal was aborted. -/
def abortTimes (id : SignalId) (log : List Act) : List Nat :=
  log.filterMap fun
    | .call u i .abort => if i = id then some u else none
    | _ => none

variable {s s' s'' : Signals} {log log' : List Act} {id : SignalId} {deadline : Option Nat}
  {aborts : List Nat} {x : Signal}

@[simp] theorem abortTimes_nil (id : SignalId) : abortTimes id [] = [] :=
  rfl

@[simp] theorem abortTimes_create (id : SignalId) (timeout : Option Nat) :
    abortTimes id [.create timeout] = [] :=
  rfl

@[simp] theorem abortTimes_advance (id : SignalId) (now : Nat) :
    abortTimes id [.advance now] = [] :=
  rfl

theorem abortTimes_append (id : SignalId) (log log' : List Act) :
    abortTimes id (log ++ log') = abortTimes id log ++ abortTimes id log' :=
  List.filterMap_append

theorem abortTimes_abort (id i : SignalId) (u : Nat) :
    abortTimes id [.call u i .abort] = if i = id then [u] else [] := by
  by_cases hi : i = id <;> simp [abortTimes, hi]

theorem abortTimes_look (id i : SignalId) (u : Nat) {c : Signal.Call} (hc : c ≠ .abort) :
    abortTimes id [.call u i c] = [] := by
  cases c with
  | abort => exact absurd rfl hc
  | reason told => rfl
  | aborted told => rfl
  | cancelled told => rfl

/-! ### All signals of a host -/

/-- The signal is there, and what is kept of it is as its deadline and its aborts say. -/
def Follows (s : Signals) (id : SignalId) (deadline : Option Nat) (aborts : List Nat) : Prop :=
  ∃ x, s.get? id = some x ∧ x.Follows deadline aborts s.now

/-- The reason of `id` is the verdict at the present time:
`s.reason id = verdict deadline aborts s.now`. -/
theorem Follows.reason_eq (h : s.Follows id deadline aborts) :
    s.reason id = Signal.verdict deadline aborts s.now := by
  obtain ⟨x, hx, hfollows⟩ := h
  rw [reason, hx]
  exact hfollows.reasonAt_eq

/-- A new signal has the deadline `s.now + timeout` and no aborts yet. -/
theorem follows_create (s : Signals) (timeout : Option Nat) :
    (s.create timeout).2.Follows (s.create timeout).1 (timeout.map (s.now + ·)) [] := by
  refine ⟨⟨timeout.map (s.now + ·), none⟩, ?_, Signal.follows_new _ _⟩
  show (s.table ++ [_])[s.table.length]? = _
  rw [List.getElem?_concat_length]

/-- Whatever `a` is done, the signal is kept as its deadline and its aborts say, those of `a`
included. -/
theorem Follows.does {a : Act} (h : s.Follows id deadline aborts) (ha : Does s a s') :
    s'.Follows id deadline (aborts ++ abortTimes id [a]) := by
  obtain ⟨x, hx, hfollows⟩ := h
  cases ha with
  | create timeout =>
    refine ⟨x, get?_create timeout hx, ?_⟩
    rw [abortTimes_create, List.append_nil]
    exact hfollows
  | advance now rung =>
    refine ⟨x, hx, ?_⟩
    rw [abortTimes_advance, List.append_nil]
    exact hfollows.later (Nat.le_max_left _ _)
  | abort i =>
    refine ⟨if i = id then x.abort s.now else x, ?_, ?_⟩
    · rw [abort, get?_modify, hx]
      rfl
    · rw [abortTimes_abort]
      split
      · exact hfollows.abort
      · rw [List.append_nil]
        exact hfollows
  | look i hc htold =>
    refine ⟨if i = id then (x.look s.now).2 else x, ?_, ?_⟩
    · rw [look, get?_modify, hx]
      rfl
    · rw [abortTimes_look id i _ hc, List.append_nil]
      split
      · exact hfollows.look
      · exact hfollows

/-- The same for the aborts of a whole log: they are `aborts ++ abortTimes id log`. -/
theorem Follows.course (h : s.Follows id deadline aborts) (hcourse : Course s log s') :
    s'.Follows id deadline (aborts ++ abortTimes id log) := by
  refine hcourse.invariant (P := fun log s' => s'.Follows id deadline (aborts ++ abortTimes id log))
    ?_ ?_
  · rw [abortTimes_nil, List.append_nil]
    exact h
  · intro log t a t' ht ha
    rw [abortTimes_append, ← List.append_assoc]
    exact ht.does ha

theorem Does.onward {a : Act} (h : Does s a s') : Onward s s' := by
  cases h with
  | create timeout => exact .create timeout (.refl s)
  | advance now rung => exact .pass now rung (.refl s)
  | abort i => exact .abort i (.refl s)
  | look i _ _ => exact .look i (.refl s)

theorem onward_of_course (h : Course s log s') : Onward s s' :=
  h.invariant (P := fun _ s' => Onward s s') (.refl s) fun ht ha => ht.trans ha.onward

end Signals

end Inlay
