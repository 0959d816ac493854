/-!
# Outcomes of stateful computations

A computation that fails keeps the state it had reached, so what a computation leaves behind is a
function of where it started (`stateAfter`), and so is what comes of it apart from that (`outcome`).
`Keeps R m` says that `m` moves the state along `R` whatever comes of it; for a reflexive and
transitive `R` this follows from the parts of `m`.
-/

namespace Inlay

variable {ε σ α β : Type}

/-- The state that a computation leaves behind, whether it succeeds or not. -/
def stateAfter (m : EStateM ε σ α) (s : σ) : σ :=
  match m.run s with
  | .ok _ s' => s'
  | .error _ s' => s'

theorem stateAfter_of_ok {m : EStateM ε σ α} {s s' : σ} {x : α} (h : m.run s = .ok x s') :
    stateAfter m s = s' := by
  rw [stateAfter, h]

theorem stateAfter_of_error {m : EStateM ε σ α} {s s' : σ} {e : ε} (h : m.run s = .error e s') :
    stateAfter m s = s' := by
  rw [stateAfter, h]

/-- Whether a computation comes to a result. -/
def succeeds (m : EStateM ε σ α) (s : σ) : Bool :=
  match m.run s with
  | .ok _ _ => true
  | .error _ _ => false

theorem succeeds_of_ok {m : EStateM ε σ α} {s s' : σ} {x : α} (h : m.run s = .ok x s') :
    succeeds m s = true := by
  rw [succeeds, h]

/-- What succeeds from `s` ends in `stateAfter m s`, with some result. -/
theorem exists_run_of_succeeds {m : EStateM ε σ α} {s : σ} (h : succeeds m s = true) :
    ∃ x, m.run s = .ok x (stateAfter m s) := by
  unfold succeeds at h
  split at h
  · rename_i hrun
    exact ⟨_, by rw [hrun, stateAfter_of_ok hrun]⟩
  · exact absurd h Bool.false_ne_true

theorem run_of_succeeds {m : EStateM ε σ Unit} {s : σ} (h : succeeds m s = true) :
    m.run s = .ok () (stateAfter m s) := by
  obtain ⟨_, hrun⟩ := exists_run_of_succeeds h
  exact hrun

/-- A computation has one result and one final state: `x = y` and `s' = s''`. -/
theorem eq_of_run_eq_ok {m : EStateM ε σ α} {s s' s'' : σ} {x y : α} (h : m.run s = .ok x s')
    (h' : m.run s = .ok y s'') : x = y ∧ s' = s'' := by
  rw [h] at h'
  injection h' with hx hs
  exact ⟨hx, hs⟩

/-- After a first part that gave `x` and left `s'`, `m >>= f` is `f x` from `s'`. -/
theorem run_bind_of_ok {m : EStateM ε σ α} {s s' : σ} {x : α} (h : m.run s = .ok x s')
    (f : α → EStateM ε σ β) : (m >>= f).run s = (f x).run s' := by
  rw [EStateM.run_bind, h]

/-- After a first part that failed, `m >>= f` has failed, and left the same state. -/
theorem run_bind_of_error {m : EStateM ε σ α} {s s' : σ} {e : ε} (h : m.run s = .error e s')
    (f : α → EStateM ε σ β) : (m >>= f).run s = .error e s' := by
  rw [EStateM.run_bind, h]

theorem stateAfter_bind_of_ok {m : EStateM ε σ α} {s s' : σ} {x : α} (h : m.run s = .ok x s')
    (f : α → EStateM ε σ β) : stateAfter (m >>= f) s = stateAfter (f x) s' := by
  rw [stateAfter, run_bind_of_ok h, stateAfter]

theorem stateAfter_bind_of_error {m : EStateM ε σ α} {s s' : σ} {e : ε}
    (h : m.run s = .error e s') (f : α → EStateM ε σ β) : stateAfter (m >>= f) s = s' := by
  rw [stateAfter, run_bind_of_error h]

theorem eq_ok_of_toOption {x : Except ε α} {y : α} (h : x.toOption = some y) : x = .ok y := by
  cases x with
  | error e => exact absurd h (by simp [Except.toOption])
  | ok y' => exact congrArg _ (Option.some.inj h)

/-- A check in two parts succeeds if both do: `x >>= f = .ok y` needs `x = .ok a` and
`f a = .ok y`. -/
theorem exists_of_bind_eq_ok {x : Except ε α} {f : α → Except ε β} {y : β}
    (h : x >>= f = .ok y) : ∃ a, x = .ok a ∧ f a = .ok y := by
  cases x with
  | error e => exact absurd h (by simp [bind, Except.bind])
  | ok a => exact ⟨a, rfl, h⟩

/-- A check in two parts fails in the first one or in the second, after `x = .ok a`. -/
theorem cases_of_bind_eq_error {x : Except ε α} {f : α → Except ε β} {e : ε}
    (h : x >>= f = .error e) : x = .error e ∨ ∃ a, x = .ok a ∧ f a = .error e := by
  cases x with
  | error e' => exact Or.inl (congrArg _ (Except.error.inj h))
  | ok a => exact Or.inr ⟨a, rfl, h⟩

/-- A check whose result is only changed, by `f`, succeeds if and only if it did before. -/
theorem exists_bind_pure_eq_ok_iff {x : Except ε α} (f : α → β) :
    (∃ b, (x >>= fun a => pure (f a)) = .ok b) ↔ ∃ a, x = .ok a := by
  cases x with
  | error e => exact ⟨nofun, nofun⟩
  | ok a => exact ⟨fun _ => ⟨a, rfl⟩, fun _ => ⟨f a, rfl⟩⟩

/-- A check whose result is only changed fails with the same `e`. -/
theorem bind_pure_eq_error_iff {x : Except ε α} {e : ε} (f : α → β) :
    (x >>= fun a => pure (f a)) = .error e ↔ x = .error e := by
  cases x with
  | error e' =>
    show Except.error e' = Except.error e ↔ Except.error e' = Except.error e
    rw [Except.error.injEq, Except.error.injEq]
  | ok a => exact ⟨nofun, nofun⟩

/-- If `m >>= f` succeeds then `m` does, and `f` of its result does from the state that `m` left. -/
theorem exists_of_run_bind_eq_ok {m : EStateM ε σ α} {f : α → EStateM ε σ β} {y : β} {s s'' : σ}
    (h : (m >>= f).run s = .ok y s'') : ∃ x s', m.run s = .ok x s' ∧ (f x).run s' = .ok y s'' := by
  cases hrun : m.run s with
  | error e s' =>
    rw [run_bind_of_error hrun] at h
    exact absurd h (by simp)
  | ok x s' =>
    rw [run_bind_of_ok hrun] at h
    exact ⟨x, s', rfl, h⟩

/-- If `m >>= f` fails then `m` does, or `f` of its result does from the state that `m` left. -/
theorem cases_of_run_bind_eq_error {m : EStateM ε σ α} {f : α → EStateM ε σ β} {e : ε} {s s'' : σ}
    (h : (m >>= f).run s = .error e s'') : m.run s = .error e s'' ∨
      ∃ x s', m.run s = .ok x s' ∧ (f x).run s' = .error e s'' := by
  cases hrun : m.run s with
  | error e' s' =>
    rw [run_bind_of_error hrun] at h
    injection h with he hs
    exact Or.inl (by rw [he, hs])
  | ok x s' =>
    rw [run_bind_of_ok hrun] at h
    exact Or.inr ⟨x, s', rfl, h⟩

/-- What comes of a computation, apart from the state. -/
def outcome (m : EStateM ε σ α) (s : σ) : Except ε α :=
  match m.run s with
  | .ok x _ => .ok x
  | .error e _ => .error e

theorem outcome_eq_ok_iff {m : EStateM ε σ α} {s : σ} {x : α} :
    outcome m s = .ok x ↔ ∃ s', m.run s = .ok x s' := by
  unfold outcome
  cases m.run s <;> simp

/-- If `p` holds of what comes of a computation, the computation succeeds, with an `x` of which `p`
holds. -/
theorem exists_of_any_outcome {m : EStateM ε σ α} {s : σ} {p : α → Bool}
    (h : (outcome m s).toOption.any p = true) : ∃ x s', m.run s = .ok x s' ∧ p x = true := by
  obtain ⟨x, hx, hp⟩ := (Option.any_eq_true ..).mp h
  obtain ⟨s', hrun⟩ := outcome_eq_ok_iff.mp (eq_ok_of_toOption hx)
  exact ⟨x, s', hrun, hp⟩

theorem outcome_of_error {m : EStateM ε σ α} {s s' : σ} {e : ε} (h : m.run s = .error e s') :
    outcome m s = .error e := by
  rw [outcome, h]

/-- The outcome of `m >>= f` is that of `f x` from `s'`, where `m` gave `x` and left `s'`. -/
theorem outcome_bind_of_ok {m : EStateM ε σ α} {s s' : σ} {x : α} (h : m.run s = .ok x s')
    (f : α → EStateM ε σ β) : outcome (m >>= f) s = outcome (f x) s' := by
  rw [outcome, run_bind_of_ok h, outcome]

/-- A result `y` comes of `m >>= f` if it comes of `f x` after `x` came of `m`. -/
theorem outcome_bind_eq_ok_iff {m : EStateM ε σ α} {f : α → EStateM ε σ β} {s : σ} {y : β} :
    outcome (m >>= f) s = .ok y ↔ ∃ x s', m.run s = .ok x s' ∧ outcome (f x) s' = .ok y := by
  cases h : m.run s with
  | error e s' =>
    rw [outcome_of_error (run_bind_of_error h f)]
    exact ⟨nofun, nofun⟩
  | ok x s' =>
    rw [outcome_bind_of_ok h]
    constructor
    · exact fun hy => ⟨x, s', rfl, hy⟩
    · rintro ⟨x', s'', heq, hy⟩
      injection heq with hx hs
      rwa [hx, hs]

/-- An error comes of `m >>= f` if it comes of either part. -/
theorem outcome_bind_eq_error_iff {m : EStateM ε σ α} {f : α → EStateM ε σ β} {s : σ} {e : ε} :
    outcome (m >>= f) s = .error e ↔ outcome m s = .error e ∨
      ∃ x s', m.run s = .ok x s' ∧ outcome (f x) s' = .error e := by
  cases h : m.run s with
  | error e' s' =>
    rw [outcome_of_error (run_bind_of_error h f), outcome_of_error h, Except.error.injEq,
      Except.error.injEq]
    exact ⟨Or.inl, fun | .inl he => he⟩
  | ok x s' =>
    rw [outcome_bind_of_ok h, outcome_eq_ok_iff.mpr ⟨s', h⟩]
    constructor
    · exact fun he => Or.inr ⟨x, s', rfl, he⟩
    · rintro (he | ⟨x', s'', heq, he⟩)
      · exact nomatch he
      · injection heq with hx hs
        rwa [hx, hs]

theorem run_throw_ne_ok (e : ε) (s s' : σ) (x : α) :
    (throw e : EStateM ε σ α).run s ≠ .ok x s' :=
  nofun

/-- `m` moves every state along `R`. -/
def Keeps (R : σ → σ → Prop) (m : EStateM ε σ α) : Prop :=
  ∀ s, R s (stateAfter m s)

variable {R : σ → σ → Prop}

theorem keeps_pure (hrefl : ∀ s, R s s) (x : α) : Keeps R (pure x : EStateM ε σ α) :=
  fun s => hrefl s

theorem keeps_throw (hrefl : ∀ s, R s s) (e : ε) : Keeps R (throw e : EStateM ε σ α) :=
  fun s => hrefl s

theorem keeps_get (hrefl : ∀ s, R s s) : Keeps R (get : EStateM ε σ σ) :=
  fun s => hrefl s

theorem keeps_modify {f : σ → σ} (h : ∀ s, R s (f s)) :
    Keeps R (modify f : EStateM ε σ PUnit) :=
  fun s => h s

/-- A transitive relation that both parts of `m >>= f` keep is one that the whole keeps. -/
theorem Keeps.bind (htrans : ∀ {s t u}, R s t → R t u → R s u) {m : EStateM ε σ α}
    {f : α → EStateM ε σ β} (hm : Keeps R m) (hf : ∀ x, Keeps R (f x)) : Keeps R (m >>= f) := by
  intro s
  have hs := hm s
  cases hrun : m.run s with
  | ok x s' =>
    rw [stateAfter_bind_of_ok hrun]
    rw [stateAfter_of_ok hrun] at hs
    exact htrans hs (hf x s')
  | error e s' =>
    rw [stateAfter_bind_of_error hrun]
    rwa [stateAfter_of_error hrun] at hs

/-- The rest of a computation moves on, by `R`, from where its first part ends. -/
theorem Keeps.after (hrefl : ∀ s, R s s) {m : EStateM ε σ α} {f : α → EStateM ε σ β}
    (hf : ∀ x, Keeps R (f x)) (s : σ) : R (stateAfter m s) (stateAfter (m >>= f) s) := by
  cases hrun : m.run s with
  | ok x s' =>
    rw [stateAfter_of_ok hrun, stateAfter_bind_of_ok hrun]
    exact hf x s'
  | error e s' =>
    rw [stateAfter_of_error hrun, stateAfter_bind_of_error hrun]
    exact hrefl s'

end Inlay
