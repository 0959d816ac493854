/-!
# Steps with a log

`Steps step s log s'` says that one step after the other leads from `s` to `s'`, and that `log`
holds what each of them put down, in order. A log can be cut open at each entry, and the states
around the entry are then states that steps lead to (`Steps.split`); an invariant that may speak of
the log is shown step by step (`Steps.invariant`).
-/

namespace Inlay

variable {σ ε : Type} {step : σ → ε → σ → Prop} {s s' s'' : σ} {log log' : List ε} {e : ε}

/-- An entry `e` of `log ++ [x]` is the last one, or it stands in `log`. -/
theorem concat_eq_append_cons {pre post : List ε} {x : ε} (h : log ++ [x] = pre ++ e :: post) :
    log = pre ∧ x = e ∧ post = [] ∨ ∃ post', post = post' ++ [x] ∧ log = pre ++ e :: post' := by
  rcases List.eq_nil_or_concat post with rfl | ⟨post', y, rfl⟩
  · obtain ⟨hpre, he⟩ := List.append_inj' h rfl
    exact Or.inl ⟨hpre, List.head_eq_of_cons_eq he, rfl⟩
  · rw [List.concat_eq_append, ← List.cons_append, ← List.append_assoc] at h
    obtain ⟨hlog, he⟩ := List.append_inj' h rfl
    obtain rfl := List.head_eq_of_cons_eq he
    exact Or.inr ⟨post', List.concat_eq_append, hlog⟩

/-- Steps one after the other, with what they put down. -/
inductive Steps (step : σ → ε → σ → Prop) (s : σ) : List ε → σ → Prop where
  | refl : Steps step s [] s
  | next {log : List ε} {s' s'' : σ} {e : ε} :
    Steps step s log s' → step s' e s'' → Steps step s (log ++ [e]) s''

namespace Steps

/-- Runs are put together, with the logs `log ++ log'`. -/
theorem trans (h : Steps step s log s') (h' : Steps step s' log' s'') :
    Steps step s (log ++ log') s'' := by
  induction h' with
  | refl => rwa [List.append_nil]
  | next _ hstep ih =>
    rw [← List.append_assoc]
    exact ih.next hstep

theorem single (h : step s e s') : Steps step s [e] s' :=
  Steps.refl.next h

/-- A log can be cut open at each of its entries: `pre` leads up to the step `e`, and `post` on from
there. -/
theorem split (h : Steps step s log s'') : ∀ {pre post : List ε}, log = pre ++ e :: post →
    ∃ t t', Steps step s pre t ∧ step t e t' ∧ Steps step t' post s'' := by
  induction h with
  | refl =>
    intro pre post hlog
    simp at hlog
  | @next log t t' last ht hlast ih =>
    intro pre post hlog
    rcases concat_eq_append_cons hlog with ⟨rfl, rfl, rfl⟩ | ⟨post, rfl, hbefore⟩
    · exact ⟨t, t', ht, hlast, .refl⟩
    · obtain ⟨u, u', hpre, hstep, hpost⟩ := ih hbefore
      exact ⟨u, u', hpre, hstep, hpost.next hlast⟩

/-- If `P` holds at the start and each step keeps it, `P log s'` holds at the end. -/
theorem invariant {P : List ε → σ → Prop} (h : Steps step s log s') (hstart : P [] s)
    (hstep : ∀ {log t e t'}, P log t → step t e t' → P (log ++ [e]) t') : P log s' := by
  induction h with
  | refl => exact hstart
  | next _ hlast ih => exact hstep ih hlast

end Steps

end Inlay
