import Inlay.Proofs.Arena.Exchange
import Inlay.Request.Transport
import Inlay.Template.Compile
import Mathlib.Data.List.Nodup
import Mathlib.Logic.Function.Basic

/-!
# Outputs of a template

What the responses to the requests of an instance have come to: for each placeholder the last
response that was a success, as the trees that stand in its place then.
-/

namespace Inlay.Template

variable {t : Template}

/-- Whether the placeholder at a position is tracked. -/
def tracks (t : Template) (p : Position) : Bool :=
  t.placeholders.any fun x => x.position == p && x.isTracked

/-- The last success for a placeholder. -/
def latest? (responses : List (Position × Response)) (p : Position) : Option Response :=
  ((responses.filter fun r => r.1 = p ∧ isSuccess r.2.status).getLast?).map (·.2)

/-- What has come for each placeholder. -/
def outputs (t : Template) (responses : List (Position × Response)) (p : Position) :
    Option (List Tree) :=
  (latest? responses p).map fun r => outputTrees (t.tracks p) r.body

/-- A template tracks the position of `x` if `x` is tracked, as no two have the same position. -/
theorem tracks_of_mem (hnd : (t.placeholders.map (·.position)).Nodup) {x : Placeholder}
    (hx : x ∈ t.placeholders) : t.tracks x.position = x.isTracked := by
  rw [tracks, Bool.eq_iff_iff, List.any_eq_true]
  constructor
  · rintro ⟨y, hy, h⟩
    rw [Bool.and_eq_true, beq_iff_eq] at h
    obtain rfl := List.inj_on_of_nodup_map hnd hy hx h.1
    exact h.2
  · intro h
    exact ⟨x, hx, by rw [h, beq_self_eq_true]; rfl⟩

/-- A response with `isSuccess r.status = false` does not count: the outputs stay. -/
theorem outputs_append_of_failure {r : Response} (h : isSuccess r.status = false)
    (t : Template) (responses : List (Position × Response)) (p : Position) :
    t.outputs (responses ++ [(p, r)]) = t.outputs responses := by
  funext q
  rw [outputs, latest?, List.filter_append, List.filter_cons_of_neg (by simp [h]), List.filter_nil,
    List.append_nil]
  rfl

/-- A success counts until the next one: at `p` it is `outputTrees (t.tracks p) r.body`, and
elsewhere nothing changes. -/
theorem outputs_append_of_success {r : Response} (h : isSuccess r.status = true) (t : Template)
    (responses : List (Position × Response)) (p : Position) :
    t.outputs (responses ++ [(p, r)]) =
      Function.update (t.outputs responses) p (some (outputTrees (t.tracks p) r.body)) := by
  funext q
  rw [outputs, latest?, List.filter_append]
  by_cases hq : q = p
  · subst hq
    rw [List.filter_cons_of_pos (by simp [h]), List.getLast?_append, List.filter_nil,
      Function.update_self]
    rfl
  · rw [List.filter_cons_of_neg (by simp [Ne.symm hq]), List.filter_nil, List.append_nil,
      Function.update_of_ne hq]
    rfl

end Inlay.Template
