import Inlay.Arena.Tree
import Inlay.Template.Placeholder

/-!
# Filling placeholders

`t.filled outputs` is the tree of a template with the placeholders replaced that have an output: the
one at position `p` by the trees `outputs p`. Elements are numbered in document order, the top
itself not counted; the content of placeholders is neither numbered nor replaced.
-/

namespace Inlay.Tree

mutual

/-- Number of positions in a tree: one for its top if that is an element, and those of its content
unless it is a placeholder. -/
def span : Tree → Nat
  | node (.element e) cs => if e.tag = Placeholder.tag then 1 else spanAll cs + 1
  | node _ _ => 0

def spanAll : List Tree → Nat
  | [] => 0
  | t :: ts => t.span + spanAll ts

end

mutual

/-- The positions of the placeholders, when the first element has the position `next`. -/
def marks (next : Position) : Tree → List Position
  | node (.element e) cs =>
    if e.tag = Placeholder.tag then [next] else marksAll (next + 1) cs
  | node _ _ => []

def marksAll (next : Position) : List Tree → List Position
  | [] => []
  | t :: ts => t.marks next ++ marksAll (next + t.span) ts

end

mutual

/-- What stands in the place of a tree whose first element has the position `next`. -/
def fill (outputs : Position → Option (List Tree)) (next : Position) : Tree → List Tree
  | node (.element e) cs =>
    if e.tag = Placeholder.tag then (outputs next).getD [node (.element e) cs]
    else [node (.element e) (fillAll outputs (next + 1) cs)]
  | node kind cs => [node kind cs]

def fillAll (outputs : Position → Option (List Tree)) (next : Position) : List Tree → List Tree
  | [] => []
  | t :: ts => t.fill outputs next ++ fillAll outputs (next + t.span) ts

end

/-- The tree with the placeholders below its top replaced by their outputs. -/
def filled (outputs : Position → Option (List Tree)) : Tree → Tree
  | node kind cs => node kind (fillAll outputs 0 cs)

/-! ### Where placeholders are -/

mutual

/-- The positions in a tree begin at `next`, and there are `t.span` of them. -/
theorem mem_marks_bounds : ∀ {t : Tree} {next p : Nat}, p ∈ t.marks next →
    next ≤ p ∧ p < next + t.span
  | node (.element e) cs, next, p, h => by
    rw [marks] at h
    rw [span]
    split at h
    · rename_i htag
      obtain rfl : p = next := List.mem_singleton.mp h
      rw [if_pos htag]
      omega
    · rename_i htag
      have hbounds := mem_marksAll_bounds h
      rw [if_neg htag]
      omega
  | node (.text _) _, _, _, h => absurd h List.not_mem_nil
  | node (.comment _) _, _, _, h => absurd h List.not_mem_nil
  | node .fragment _, _, _, h => absurd h List.not_mem_nil

theorem mem_marksAll_bounds : ∀ {ts : List Tree} {next p : Nat}, p ∈ marksAll next ts →
    next ≤ p ∧ p < next + spanAll ts
  | [], _, _, h => absurd h List.not_mem_nil
  | t :: ts, next, p, h => by
    rw [marksAll, List.mem_append] at h
    rw [spanAll]
    rcases h with h | h
    · have hbounds := mem_marks_bounds h
      omega
    · have hbounds := mem_marksAll_bounds h
      omega

end

mutual

/-- The positions `t.marks next` ascend, in document order. -/
theorem pairwise_marks : ∀ (t : Tree) (next : Nat), (t.marks next).Pairwise (· < ·)
  | node (.element e) cs, next => by
    rw [marks]
    split
    · exact List.pairwise_singleton _ _
    · exact pairwise_marksAll cs (next + 1)
  | node (.text _) _, _ => List.Pairwise.nil
  | node (.comment _) _, _ => List.Pairwise.nil
  | node .fragment _, _ => List.Pairwise.nil

theorem pairwise_marksAll : ∀ (ts : List Tree) (next : Nat),
    (marksAll next ts).Pairwise (· < ·)
  | [], _ => List.Pairwise.nil
  | t :: ts, next => by
    rw [marksAll]
    refine List.pairwise_append.mpr ⟨pairwise_marks t next, pairwise_marksAll ts _,
      fun p hp q hq => ?_⟩
    exact Nat.lt_of_lt_of_le (mem_marks_bounds hp).2 (mem_marksAll_bounds hq).1

end

mutual

/-- A tree has at least as many nodes as elements: `t.span ≤ t.size`. -/
theorem span_le_size : ∀ t : Tree, t.span ≤ t.size
  | node (.element e) cs => by
    have hcs := spanAll_le_sizeAll cs
    rw [span, size]
    split
    · omega
    · omega
  | node (.text _) _ => Nat.zero_le _
  | node (.comment _) _ => Nat.zero_le _
  | node .fragment _ => Nat.zero_le _

theorem spanAll_le_sizeAll : ∀ ts : List Tree, spanAll ts ≤ sizeAll ts
  | [] => Nat.le_refl _
  | t :: ts => by
    have ht := span_le_size t
    have hts := spanAll_le_sizeAll ts
    rw [spanAll, sizeAll]
    omega

end

end Inlay.Tree
