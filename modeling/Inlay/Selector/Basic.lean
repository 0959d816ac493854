import Inlay.Selector.Nth

/-!
# Selectors

A selector is a list of alternatives. An alternative is a row of compounds joined by combinators;
it hangs to the left, since matching starts at the last compound and works its way back. A
compound is a conjunction of simple conditions on one element.
-/

namespace Inlay

namespace Selector

/-- A condition on an attribute. -/
inductive AttrTest where
  | present (name : String)
  | equals (name value : String)
deriving DecidableEq

mutual

/-- A condition on an element's place, or the negation of some compounds. -/
inductive Pseudo where
  | firstChild
  | lastChild
  | nthChild (n : Nth)
  | not (alternatives : List Compound)

/-- Conditions that an element meets all together. -/
structure Compound where
  tag : Option String
  id : Option String
  classes : List String
  attrs : List AttrTest
  pseudos : List Pseudo

end

/-- The compound that every element meets. -/
def Compound.any : Compound := ⟨none, none, [], [], []⟩

/-- How the element of a compound is related to that of the compound before it. -/
inductive Combinator where
  /-- It lies below. -/
  | descendant
  /-- It is a child. -/
  | child
  /-- It is the next element sibling. -/
  | adjacent
  /-- It is a later element sibling. -/
  | sibling
deriving DecidableEq

/-- Compounds joined by combinators. -/
inductive Complex where
  | compound (c : Compound)
  | combine (left : Complex) (combinator : Combinator) (right : Compound)

end Selector

/-- A list of alternatives. -/
structure Selector where
  alternatives : List Selector.Complex

namespace Selector

/-! ### Equality -/

mutual

def Pseudo.same : Pseudo → Pseudo → Bool
  | .firstChild, .firstChild => true
  | .lastChild, .lastChild => true
  | .nthChild n, .nthChild m => n == m
  | .not cs, .not ds => sameCompounds cs ds
  | _, _ => false

def Compound.same : Compound → Compound → Bool
  | ⟨tag, id, classes, attrs, ps⟩, ⟨tag', id', classes', attrs', qs⟩ =>
    tag == tag' && id == id' && classes == classes' && attrs == attrs' && samePseudos ps qs

def sameCompounds : List Compound → List Compound → Bool
  | [], [] => true
  | c :: cs, d :: ds => c.same d && sameCompounds cs ds
  | _, _ => false

def samePseudos : List Pseudo → List Pseudo → Bool
  | [], [] => true
  | p :: ps, q :: qs => p.same q && samePseudos ps qs
  | _, _ => false

end

mutual

theorem Pseudo.same_iff : ∀ p q : Pseudo, p.same q = true ↔ p = q
  | .firstChild, q => by cases q <;> simp [Pseudo.same]
  | .lastChild, q => by cases q <;> simp [Pseudo.same]
  | .nthChild n, q => by cases q <;> simp [Pseudo.same]
  | .not cs, .not ds => by simp [Pseudo.same, sameCompounds_iff cs ds]
  | .not cs, .firstChild => by simp [Pseudo.same]
  | .not cs, .lastChild => by simp [Pseudo.same]
  | .not cs, .nthChild n => by simp [Pseudo.same]

/-- The comparison of compounds, which goes into negations too, decides equality. -/
theorem Compound.same_iff : ∀ c d : Compound, c.same d = true ↔ c = d
  | ⟨tag, id, classes, attrs, ps⟩, ⟨tag', id', classes', attrs', qs⟩ => by
    simp [Compound.same, samePseudos_iff ps qs, and_assoc]

theorem sameCompounds_iff : ∀ cs ds : List Compound, sameCompounds cs ds = true ↔ cs = ds
  | [], [] => by simp [sameCompounds]
  | [], d :: ds => by simp [sameCompounds]
  | c :: cs, [] => by simp [sameCompounds]
  | c :: cs, d :: ds => by
    simp [sameCompounds, Compound.same_iff c d, sameCompounds_iff cs ds]

theorem samePseudos_iff : ∀ ps qs : List Pseudo, samePseudos ps qs = true ↔ ps = qs
  | [], [] => by simp [samePseudos]
  | [], q :: qs => by simp [samePseudos]
  | p :: ps, [] => by simp [samePseudos]
  | p :: ps, q :: qs => by simp [samePseudos, Pseudo.same_iff p q, samePseudos_iff ps qs]

end

instance : DecidableEq Compound := fun c d =>
  decidable_of_iff (c.same d = true) (Compound.same_iff c d)

end Selector

deriving instance DecidableEq for Selector.Complex, Selector

end Inlay
