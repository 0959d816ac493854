import Inlay.Proofs.Text.Case
import Inlay.Selector.Print
import Inlay.Selector.Syntax

/-!
# Legible selectors

Not every value of type `Selector` has a spelling: a class may be empty or have a bracket in its
name. `Selector.Legible` holds of those that some source can denote. It says nothing about the
values in attribute conditions (`Selector.values`), which may be any text without a double quote, or
any without a single quote.
-/

namespace Inlay.Selector

open Text

/-! ### Names -/

/-- A name as it can stand in a source. -/
structure IsName (s : String) : Prop where
  nonempty : s.toList ≠ []
  chars : ∀ c ∈ s.toList, Reader.isNameChar c = true

/-- A name whose case does not count, read after white space was skipped. -/
structure IsFoldedName (s : String) : Prop extends IsName s where
  folded : s.toLower = s
  head : ∀ c ∈ s.toList.head?, isBlank c = false

theorem isNameChar_toLower {c : Char} (h : Reader.isNameChar c = true) :
    Reader.isNameChar c.toLower = true := by
  cases hupper : c.isUpper with
  | false => rwa [Char.toLower_eq_of_not_isUpper (Bool.eq_false_iff.mp hupper)]
  | true => simp [Reader.isNameChar, Char.isAlphanum, Char.isAlpha, hupper]

/-- Folding the case of a name that begins with no white space gives a name that `IsFoldedName`. -/
theorem IsName.toLower {s : String} (h : IsName s)
    (hhead : ∀ c ∈ s.toList.head?, isBlank c = false) : IsFoldedName s.toLower where
  nonempty := by
    rw [toList_toLower, ne_eq, List.map_eq_nil_iff]
    exact h.nonempty
  chars c hc := by
    rw [toList_toLower, List.mem_map] at hc
    obtain ⟨c, hc, rfl⟩ := hc
    exact isNameChar_toLower (h.chars c hc)
  folded := toLower_toLower s
  head c hc := by
    rw [toList_toLower, List.head?_map, Option.mem_def, Option.map_eq_some_iff] at hc
    obtain ⟨c, hc, rfl⟩ := hc
    exact (isBlank_toLower c).trans (hhead c hc)

/-! ### Legibility -/

def AttrTest.name : AttrTest → String
  | present name => name
  | equals name _ => name

mutual

def Pseudo.Legible : Pseudo → Prop
  | .not cs => cs ≠ [] ∧ CompoundsLegible cs
  | _ => True

def Compound.Legible : Compound → Prop
  | ⟨tag, id, classes, attrs, pseudos⟩ =>
    (∀ t ∈ tag, IsFoldedName t) ∧ (∀ i ∈ id, IsName i) ∧ (∀ c ∈ classes, IsName c) ∧
      (∀ a ∈ attrs, IsFoldedName a.name) ∧ PseudosLegible pseudos

def CompoundsLegible : List Compound → Prop
  | [] => True
  | c :: cs => c.Legible ∧ CompoundsLegible cs

def PseudosLegible : List Pseudo → Prop
  | [] => True
  | p :: ps => p.Legible ∧ PseudosLegible ps

end

def Complex.Legible : Complex → Prop
  | compound c => c.Legible
  | combine left _ right => left.Legible ∧ right.Legible

structure Legible (s : Selector) : Prop where
  nonempty : s.alternatives ≠ []
  alternatives : ∀ x ∈ s.alternatives, x.Legible

/-! ### Values -/

def AttrTest.values : AttrTest → List String
  | present _ => []
  | equals _ value => [value]

mutual

def Pseudo.values : Pseudo → List String
  | .not cs => compoundsValues cs
  | _ => []

def Compound.values : Compound → List String
  | ⟨_, _, _, attrs, pseudos⟩ => attrs.flatMap AttrTest.values ++ pseudosValues pseudos

def compoundsValues : List Compound → List String
  | [] => []
  | c :: cs => c.values ++ compoundsValues cs

def pseudosValues : List Pseudo → List String
  | [] => []
  | p :: ps => p.values ++ pseudosValues ps

end

def Complex.values : Complex → List String
  | compound c => c.values
  | combine left _ right => left.values ++ right.values

/-- The values of all attribute conditions, those in negations among them. -/
def values (s : Selector) : List String :=
  s.alternatives.flatMap Complex.values

theorem pseudosLegible_append : ∀ {ps qs : List Pseudo},
    PseudosLegible (ps ++ qs) ↔ PseudosLegible ps ∧ PseudosLegible qs
  | [], qs => by simp [PseudosLegible]
  | p :: ps, qs => by simp [PseudosLegible, pseudosLegible_append, and_assoc]

/-- The values in `ps ++ qs` are those in `ps` and then those in `qs`. -/
theorem pseudosValues_append : ∀ ps qs : List Pseudo,
    pseudosValues (ps ++ qs) = pseudosValues ps ++ pseudosValues qs
  | [], qs => by simp [pseudosValues]
  | p :: ps, qs => by simp [pseudosValues, pseudosValues_append]

end Inlay.Selector
