import Inlay.Proofs.Selector.Positions
import Inlay.Proofs.Arena.Forest
import Inlay.Proofs.Text.Words

/-!
# What selectors mean

A selector matches an element if for one of its alternatives there is a row of elements, one for
each compound and the last one the element itself (`Chain`): each meets its compound
(`Compound.Met`) and is related to the one before it as the combinator between them says
(`Combinator.Links`). Nothing here says how such a row is found.
-/

namespace Inlay

namespace Arena

/-- The elements that count as siblings of a node, itself included: the element children of its
parent. A node without a parent is its own only sibling. -/
def siblingRow (a : Arena) (id : NodeId) : List NodeId :=
  match a.parent? id with
  | some p => a.elementChildren p
  | none => [id]

/-- `p` is the parent of `c` and an element. -/
def ElementUp (a : Arena) (c p : NodeId) : Prop :=
  a.Up c p ∧ a.isElement p = true

end Arena

namespace Selector

/-! ### One element -/

def AttrTest.Met (e : Element) : AttrTest → Prop
  | present name => ∃ value, e.attribute? name = some value
  | equals name value => e.attribute? name = some value

/-- The conditions of a compound that look at the element alone. -/
structure SimplyMet (e : Element) (tag id : Option String) (classes : List String)
    (attrs : List AttrTest) : Prop where
  tag : ∀ t ∈ tag, e.tag = t
  id : ∀ i ∈ id, e.attribute? "id" = some i
  classes : ∀ c ∈ classes, ∃ value, e.attribute? "class" = some value ∧
    Text.IsWord value.toList c.toList
  attrs : ∀ t ∈ attrs, t.Met e

mutual

/-- A condition on the place of an element among its siblings, or a negation. -/
def Pseudo.Met (a : Arena) (id : NodeId) : Pseudo → Prop
  | .firstChild => ∃ post, a.siblingRow id = id :: post
  | .lastChild => ∃ pre, a.siblingRow id = pre ++ [id]
  | .nthChild n => ∃ pre post, a.siblingRow id = pre ++ id :: post ∧ n.Hits (pre.length + 1)
  | .not cs => ¬ AnyMet a id cs

/-- All conditions of a compound. -/
def Compound.Met (a : Arena) (id : NodeId) : Compound → Prop
  | ⟨tag, wanted, classes, attrs, pseudos⟩ =>
    (∃ e, a.element? id = some e ∧ SimplyMet e tag wanted classes attrs) ∧ AllMet a id pseudos

def AnyMet (a : Arena) (id : NodeId) : List Compound → Prop
  | [] => False
  | c :: cs => c.Met a id ∨ AnyMet a id cs

def AllMet (a : Arena) (id : NodeId) : List Pseudo → Prop
  | [] => True
  | p :: ps => p.Met a id ∧ AllMet a id ps

end

theorem anyMet_iff {a : Arena} {id : NodeId} {cs : List Compound} :
    AnyMet a id cs ↔ ∃ c ∈ cs, c.Met a id := by
  induction cs with
  | nil => simp [AnyMet]
  | cons c cs ih => rw [AnyMet, ih, List.exists_mem_cons_iff]

theorem allMet_iff {a : Arena} {id : NodeId} {ps : List Pseudo} :
    AllMet a id ps ↔ ∀ p ∈ ps, p.Met a id := by
  induction ps with
  | nil => simp [AllMet]
  | cons p ps ih => rw [AllMet, ih, List.forall_mem_cons]

/-! ### A row of elements -/

/-- How the element `f` of a compound is related to the element `e` of the next one. -/
def Combinator.Links (a : Arena) (f e : NodeId) : Combinator → Prop
  | descendant => Relation.TransGen a.ElementUp e f
  | child => a.ElementUp e f
  | adjacent => ∃ pre post, a.siblingRow e = pre ++ f :: e :: post
  | sibling => ∃ pre mid post, a.siblingRow e = pre ++ f :: (mid ++ e :: post)

/-- The compounds from left to right. -/
def Complex.compounds : Complex → List Compound
  | compound c => [c]
  | combine left _ right => left.compounds ++ [right]

/-- The combinators from left to right, one between any two compounds. -/
def Complex.combinators : Complex → List Combinator
  | compound _ => []
  | combine left k _ => left.combinators ++ [k]

/-- A row of elements, ending in `id`, that an alternative describes. -/
structure Chain (a : Arena) (x : Complex) (row : List NodeId) (id : NodeId) : Prop where
  met : List.Forall₂ (fun c e => Compound.Met a e c) x.compounds row
  linked : ∀ j k f e, x.combinators[j]? = some k → row[j]? = some f → row[j + 1]? = some e →
    k.Links a f e
  last : row.getLast? = some id

/-- One of the alternatives describes a row of elements that ends in `id`. -/
def Matches (s : Selector) (a : Arena) (id : NodeId) : Prop :=
  ∃ x ∈ s.alternatives, ∃ row, Chain a x row id

/-- There is one compound more than combinators: `x.combinators.length + 1`. -/
theorem Complex.length_compounds (x : Complex) :
    x.compounds.length = x.combinators.length + 1 := by
  induction x with
  | compound c => rfl
  | combine left k right ih =>
    rw [compounds, combinators, List.length_append, List.length_append, ih]
    rfl

/-- A row for a single compound `c` is one element that meets it. -/
theorem chain_compound {a : Arena} {c : Compound} {id : NodeId} :
    (∃ row, Chain a (.compound c) row id) ↔ c.Met a id := by
  constructor
  · rintro ⟨row, hmet, -, hlast⟩
    obtain ⟨e, rest, he, hnil, rfl⟩ := List.forall₂_cons_left_iff.mp hmet
    obtain rfl := List.forall₂_nil_left_iff.mp hnil
    obtain rfl : e = id := by simpa using hlast
    exact he
  · intro hmet
    refine ⟨[id], .cons hmet .nil, fun j k f e hk => ?_, rfl⟩
    exact absurd hk (by simp [Complex.combinators])

theorem forall₂_concat {α β : Type} {R : α → β → Prop} {xs : List α} {ys : List β} {x : α} {y : β} :
    List.Forall₂ R (xs ++ [x]) (ys ++ [y]) ↔ List.Forall₂ R xs ys ∧ R x y := by
  rw [← List.forall₂_reverse_iff, List.reverse_concat, List.reverse_concat, List.forall₂_cons,
    List.forall₂_reverse_iff, and_comm]

/-- A longer row is a shorter one with an element `id` behind it that the last combinator `k` leads
to from its end `f`. -/
theorem chain_combine {a : Arena} {left : Complex} {k : Combinator} {right : Compound}
    {id : NodeId} : (∃ row, Chain a (.combine left k right) row id) ↔
      right.Met a id ∧ ∃ f, k.Links a f id ∧ ∃ row, Chain a left row f := by
  have hlength := left.length_compounds
  -- the last but one element stands where the last combinator does
  have hlast : ∀ {row : List NodeId}, row.length = left.compounds.length →
      row.getLast? = row[left.combinators.length]? := fun hrow => by
    rw [List.getLast?_eq_getElem?, hrow, hlength, Nat.add_sub_cancel]
  constructor
  · rintro ⟨row, hmet, hlinked, hid⟩
    obtain ⟨row, rfl⟩ := List.getLast?_eq_some_iff.mp hid
    rw [Complex.compounds, forall₂_concat] at hmet
    have hrow := hmet.1.length_eq.symm
    obtain ⟨f, hf⟩ : ∃ f, row[left.combinators.length]? = some f :=
      ⟨_, List.getElem?_eq_getElem (by omega)⟩
    refine ⟨hmet.2, f, ?_, row, hmet.1, fun j k' f' e' hk hf' he' => ?_, (hlast hrow).trans hf⟩
    · refine hlinked left.combinators.length k f id ?_ ?_ ?_
      · rw [Complex.combinators, List.getElem?_concat_length]
      · rw [List.getElem?_append_left (by omega), hf]
      · rw [← hlength, ← hrow, List.getElem?_concat_length]
    · have hj := (List.getElem?_eq_some_iff.mp hk).1
      refine hlinked j k' f' e' ?_ ?_ ?_
      · rw [Complex.combinators, List.getElem?_append_left hj, hk]
      · rw [List.getElem?_append_left (by omega), hf']
      · rw [List.getElem?_append_left (by omega), he']
  · rintro ⟨hmet, f, hlink, row, hrow⟩
    have hrowlength := hrow.met.length_eq.symm
    refine ⟨row ++ [id], forall₂_concat.mpr ⟨hrow.met, hmet⟩, ?_, List.getLast?_concat⟩
    intro j k' f' e' hk hf' he'
    rw [Complex.combinators] at hk
    rcases Nat.lt_or_ge j left.combinators.length with hj | hj
    · rw [List.getElem?_append_left (by omega)] at hk hf' he'
      exact hrow.linked j k' f' e' hk hf' he'
    · have hlt := (List.getElem?_eq_some_iff.mp hk).1
      rw [List.length_append, List.length_singleton] at hlt
      obtain rfl : j = left.combinators.length := by omega
      rw [List.getElem?_concat_length, Option.some.injEq] at hk
      rw [List.getElem?_append_left (by omega), ← hlast hrowlength, hrow.last,
        Option.some.injEq] at hf'
      rw [← hlength, ← hrowlength, List.getElem?_concat_length, Option.some.injEq] at he'
      rwa [← hk, ← hf', ← he']

end Selector

end Inlay
