import Inlay.Markup.Fragment
import Inlay.Proofs.Arena.Plant

/-!
# Canonical trees

The trees that markup can write down without loss. Tag and attribute names must survive the reading
of a tag, attributes stand in the order in which tags are read, texts and comments must not end
early, and no two texts stand side by side, since nothing would keep them apart.
-/

namespace Inlay

namespace Markup

/-- Whether a character can stand anywhere in the name of a tag or an attribute: it neither ends the
name nor is changed by reading it. -/
def NameChar (c : Char) : Prop :=
  c.isUpper = false ∧ Text.isAsciiSpace c = false ∧ c ≠ '/' ∧ c ≠ '>' ∧ c ≠ '\x00'

structure CanonicalTag (tag : String) : Prop where
  /-- It begins with a lowercase ASCII letter. -/
  head : tag.toList.head?.any (·.isLower) = true
  chars : ∀ c ∈ tag.toList, NameChar c

structure CanonicalName (name : String) : Prop where
  nonempty : name ≠ ""
  chars : ∀ c ∈ name.toList, NameChar c
  /-- An equals sign can only come first. -/
  equals : '=' ∉ name.toList.tail

structure CanonicalElement (e : Element) : Prop where
  tag : CanonicalTag e.tag
  names : ∀ x ∈ e.attrs, CanonicalName x.1
  /-- By code points, which is the order of the encoded bytes. -/
  ascending : e.attrs.Pairwise fun x y => x.1 < y.1
  values : ∀ x ∈ e.attrs, '\r' ∉ x.2.toList ∧ '\x00' ∉ x.2.toList

structure CanonicalComment (s : String) : Prop where
  noReturn : '\r' ∉ s.toList
  noNul : '\x00' ∉ s.toList
  start : ¬ ['>'] <+: s.toList
  startDash : ¬ ['-', '>'] <+: s.toList
  noEnd : ¬ ['-', '-', '>'] <:+: s.toList
  noBangEnd : ¬ ['-', '-', '!', '>'] <:+: s.toList

section Decidable

instance (c : Char) : Decidable (NameChar c) :=
  inferInstanceAs (Decidable (_ ∧ _ ∧ _ ∧ _ ∧ _))

/-- Looks at the characters of the list only. -/
instance (cs : List Char) : Decidable (∀ c ∈ cs, NameChar c) :=
  List.decidableBAll (p := NameChar) cs

instance (tag : String) : Decidable (CanonicalTag tag) :=
  decidable_of_iff (_ ∧ ∀ c ∈ tag.toList, NameChar c) ⟨fun h => ⟨h.1, h.2⟩, fun h => ⟨h.1, h.2⟩⟩

instance (name : String) : Decidable (CanonicalName name) :=
  decidable_of_iff (_ ∧ (∀ c ∈ name.toList, NameChar c) ∧ _)
    ⟨fun h => ⟨h.1, h.2.1, h.2.2⟩, fun h => ⟨h.1, h.2, h.3⟩⟩

instance (e : Element) : Decidable (CanonicalElement e) :=
  decidable_of_iff
    (CanonicalTag e.tag ∧ (∀ x ∈ e.attrs, CanonicalName x.1) ∧ _ ∧ ∀ x ∈ e.attrs, _ ∧ _)
    ⟨fun h => ⟨h.1, h.2.1, h.2.2.1, h.2.2.2⟩, fun h => ⟨h.1, h.2, h.3, h.4⟩⟩

instance (s : String) : Decidable (CanonicalComment s) :=
  decidable_of_iff (_ ∧ _ ∧ _ ∧ _ ∧ _ ∧ _)
    ⟨fun h => ⟨h.1, h.2.1, h.2.2.1, h.2.2.2.1, h.2.2.2.2.1, h.2.2.2.2.2⟩,
      fun h => ⟨h.1, h.2, h.3, h.4, h.5, h.6⟩⟩

end Decidable

end Markup

namespace Tree

open Markup

def isText : Tree → Bool
  | node (.text _) _ => true
  | _ => false

mutual

def Canonical : Tree → Prop
  | node (.element e) cs =>
    CanonicalElement e ∧ (isVoid e.tag = true → cs = []) ∧ CanonicalAll cs
  | node (.text s) _ => s ≠ "" ∧ '\r' ∉ s.toList
  | node (.comment s) _ => CanonicalComment s
  | node .fragment _ => False

/-- Canonical trees side by side, no two texts next to each other. -/
def CanonicalAll : List Tree → Prop
  | [] => True
  | t :: ts => t.Canonical ∧ (t.isText = true → ∀ u ∈ ts.head?, u.isText = false) ∧ CanonicalAll ts

end

mutual

def decidableCanonical : (t : Tree) → Decidable t.Canonical
  | node (.element e) cs =>
    have := decidableCanonicalAll cs
    inferInstanceAs
      (Decidable (CanonicalElement e ∧ (isVoid e.tag = true → cs = []) ∧ CanonicalAll cs))
  | node (.text s) _ => inferInstanceAs (Decidable (s ≠ "" ∧ '\r' ∉ s.toList))
  | node (.comment s) _ => inferInstanceAs (Decidable (CanonicalComment s))
  | node .fragment _ => inferInstanceAs (Decidable False)

def decidableCanonicalAll : (ts : List Tree) → Decidable (CanonicalAll ts)
  | [] => inferInstanceAs (Decidable True)
  | t :: ts =>
    have := decidableCanonical t
    have := decidableCanonicalAll ts
    inferInstanceAs (Decidable (t.Canonical ∧ (t.isText = true → ∀ u ∈ ts.head?, u.isText = false) ∧
      CanonicalAll ts))

end

instance (t : Tree) : Decidable t.Canonical :=
  decidableCanonical t

instance (ts : List Tree) : Decidable (CanonicalAll ts) :=
  decidableCanonicalAll ts

/-! ### The tokens of a tree -/

mutual

/-- What reading the markup of a canonical tree gives: texts come character by character. -/
def tokens : Tree → List Token
  | node (.element e) cs =>
    if isVoid e.tag then [.startTag e.tag e.attrs false]
    else .startTag e.tag e.attrs false :: (tokensAll cs ++ [.endTag e.tag])
  | node (.text s) _ => s.toList.map fun c => .text c.toString
  | node (.comment s) _ => [.comment s]
  | node .fragment cs => tokensAll cs

def tokensAll : List Tree → List Token
  | [] => []
  | t :: ts => t.tokens ++ tokensAll ts

end

end Tree

end Inlay
