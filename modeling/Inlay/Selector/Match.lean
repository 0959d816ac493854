import Inlay.Selector.Basic
import Inlay.Arena.Walk

/-!
# Matching selectors

Whether an element of an arena matches, looking at its ancestors and siblings in the whole tree.
Conditions are examined from left to right, and only as far as needed to decide: a fault in the
arithmetic of `:nth-child` arises only where the condition is reached.
-/

namespace Inlay.Selector

def AttrTest.holds (e : Element) : AttrTest → Bool
  | present name => e.hasAttribute name
  | equals name value => e.attribute? name == some value

/-- The one-based position of an element that `before` element siblings precede. -/
def position (before : Nat) : Except ArithmeticFault Int32 :=
  checkedAdd (Int32.ofNat before) 1

/-- The conditions of a compound that look at the element alone. -/
def simpleHolds (e : Element) (tag id : Option String) (classes : List String)
    (attrs : List AttrTest) : Bool :=
  (match tag with
    | some t => e.tag == t
    | none => true) &&
  (match id with
    | some i => e.attribute? "id" == some i
    | none => true) &&
  classes.all (Text.hasWord ((e.attribute? "class").getD "") ·) &&
  attrs.all (·.holds e)

mutual

def Pseudo.holds (a : Arena) (id : NodeId) : Pseudo → Except ArithmeticFault Bool
  | .firstChild => .ok ((a.siblingPlace id).2 == 0)
  | .lastChild =>
    let (siblings, before) := a.siblingPlace id
    .ok (before + 1 == siblings.length)
  | .nthChild n => do n.holds (← position (a.siblingPlace id).2)
  | .not cs => do return !(← anyHolds a id cs)

def Compound.holds (a : Arena) (id : NodeId) : Compound → Except ArithmeticFault Bool
  | ⟨tag, wanted, classes, attrs, pseudos⟩ =>
    match a.element? id with
    | none => .ok false
    | some e =>
      if simpleHolds e tag wanted classes attrs then allHold a id pseudos else .ok false

/-- Whether one of the compounds holds, tried in order. -/
def anyHolds (a : Arena) (id : NodeId) : List Compound → Except ArithmeticFault Bool
  | [] => .ok false
  | c :: cs => do if ← c.holds a id then return true else anyHolds a id cs

/-- Whether all of the pseudo-classes hold, tried in order. -/
def allHold (a : Arena) (id : NodeId) : List Pseudo → Except ArithmeticFault Bool
  | [] => .ok true
  | p :: ps => do if ← p.holds a id then allHold a id ps else return false

end

/-- The elements that a combinator leads back to from an element, in the order in which they are
tried. -/
def Combinator.candidates (a : Arena) (id : NodeId) : Combinator → List NodeId
  | descendant => a.elementAncestors id
  | child => (a.elementAncestors id).take 1
  | adjacent =>
    let (siblings, before) := a.siblingPlace id
    (siblings.take before).drop (before - 1)
  | sibling =>
    let (siblings, before) := a.siblingPlace id
    siblings.take before

/-- Whether the last compound holds at `id` and the ones before it at elements that the combinators
lead to. -/
def Complex.holds (a : Arena) : Complex → NodeId → Except ArithmeticFault Bool
  | compound c, id => c.holds a id
  | combine left k right, id => do
    if ← right.holds a id then (k.candidates a id).anyM (left.holds a) else return false

/-- Whether a node is an element that one of the alternatives matches. -/
def accepts (s : Selector) (a : Arena) (id : NodeId) : Except ArithmeticFault Bool :=
  s.alternatives.anyM (·.holds a id)

end Selector

namespace Arena

/-- The elements below `scope` that match, in document order. -/
def select (a : Arena) (scope : NodeId) (s : Selector) :
    Except Selector.ArithmeticFault (List NodeId) :=
  (a.descendants scope).filterM (s.accepts a)

end Arena

end Inlay
