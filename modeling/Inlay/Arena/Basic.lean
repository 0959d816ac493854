import Inlay.Text.Ascii

/-!
# Node arena

Nodes live in numbered slots and are named by `NodeId`s. An id carries the generation of its slot,
and freeing a node raises the generation, so the id of a freed node never names the node that
takes its slot later. `Arena.get?` is the view that everything else is stated through: the node an
id names, if it names one.
-/

namespace Inlay

/-- Names a node: a slot, and how often the slot had been freed when the node was made. -/
structure NodeId where
  index : UInt32
  generation : UInt32
deriving DecidableEq, Inhabited

/-- An element's tag name and attributes, both with lowercase names when made by `Element.of`. -/
structure Element where
  tag : String
  attrs : List (String × String)
deriving DecidableEq

namespace Element

/-- Names are lowercased; attributes keep their order and their duplicates. -/
def of (tag : String) (attrs : List (String × String)) : Element where
  tag := tag.toLower
  attrs := attrs.map fun a => (a.1.toLower, a.2)

/-- The value of the first attribute of that name, up to the case of ASCII letters. -/
def attribute? (e : Element) (name : String) : Option String :=
  (e.attrs.find? fun a => Text.eqIgnoreCase a.1 name).map (·.2)

def hasAttribute (e : Element) (name : String) : Bool :=
  (e.attribute? name).isSome

end Element

/-- What a node is, apart from its place in the tree. -/
inductive NodeKind where
  | element (e : Element)
  | text (s : String)
  | comment (s : String)
  /-- A container without a name, such as the result of parsing. -/
  | fragment
deriving DecidableEq

namespace NodeKind

def element? : NodeKind → Option Element
  | element e => some e
  | _ => none

/-- Only elements and fragments have children. -/
def isContainer : NodeKind → Bool
  | element _ | fragment => true
  | text _ | comment _ => false

end NodeKind

/-- A node and its links. -/
structure Node where
  kind : NodeKind
  parent : Option NodeId
  children : List NodeId

/-- A place for one node. -/
structure Slot where
  generation : UInt32
  node : Option Node

/-- A store of nodes, in which any number of trees can stand side by side. -/
structure Arena where
  slots : Array Slot
  /-- The slots without a node, the one freed last first. -/
  vacant : List UInt32
  /-- Number of nodes that were made and not freed. -/
  live : Nat

namespace Arena

def empty : Arena := ⟨#[], [], 0⟩

instance : Inhabited Arena := ⟨empty⟩

/-- The node that `id` names; none if it was freed or never made here. -/
def get? (a : Arena) (id : NodeId) : Option Node :=
  match a.slots[id.index.toNat]? with
  | some slot => if slot.generation = id.generation then slot.node else none
  | none => none

def isLive (a : Arena) (id : NodeId) : Bool :=
  (a.get? id).isSome

def kind? (a : Arena) (id : NodeId) : Option NodeKind :=
  (a.get? id).map (·.kind)

def element? (a : Arena) (id : NodeId) : Option Element :=
  (a.kind? id).bind NodeKind.element?

def isElement (a : Arena) (id : NodeId) : Bool :=
  (a.element? id).isSome

def tag? (a : Arena) (id : NodeId) : Option String :=
  (a.element? id).map (·.tag)

/-- Whether `id` is an element with that tag name, up to the case of ASCII letters. -/
def hasTag (a : Arena) (id : NodeId) (tag : String) : Bool :=
  match a.tag? id with
  | some t => Text.eqIgnoreCase t tag
  | none => false

def parent? (a : Arena) (id : NodeId) : Option NodeId :=
  (a.get? id).bind (·.parent)

/-- The children in order; none for the id of a freed node. -/
def children (a : Arena) (id : NodeId) : List NodeId :=
  match a.get? id with
  | some node => node.children
  | none => []

def elementChildren (a : Arena) (id : NodeId) : List NodeId :=
  (a.children id).filter a.isElement

def firstElementChild? (a : Arena) (id : NodeId) : Option NodeId :=
  (a.children id).find? a.isElement

/-- Puts a node without links into the slot freed last, or into a new one. -/
def alloc (a : Arena) (kind : NodeKind) : NodeId × Arena :=
  let node : Node := ⟨kind, none, []⟩
  match a.vacant with
  | index :: vacant =>
    let generation := ((a.slots[index.toNat]?).map (·.generation)).getD 0
    (⟨index, generation⟩,
      { slots := a.slots.modify index.toNat ({ · with node := some node })
        vacant
        live := a.live + 1 })
  | [] =>
    (⟨a.slots.size.toUInt32, 0⟩,
      { slots := a.slots.push ⟨0, some node⟩
        vacant := []
        live := a.live + 1 })

/-- Changes the node in a slot, if there is one. -/
def modifySlot (a : Arena) (index : UInt32) (f : Node → Node) : Arena :=
  { a with slots := a.slots.modify index.toNat fun s => { s with node := s.node.map f } }

/-- Vacates a slot: its generation goes up by one, and it is the next to be used again. -/
def release (a : Arena) (index : UInt32) : Arena where
  slots := a.slots.modify index.toNat fun s => ⟨s.generation + 1, none⟩
  vacant := index :: a.vacant
  live := a.live - 1

end Arena

end Inlay
