import Inlay.Markup.Fragment
import Inlay.Proofs.Arena.Forest
import Mathlib.Logic.Function.Iterate

/-!
# Tokens as trees

What a row of tokens stands for, without an arena: `treeOf tokens` is the tree of the fragment that
holds them. A `Draft` is a tree under construction, seen from the innermost open node: what that
node has so far, and what the nodes around it have so far. Each token either adds a finished tree,
opens a node, or closes some; at the end all open nodes are closed.

`Draft` is what `Builder` does to nodes, said about trees; `Raised.takeAll` proves it.
-/

namespace Inlay.Markup

/-- An open node: its kind and the trees finished inside it. -/
structure Level where
  kind : NodeKind
  trees : List Tree

namespace Level

def tree (l : Level) : Tree :=
  .node l.kind l.trees

def add (l : Level) (t : Tree) : Level :=
  { l with trees := l.trees ++ [t] }

end Level

/-- Trees under construction. -/
structure Draft where
  current : Level
  /-- The levels around the current one, innermost first. -/
  outer : List Level
  /-- Text that is not in a tree yet. -/
  text : String

namespace Draft

/-- Puts a finished tree into the current level. -/
def add (d : Draft) (t : Tree) : Draft :=
  { d with current := d.current.add t }

/-- Opens a level inside the current one. -/
def enter (d : Draft) (kind : NodeKind) : Draft :=
  { d with current := ⟨kind, []⟩, outer := d.current :: d.outer }

/-- Puts the current level, finished, into the one around it. -/
def close (d : Draft) : Draft :=
  match d.outer with
  | [] => d
  | l :: ls => { d with current := l.add d.current.tree, outer := ls }

/-- Puts the collected text into a tree of its own. -/
def flush (d : Draft) : Draft :=
  if d.text.isEmpty then d else { d.add (.node (.text d.text) []) with text := "" }

theorem text_flush (d : Draft) : d.flush.text = "" := by
  rw [flush]
  split
  · exact String.isEmpty_iff.mp ‹_›
  · rfl

/-- Number of levels that an end tag closes: up to the innermost one of that name, if there is
one. -/
def closing (name : String) (levels : List Level) : Nat :=
  match levels.findIdx? (·.kind.hasTag name) with
  | some i => i + 1
  | none => 0

/-- Takes in one token. -/
def take (d : Draft) : Token → Draft
  | .text s => { d with text := d.text ++ s }
  | .startTag name attrs selfClosing =>
    let e := NodeKind.element (.of name attrs)
    if selfClosing || isVoid name then d.flush.add (.node e []) else d.flush.enter e
  | .endTag name => close^[closing name (d.flush.current :: d.flush.outer)] d.flush
  | .comment s => d.flush.add (.node (.comment s) [])
  | .doctype | .error => d

/-- Takes in tokens one after the other. -/
def takeAll (d : Draft) (tokens : List Token) : Draft :=
  tokens.foldl take d

/-- A finished tree inside levels that are open, all of them closed. -/
def enclose : Tree → List Level → Tree
  | t, [] => t
  | t, l :: ls => enclose (l.add t).tree ls

/-- All levels closed. -/
def tree (d : Draft) : Tree :=
  enclose d.current.tree d.outer

/-- A fragment without anything in it. -/
def start : Draft :=
  ⟨⟨.fragment, []⟩, [], ""⟩

end Draft

/-- The fragment that a row of tokens stands for. -/
def treeOf (tokens : List Token) : Tree :=
  (Draft.start.takeAll tokens).flush.tree

namespace Draft

/-! ### Open levels -/

/-- All open levels are elements or fragments. -/
def Open (d : Draft) : Prop :=
  ∀ l ∈ d.current :: d.outer, l.kind.isContainer = true

theorem open_start : start.Open := by
  intro l hl
  obtain rfl : l = ⟨.fragment, []⟩ := List.mem_singleton.mp hl
  rfl

variable {d : Draft}

theorem Open.add (h : d.Open) (t : Tree) : (d.add t).Open := by
  intro l hl
  rcases List.mem_cons.mp hl with rfl | hl
  · exact h d.current List.mem_cons_self
  · exact h l (List.mem_cons_of_mem _ hl)

theorem Open.enter (h : d.Open) {kind : NodeKind} (hkind : kind.isContainer = true) :
    (d.enter kind).Open := by
  intro l hl
  rcases List.mem_cons.mp hl with rfl | hl
  · exact hkind
  · exact h l hl

/-- Closing a level leaves one that is `Open` for children, as all levels are. -/
theorem Open.close (h : d.Open) : d.close.Open := by
  unfold Draft.close
  split
  · exact h
  · rename_i l ls hls
    intro m hm
    rcases List.mem_cons.mp hm with rfl | hm
    · exact h l (by simp [hls])
    · exact h m (by simp [hls, show m ∈ ls from hm])

theorem Open.iterate_close (h : d.Open) (n : Nat) : (Draft.close^[n] d).Open := by
  induction n with
  | zero => exact h
  | succ n ih =>
    rw [Function.iterate_succ_apply']
    exact ih.close

theorem Open.flush (h : d.Open) : d.flush.Open := by
  unfold Draft.flush
  split
  · exact h
  · exact h.add _

/-- Every token leaves the innermost level `Open` for children. -/
theorem Open.take (h : d.Open) (token : Token) : (d.take token).Open := by
  cases token with
  | text s => exact h
  | startTag name attrs selfClosing =>
    rw [Draft.take]
    split
    · exact h.flush.add _
    · exact h.flush.enter rfl
  | endTag name => exact h.flush.iterate_close _
  | comment s => exact h.flush.add _
  | doctype | error => exact h

end Draft

end Inlay.Markup
