import Inlay.Proofs.Markup.Draft
import Inlay.Proofs.Markup.Strip

/-!
# What stands in a fragment

A property of trees that holds of what the tokens make, and of a node whenever it holds of its
children, holds of everything in the fragment that the tokens stand for (`forall_children_treeOf`).

Its first use: the only fragment in a parsed tree is its top. Below there are elements, texts and
comments, and of these only elements have children (`plainAll_treeOf`). Removing blank texts keeps
it so.
-/

namespace Inlay

namespace Tree

mutual

/-- There are no fragments, and only elements have children. -/
def Plain : Tree → Prop
  | node (.element _) cs => PlainAll cs
  | node (.text _) cs => cs = []
  | node (.comment _) cs => cs = []
  | node .fragment _ => False

def PlainAll : List Tree → Prop
  | [] => True
  | t :: ts => t.Plain ∧ PlainAll ts

end

theorem plainAll_iff {ts : List Tree} : PlainAll ts ↔ ∀ t ∈ ts, t.Plain := by
  induction ts with
  | nil => simp [PlainAll]
  | cons t ts ih => simp [PlainAll, ih]

mutual

/-- A tree that is `Plain` is so without its blank texts. -/
theorem Plain.stripped : ∀ {t : Tree}, t.Plain → t.stripped.Plain
  | node (.element e) cs, h => by
    rw [Tree.stripped, Plain]
    split
    · exact h
    · exact PlainAll.strippedAll h
  | node (.text s) cs, h => by
    obtain rfl : cs = [] := h
    rfl
  | node (.comment s) cs, h => by
    obtain rfl : cs = [] := h
    rfl

theorem PlainAll.strippedAll : ∀ {ts : List Tree}, PlainAll ts → PlainAll (Tree.strippedAll ts)
  | [], _ => trivial
  | t :: ts, h => by
    rw [Tree.strippedAll]
    split
    · exact PlainAll.strippedAll h.2
    · exact ⟨h.1.stripped, PlainAll.strippedAll h.2⟩

end

end Tree

namespace Markup

/-! ### Building keeps a property -/

/-- What building a tree from tokens needs of a property `P` of trees, where `Q` holds of the nodes
that stay open. -/
structure Grown (P : Tree → Prop) (Q : NodeKind → Prop) : Prop where
  text : ∀ s, P (.node (.text s) [])
  close : ∀ {kind : NodeKind} {ts : List Tree}, Q kind → (∀ t ∈ ts, P t) → P (.node kind ts)

/-- What a token makes has the property. -/
def Token.Makes (P : Tree → Prop) (Q : NodeKind → Prop) : Token → Prop
  | .startTag name attrs _ =>
    P (.node (.element (.of name attrs)) []) ∧
      (isVoid name = false → Q (.element (.of name attrs)))
  | .comment s => P (.node (.comment s) [])
  | .text _ | .endTag _ | .doctype | .error => True

/-- Open levels, innermost first: `P` holds of what is finished in them, and `Q` of all but the
outermost, which is the fragment. -/
def Stacked (P : Tree → Prop) (Q : NodeKind → Prop) : Level → List Level → Prop
  | l, [] => l.kind = .fragment ∧ ∀ t ∈ l.trees, P t
  | l, m :: ms => Q l.kind ∧ (∀ t ∈ l.trees, P t) ∧ Stacked P Q m ms

variable {P : Tree → Prop} {Q : NodeKind → Prop} {l : Level} {ls : List Level} {d : Draft}

theorem forall_trees_add (h : ∀ t ∈ l.trees, P t) {t : Tree} (ht : P t) :
    ∀ u ∈ (l.add t).trees, P u := by
  intro u hu
  rcases List.mem_append.mp hu with hu | hu
  · exact h u hu
  · rwa [List.mem_singleton.mp hu]

theorem Stacked.add (h : Stacked P Q l ls) {t : Tree} (ht : P t) : Stacked P Q (l.add t) ls := by
  cases ls with
  | nil => exact ⟨h.1, forall_trees_add h.2 ht⟩
  | cons m ms => exact ⟨h.1, forall_trees_add h.2.1 ht, h.2.2⟩

/-- A level that is closed goes into the next one, `m.add l.tree`. -/
theorem Stacked.close (hgrown : Grown P Q) {m : Level} {ms : List Level}
    (h : Stacked P Q l (m :: ms)) : Stacked P Q (m.add l.tree) ms := by
  obtain ⟨hkind, htrees, hrest⟩ := h
  exact hrest.add (hgrown.close hkind htrees)

/-- When all levels are closed, `P` holds of everything in the fragment. -/
theorem Stacked.enclose (hgrown : Grown P Q) : ∀ {ls : List Level} {l : Level}, Stacked P Q l ls →
    ∃ ts, Draft.enclose l.tree ls = .node .fragment ts ∧ ∀ t ∈ ts, P t
  | [], l, h => ⟨l.trees, congrArg (Tree.node · l.trees) h.1, h.2⟩
  | _ :: _, _, h => (h.close hgrown).enclose hgrown

namespace Draft

def Holds (P : Tree → Prop) (Q : NodeKind → Prop) (d : Draft) : Prop :=
  Stacked P Q d.current d.outer

theorem Holds.add (h : d.Holds P Q) {t : Tree} (ht : P t) : (d.add t).Holds P Q :=
  Stacked.add h ht

theorem Holds.enter (h : d.Holds P Q) {kind : NodeKind} (hkind : Q kind) :
    (d.enter kind).Holds P Q :=
  ⟨hkind, fun _ hu => absurd hu List.not_mem_nil, h⟩

theorem Holds.close (hgrown : Grown P Q) (h : d.Holds P Q) : d.close.Holds P Q := by
  obtain ⟨current, outer, text⟩ := d
  cases outer with
  | nil => exact h
  | cons m ms => exact Stacked.close hgrown h

theorem Holds.iterate_close (hgrown : Grown P Q) (h : d.Holds P Q) (n : Nat) :
    (Draft.close^[n] d).Holds P Q := by
  induction n with
  | zero => exact h
  | succ n ih =>
    rw [Function.iterate_succ_apply']
    exact ih.close hgrown

theorem Holds.flush (hgrown : Grown P Q) (h : d.Holds P Q) : d.flush.Holds P Q := by
  unfold Draft.flush
  split
  · exact h
  · exact h.add (hgrown.text d.text)

/-- A token that makes what has `P` keeps it so in all of the draft. -/
theorem Holds.take (hgrown : Grown P Q) (h : d.Holds P Q) {token : Token} (ht : token.Makes P Q) :
    (d.take token).Holds P Q := by
  cases token with
  | text s => exact h
  | startTag name attrs selfClosing =>
    obtain ⟨hleaf, hopen⟩ := ht
    rw [Draft.take]
    -- an element that is void or closes itself is finished at once
    split
    · exact (h.flush hgrown).add hleaf
    · rename_i hnot
      have hvoid : isVoid name = false := by
        rw [Bool.or_eq_true, not_or, Bool.not_eq_true, Bool.not_eq_true] at hnot
        exact hnot.2
      exact (h.flush hgrown).enter (hopen hvoid)
  | endTag name => exact (h.flush hgrown).iterate_close hgrown _
  | comment s => exact (h.flush hgrown).add ht
  | doctype | error => exact h

theorem Holds.takeAll (hgrown : Grown P Q) : ∀ {tokens : List Token} {d : Draft}, d.Holds P Q →
    (∀ token ∈ tokens, token.Makes P Q) → (d.takeAll tokens).Holds P Q
  | [], _, h, _ => h
  | token :: tokens, _, h, ht => by
    have htake := h.take hgrown (ht token List.mem_cons_self)
    exact htake.takeAll hgrown fun u hu => ht u (List.mem_cons_of_mem _ hu)

end Draft

/-- If `P` holds of what the tokens make, it holds of everything in the fragment. -/
theorem exists_treeOf (hgrown : Grown P Q) {tokens : List Token}
    (h : ∀ token ∈ tokens, token.Makes P Q) :
    ∃ ts, treeOf tokens = .node .fragment ts ∧ ∀ t ∈ ts, P t := by
  have hstart : Draft.start.Holds P Q := by simp [Draft.start, Draft.Holds, Stacked]
  exact Stacked.enclose hgrown ((hstart.takeAll hgrown h).flush hgrown)

theorem forall_children_treeOf (hgrown : Grown P Q) {tokens : List Token}
    (h : ∀ token ∈ tokens, token.Makes P Q) : ∀ t ∈ (treeOf tokens).children, P t := by
  obtain ⟨ts, htop, hts⟩ := exists_treeOf hgrown h
  rw [htop]
  exact hts

/-- Tokens stand for a fragment, `.node .fragment (treeOf tokens).children`. -/
theorem treeOf_eq (tokens : List Token) :
    treeOf tokens = .node .fragment (treeOf tokens).children := by
  have hgrown : Grown (fun _ => True) fun _ => True := ⟨fun _ => trivial, fun _ _ => trivial⟩
  have hmakes : ∀ token ∈ tokens, token.Makes (fun _ => True) fun _ => True := fun token _ => by
    cases token <;> simp [Token.Makes]
  obtain ⟨ts, htop, -⟩ := exists_treeOf hgrown hmakes
  rw [htop]
  rfl

/-- Below its top a parsed tree is `Plain`. -/
theorem plainAll_treeOf (tokens : List Token) : Tree.PlainAll (treeOf tokens).children := by
  rw [Tree.plainAll_iff]
  have hgrown : Grown Tree.Plain fun kind => ∃ e, kind = .element e :=
    { text := fun _ => rfl
      close := by
        rintro _ ts ⟨e, rfl⟩ hts
        exact Tree.plainAll_iff.mpr hts }
  refine forall_children_treeOf hgrown fun token _ => ?_
  cases token with
  | startTag name attrs selfClosing => exact ⟨trivial, fun _ => ⟨_, rfl⟩⟩
  | comment s => rfl
  | _ => trivial

end Markup

end Inlay
