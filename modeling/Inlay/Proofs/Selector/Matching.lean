import Inlay.Proofs.Selector.Meaning
import Inlay.Proofs.Arena.Reachable
import Inlay.Selector.Syntax

/-!
# Matching means what selectors mean

`accepts` works its way back from the last compound and tries the elements that a combinator leads
to one after the other. Whatever verdict it reaches is the one that `Matches` describes, and it
reaches one unless a position does not fit into 32 bits (`Tells`). Each part of the evaluation is
taken with its meaning: conditions (`Compound.tells`), combinators (`mem_candidates_iff`),
alternatives (`Complex.tells`). Hence

* `matches_of_reachable`: in every reachable arena, an element is accepted if and only if it
  matches, and a query gives the matching elements below its scope, each once, in document order.
-/

namespace Inlay

/-! ### Verdicts -/

/-- A verdict on `P`: if the computation yields one it is right, and under `C` it yields one. -/
structure Tells {ε : Type} (C : Prop) (m : Except ε Bool) (P : Prop) : Prop where
  right : ∀ b, m = .ok b → (b = true ↔ P)
  total : C → ∃ b, m = .ok b

namespace Tells

variable {ε α : Type} {C D P Q : Prop} {m n : Except ε Bool}

theorem ok {b : Bool} (h : b = true ↔ P) : Tells C (.ok b : Except ε Bool) P where
  right _ hb := Except.ok.inj hb ▸ h
  total _ := ⟨b, rfl⟩

theorem mono (h : Tells C m P) (hC : D → C) : Tells D m P :=
  ⟨h.right, fun hD => h.total (hC hD)⟩

theorem congr (h : Tells C m P) (hP : P ↔ Q) : Tells C m Q :=
  ⟨fun b hb => (h.right b hb).trans hP, h.total⟩

/-- A computation that looks at `n` only if `m` holds tells whether both hold: `P ∧ Q`. -/
theorem and (hm : Tells C m P) (hn : Tells C n Q) :
    Tells C (m >>= fun b => if b then n else pure false) (P ∧ Q) := by
  constructor
  · intro b hb
    obtain ⟨verdict, hverdict, hb⟩ := exists_of_bind_eq_ok hb
    cases verdict with
    | true => rw [hn.right b hb, and_iff_right ((hm.right _ hverdict).mp rfl)]
    | false =>
      have hnot : ¬ P := fun hP => Bool.false_ne_true ((hm.right _ hverdict).mpr hP)
      rw [← Except.ok.inj hb]
      exact iff_of_false Bool.false_ne_true fun hPQ => hnot hPQ.1
  · intro hC
    obtain ⟨verdict, hverdict⟩ := hm.total hC
    rw [hverdict]
    cases verdict with
    | true => exact hn.total hC
    | false => exact ⟨false, rfl⟩

/-- One that looks at `n` only if `m` does not hold tells whether one of them holds: `P ∨ Q`. -/
theorem or (hm : Tells C m P) (hn : Tells C n Q) :
    Tells C (m >>= fun b => if b then pure true else n) (P ∨ Q) := by
  constructor
  · intro b hb
    obtain ⟨verdict, hverdict, hb⟩ := exists_of_bind_eq_ok hb
    cases verdict with
    | true =>
      rw [← Except.ok.inj hb]
      exact iff_of_true rfl (Or.inl ((hm.right _ hverdict).mp rfl))
    | false =>
      have hnot : ¬ P := fun hP => Bool.false_ne_true ((hm.right _ hverdict).mpr hP)
      rw [hn.right b hb, or_iff_right hnot]
  · intro hC
    obtain ⟨verdict, hverdict⟩ := hm.total hC
    rw [hverdict]
    cases verdict with
    | true => exact ⟨true, rfl⟩
    | false => exact hn.total hC

theorem not (hm : Tells C m P) : Tells C (m >>= fun b => pure !b) ¬ P := by
  constructor
  · intro b hb
    obtain ⟨verdict, hverdict, hb⟩ := exists_of_bind_eq_ok hb
    rw [← Except.ok.inj hb, Bool.not_eq_true', ← hm.right _ hverdict, Bool.not_eq_true]
  · intro hC
    obtain ⟨verdict, hverdict⟩ := hm.total hC
    exact ⟨!verdict, by rw [hverdict]; rfl⟩

/-- Going through a list until something holds tells whether something in it does:
`∃ x ∈ xs, P x`. -/
theorem anyM {f : α → Except ε Bool} {P : α → Prop} : ∀ {xs : List α},
    (∀ x ∈ xs, Tells C (f x) (P x)) → Tells C (xs.anyM f) (∃ x ∈ xs, P x)
  | [], _ => ok (by simp)
  | x :: xs, h => by
    rw [List.forall_mem_cons] at h
    have hrest := anyM (f := f) (P := P) h.2
    have hstep : (x :: xs).anyM f = (f x >>= fun b => if b then pure true else xs.anyM f) := by
      rw [List.anyM]
      refine bind_congr fun b => ?_
      cases b <;> rfl
    rw [hstep, List.exists_mem_cons_iff]
    exact h.1.or hrest

end Tells

namespace Arena

variable {a : Arena} {id f : NodeId}

/-! ### Siblings -/

/-- Where an element stands in its row, and what is recorded of it. -/
structure Seat (a : Arena) (id : NodeId) (pre post : List NodeId) : Prop where
  row_eq : a.siblingRow id = pre ++ id :: post
  place_eq : a.siblingPlace id = (a.siblingRow id, pre.length)
  not_mem_pre : id ∉ pre
  not_mem_post : id ∉ post

/-- An element has a `Seat` between the elements before it, `pre`, and those behind it, `post`. -/
theorem Forest.exists_seat (h : a.Forest) (hid : a.isElement id = true) :
    ∃ pre post, a.Seat id pre post := by
  cases hp : a.parent? id with
  | none =>
    refine ⟨[], [], ?_, ?_, List.not_mem_nil, List.not_mem_nil⟩
    · rw [siblingRow, hp]
      rfl
    · rw [siblingPlace, siblingRow, hp]
      rfl
  | some p =>
    have hmem : id ∈ a.elementChildren p :=
      List.mem_filter.mpr ⟨h.mem_of_parent hp, hid⟩
    have hnd : (a.elementChildren p).Nodup := (h.nodup_children p).filter _
    obtain ⟨pre, post, hrow⟩ := List.append_of_mem hmem
    rw [hrow] at hnd
    have hnot := (List.nodup_cons.mp (List.nodup_middle.mp hnd)).1
    rw [List.mem_append, not_or] at hnot
    obtain ⟨hpre, hpost⟩ := hnot
    refine ⟨pre, post, ?_, ?_, hpre, hpost⟩
    · rw [siblingRow, hp, ← hrow]
    · rw [siblingPlace, siblingRow, hp]
      simp only [Prod.mk.injEq, true_and]
      rw [if_pos (List.contains_iff_mem.mpr hmem), hrow, List.idxOf_append_of_notMem hpre,
        List.idxOf_cons_self, Nat.add_zero]

/-- There are no more elements beside each other than slots, `a.slots.size`. -/
theorem Forest.length_siblingRow_le (h : a.Forest) (hid : a.isElement id = true) :
    (a.siblingRow id).length ≤ a.slots.size := by
  have hlive : a.isLive id := by
    cases hget : a.get? id with
    | none => exact absurd hid (by simp [isElement, element?, kind?, hget])
    | some node => exact isLive_iff.mpr ⟨node, hget⟩
  refine length_le_of_nodup ?_ fun n hn => ?_
  · unfold siblingRow
    split
    · exact (h.nodup_children _).filter _
    · exact List.nodup_singleton id
  · unfold siblingRow at hn
    split at hn
    · exact Up.live (h.parent_of_mem (List.mem_filter.mp hn).1)
    · rwa [List.mem_singleton.mp hn]

/-- An element stands at one place only: `pre' = pre` and `post' = post`. -/
theorem Seat.split_iff {pre post pre' post' : List NodeId} (h : a.Seat id pre post) :
    a.siblingRow id = pre' ++ id :: post' ↔ pre' = pre ∧ post' = post := by
  rw [h.row_eq, List.append_cons_inj_of_notMem h.not_mem_pre h.not_mem_post]
  constructor
  · rintro ⟨rfl, -, rfl⟩
    exact ⟨rfl, rfl⟩
  · rintro ⟨rfl, rfl⟩
    exact ⟨rfl, rfl, rfl⟩

/-! ### Ancestors -/

theorem Forest.elementAncestors_eq (h : a.Forest) (id : NodeId) : a.elementAncestors id =
    match a.parent? id with
    | some p => if a.isElement p then p :: a.elementAncestors p else []
    | none => [] := by
  have hclimbs := h.climbs_pathToRoot id
  unfold elementAncestors
  cases hp : a.parent? id with
  | none => rw [hclimbs.unique (.top hp)]; rfl
  | some p =>
    rw [hclimbs.unique (.up hp (h.climbs_pathToRoot p)), List.tail_cons]
    have hhead : a.pathToRoot p = p :: (a.pathToRoot p).tail := rfl
    conv_lhs => rw [hhead, List.takeWhile_cons]

/-- The elements above are those that `a.ElementUp` leads to in one step or more. -/
theorem Forest.mem_elementAncestors (h : a.Forest) :
    f ∈ a.elementAncestors id ↔ Relation.TransGen a.ElementUp id f := by
  refine h.fromParent (P := fun id => f ∈ a.elementAncestors id ↔
    Relation.TransGen a.ElementUp id f) (fun n ih => ?_) id
  rw [h.elementAncestors_eq, Relation.TransGen.head'_iff]
  cases hp : a.parent? n with
  | none =>
    refine iff_of_false List.not_mem_nil ?_
    rintro ⟨p, hup, -⟩
    exact absurd (hup.1.symm.trans hp) (by simp)
  | some p =>
    have hunique : ∀ q, a.ElementUp n q ↔ q = p ∧ a.isElement p = true := fun q => by
      rw [ElementUp, Up, hp, Option.some.injEq, eq_comm]
      exact and_congr_right fun he => by rw [he]
    simp only [hunique, and_assoc, exists_eq_left]
    by_cases he : a.isElement p = true
    · rw [if_pos he, List.mem_cons, ih p hp, Relation.reflTransGen_iff_eq_or_transGen,
        and_iff_right he]
    · rw [if_neg he]
      exact iff_of_false List.not_mem_nil fun hc => he hc.1

theorem Forest.mem_take_elementAncestors (h : a.Forest) :
    f ∈ (a.elementAncestors id).take 1 ↔ a.ElementUp id f := by
  rw [h.elementAncestors_eq, ElementUp, Up]
  cases hp : a.parent? id with
  | none => simp
  | some p =>
    show f ∈ (if a.isElement p then p :: a.elementAncestors p else []).take 1 ↔ _
    by_cases he : a.isElement p = true
    · rw [if_pos he, List.take_succ_cons, List.take_zero, List.mem_singleton, Option.some.injEq]
      constructor
      · rintro rfl
        exact ⟨rfl, he⟩
      · rintro ⟨rfl, -⟩
        rfl
    · rw [if_neg he, List.take_nil]
      refine iff_of_false List.not_mem_nil ?_
      rintro ⟨hq, hf⟩
      obtain rfl := Option.some.inj hq
      exact he hf

end Arena

namespace Selector

variable {a : Arena} {id : NodeId}

/-! ### Combinators -/

/-- The candidates of a combinator are the elements `f` that it leads to from `id`. -/
theorem mem_candidates_iff (h : a.Forest) (hid : a.isElement id = true) {f : NodeId} :
    ∀ {k : Combinator}, f ∈ k.candidates a id ↔ k.Links a f id
  | .descendant => h.mem_elementAncestors
  | .child => h.mem_take_elementAncestors
  | .adjacent => by
    obtain ⟨pre, post, hseat⟩ := h.exists_seat hid
    have hcandidates : Combinator.adjacent.candidates a id = pre.drop (pre.length - 1) := by
      rw [Combinator.candidates, hseat.place_eq, hseat.row_eq]
      show ((pre ++ id :: post).take pre.length).drop _ = _
      rw [List.take_left]
    rw [hcandidates, Combinator.Links]
    constructor
    · intro hf
      rcases List.eq_nil_or_concat pre with rfl | ⟨pre, x, rfl⟩
      · exact absurd hf (by simp)
      · rw [List.concat_eq_append] at hf hseat
        obtain rfl : f = x := by simpa using hf
        exact ⟨pre, post, by rw [hseat.row_eq]; simp⟩
    · -- An element has one seat in its row, so any way to split the row there is the seat.
      rintro ⟨pre', post', hrow⟩
      rw [List.append_cons, hseat.split_iff] at hrow
      rw [← hrow.1]
      simp
  | .sibling => by
    obtain ⟨pre, post, hseat⟩ := h.exists_seat hid
    have hcandidates : Combinator.sibling.candidates a id = pre := by
      rw [Combinator.candidates, hseat.place_eq, hseat.row_eq]
      exact List.take_left
    rw [hcandidates, Combinator.Links]
    constructor
    · intro hf
      obtain ⟨left, mid, rfl⟩ := List.append_of_mem hf
      exact ⟨left, mid, post, by rw [hseat.row_eq]; simp⟩
    · rintro ⟨left, mid, post', hrow⟩
      rw [← List.cons_append, ← List.append_assoc, hseat.split_iff] at hrow
      rw [← hrow.1]
      simp

/-! ### Conditions -/

/-- An attribute condition is tested as `Met` says, word by word or as a part of the value. -/
theorem AttrTest.holds_iff {e : Element} {t : AttrTest} : t.holds e = true ↔ t.Met e := by
  cases t with
  | present name => rw [holds, Element.hasAttribute, Option.isSome_iff_exists, Met]
  | equals name value => rw [holds, beq_iff_eq, Met]

/-- Tag, id, classes and attributes are tested as `SimplyMet` says. -/
theorem simpleHolds_iff {e : Element} {tag wanted : Option String} {classes : List String}
    {attrs : List AttrTest} :
    simpleHolds e tag wanted classes attrs = true ↔ SimplyMet e tag wanted classes attrs := by
  have hclass : ∀ c, Text.hasWord ((e.attribute? "class").getD "") c = true ↔
      ∃ value, e.attribute? "class" = some value ∧ Text.IsWord value.toList c.toList := fun c => by
    rw [Text.hasWord_iff]
    cases e.attribute? "class" with
    | none =>
      -- without the attribute there are no words
      refine iff_of_false ?_ (by simp)
      rintro ⟨hne, -, pre, post, heq, -⟩
      have hnil : ("" : String).toList = [] := rfl
      rw [Option.getD_none, hnil, List.nil_eq_append_iff, List.append_eq_nil_iff] at heq
      exact hne heq.2.1
    | some value => simp
  unfold simpleHolds
  rw [Bool.and_eq_true, Bool.and_eq_true, Bool.and_eq_true, List.all_eq_true, List.all_eq_true]
  constructor
  · rintro ⟨⟨⟨htag, hid⟩, hclasses⟩, hattrs⟩
    refine ⟨?_, ?_, fun c hc => (hclass c).mp (hclasses c hc),
      fun t ht => AttrTest.holds_iff.mp (hattrs t ht)⟩
    · rintro t rfl
      simpa using htag
    · rintro i rfl
      simpa using hid
  · rintro ⟨htag, hid, hclasses, hattrs⟩
    refine ⟨⟨⟨?_, ?_⟩, fun c hc => (hclass c).mpr (hclasses c hc)⟩,
      fun t ht => AttrTest.holds_iff.mpr (hattrs t ht)⟩
    · cases tag with
      | none => rfl
      | some t => simpa using htag t rfl
    · cases wanted with
      | none => rfl
      | some i => simpa using hid i rfl

mutual

/-- The arguments of the `:nth-child` conditions in a condition, those in negations included. -/
def Pseudo.nths : Pseudo → List Nth
  | .firstChild | .lastChild => []
  | .nthChild n => [n]
  | .not cs => nthsOfAll cs

def Compound.nths : Compound → List Nth
  | ⟨_, _, _, _, pseudos⟩ => nthsOfEach pseudos

def nthsOfAll : List Compound → List Nth
  | [] => []
  | c :: cs => c.nths ++ nthsOfAll cs

def nthsOfEach : List Pseudo → List Nth
  | [] => []
  | p :: ps => p.nths ++ nthsOfEach ps

end

/-- No element has more siblings in front than a 32-bit number can count. -/
def ShortRows (a : Arena) : Prop :=
  ∀ id, a.isElement id = true → (a.siblingPlace id).2 < 2 ^ 31

/-- The siblings in front of an element can be counted, if there are conditions that count them. -/
def Countable (a : Arena) (ns : List Nth) : Prop :=
  ns ≠ [] → ShortRows a

/-- Rows are short enough for `ns ++ ms` if they are for both. -/
theorem countable_append {ns ms : List Nth} :
    Countable a (ns ++ ms) ↔ Countable a ns ∧ Countable a ms := by
  rw [Countable, ne_eq, List.append_eq_nil_iff, not_and_or, or_imp]
  rfl

/-- The arithmetic of these conditions stays within 32 bits at that element. -/
def FitAt (a : Arena) (id : NodeId) (ns : List Nth) : Prop :=
  ∀ n ∈ ns, n.Fits ((a.siblingPlace id).2 + 1)

theorem fitAt_append {ns ms : List Nth} :
    FitAt a id (ns ++ ms) ↔ FitAt a id ns ∧ FitAt a id ms :=
  List.forall_mem_append

/-- The place among `before + 1` elements is told, if rows are short and the formula fits there. -/
theorem tells_nthChild (h : a.Forest) (hrows : ShortRows a) (hid : a.isElement id = true)
    (n : Nth) : Tells (n.Fits ((a.siblingPlace id).2 + 1)) (Pseudo.holds a id (.nthChild n))
      (Pseudo.Met a id (.nthChild n)) := by
  obtain ⟨pre, post, hseat⟩ := h.exists_seat hid
  have hbefore := hrows id hid
  rw [Pseudo.holds, Pseudo.Met]
  rw [hseat.place_eq] at hbefore ⊢
  have hmet : (∃ pre' post', a.siblingRow id = pre' ++ id :: post' ∧ n.Hits (pre'.length + 1)) ↔
      n.Hits (pre.length + 1) := by
    constructor
    · rintro ⟨pre', post', hrow, hhits⟩
      rwa [(hseat.split_iff.mp hrow).1] at hhits
    · exact fun hhits => ⟨pre, post, hseat.row_eq, hhits⟩
  constructor
  · intro b hb
    obtain ⟨p, hp, hb⟩ := exists_of_bind_eq_ok hb
    rw [hmet]
    exact Nth.hits_of_holds (toInt_of_position hbefore hp) hb
  · intro hfits
    obtain ⟨p, hp⟩ := exists_position hfits.1
    obtain ⟨b, hb⟩ := Nth.exists_holds (toInt_of_position hbefore hp) (Nat.succ_pos _) hfits
    exact ⟨b, by rw [hp]; exact hb⟩

mutual

/-- A pseudo-class tells whether it is `Met`, if its formulas fit at the place of the element. -/
theorem Pseudo.tells (h : a.Forest) (hid : a.isElement id = true) :
    ∀ p : Pseudo, Countable a p.nths → Tells (FitAt a id p.nths) (p.holds a id) (p.Met a id)
  | .firstChild, _ => by
    obtain ⟨pre, post, hseat⟩ := h.exists_seat hid
    rw [Pseudo.holds, Pseudo.Met, hseat.place_eq]
    refine Tells.ok ?_
    rw [beq_iff_eq, List.length_eq_zero_iff]
    constructor
    · rintro rfl
      exact ⟨post, hseat.row_eq⟩
    · rintro ⟨post', hrow⟩
      rw [← List.nil_append (id :: post'), hseat.split_iff] at hrow
      exact hrow.1.symm
  | .lastChild, _ => by
    obtain ⟨pre, post, hseat⟩ := h.exists_seat hid
    rw [Pseudo.holds, Pseudo.Met, hseat.place_eq]
    refine Tells.ok ?_
    rw [beq_iff_eq, hseat.row_eq, List.length_append, List.length_cons]
    constructor
    · intro hlength
      obtain rfl : post = [] := List.eq_nil_of_length_eq_zero (by omega)
      exact ⟨pre, rfl⟩
    · rintro ⟨pre', hrow⟩
      rw [← hseat.row_eq] at hrow
      rw [← (hseat.split_iff.mp hrow).2]
      rfl
  | .nthChild n, hrows =>
    (tells_nthChild h (hrows (by simp [Pseudo.nths])) hid n).mono fun hfit =>
      hfit n (by simp [Pseudo.nths])
  | .not cs, hrows => by
    rw [Pseudo.nths] at hrows
    rw [Pseudo.holds, Pseudo.Met, Pseudo.nths]
    exact (tells_anyHolds h cs hrows).not

/-- A compound tells of any node whether it is `Met`; its formulas have to fit only where the node
is an element. -/
theorem Compound.tells (h : a.Forest) : ∀ c : Compound, Countable a c.nths →
    Tells (a.isElement id = true → FitAt a id c.nths) (c.holds a id) (c.Met a id)
  | ⟨tag, wanted, classes, attrs, pseudos⟩, hrows => by
    rw [Compound.nths] at hrows
    rw [Compound.holds, Compound.Met, Compound.nths]
    cases he : a.element? id with
    | none =>
      refine Tells.ok (iff_of_false Bool.false_ne_true ?_)
      rintro ⟨⟨e, he', -⟩, -⟩
      exact absurd he' (by simp)
    | some e =>
      have hid : a.isElement id = true := by rw [Arena.isElement, he]; rfl
      simp only [Option.some.injEq, exists_eq_left', ← simpleHolds_iff]
      by_cases hsimple : simpleHolds e tag wanted classes attrs = true
      · rw [if_pos hsimple]
        exact ((tells_allHold h hid pseudos hrows).mono fun hfit => hfit hid).congr
          (and_iff_right hsimple).symm
      · rw [if_neg hsimple]
        exact Tells.ok (iff_of_false Bool.false_ne_true fun hc => hsimple hc.1)

theorem tells_anyHolds (h : a.Forest) : ∀ cs : List Compound, Countable a (nthsOfAll cs) →
    Tells (FitAt a id (nthsOfAll cs)) (anyHolds a id cs) (AnyMet a id cs)
  | [], _ => Tells.ok (by simp [AnyMet])
  | c :: cs, hrows => by
    rw [nthsOfAll, countable_append] at hrows
    rw [anyHolds, AnyMet, nthsOfAll]
    exact ((Compound.tells h c hrows.1).mono fun hfit _ => (fitAt_append.mp hfit).1).or
      ((tells_anyHolds h cs hrows.2).mono fun hfit => (fitAt_append.mp hfit).2)

theorem tells_allHold (h : a.Forest) (hid : a.isElement id = true) :
    ∀ ps : List Pseudo, Countable a (nthsOfEach ps) →
      Tells (FitAt a id (nthsOfEach ps)) (allHold a id ps) (AllMet a id ps)
  | [], _ => Tells.ok (by simp [AllMet])
  | p :: ps, hrows => by
    rw [nthsOfEach, countable_append] at hrows
    rw [allHold, AllMet, nthsOfEach]
    exact ((Pseudo.tells h hid p hrows.1).mono fun hfit => (fitAt_append.mp hfit).1).and
      ((tells_allHold h hid ps hrows.2).mono fun hfit => (fitAt_append.mp hfit).2)

end

/-! ### Alternatives -/

/-- The arguments of all `:nth-child` conditions in a selector. -/
def nths (s : Selector) : List Nth :=
  s.alternatives.flatMap fun x => x.compounds.flatMap Compound.nths

/-- The arithmetic of the selector stays within 32 bits at every element. -/
def FitsIn (s : Selector) (a : Arena) : Prop :=
  ∀ id, a.isElement id = true → FitAt a id s.nths

/-- Only elements meet a compound `c`. -/
theorem Compound.Met.isElement {c : Compound} (h : c.Met a id) : a.isElement id = true := by
  obtain ⟨tag, wanted, classes, attrs, pseudos⟩ := c
  rw [Compound.Met] at h
  obtain ⟨⟨e, he, -⟩, -⟩ := h
  rw [Arena.isElement, he]
  rfl

/-- The search from the last compound back finds a row of elements `row` that ends in `id` if there
is one. -/
theorem Complex.tells (h : a.Forest) (x : Complex)
    (hrows : Countable a (x.compounds.flatMap Compound.nths)) : ∀ id,
    Tells (∀ e, a.isElement e = true → FitAt a e (x.compounds.flatMap Compound.nths))
      (x.holds a id) (∃ row, Chain a x row id) := by
  induction x with
  | compound c =>
    intro id
    rw [Complex.holds, chain_compound]
    have hcount : Countable a c.nths := by simpa [Complex.compounds] using hrows
    refine (Compound.tells h c hcount).mono fun hfit hid => ?_
    simpa [Complex.compounds] using hfit id hid
  | combine left k right ih =>
    intro id
    rw [Complex.holds, chain_combine]
    have hcount : Countable a (left.compounds.flatMap Compound.nths) ∧ Countable a right.nths := by
      rw [← countable_append]
      simpa [Complex.compounds] using hrows
    have hfits : (∀ e, a.isElement e = true →
        FitAt a e ((Complex.combine left k right).compounds.flatMap Compound.nths)) →
        ∀ e, a.isElement e = true →
          FitAt a e (left.compounds.flatMap Compound.nths) ∧ FitAt a e right.nths := by
      intro hfit e he
      rw [← fitAt_append]
      simpa [Complex.compounds] using hfit e he
    have hright : Tells _ (right.holds a id) (right.Met a id) :=
      (Compound.tells h right hcount.2).mono fun hfit hid => (hfits hfit id hid).2
    have hleft : ∀ f ∈ k.candidates a id, Tells _ (left.holds a f) (∃ row, Chain a left row f) :=
      fun f _ => (ih hcount.1 f).mono fun hfit e he => (hfits hfit e he).1
    refine (hright.and (Tells.anyM hleft)).congr (and_congr_right fun hmet =>
      exists_congr fun f => ?_)
    rw [mem_candidates_iff h hmet.isElement]

/-- The verdict on a node is whether it matches, if all formulas fit at all elements:
`s.FitsIn a`. -/
theorem accepts_tells (h : a.Forest) (s : Selector) (hrows : Countable a s.nths) (id : NodeId) :
    Tells (s.FitsIn a) (s.accepts a id) (s.Matches a id) := by
  refine Tells.anyM fun x hx => ?_
  have hmem : ∀ n ∈ x.compounds.flatMap Compound.nths, n ∈ s.nths := fun n hn =>
    List.mem_flatMap.mpr ⟨x, hx, hn⟩
  have hcount : Countable a (x.compounds.flatMap Compound.nths) := fun hne =>
    hrows (List.ne_nil_of_mem (hmem _ (List.head_mem hne)))
  exact (x.tells h hcount id).mono fun hfit e he n hn => hfit e he n (hmem n hn)

end Selector

/-! ### Queries -/

/-- A filter whose test `p` always has a verdict keeps what it holds of, in front of `acc`. -/
theorem filterAuxM_eq_ok {α ε : Type} {p : α → Except ε Bool} : ∀ {l : List α} (acc : List α),
    (∀ x ∈ l, ∃ b, p x = .ok b) →
    List.filterAuxM p l acc = .ok ((l.filter fun x => (p x).toOption == some true).reverse ++ acc)
  | [], _, _ => rfl
  | x :: l, acc, h => by
    obtain ⟨b, hb⟩ := h x List.mem_cons_self
    have hrest := filterAuxM_eq_ok (l := l) (cond b (x :: acc) acc) fun y hy =>
      h y (List.mem_cons_of_mem x hy)
    rw [List.filterAuxM, hb]
    refine hrest.trans ?_
    cases b with
    | false => simp [hb, Except.toOption]
    | true => simp [hb, Except.toOption]

/-- A filter that comes to an end has had a verdict `p x = .ok b` on every `x`. -/
theorem exists_of_filterAuxM {α ε : Type} {p : α → Except ε Bool} : ∀ {l acc r : List α},
    List.filterAuxM p l acc = .ok r → ∀ x ∈ l, ∃ b, p x = .ok b
  | [], _, _, _ => fun x hx => absurd hx List.not_mem_nil
  | y :: l, acc, r, h => by
    obtain ⟨b, hb, h⟩ := exists_of_bind_eq_ok h
    rw [List.forall_mem_cons]
    exact ⟨⟨b, hb⟩, exists_of_filterAuxM h⟩

namespace Arena

variable {a : Arena} {scope : NodeId} {s : Selector}

/-- The nodes below `scope` that are accepted, in document order. -/
def accepted (a : Arena) (scope : NodeId) (s : Selector) : List NodeId :=
  (a.descendants scope).filter fun n => (s.accepts a n).toOption == some true

/-- Where there is a verdict on all nodes below `scope`, those accepted are found, in document
order. -/
theorem select_of_decided (h : ∀ n ∈ a.descendants scope, ∃ b, s.accepts a n = .ok b) :
    a.select scope s = .ok (a.accepted scope s) := by
  unfold select List.filterM
  rw [filterAuxM_eq_ok [] h]
  simp [bind, Except.bind, pure, Except.pure, accepted]

/-- Where a search came to an end, there was a verdict on all nodes below `scope`. -/
theorem decided_of_select {nodes : List NodeId} (h : a.select scope s = .ok nodes) :
    ∀ n ∈ a.descendants scope, ∃ b, s.accepts a n = .ok b := by
  unfold select List.filterM at h
  obtain ⟨r, hr, -⟩ := exists_of_bind_eq_ok h
  exact exists_of_filterAuxM hr

end Arena

namespace Selector

variable {a : Arena}

/-- Rows are short in an arena that is not too large, `a.slots.size ≤ 2 ^ 31`. -/
theorem shortRows_of_size (h : a.Forest) (hsize : a.slots.size ≤ 2 ^ 31) : ShortRows a := by
  intro id hid
  obtain ⟨pre, post, hseat⟩ := h.exists_seat hid
  have hlength := h.length_siblingRow_le hid
  rw [hseat.row_eq, List.length_append, List.length_cons] at hlength
  rw [hseat.place_eq]
  show pre.length < 2 ^ 31
  omega

/-- **Selectors match what they mean**, in every reachable arena, where those with `:nth-child` need
rows that a 32-bit number can count: `accepts` gives the verdict of `Matches` if it gives one,
`select` gives the matching elements below the scope in document order, and both come to an end if
the arithmetic of the selector stays within 32 bits. -/
theorem matches_of_reachable (h : a.Reachable) (s : Selector) (hrows : Countable a s.nths) :
    (∀ id b, s.accepts a id = .ok b → (b = true ↔ s.Matches a id)) ∧
    (∀ scope nodes, a.select scope s = .ok nodes →
      (∃ walk, a.Visits (a.children scope) walk ∧ nodes.Sublist walk) ∧ nodes.Nodup ∧
      ∀ id, id ∈ nodes ↔ a.Below scope id ∧ s.Matches a id) ∧
    (s.FitsIn a → (∀ id, ∃ b, s.accepts a id = .ok b) ∧
      ∀ scope, ∃ nodes, a.select scope s = .ok nodes) := by
  have hf := h.sound.forest
  refine ⟨fun id => (accepts_tells hf s hrows id).right, fun scope nodes hselect => ?_,
    fun hfits => ?_⟩
  · have hdecided := Arena.decided_of_select hselect
    rw [Arena.select_of_decided hdecided] at hselect
    obtain rfl := Except.ok.inj hselect
    refine ⟨⟨_, hf.visits_descendants scope, List.filter_sublist⟩,
      (hf.nodup_descendants scope).filter _, fun id => ?_⟩
    rw [Arena.accepted, List.mem_filter, hf.mem_descendants]
    refine and_congr_right fun hbelow => ?_
    obtain ⟨b, hb⟩ := hdecided id (hf.mem_descendants.mpr hbelow)
    rw [← (accepts_tells hf s hrows id).right b hb, hb]
    cases b <;> simp [Except.toOption]
  · have htotal : ∀ id, ∃ b, s.accepts a id = .ok b := fun id =>
      (accepts_tells hf s hrows id).total hfits
    exact ⟨htotal, fun scope => ⟨_, Arena.select_of_decided fun n _ => htotal n⟩⟩

/-- The second item of a list is found through its parent, its class and its place. -/
theorem matches_once_parsed :
    ∃ s, parse "ul > li.b:nth-child(2n)" = .ok s ∧
      s.Matches ((Arena.Op.parse "<ul><li></li><li class=b></li></ul>").after .empty) ⟨3, 0⟩ := by
  have hreach : ((Arena.Op.parse "<ul><li></li><li class=b></li></ul>").after .empty).Reachable :=
    .step _ .empty (by decide +kernel)
  have hrows := shortRows_of_size hreach.sound.forest (by decide +kernel)
  have hplayed : (match parse "ul > li.b:nth-child(2n)" with
      | .ok s => (s.accepts ((Arena.Op.parse "<ul><li></li><li class=b></li></ul>").after .empty)
          ⟨3, 0⟩).toOption == some true
      | .error _ => false) = true := by decide +kernel
  split at hplayed
  · rename_i s hparse
    refine ⟨s, hparse, ?_⟩
    cases haccepts : s.accepts _ ⟨3, 0⟩ with
    | error fault => exact absurd hplayed (by rw [haccepts]; exact Bool.false_ne_true)
    | ok b =>
      rw [haccepts] at hplayed
      obtain rfl : b = true := by simpa [Except.toOption] using hplayed
      exact ((matches_of_reachable hreach s fun _ => hrows).1 ⟨3, 0⟩ true haccepts).mp rfl
  · exact absurd hplayed Bool.false_ne_true

end Selector

end Inlay
