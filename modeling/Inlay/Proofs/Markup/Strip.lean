import Inlay.Proofs.Arena.Prune

/-!
# Removing blank texts

`stripBlankTexts` collects the blank texts at and below a node, except inside elements whose white
space matters, and then frees them one by one. Each is a leaf, so none takes another one along.

* `exists_stripBlankTexts_run`: it never fails, and what is gone afterwards are the blank texts that
  it may remove (`Blank`);
* `stripBlankTexts_spec`: a node that shows `t` shows `t.stripped` afterwards, unless it is a blank
  text itself.
-/

namespace Inlay

namespace NodeKind

/-- A text without a visible character. -/
def isBlank : NodeKind → Bool
  | text s => Text.allBlank s
  | _ => false

/-- An element whose white space matters. -/
def isPreserving : NodeKind → Bool
  | element e => Markup.preservingTags.contains e.tag
  | _ => false

end NodeKind

namespace Tree

mutual

/-- The tree without the blank texts below its top, except inside elements whose white space
matters. -/
def stripped : Tree → Tree
  | node kind cs => node kind (if kind.isPreserving then cs else strippedAll cs)

/-- The trees without those that are blank texts, and each of the others without those in it. -/
def strippedAll : List Tree → List Tree
  | [] => []
  | t :: ts => if t.kind.isBlank then strippedAll ts else t.stripped :: strippedAll ts

end

@[simp] theorem kind_stripped (t : Tree) : t.stripped.kind = t.kind := by
  obtain ⟨kind, cs⟩ := t
  rfl

end Tree

namespace Arena

variable {a b : Arena}

/-! ### Blank texts -/

def isBlank (a : Arena) (id : NodeId) : Bool :=
  (a.kind? id).any NodeKind.isBlank

def isPreserving (a : Arena) (id : NodeId) : Bool :=
  (a.kind? id).any NodeKind.isPreserving

theorem isBlank_of_get? {id : NodeId} {node : Node} (h : a.get? id = some node) :
    a.isBlank id = node.kind.isBlank := by
  rw [isBlank, kind?_of_get? h, Option.any_some]

theorem isPreserving_of_get? {id : NodeId} {node : Node} (h : a.get? id = some node) :
    a.isPreserving id = node.kind.isPreserving := by
  rw [isPreserving, kind?_of_get? h, Option.any_some]

/-- `n` is a blank text at or below `top`, not inside an element there whose white space matters. -/
structure Blank (a : Arena) (top n : NodeId) : Prop where
  under : a.Under top n
  blank : a.isBlank n = true
  exposed : ∀ p, a.Under top p → a.Below p n → a.isPreserving p = false

/-- Texts and comments have no children: only a kind with `isContainer` has. -/
theorem children_eq_nil_of_kind? (hf : a.Forest) {n : NodeId} {kind : NodeKind}
    (h : a.kind? n = some kind) (hkind : kind.isContainer = false) : a.children n = [] := by
  by_contra hne
  obtain ⟨kind', hkind', hcontainer⟩ := hf.container hne
  rw [h, Option.some.injEq] at hkind'
  rw [← hkind', hkind] at hcontainer
  exact absurd hcontainer (by simp)

theorem children_of_isBlank (hf : a.Forest) {n : NodeId} (h : a.isBlank n = true) :
    a.children n = [] := by
  obtain ⟨kind, hkind, hblank⟩ := (Option.any_eq_true _ _).mp h
  refine children_eq_nil_of_kind? hf hkind ?_
  cases kind with
  | text s => rfl
  | comment s => rfl
  | element e => exact absurd hblank (by simp [NodeKind.isBlank])
  | fragment => exact absurd hblank (by simp [NodeKind.isBlank])

theorem live_of_isBlank {n : NodeId} (h : a.isBlank n = true) : a.isLive n = true := by
  obtain ⟨kind, hkind, -⟩ := (Option.any_eq_true _ _).mp h
  obtain ⟨node, hnode, -⟩ := Option.map_eq_some_iff.mp hkind
  exact isLive_iff.mpr ⟨node, hnode⟩

/-- A blank text has nothing below it: under `d` is only `d`. -/
theorem eq_of_under_isBlank (hf : a.Forest) {d n : NodeId} (hd : a.isBlank d = true)
    (hunder : a.Under d n) : n = d := by
  refine (under_iff_eq_or_below.mp hunder).resolve_right fun hbelow => ?_
  obtain ⟨c, hc, -⟩ := (below_iff hf).mp hbelow
  rw [children_of_isBlank hf hd] at hc
  exact absurd hc List.not_mem_nil

theorem blank_iff_of_isBlank (hf : a.Forest) {id n : NodeId} (h : a.isBlank id = true) :
    a.Blank id n ↔ n = id := by
  constructor
  · exact fun hblank => eq_of_under_isBlank hf h hblank.under
  · rintro rfl
    refine ⟨Under.refl n, h, fun p hunder hbelow => ?_⟩
    obtain rfl := eq_of_under_isBlank hf h hunder
    exact absurd hbelow (hf.acyclic p)

/-- Nothing is `Blank` below an element whose white space matters. -/
theorem not_blank_of_isPreserving {id n : NodeId} (hnot : a.isBlank id = false)
    (h : a.isPreserving id = true) : ¬ a.Blank id n := by
  intro hblank
  rcases under_iff_eq_or_below.mp hblank.under with rfl | hbelow
  · rw [hblank.blank] at hnot
    exact absurd hnot (by simp)
  · have hexposed := hblank.exposed id (Under.refl id) hbelow
    rw [h] at hexposed
    exact absurd hexposed (by simp)

/-- Below an `id` whose white space does not matter, the blank texts are those at and below its
children. -/
theorem blank_iff_of_children (hf : a.Forest) {id n : NodeId} (hnot : a.isBlank id = false)
    (h : a.isPreserving id = false) : a.Blank id n ↔ ∃ c ∈ a.children id, a.Blank c n := by
  constructor
  · intro hblank
    have hbelow : a.Below id n := by
      refine (under_iff_eq_or_below.mp hblank.under).resolve_left ?_
      rintro rfl
      rw [hblank.blank] at hnot
      exact absurd hnot (by simp)
    obtain ⟨c, hc, hunder⟩ := (below_iff hf).mp hbelow
    have hup : a.Up c id := hf.parent_of_mem hc
    exact ⟨c, hc, hunder, hblank.blank, fun p hp => hblank.exposed p (hup.under.trans hp)⟩
  · rintro ⟨c, hc, hblank⟩
    have hup : a.Up c id := hf.parent_of_mem hc
    refine ⟨hup.under.trans hblank.under, hblank.blank, fun p hp hbelow => ?_⟩
    -- above `n` there is nothing else between `id` and `c`
    rcases under_iff_eq_or_below.mp hp with rfl | hp
    · exact h
    · obtain ⟨c', hc', hp'⟩ := (below_iff hf).mp hp
      obtain rfl := hf.disjoint_siblings hc hc' hblank.under (hp'.trans hbelow.under)
      exact hblank.exposed p hp' hbelow

/-! ### Collecting -/

open Markup (blankTexts freeAll stripBlankTexts)

mutual

/-- The walk collects the blank texts at and below the first node `id` of its agenda, and then goes
on with the others. -/
theorem blankTexts_node (hf : a.Forest) : ∀ {t : Tree} {id : NodeId} (fuel : Nat)
    (agenda : List NodeId), a.Shows id t → t.size ≤ fuel →
    ∃ out rest, fuel ≤ rest + t.size ∧
      blankTexts a fuel (id :: agenda) = out ++ blankTexts a rest agenda ∧
      out.Nodup ∧ ∀ n, n ∈ out ↔ a.Blank id n
  | .node kind cs, id, fuel, agenda, h, hfuel => by
    obtain ⟨node, hget, hkind, hcs⟩ := shows_node.mp h
    have hisBlank : a.isBlank id = kind.isBlank := by rw [isBlank_of_get? hget, hkind]
    have hisPreserving : a.isPreserving id = kind.isPreserving := by
      rw [isPreserving_of_get? hget, hkind]
    have hkind? : a.kind? id = some kind := by rw [kind?_of_get? hget, hkind]
    rw [← children_of_get? hget] at hcs
    rw [Tree.size] at hfuel ⊢
    obtain ⟨fuel, rfl⟩ := Nat.exists_eq_add_of_le' (Nat.le_trans (Nat.le_add_left 1 _) hfuel)
    rw [blankTexts, hkind?]
    -- unless the walk stops at the node its children come next
    have hchildren : kind.isBlank = false → kind.isPreserving = false → ∃ out rest,
        fuel + 1 ≤ rest + (Tree.sizeAll cs + 1) ∧
        blankTexts a fuel ((a.children id).reverse ++ agenda) = out ++ blankTexts a rest agenda ∧
        out.Nodup ∧ ∀ n, n ∈ out ↔ a.Blank id n := by
      intro hnot hexposed
      obtain ⟨out, rest, hrest, hrun, hnd, hout⟩ :=
        blankTexts_row hf fuel agenda hcs (hf.nodup_children id)
          (fun x hx y hy n => hf.disjoint_siblings hx hy) (Nat.le_of_succ_le_succ hfuel)
      refine ⟨out, rest, by omega, hrun, hnd, fun n => ?_⟩
      rw [hout, blank_iff_of_children hf (hisBlank.trans hnot) (hisPreserving.trans hexposed)]
    cases kind with
    | text s =>
      by_cases hs : Text.allBlank s = true
      · refine ⟨[id], fuel, by omega, by simp [hs], List.nodup_singleton id, fun n => ?_⟩
        rw [List.mem_singleton, blank_iff_of_isBlank hf (hisBlank.trans hs)]
      · rw [Bool.not_eq_true] at hs
        have hleaf := children_eq_nil_of_kind? hf hkind? rfl
        obtain ⟨out, rest, hrest, hrun, hout⟩ := hchildren hs rfl
        refine ⟨out, rest, hrest, ?_, hout⟩
        rw [hleaf] at hrun
        simpa [hs] using hrun
    | element e =>
      by_cases he : Markup.preservingTags.contains e.tag = true
      · refine ⟨[], fuel, by omega, by simp only [if_pos he, List.nil_append], List.nodup_nil,
          fun n => ?_⟩
        simp only [List.not_mem_nil, false_iff]
        exact not_blank_of_isPreserving hisBlank (hisPreserving.trans he)
      · rw [Bool.not_eq_true] at he
        simp only [he]
        exact hchildren rfl he
    | comment s => exact hchildren rfl rfl
    | fragment => exact hchildren rfl rfl

/-- All blank texts at and below the row `ids` are collected, each once, the last node first. -/
theorem blankTexts_row (hf : a.Forest) : ∀ {ts : List Tree} {ids : List NodeId} (fuel : Nat)
    (agenda : List NodeId), a.ShowsAll ids ts → ids.Nodup →
    (∀ x ∈ ids, ∀ y ∈ ids, ∀ n, a.Under x n → a.Under y n → x = y) → Tree.sizeAll ts ≤ fuel →
    ∃ out rest, fuel ≤ rest + Tree.sizeAll ts ∧
      blankTexts a fuel (ids.reverse ++ agenda) = out ++ blankTexts a rest agenda ∧
      out.Nodup ∧ ∀ n, n ∈ out ↔ ∃ id ∈ ids, a.Blank id n
  | [], ids, fuel, agenda, h, _, _, _ => by
    obtain rfl := showsAll_nil_iff.mp h
    exact ⟨[], fuel, Nat.le_add_right _ _, rfl, List.nodup_nil, by simp⟩
  | t :: ts, ids, fuel, agenda, h, hnd, hdisjoint, hfuel => by
    obtain ⟨id, ids, rfl, ht, hts⟩ := showsAll_cons_iff.mp h
    rw [List.nodup_cons] at hnd
    rw [Tree.sizeAll] at hfuel ⊢
    -- The agenda is a stack: the row after the first node is dealt with before that node.
    obtain ⟨outs, rest, hrest, hrun, houtsnd, houts⟩ := blankTexts_row hf fuel (id :: agenda)
      hts hnd.2 (fun x hx y hy => hdisjoint x (List.mem_cons_of_mem _ hx) y
        (List.mem_cons_of_mem _ hy)) (Nat.le_trans (Nat.le_add_left _ _) hfuel)
    obtain ⟨out, rest', hrest', hrun', houtnd, hout⟩ :=
      blankTexts_node hf rest agenda ht (by omega)
    refine ⟨outs ++ out, rest', by omega, ?_, ?_, fun n => ?_⟩
    · rw [List.reverse_cons, List.append_assoc, List.singleton_append, hrun, hrun',
        List.append_assoc]
    · -- A text found twice would stand under two nodes of the row.
      refine List.nodup_append.mpr ⟨houtsnd, houtnd, fun m hm n hn he => ?_⟩
      obtain ⟨x, hx, hxm⟩ := (houts m).mp hm
      have hidm := (hout m).mp (he ▸ hn)
      have hsame := hdisjoint x (List.mem_cons_of_mem _ hx) id List.mem_cons_self m hxm.under
        hidm.under
      exact hnd.1 (hsame ▸ hx)
    · rw [List.mem_append, houts, hout]
      simp only [List.mem_cons, exists_eq_or_imp]
      exact or_comm

end

/-! ### Freeing -/

/-- Nodes `ids`, none under another, can be freed in turn. -/
theorem freeAll_spec : ∀ {ids : List NodeId} {a : Arena}, a.Sound → ids.Nodup →
    (∀ n ∈ ids, a.isLive n) → (∀ d ∈ ids, ∀ n ∈ ids, a.Under d n → n = d) →
    ∃ b, (freeAll ids).run a = .ok () b ∧ Pruned a b ids
  | [], a, h, _, _, _ => ⟨a, rfl, h.pruned_nil⟩
  | id :: ids, a, h, hnd, hlive, happart => by
    rw [List.nodup_cons] at hnd
    have hidlive := hlive id List.mem_cons_self
    rcases free_spec h id with ⟨hdead, -⟩ | ⟨-, a₁, hrun₁, hfreed⟩
    · exact absurd hidlive (not_live_of_dead hdead)
    have hnot : ∀ n ∈ ids, ¬ a.Under id n := fun n hn hunder =>
      hnd.1 (happart id List.mem_cons_self n (List.mem_cons_of_mem _ hn) hunder ▸ hn)
    have hlive₁ : ∀ n ∈ ids, a₁.isLive n := by
      intro n hn
      obtain ⟨node, hnode⟩ := isLive_iff.mp (hlive n (List.mem_cons_of_mem _ hn))
      exact isLive_iff.mpr ⟨_, by rw [hfreed.kept n (hnot n hn), hnode, Option.map_some]⟩
    have happart₁ : ∀ d ∈ ids, ∀ n ∈ ids, a₁.Under d n → n = d := fun d hd n hn hunder =>
      happart d (List.mem_cons_of_mem _ hd) n (List.mem_cons_of_mem _ hn)
        ((hfreed.under_iff (hnot n hn)).mp hunder)
    obtain ⟨b, hrun, hpruned⟩ := freeAll_spec hfreed.sound hnd.2 hlive₁ happart₁
    refine ⟨b, ?_, hfreed.pruned hpruned⟩
    rw [freeAll, run_bind_of_ok hrun₁, hrun]

/-! ### What is left -/

section Stripped

variable {top : NodeId} {ids : List NodeId}

/-- Where all nodes above a node are open to the walk, only its kind matters:
`id ∈ ids ↔ a.isBlank id = true`. -/
theorem mem_iff_isBlank (hids : ∀ n, n ∈ ids ↔ a.Blank top n) {id : NodeId} (htop : a.Under top id)
    (hexposed : ∀ p, a.Under top p → a.Below p id → a.isPreserving p = false) :
    id ∈ ids ↔ a.isBlank id = true := by
  rw [hids]
  exact ⟨fun h => h.blank, fun h => ⟨htop, h, hexposed⟩⟩

mutual

theorem Pruned.shows_stripped (hf : a.Forest) (h : Pruned a b ids)
    (hids : ∀ n, n ∈ ids ↔ a.Blank top n) : ∀ {t : Tree} {id : NodeId}, a.Shows id t →
    a.Under top id → (∀ p, a.Under top p → a.Below p id → a.isPreserving p = false) →
    a.isBlank id = false → b.Shows id t.stripped
  | .node _ cs, id, hs, htop, hexposed, hnot => by
    obtain ⟨node, hget, rfl, hcs⟩ := shows_node.mp hs
    -- Only blank texts are cut off, and a text has nothing but itself under it.
    have hkept : ∀ n, n ∉ ids → b.get? n =
        (a.get? n).map fun node => { node with children := node.children.filter (· ∉ ids) } := by
      refine fun n hn => h.kept n fun d hd hunder => hn ?_
      rwa [eq_of_under_isBlank hf ((hids d).mp hd).blank hunder]
    have hself : id ∉ ids := by
      rw [mem_iff_isBlank hids htop hexposed, hnot]
      simp
    have hget' := hkept id hself
    rw [hget, Option.map_some] at hget'
    rw [Tree.stripped]
    cases hpreserving : node.kind.isPreserving with
    | true =>
      rw [if_pos rfl]
      -- Blank texts are looked for only where no preserving element stands above.
      have hinside : ∀ n, a.Below id n → n ∉ ids := fun n hn hmem => by
        have hexposed' := ((hids n).mp hmem).exposed id htop hn
        rw [isPreserving_of_get? hget, hpreserving] at hexposed'
        exact absurd hexposed' (by simp)
      have hunder : ∀ n, a.Under id n → n ∉ ids := fun n hn => by
        rcases under_iff_eq_or_below.mp hn with rfl | hbelow
        · exact hself
        · exact hinside n hbelow
      refine hs.frame hf fun n hn => content?_eq_of_get? ?_
      rw [hkept n (hunder n hn)]
      cases hgetn : a.get? n with
      | none => rfl
      | some other =>
        have hall : ∀ c ∈ other.children, c ∉ ids := fun c hc =>
          hinside c (Relation.TransGen.head' (hf.up_of_mem hgetn hc) hn)
        rw [Option.map_some, List.filter_eq_self.mpr fun c hc => decide_eq_true (hall c hc)]
    | false =>
      rw [if_neg (by simp)]
      refine shows_node.mpr ⟨_, hget', rfl, h.showsAll_stripped hf hids hcs fun c hc => ?_⟩
      have hup : a.Up c id := hf.up_of_mem hget hc
      -- What is above a child is the node itself or above it, and neither preserves blanks.
      refine ⟨htop.trans hup.under, fun p hp hbelow => ?_⟩
      obtain ⟨q, hq, hpq⟩ := Relation.TransGen.head'_iff.mp hbelow
      obtain rfl := hup.unique hq
      rcases under_iff_eq_or_below.mp hpq with rfl | hpq
      · rw [isPreserving_of_get? hget, hpreserving]
      · exact hexposed p hp hpq

theorem Pruned.showsAll_stripped (hf : a.Forest) (h : Pruned a b ids)
    (hids : ∀ n, n ∈ ids ↔ a.Blank top n) : ∀ {ts : List Tree} {row : List NodeId},
    a.ShowsAll row ts → (∀ c ∈ row, a.Under top c ∧
      ∀ p, a.Under top p → a.Below p c → a.isPreserving p = false) →
    b.ShowsAll (row.filter (· ∉ ids)) (Tree.strippedAll ts)
  | [], row, hs, _ => by
    rw [showsAll_nil_iff.mp hs]
    exact showsAll_nil_iff.mpr rfl
  | t :: ts, row, hs, hrow => by
    obtain ⟨c, rest, rfl, ht, hts⟩ := showsAll_cons_iff.mp hs
    have hrest := h.showsAll_stripped hf hids hts fun x hx => hrow x (List.mem_cons_of_mem _ hx)
    obtain ⟨htop, hexposed⟩ := hrow c List.mem_cons_self
    obtain ⟨node, hget, hkind, -⟩ := ht.get?
    have hblank : a.isBlank c = t.kind.isBlank := by rw [isBlank_of_get? hget, hkind]
    have hmem := mem_iff_isBlank hids htop hexposed
    rw [hblank] at hmem
    rw [Tree.strippedAll]
    -- The row and the trees drop a node for the same reason: it is a blank text.
    cases hcase : t.kind.isBlank with
    | true =>
      rw [if_pos rfl, List.filter_cons_of_neg (by simpa using hmem.mpr hcase)]
      exact hrest
    | false =>
      have hc : c ∉ ids := fun hc => by
        have hblank' := hmem.mp hc
        rw [hcase] at hblank'
        exact absurd hblank' (by simp)
      rw [if_neg (by simp), List.filter_cons_of_pos (by simpa using hc)]
      exact showsAll_cons_iff.mpr ⟨c, _, rfl,
        h.shows_stripped hf hids ht htop hexposed (hblank.trans hcase), hrest⟩

end

end Stripped

/-- What is collected below `top` are the blank texts there, each once. -/
theorem exists_blankTexts (hf : a.Forest) (top : NodeId) :
    ∃ ids, blankTexts a (a.slots.size + 1) [top] = ids ∧ ids.Nodup ∧
      ∀ n, n ∈ ids ↔ a.Blank top n := by
  by_cases hlive : a.isLive top = true
  · obtain ⟨t, ht⟩ := hf.exists_shows hlive
    obtain ⟨ids, rest, -, hcollect, hnd, hids⟩ := blankTexts_node hf _ [] ht
      (Nat.le_succ_of_le (ht.size_le hf))
    refine ⟨ids, ?_, hnd, hids⟩
    rw [hcollect]
    cases rest <;> simp [blankTexts]
  · have hdead : a.get? top = none := by rwa [isLive, Option.not_isSome_iff_eq_none] at hlive
    have hkind : a.kind? top = none := by rw [kind?, hdead, Option.map_none]
    refine ⟨[], ?_, List.nodup_nil, fun n => ?_⟩
    · rw [blankTexts, hkind]
      simp only [children_of_dead hdead]
      cases a.slots.size <;> rfl
    · refine iff_of_false List.not_mem_nil fun hblank => ?_
      obtain rfl := (under_of_dead hf hdead).mp hblank.under
      have hnot := hblank.blank
      rw [isBlank, hkind] at hnot
      exact absurd hnot Bool.false_ne_true

/-- Removing blank texts never fails, and frees exactly those that `a.Blank top` names. -/
theorem exists_stripBlankTexts_run (h : a.Sound) (top : NodeId) :
    ∃ b ids, (stripBlankTexts top).run a = .ok () b ∧ Pruned a b ids ∧
      ∀ n, n ∈ ids ↔ a.Blank top n := by
  have hf := h.forest
  obtain ⟨ids, hcollect, hnd, hids⟩ := exists_blankTexts hf top
  have hlive : ∀ n ∈ ids, a.isLive n := fun n hn => live_of_isBlank ((hids n).mp hn).blank
  have hleaf : ∀ d ∈ ids, ∀ n ∈ ids, a.Under d n → n = d := fun d hd _ _ hunder =>
    eq_of_under_isBlank hf ((hids d).mp hd).blank hunder
  obtain ⟨b, hfree, hpruned⟩ := freeAll_spec h hnd hlive hleaf
  refine ⟨b, ids, ?_, hpruned, hids⟩
  rw [stripBlankTexts, run_bind_of_ok (EStateM.run_get ..), hcollect, hfree]

/-- A node that showed `t` shows `t.stripped` afterwards, unless it is a blank text itself. -/
theorem stripBlankTexts_spec (h : a.Sound) {top : NodeId} {t : Tree} (ht : a.Shows top t)
    (hnot : t.kind.isBlank = false) :
    ∃ b ids, (stripBlankTexts top).run a = .ok () b ∧ Pruned a b ids ∧
      (∀ n ∈ ids, a.Below top n) ∧ b.Shows top t.stripped := by
  have hf := h.forest
  obtain ⟨b, ids, hrun, hpruned, hids⟩ := exists_stripBlankTexts_run h top
  obtain ⟨node, hget, hkind, -⟩ := ht.get?
  have htop : a.isBlank top = false := by rw [isBlank_of_get? hget, hkind, hnot]
  refine ⟨b, ids, hrun, hpruned, fun n hn => ?_, ?_⟩
  · refine (under_iff_eq_or_below.mp ((hids n).mp hn).under).resolve_left ?_
    rintro rfl
    rw [((hids n).mp hn).blank] at htop
    exact absurd htop (by simp)
  · refine hpruned.shows_stripped hf hids ht (Under.refl top) (fun p hp hbelow => ?_) htop
    exact absurd (Relation.TransGen.trans_left hbelow hp) (hf.acyclic top)

end Arena

end Inlay
