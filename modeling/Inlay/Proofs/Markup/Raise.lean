import Inlay.Proofs.Arena.Plant
import Inlay.Proofs.Markup.Draft

/-!
# Building a fragment

`Builder` makes nodes as the tokens come in; `Draft` says what the tokens stand for. `Raised`
relates the two: the open nodes of the builder stand one inside the other, each the last child of
the next, and show the levels of the draft. Each token keeps it so (`Raised.take`), hence

* `parse_spec`: parsing never fails, leaves all nodes that were there alone, and gives a new node
  without a parent that shows `treeOf (tokenize markup)`.
-/

namespace Inlay

namespace Arena

open Markup (Level)

variable {a b : Arena}

/-! ### Open nodes -/

/-- `id` is open: it has the finished trees of `l` and, behind them, the open child `inner`. -/
def Stands (a : Arena) (id : NodeId) (l : Level) (inner : Option NodeId) : Prop :=
  ∃ node done, a.get? id = some node ∧ node.kind = l.kind ∧ node.children = done ++ inner.toList ∧
    a.ShowsAll done l.trees

/-- The open nodes from the inside out, each the open child of the next. -/
def Spine (a : Arena) : Option NodeId → List NodeId → List Level → Prop
  | _, [], [] => True
  | inner, id :: ids, l :: ls => a.Stands id l inner ∧ a.Spine (some id) ids ls
  | _, _, _ => False

theorem Stands.shows {id : NodeId} {l : Level} (h : a.Stands id l none) : a.Shows id l.tree := by
  obtain ⟨node, done, hget, hkind, hchildren, hdone⟩ := h
  rw [Option.toList_none, List.append_nil] at hchildren
  exact shows_node.mpr ⟨node, hget, hkind, hchildren ▸ hdone⟩

/-- The open child `c` is finished: its tree `t` is added to the level. -/
theorem Stands.close {id c : NodeId} {l : Level} {t : Tree} (h : a.Stands id l (some c))
    (ht : a.Shows c t) : a.Stands id (l.add t) none := by
  obtain ⟨node, done, hget, hkind, hchildren, hdone⟩ := h
  refine ⟨node, done ++ [c], hget, hkind, ?_, hdone.append (showsAll_singleton_iff.mpr ht)⟩
  rw [hchildren, Option.toList_none, List.append_nil, Option.toList_some]

theorem Stands.mem_children {id c : NodeId} {l : Level} (h : a.Stands id l (some c)) :
    c ∈ a.children id := by
  obtain ⟨node, done, hget, -, hchildren, -⟩ := h
  rw [children_of_get? hget, hchildren]
  simp

/-- An open node is not concerned by what happens at and below its open child `c ∈ inner`. -/
theorem Stands.frame (hf : a.Forest) {id : NodeId} {l : Level} {inner : Option NodeId}
    (h : a.Stands id l inner) (hsame : ∀ n, a.Under id n → (∀ c ∈ inner, ¬ a.Under c n) →
      b.content? n = a.content? n) : b.Stands id l inner := by
  obtain ⟨node, done, hget, hkind, hchildren, hdone⟩ := h
  have hmem : ∀ c, c ∈ done ∨ c ∈ inner → c ∈ a.children id := fun c hc => by
    rw [children_of_get? hget, hchildren, List.mem_append, Option.mem_toList]
    exact hc
  have hself := hsame id (Under.refl id) fun c hc => hf.not_under_child (hmem c (Or.inr hc))
  obtain ⟨node', hget', hkind', hchildren'⟩ := exists_get?_of_content? hself hget
  refine ⟨node', done, hget', hkind'.trans hkind, hchildren'.trans hchildren,
    hdone.frame hf fun d hd n hn => ?_⟩
  have hd' := hmem d (Or.inl hd)
  refine hsame n (Under.trans (Up.under (hf.parent_of_mem hd')) hn) fun c hc hcn => ?_
  -- a finished child and the open one are different children
  obtain rfl := hf.disjoint_siblings hd' (hmem c (Or.inr hc)) hn hcn
  have hnd := hf.nodup_children id
  rw [children_of_get? hget, hchildren] at hnd
  exact (List.nodup_append.mp hnd).2.2 d hd d (Option.mem_toList.mpr hc) rfl

/-- The open nodes `ids` are not concerned by what happens under the innermost one's open child. -/
theorem Spine.frame (hf : a.Forest) : ∀ {ids : List NodeId} {ls : List Level}
    {inner : Option NodeId}, a.Spine inner ids ls →
    (∀ n, a.isLive n → (∀ c ∈ inner, ¬ a.Under c n) → b.content? n = a.content? n) →
    b.Spine inner ids ls
  | [], [], _, _, _ => trivial
  | id :: ids, l :: ls, inner, h, hsame => by
    obtain ⟨hid, hids⟩ := h
    have hlive : a.isLive id := by
      obtain ⟨node, done, hget, -⟩ := hid
      exact isLive_iff.mpr ⟨node, hget⟩
    refine ⟨hid.frame hf fun n hn => hsame n (hn.live hlive), hids.frame hf fun n hn hnot => ?_⟩
    refine hsame n hn fun c hc hcn => hnot id rfl (Under.trans (Up.under ?_) hcn)
    obtain rfl := hc
    exact hf.parent_of_mem hid.mem_children

/-- When everything is closed, the outermost node shows `Draft.enclose t ls`, the whole tree. -/
theorem Spine.shows : ∀ {ls : List Level} {ids : List NodeId} {id : NodeId} {t : Tree},
    a.Shows id t → a.Spine (some id) ids ls →
    ∃ top, (id :: ids).getLast? = some top ∧ a.Shows top (Markup.Draft.enclose t ls)
  | [], [], id, t, ht, _ => ⟨id, rfl, ht⟩
  | l :: ls, out :: ids, id, t, ht, h => by
    obtain ⟨top, htop, hshows⟩ := Spine.shows (h.1.close ht).shows h.2
    exact ⟨top, by rw [List.getLast?_cons_cons, htop], hshows⟩

/-! ### A new leaf -/

/-- `b` is `a` with a new node at the end of the children of `parent`. -/
structure Sprouted (a b : Arena) (parent : NodeId) (kind : NodeKind) (id : NodeId) : Prop where
  sound : b.Sound
  fresh : a.get? id = none
  leaf : b.get? id = some ⟨kind, some parent, []⟩
  parent_eq : ∀ node, a.get? parent = some node →
    b.get? parent = some { node with children := node.children ++ [id] }
  kept : ∀ n, n ≠ id → n ≠ parent → b.get? n = a.get? n

/-- No node without a parent is new. -/
theorem Sprouted.isTop {parent id : NodeId} {kind : NodeKind} {pnode : Node}
    (h : Sprouted a b parent kind id) (hp : a.get? parent = some pnode) {n : NodeId}
    (hn : b.IsTop n) : a.IsTop n := by
  obtain ⟨hlive, htop⟩ := hn
  have hne : n ≠ id := by
    rintro rfl
    rw [parent?_of_get? h.leaf] at htop
    exact absurd htop (by simp)
  by_cases hnp : n = parent
  · subst hnp
    rw [parent?_of_get? (h.parent_eq pnode hp)] at htop
    exact ⟨isLive_iff.mpr ⟨pnode, hp⟩, by rw [parent?_of_get? hp, htop]⟩
  · have hsame := h.kept n hne hnp
    rw [isLive, hsame] at hlive
    rw [parent?, hsame] at htop
    exact ⟨hlive, htop⟩

/-- A new leaf is made and put behind the other children of `parent`. -/
theorem sprout_spec (h : a.Sound) {parent : NodeId} {pnode : Node} (hp : a.get? parent = some pnode)
    (hcontainer : pnode.kind.isContainer = true) (kind : NodeKind)
    (hfit : (stateAfter (create kind) a).Fits) :
    ∃ id a₁ b, (create kind).run a = .ok id a₁ ∧ (appendChild parent id).run a₁ = .ok () b ∧
      Sprouted a b parent kind id := by
  obtain ⟨id, a₁, hrun₁, hc⟩ := create_spec h kind hfit
  have hp₁ := hc.get?_of_live hp
  have hne : parent ≠ id := ne_of_dead hp hc.fresh
  -- Nothing that was there before stands under the node just made, so the insertion is no cycle.
  have hnot : ¬ a₁.Under id parent := fun hunder => by
    rw [dead_of_under_fresh h.forest hc.kept.parent? hc.fresh hunder] at hp
    exact absurd hp (by simp)
  have hmay : a₁.mayInsert parent id = .ok () :=
    (mayInsert_ok_iff hc.sound.forest).mpr ⟨isLive_iff.mpr ⟨_, hc.get?_self⟩, hnot, _,
      kind?_of_get? hp₁, hcontainer⟩
  rcases appendChild_spec hc.sound parent id with ⟨f, hf, -⟩ | ⟨-, b, hrun, hmoved⟩
  · rw [hmay] at hf
    exact absurd hf (by simp)
  -- The new node has no parent yet, so taking it out of its old place changes no list.
  have hunlisted : ∀ n, (a₁.children n).filter (· ≠ id) = a₁.children n := fun n => by
    refine List.filter_eq_self.mpr fun c hc' => decide_eq_true ?_
    rintro rfl
    have hup := hc.sound.forest.parent_of_mem hc'
    rw [parent?_of_get? hc.get?_self] at hup
    exact absurd hup (by simp)
  refine ⟨id, a₁, b, hrun₁, hrun, ?_⟩
  constructor
  case sound => exact hmoved.sound
  case fresh => exact hc.fresh
  case leaf =>
    rw [hmoved.view, hc.get?_self, Option.map_some, move, if_pos rfl, if_neg hne.symm]
    rfl
  case parent_eq =>
    intro node hnode
    have hnode₁ := hc.get?_of_live hnode
    rw [hmoved.view, hnode₁, Option.map_some, move, if_neg hne, if_pos rfl, hunlisted,
      children_of_get? hnode₁]
  case kept =>
    intro n hn hnp
    rw [hmoved.view, ← hc.get?_of_ne hn]
    cases hnode : a₁.get? n with
    | none => rfl
    | some node =>
      have hfilter := hunlisted n
      rw [children_of_get? hnode] at hfilter
      rw [Option.map_some, move, if_neg hn, if_neg hnp, hfilter]

/-- A new leaf at the innermost open node `cur` is the new innermost open node. -/
theorem Spine.sprout (hf : a.Forest) {cur id : NodeId} {outs : List NodeId} {current : Level}
    {outer : List Level} {kind : NodeKind} (h : a.Spine none (cur :: outs) (current :: outer))
    (hs : Sprouted a b cur kind id) :
    b.Spine none (id :: cur :: outs) (⟨kind, []⟩ :: current :: outer) := by
  obtain ⟨⟨node, done, hget, hkind, hchildren, hdone⟩, houts⟩ := h
  rw [Option.toList_none, List.append_nil] at hchildren
  have hsame : ∀ n, a.isLive n → n ≠ cur → b.content? n = a.content? n := fun n hn hne => by
    refine content?_eq_of_get? (hs.kept n ?_ hne)
    rintro rfl
    exact not_live_of_dead hs.fresh hn
  refine ⟨⟨_, [], hs.leaf, rfl, rfl, showsAll_nil_iff.mpr rfl⟩,
    ⟨_, done, hs.parent_eq node hget, hkind, by rw [hchildren]; rfl, ?_⟩,
    houts.frame hf fun n hn hnot => hsame n hn fun he => hnot cur rfl (he ▸ Under.refl _)⟩
  refine hdone.frame hf fun d hd n hn => hsame n (hn.live (hdone.live d hd)) fun he => ?_
  refine hf.not_under_child (p := cur) (c := d) ?_ (he ▸ hn)
  rw [children_of_get? hget, hchildren]
  exact hd

theorem Spine.map_hasTag (name : String) : ∀ {ids : List NodeId} {ls : List Level}
    {inner : Option NodeId}, a.Spine inner ids ls →
    ids.map (a.hasTag · name) = ls.map (·.kind.hasTag name)
  | [], [], _, _ => rfl
  | id :: ids, l :: ls, _, h => by
    obtain ⟨⟨node, done, hget, hkind, -⟩, hids⟩ := h
    rw [List.map_cons, List.map_cons, hasTag_of_get? hget, hkind, hids.map_hasTag]

/-! ### Steps of the builder -/

namespace Editing

open Markup

variable {R : Arena → Arena → Prop} (h : Editing R)

include h

theorem place (b : Builder) (kind : NodeKind) : Keeps R (b.place kind) :=
  h.bind (h.create kind) fun _ => h.bind (h.appendChild _ _) fun _ => h.pure _

theorem flush (b : Builder) : Keeps R b.flush := by
  unfold Builder.flush
  split
  · exact h.pure _
  · exact h.bind (h.place b _) fun _ => h.pure _

theorem take (b : Builder) (token : Token) : Keeps R (b.take token) := by
  cases token with
  | text s => exact h.pure _
  | startTag name attrs selfClosing =>
    exact h.bind (h.flush b) fun b => h.bind (h.place b _) fun _ => by
      split <;> exact h.pure _
  | endTag name => exact h.bind (h.flush b) fun _ => h.bind h.get fun _ => h.pure _
  | comment s => exact h.bind (h.flush b) fun b => h.bind (h.place b _) fun _ => h.pure _
  | doctype | error => exact h.pure _

theorem takeAll : ∀ (tokens : List Token) (b : Builder), Keeps R (b.takeAll tokens)
  | [], _ => h.pure _
  | token :: tokens, b => h.bind (h.take b token) fun b => takeAll tokens b

theorem buildFragment (tokens : List Token) : Keeps R (buildFragment tokens) :=
  h.bind (h.create _) fun _ => h.bind (h.takeAll tokens _) fun b =>
    h.bind (h.flush b) fun _ => h.pure _

end Editing

end Arena

namespace Markup

open Arena

/-! ### What an end tag closes -/

theorem dropWhile_not_eq {α : Type} (p : α → Bool) (xs : List α) :
    xs.dropWhile (!p ·) = match xs.findIdx? p with
      | some i => xs.drop i
      | none => [] := by
  induction xs with
  | nil => rfl
  | cons x xs ih =>
    rw [List.dropWhile_cons, List.findIdx?_cons]
    by_cases hx : p x = true
    · simp [hx]
    · rw [if_pos (by simp [hx]), if_neg hx, ih]
      cases xs.findIdx? p <;> rfl

/-- An end tag closes the innermost open element of its name, at `i`, and what was opened inside
that. -/
theorem afterEndTag_eq {a : Arena} {name : String} {opened : List NodeId} {i : Nat}
    (h : opened.findIdx? (a.hasTag · name) = some i) :
    Builder.afterEndTag a name opened = opened.drop (i + 1) := by
  -- the node that is found is closed as well, so the rest begins behind it
  have hlt := (List.findIdx?_eq_some_iff_getElem.mp h).1
  rw [Builder.afterEndTag, dropWhile_not_eq, h]
  simp only
  rw [List.drop_eq_getElem_cons hlt]

/-- An end tag of a `name` that no open element has closes nothing. -/
theorem afterEndTag_eq_self {a : Arena} {name : String} {opened : List NodeId}
    (h : opened.findIdx? (a.hasTag · name) = none) :
    Builder.afterEndTag a name opened = opened := by
  rw [Builder.afterEndTag, dropWhile_not_eq, h]

/-! ### The simulation -/

variable {f : NodeId} {a₀ a : Arena} {b : Builder} {d : Draft}

/-- The builder `b` of the fragment `f`, in the arena `a`, stands where the draft `d` stands; the
nodes of the arena `a₀` that it began with are as they were. -/
structure Raised (f : NodeId) (a₀ a : Arena) (b : Builder) (d : Draft) : Prop where
  fragment_eq : b.fragment = f
  sound : a.Sound
  kept : Kept a₀ a
  fresh : ∀ id ∈ b.opened ++ [b.fragment], a₀.get? id = none
  top : a.parent? b.fragment = none
  kind : a.kind? b.fragment = some .fragment
  text : b.text = d.text
  spine : a.Spine none (b.opened ++ [b.fragment]) (d.current :: d.outer)
  tops : ∀ n, a.IsTop n → n = f ∨ a₀.IsTop n

theorem Builder.exists_cons_current (b : Builder) :
    ∃ outs, b.opened ++ [b.fragment] = b.current :: outs := by
  rw [Builder.current]
  cases b.opened with
  | nil => exact ⟨[], rfl⟩
  | cons id ids => exact ⟨ids ++ [b.fragment], rfl⟩

theorem grows_place (b : Builder) (kind : NodeKind) : Grows (b.place kind) :=
  editing_grows.place b kind

/-- A new node is made, and entered: the nodes keep up with `d.enter kind`. -/
theorem Raised.place (h : Raised f a₀ a b d) (hopen : d.Open) (kind : NodeKind)
    (hfit : (stateAfter (b.place kind) a).Fits) :
    ∃ id a', (b.place kind).run a = .ok id a' ∧
      Raised f a₀ a' { b with opened := id :: b.opened } (d.enter kind) := by
  obtain ⟨outs, houts⟩ := b.exists_cons_current
  have hspine := h.spine
  rw [houts] at hspine
  obtain ⟨node, done, hget, hkind, -⟩ := hspine.1
  have hcontainer : node.kind.isContainer = true := hkind ▸ hopen _ List.mem_cons_self
  have hfit₁ : (stateAfter (create kind) a).Fits :=
    fits_of_bind (fun id => (grows_appendChild b.current id).bind fun _ => grows_pure id) hfit
  obtain ⟨id, a₁, a₂, hrun₁, hrun₂, hs⟩ := sprout_spec h.sound hget hcontainer kind hfit₁
  have hcur : a₀.get? b.current = none := h.fresh _ (by rw [houts]; exact List.mem_cons_self)
  have hfragment : b.fragment ≠ id := by
    rintro rfl
    have hk := h.kind
    rw [kind?, hs.fresh] at hk
    exact absurd hk (by simp)
  refine ⟨id, a₂, ?_, ?_⟩
  · rw [Builder.place, run_bind_of_ok hrun₁, run_bind_of_ok hrun₂]
    rfl
  constructor
  case fragment_eq => exact h.fragment_eq
  case sound => exact hs.sound
  case kept =>
    intro n nnode hn
    have hn₁ := h.kept n nnode hn
    rw [hs.kept n (ne_of_dead hn₁ hs.fresh) (ne_of_dead hn hcur), hn₁]
  case fresh =>
    intro m hm
    rcases List.mem_cons.mp hm with rfl | hm
    · exact h.kept.dead hs.fresh
    · exact h.fresh m hm
  case top =>
    -- the new node may be a child of the fragment itself, whose own parent stays
    by_cases he : b.fragment = b.current
    · have htop := h.top
      rw [he, parent?_of_get? hget] at htop
      rw [he, parent?_of_get? (hs.parent_eq node hget), htop]
    · rw [parent?, hs.kept _ hfragment he, ← parent?, h.top]
  case kind =>
    by_cases he : b.fragment = b.current
    · have hk := h.kind
      rw [he, kind?_of_get? hget] at hk
      rw [he, kind?_of_get? (hs.parent_eq node hget), hk]
    · rw [kind?, hs.kept _ hfragment he, ← kind?, h.kind]
  case text => exact h.text
  case spine =>
    show a₂.Spine none (id :: (b.opened ++ [b.fragment])) _
    rw [houts]
    exact hspine.sprout h.sound.forest hs
  case tops => exact fun n hn => h.tops n (hs.isTop hget hn)

theorem Raised.close {id : NodeId} {ids : List NodeId}
    (h : Raised f a₀ a { b with opened := id :: ids } d) :
    Raised f a₀ a { b with opened := ids } d.close := by
  obtain ⟨⟨kind, trees⟩, outer, text⟩ := d
  obtain ⟨hid, hids⟩ := h.spine
  cases outer with
  | nil => cases ids <;> exact hids.elim
  | cons l ls =>
    have hfresh : ∀ n ∈ ids ++ [b.fragment], a₀.get? n = none :=
      fun n hn => h.fresh n (List.mem_cons_of_mem _ hn)
    refine ⟨h.fragment_eq, h.sound, h.kept, hfresh, h.top, h.kind, h.text, ?_, h.tops⟩
    show a.Spine none (ids ++ [b.fragment]) _
    change a.Spine _ (ids ++ [b.fragment]) _ at hids
    generalize ids ++ [b.fragment] = all at hids
    cases all with
    | nil => exact hids.elim
    | cons out outs => exact ⟨hids.1.close hid.shows, hids.2⟩

theorem Raised.iterate_close (h : Raised f a₀ a b d) {n : Nat} (hn : n ≤ b.opened.length) :
    Raised f a₀ a { b with opened := b.opened.drop n } (Draft.close^[n] d) := by
  induction n with
  | zero => exact h
  | succ n ih =>
    have hlt : n < b.opened.length := hn
    have hdrop := ih (Nat.le_of_lt hlt)
    rw [List.drop_eq_getElem_cons hlt] at hdrop
    rw [Function.iterate_succ_apply']
    exact hdrop.close

/-- An end tag closes as many levels in the draft as it takes off the stack of `b`. -/
theorem Raised.endTag (h : Raised f a₀ a b d) (name : String) :
    Raised f a₀ a { b with opened := Builder.afterEndTag a name b.opened }
      (Draft.close^[Draft.closing name (d.current :: d.outer)] d) := by
  have hfragment : a.hasTag b.fragment name = false := by
    rw [hasTag, tag?, element?, h.kind]
    rfl
  -- the fragment is open below all others, but no end tag can name it
  have hindex : (d.current :: d.outer).findIdx? (·.kind.hasTag name) =
      b.opened.findIdx? (a.hasTag · name) := by
    have hmap := congrArg (List.findIdx? id) (h.spine.map_hasTag name)
    rw [List.findIdx?_map, List.findIdx?_map, List.findIdx?_append] at hmap
    simpa [hfragment, Function.comp_def] using hmap.symm
  rw [Draft.closing, hindex]
  cases hi : b.opened.findIdx? (a.hasTag · name) with
  | none =>
    rw [afterEndTag_eq_self hi]
    exact h
  | some i =>
    rw [afterEndTag_eq hi]
    exact h.iterate_close (List.findIdx?_eq_some_iff_getElem.mp hi).1

/-- A new node is made, and is complete: the nodes keep up with `d.add (.node kind [])`. -/
theorem Raised.placeLeaf (h : Raised f a₀ a b d) (hopen : d.Open) (kind : NodeKind)
    (hfit : (stateAfter (b.place kind) a).Fits) :
    ∃ id a', (b.place kind).run a = .ok id a' ∧ Raised f a₀ a' b (d.add (.node kind [])) := by
  obtain ⟨id, a', hrun, hraised⟩ := h.place hopen kind hfit
  exact ⟨id, a', hrun, hraised.close⟩

theorem grows_flush (b : Builder) : Grows b.flush :=
  editing_grows.flush b

/-- The collected text is made a node, if it is not empty, as `d.flush` says. -/
theorem Raised.flush (h : Raised f a₀ a b d) (hopen : d.Open) (hfit : (stateAfter b.flush a).Fits) :
    ∃ b' a', b.flush.run a = .ok b' a' ∧ Raised f a₀ a' b' d.flush := by
  unfold Builder.flush Draft.flush at *
  rw [← h.text]
  by_cases htext : b.text.isEmpty = true
  · rw [if_pos htext, if_pos htext]
    exact ⟨b, a, rfl, h⟩
  · rw [if_neg htext] at hfit ⊢
    rw [if_neg htext]
    obtain ⟨id, a', hrun, hraised⟩ :=
      h.placeLeaf hopen (.text b.text) (fits_of_bind (fun _ => grows_pure _) hfit)
    refine ⟨{ b with text := "" }, a', run_bind_of_ok hrun _, ?_⟩
    exact ⟨hraised.fragment_eq, hraised.sound, hraised.kept, hraised.fresh, hraised.top,
      hraised.kind, rfl, hraised.spine, hraised.tops⟩

/-- Each token does to the nodes what it does to the trees, `d.take token`. -/
theorem Raised.take (h : Raised f a₀ a b d) (hopen : d.Open) (token : Token)
    (hfit : (stateAfter (b.take token) a).Fits) :
    ∃ b' a', (b.take token).run a = .ok b' a' ∧ Raised f a₀ a' b' (d.take token) := by
  cases token with
  | text s =>
    refine ⟨{ b with text := b.text ++ s }, a, rfl, ?_⟩
    exact ⟨h.fragment_eq, h.sound, h.kept, h.fresh, h.top, h.kind, congrArg (· ++ s) h.text,
      h.spine, h.tops⟩
  | startTag name attrs selfClosing =>
    -- What follows the flush only grows the arena, so the flush has its room as well.
    have hrest : ∀ b : Builder, Grows (b.place (.element (.of name attrs)) >>= fun id =>
        pure (if selfClosing || isVoid name then b else { b with opened := id :: b.opened })) :=
      fun b => (grows_place b _).bind fun _ => grows_pure _
    obtain ⟨b₁, a₁, hrun₁, h₁⟩ := h.flush hopen (fits_of_bind hrest hfit)
    have hfit₁ := fits_after hrun₁ hfit
    obtain ⟨id, a₂, hrun₂, h₂⟩ := h₁.place hopen.flush (.element (.of name attrs))
      (fits_of_bind (fun _ => grows_pure _) hfit₁)
    refine ⟨_, a₂, (run_bind_of_ok hrun₁ _).trans (run_bind_of_ok hrun₂ _), ?_⟩
    rw [Draft.take]
    split
    · exact h₂.close
    · exact h₂
  | endTag name =>
    obtain ⟨b₁, a₁, hrun₁, h₁⟩ := h.flush hopen
      (fits_of_bind (fun _ => grows_get.bind fun _ => grows_pure _) hfit)
    exact ⟨_, a₁, run_bind_of_ok hrun₁ _, h₁.endTag name⟩
  | comment s =>
    obtain ⟨b₁, a₁, hrun₁, h₁⟩ := h.flush hopen
      (fits_of_bind (fun b => (grows_place b _).bind fun _ => grows_pure _) hfit)
    have hfit₁ := fits_after hrun₁ hfit
    obtain ⟨id, a₂, hrun₂, h₂⟩ := h₁.placeLeaf hopen.flush (.comment s)
      (fits_of_bind (fun _ => grows_pure _) hfit₁)
    exact ⟨b₁, a₂, (run_bind_of_ok hrun₁ _).trans (run_bind_of_ok hrun₂ _), h₂⟩
  | doctype | error => exact ⟨b, a, rfl, h⟩

theorem grows_takeAll (tokens : List Token) (b : Builder) : Grows (b.takeAll tokens) :=
  editing_grows.takeAll tokens b

/-- So are all `tokens`, one after the other, as `d.takeAll` says. -/
theorem Raised.takeAll : ∀ {tokens : List Token} {a : Arena} {b : Builder} {d : Draft},
    Raised f a₀ a b d → d.Open → (stateAfter (b.takeAll tokens) a).Fits →
    ∃ b' a', (b.takeAll tokens).run a = .ok b' a' ∧ Raised f a₀ a' b' (d.takeAll tokens) ∧
      (d.takeAll tokens).Open
  | [], a, b, _, h, hopen, _ => ⟨b, a, rfl, h, hopen⟩
  | token :: tokens, a, b, d, h, hopen, hfit => by
    rw [Builder.takeAll] at hfit ⊢
    obtain ⟨b₁, a₁, hrun₁, h₁⟩ := h.take hopen token (fits_of_bind (grows_takeAll tokens) hfit)
    have hfit₁ := fits_after hrun₁ hfit
    obtain ⟨b₂, a₂, hrun₂, h₂, hopen₂⟩ := Raised.takeAll h₁ (hopen.take token) hfit₁
    exact ⟨b₂, a₂, (run_bind_of_ok hrun₁ _).trans hrun₂, h₂, hopen₂⟩

theorem grows_buildFragment (tokens : List Token) : Grows (buildFragment tokens) :=
  editing_grows.buildFragment tokens

theorem Raised.start (hc : Created a₀ a .fragment f) :
    Raised f a₀ a ⟨f, [], ""⟩ Draft.start where
  fragment_eq := rfl
  sound := hc.sound
  kept := hc.kept
  fresh n hn := by
    obtain rfl : n = f := List.mem_singleton.mp hn
    exact hc.fresh
  top := by rw [parent?_of_get? hc.get?_self]
  kind := kind?_of_get? hc.get?_self
  text := rfl
  spine := ⟨⟨_, [], hc.get?_self, rfl, rfl, showsAll_nil_iff.mpr rfl⟩, trivial⟩
  tops _ hn := hc.isTop hn

theorem Raised.shows (h : Raised f a₀ a b d) : a.Shows f d.tree := by
  obtain ⟨outs, houts⟩ := b.exists_cons_current
  have hspine := h.spine
  rw [houts] at hspine
  obtain ⟨top, htop, hshows⟩ := Spine.shows hspine.1.shows hspine.2
  rw [← houts, List.getLast?_concat, Option.some.injEq, h.fragment_eq] at htop
  rwa [htop]

/-- Building never fails: the fragment shows `treeOf tokens`, and nothing else changes. -/
theorem buildFragment_spec (h : a.Sound) (tokens : List Token)
    (hfit : (stateAfter (buildFragment tokens) a).Fits) :
    ∃ fragment a', (buildFragment tokens).run a = .ok fragment a' ∧
      Planted a a' fragment (treeOf tokens) := by
  unfold buildFragment at hfit ⊢
  obtain ⟨fragment, a₁, hrun₁, hc⟩ := create_spec h .fragment
    (fits_of_bind (fun fragment => (grows_takeAll tokens ⟨fragment, [], ""⟩).bind fun b =>
      (grows_flush b).bind fun _ => grows_pure fragment) hfit)
  have hfit₁ := fits_after hrun₁ hfit
  obtain ⟨b₂, a₂, hrun₂, h₂, hopen⟩ := Raised.takeAll (Raised.start hc) Draft.open_start
    (fits_of_bind (fun b => (grows_flush b).bind fun _ => grows_pure fragment) hfit₁)
  have hfit₂ := fits_after hrun₂ hfit₁
  obtain ⟨b₃, a₃, hrun₃, h₃⟩ := h₂.flush hopen (fits_of_bind (fun _ => grows_pure fragment) hfit₂)
  refine ⟨fragment, a₃, ?_, h₃.sound, h₃.kept, hc.fresh, ?_, h₃.shows, h₃.tops⟩
  · rw [run_bind_of_ok hrun₁, run_bind_of_ok hrun₂, run_bind_of_ok hrun₃]
    rfl
  · rw [← h₃.fragment_eq, h₃.top]

/-- Parsing never fails: what the text holds, `treeOf (tokenize markup)`, stands at a new node, and
nothing else changes. -/
theorem parse_spec (h : a.Sound) (markup : String) (hfit : (stateAfter (parse markup) a).Fits) :
    ∃ fragment a', (parse markup).run a = .ok fragment a' ∧
      Planted a a' fragment (treeOf (tokenize markup)) :=
  buildFragment_spec h (tokenize markup) hfit

end Markup

end Inlay
