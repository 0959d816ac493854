import Inlay.Proofs.Scene.Opening
import Inlay.Proofs.Template.Compiled
import Inlay.Proofs.Template.Outputs
import Inlay.Proofs.Template.Pick

/-!
# Where the outputs of placeholders stand

`Standing t home tree outputs spots i`: the tree of the instance `i` is `tree`, that of its
template, with `outputs` in the places of placeholders, and what the instance keeps about regions
fits the nodes there, which are `spots`.

* `Copy.standing`: a new instance has no outputs;
* `Standing.held`: the place of a placeholder can take a response, if it is tracked or had none;
* `Standing.answered`: it has that response then.
-/

namespace Inlay.Scene

open Arena (Outputs Spots)

variable {t : Template} {home : Position → Destination} {tree : Tree} {outputs : Outputs}
  {spots : Spots} {i j : Instance} {x : Placeholder} {job : Job}

structure Standing (t : Template) (home : Position → Destination) (tree : Tree)
    (outputs : Outputs) (spots : Spots) (i : Instance) : Prop where
  sound : i.arena.Sound
  /-- Nothing is left over outside the tree. -/
  tops : ∀ n, i.arena.IsTop n → n = i.root
  laid : i.arena.LaidOut spots outputs i.root tree
  marked : ∀ x ∈ t.placeholders, x.position ∈ Tree.marksAll 0 tree.children
  /-- Where nothing has come the placeholder element stands. -/
  untouched : ∀ x ∈ t.placeholders, outputs x.position = none →
    ∃ id, home x.position = .element id ∧ spots x.position = [id] ∧ i.region? x.position = none
  /-- Where something has come for a tracked placeholder the nodes of its region stand. -/
  tracked : ∀ x ∈ t.placeholders, x.isTracked = true → outputs x.position ≠ none →
    spots x.position ≠ [] ∧ ∃ parent, i.region? x.position = some ⟨some parent, spots x.position⟩ ∧
      ∀ d ∈ spots x.position, i.arena.parent? d = some parent

/-- If an update at `p` with `some trees` is `none` at `q`, then `q ≠ p`. -/
theorem ne_of_update_eq_none {p q : Position} {trees : List Tree}
    (h : Function.update outputs p (some trees) q = none) : q ≠ p := by
  rintro rfl
  rw [Function.update_self] at h
  exact absurd h (by simp)

/-- A copy is an `empty` arena in which the tree of the template was planted. -/
theorem Copy.planted {source : String} (hcompiled : Template.Compiled source t)
    (htemplate : t.arena.Fits) {id : Nat} (h : Copy t id i) (hfit : i.arena.Fits) :
    ∃ tree, t.arena.tree? t.root = some tree ∧ Arena.Planted .empty i.arena i.root tree := by
  have hsource := (Template.sound_canonicalRoot hcompiled.root_eq htemplate).forest
  obtain ⟨-, hrun⟩ | ⟨tree, copy, b, hshows, hrun, hplanted⟩ :=
    Arena.copyFrom_spec Arena.sound_empty hsource t.root (by rwa [stateAfter_of_ok h.copied])
  · rw [h.copied] at hrun
    exact absurd hrun (by simp)
  · rw [h.copied] at hrun
    injection hrun with hroot harena
    subst hroot harena
    exact ⟨tree, hsource.tree?_eq_some_iff.mpr hshows, hplanted⟩

/-- In a copy all outputs are `none`. -/
theorem Copy.standing {source : String} (hcompiled : Template.Compiled source t)
    (htemplate : t.arena.Fits) {id : Nat} (h : Copy t id i) (hsingle : t.single = false)
    (ht : t.Housed i.home) (hfit : i.arena.Fits) :
    ∃ tree spots, t.arena.tree? t.root = some tree ∧
      Standing t i.home tree (fun _ => none) spots i := by
  obtain ⟨tree, htree, hplanted⟩ := h.planted hcompiled htemplate hfit
  have hf := hplanted.sound.forest
  have helements : i.elements = Template.placeholdersBelow i.arena i.root := by
    rw [Instance.elements, h.single_eq, hsingle, if_neg (by simp)]
  -- the element of each placeholder is where its responses go
  have hhome : ∀ x ∈ t.placeholders, ∃ e, i.home x.position = .element e ∧
      (Template.placeholdersBelow i.arena i.root).lookup x.position = some e := fun x hx => by
    obtain ⟨e, he⟩ := ht.home_element x hx (Or.inl hsingle)
    refine ⟨e, he, ?_⟩
    rw [Instance.home, helements] at he
    split at he
    · rename_i e' hlookup
      rw [hlookup, Destination.element.inj he]
    · exact absurd he (by simp)
  refine ⟨tree, _, htree, hplanted.sound, fun _ hn => hplanted.eq_of_isTop hn,
    Arena.laidOut_placeholdersBelow hf hplanted.shows hplanted.top, fun x hx => ?_,
    fun x hx _ => ?_, fun x _ _ hne => absurd rfl hne⟩
  · obtain ⟨e, -, hlookup⟩ := hhome x hx
    obtain ⟨l₁, l₂, hl, -⟩ := List.lookup_eq_some_iff.mp hlookup
    rw [← Arena.map_fst_placeholdersBelow hf hplanted.shows, hl]
    simp
  · obtain ⟨e, he, hlookup⟩ := hhome x hx
    refine ⟨e, he, by rw [hlookup]; rfl, ?_⟩
    rw [Instance.region?, h.regions_eq, List.lookup_nil]

namespace Standing

theorem sameTree (h : Standing t home tree outputs spots i) (hsame : SameTree i j) :
    Standing t home tree outputs spots j := by
  have hregion : ∀ p, j.region? p = i.region? p := fun p => by
    rw [Instance.region?, hsame.regions_eq, ← Instance.region?]
  refine ⟨hsame.arena_eq ▸ h.sound, ?_, ?_, h.marked, fun x hx hnone => ?_, fun x hx ht hne => ?_⟩
  · rw [hsame.arena_eq, hsame.root_eq]
    exact h.tops
  · rw [hsame.arena_eq, hsame.root_eq]
    exact h.laid
  · rw [hregion]
    exact h.untouched x hx hnone
  · rw [hregion, hsame.arena_eq]
    exact h.tracked x hx ht hne

/-- `spots x.position` can give way to a response, if `x` is tracked or has no output. -/
theorem held (h : Standing t home tree outputs spots i) (hx : x ∈ t.placeholders)
    (hjob : x.Describes home job) {id : NodeId} (hid : home x.position = .element id)
    (hfree : x.isTracked = false → outputs x.position = none) :
    ∃ parent r, i.Held job id parent r (spots x.position) := by
  by_cases hnone : outputs x.position = none
  · obtain ⟨id', hid', hspots, hregion⟩ := h.untouched x hx hnone
    obtain rfl : id' = id := Destination.element.inj (hid'.symm.trans hid)
    obtain ⟨parent, pre, post, -, hchildren⟩ := h.laid.place h.sound.forest (h.marked x hx)
    refine ⟨parent, id', by rw [hspots]; rfl, fun d hd => ?_,
      Or.inl ⟨hspots, fun _ => hjob.position ▸ hregion⟩⟩
    refine h.sound.forest.parent_of_mem ?_
    rw [hchildren, List.append_assoc]
    exact List.mem_append_right _ (List.mem_append_left _ hd)
  · have htracked : x.isTracked = true := by
      by_contra hfalse
      exact hnone (hfree (Bool.eq_false_iff.mpr hfalse))
    obtain ⟨hne, parent, hregion, hparents⟩ := h.tracked x hx htracked hnone
    refine ⟨parent, (spots x.position).getLast hne, List.getLast?_eq_getLast_of_ne_nil hne,
      hparents, Or.inr ⟨hjob.tracked.trans htracked, hjob.position ▸ hregion⟩⟩

end Standing

/-! ### A response -/

section Answered

variable {body : String} {id parent r : NodeId} {news : List NodeId}

/-- A tracked output is never `[]`, as a comment keeps its place. -/
theorem outputTrees_ne_nil (body : String) : outputTrees true body ≠ [] := by
  rw [outputTrees]
  by_cases hnil : contentTrees body = []
  · simp [hnil]
  · simp [hnil]

namespace Standing

theorem isLive_root (h : Standing t home tree outputs spots i) : i.arena.isLive i.root := by
  obtain ⟨node, hget, -⟩ := h.laid.row
  exact Arena.isLive_iff.mpr ⟨node, hget⟩

/-- The root is not under any node `d` that gives way. -/
theorem not_under_root (h : Standing t home tree outputs spots i) {olds : List NodeId}
    (hheld : i.Held job id parent r olds) : ∀ d ∈ olds, ¬ i.arena.Under d i.root := by
  intro d hd hunder
  obtain rfl := (Arena.under_iff_of_top h.laid.top).mp hunder
  have hparent := hheld.parent_eq _ hd
  rw [h.laid.top] at hparent
  exact absurd hparent (by simp)

/-- From the root the arena is laid out as before, but for the spot and the output of `x`. -/
theorem laidOut_answered (h : Standing t home tree outputs spots i) (hx : x ∈ t.placeholders)
    (hheld : i.Held job id parent r (spots x.position))
    (ha : i.Answered j job body parent r (spots x.position) news) :
    j.arena.LaidOut (Function.update spots x.position news)
      (Function.update outputs x.position (some (outputTrees job.tracked body))) j.root tree := by
  have hlive := h.isLive_root
  have htop : j.arena.parent? i.root = none := by
    rw [ha.exchanged.parent_eq _ hlive (h.not_under_root hheld), h.laid.top]
  have hnews : ∀ n ∈ news, n ∉ spots x.position := fun n hn hold =>
    Arena.not_live_of_dead (ha.exchanged.fresh n hn) (Arena.Up.live (hheld.parent_eq n hold))
  rw [ha.root_eq]
  exact h.laid.splice h.sound.forest (h.marked x hx) hheld.last hnews ha.exchanged.shows htop
    fun n hn hnot => ha.exchanged.content n (hn.live hlive) hnot

/-- A node in the spot of another placeholder keeps its parent,
`j.arena.parent? d = i.arena.parent? d`. -/
theorem parent?_answered (h : Standing t home tree outputs spots i) (hx : x ∈ t.placeholders)
    (ha : i.Answered j job body parent r (spots x.position) news) {y : Placeholder}
    (hy : y ∈ t.placeholders) (hne : y.position ≠ x.position) {d : NodeId}
    (hd : d ∈ spots y.position) (hlive : i.arena.isLive d) :
    j.arena.parent? d = i.arena.parent? d :=
  ha.exchanged.parent_eq d hlive fun e he =>
    h.laid.apart h.sound.forest (Ne.symm hne) (h.marked x hx) (h.marked y hy) e he d hd

/-- With `news` in the spot of `x` and the trees of `body` as its output, everything else stands as
it stood. -/
theorem answered (h : Standing t home tree outputs spots i) (ht : t.Housed home)
    (hx : x ∈ t.placeholders) (hjob : x.Describes home job)
    (hheld : i.Held job id parent r (spots x.position))
    (ha : i.Answered j job body parent r (spots x.position) news) :
    Standing t home tree
      (Function.update outputs x.position (some (outputTrees job.tracked body)))
      (Function.update spots x.position news) j := by
  have hregion : ∀ y ∈ t.placeholders, y.position ≠ x.position →
      j.region? y.position = i.region? y.position := fun y _ hne => by
    rw [ha.region, if_neg fun hc => hne (hc.2.trans hjob.position)]
  have htops : ∀ n, j.arena.IsTop n → n = j.root := fun n hn => by
    rw [h.tops n (ha.exchanged.tops n hn), ha.root_eq]
  refine ⟨ha.exchanged.sound, htops, h.laidOut_answered hx hheld ha, h.marked, fun y hy hnone => ?_,
    fun y hy htracked hne => ?_⟩
  · -- something has come for the placeholder itself
    have hp : y.position ≠ x.position := ne_of_update_eq_none hnone
    rw [Function.update_of_ne hp] at hnone ⊢
    rw [hregion y hy hp]
    exact h.untouched y hy hnone
  · by_cases hp : y.position = x.position
    · obtain rfl := ht.eq_of_position hy hx hp
      have hjobtracked := hjob.tracked.trans htracked
      rw [Function.update_self]
      refine ⟨?_, parent, ?_, ha.exchanged.news_parent⟩
      · rintro rfl
        have hlength := ha.exchanged.shows.length_eq
        rw [hjobtracked] at hlength
        exact outputTrees_ne_nil body (List.length_eq_zero_iff.mp hlength.symm)
      · rw [ha.region, if_pos ⟨hjobtracked, hjob.position.symm⟩]
    · rw [Function.update_of_ne hp] at hne ⊢
      rw [hregion y hy hp]
      obtain ⟨hnonempty, parent', hregion', hparents⟩ := h.tracked y hy htracked hne
      refine ⟨hnonempty, parent', hregion', fun d hd => ?_⟩
      rw [h.parent?_answered hx ha hy hp hd (Arena.Up.live (hparents d hd))]
      exact hparents d hd

end Standing

end Answered

end Inlay.Scene
