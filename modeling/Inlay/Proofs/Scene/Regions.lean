import Inlay.Proofs.Scene.Display

/-!
# Regions and responses

`places_of_run`: what an instance says about its placeholders, by the nodes of a region or of a
response, is true of its tree after every run.
-/

namespace Inlay

/-- The nodes in the place of a placeholder, `e` being its element and `parent` the parent of that,
and what an instance says about them, depending on whether a response has succeeded. -/
structure Instance.Places (i : Instance) (x : Placeholder) (succeeded : Prop) (e parent : NodeId)
    (nodes : List NodeId) : Prop where
  children : ∃ pre post, i.arena.children parent = pre ++ nodes ++ post
  live : ∀ n ∈ nodes, i.arena.isLive n ∧ i.arena.parent? n = some parent
  /-- The element itself is still there. -/
  untouched : ¬ succeeded →
    nodes = [e] ∧ i.region? x.position = none ∧ i.response? x.position = none
  tracked : succeeded → x.isTracked = true →
    nodes ≠ [] ∧ i.region? x.position = some ⟨some parent, nodes⟩ ∧
      (i.response? x.position = some nodes ∨ i.response? x.position = some [] ∧
        ∃ c, nodes = [c] ∧ i.arena.kind? c = some (.comment ""))
  once : succeeded → x.isTracked = false →
    i.region? x.position = none ∧ i.response? x.position = some nodes

namespace Scene

open Arena (Outputs Spots)

variable {σ : Type} {t : Template} {home : Position → Destination} {copy i : Instance} {tree : Tree}
  {outputs : Outputs} {spots : Spots} {s : Scene σ} {observe : Observer σ}
  {responses : List (Position × Response)} {x y : Placeholder}

/-- Nodes that show a single comment are one comment, `[c]`. -/
theorem kind?_of_shows_comment {a : Arena} {nodes : List NodeId}
    (h : a.ShowsAll nodes [.node (.comment "") []]) :
    ∃ c, nodes = [c] ∧ a.kind? c = some (.comment "") := by
  obtain ⟨c, rest, rfl, hc, hrest⟩ := Arena.showsAll_cons_iff.mp h
  obtain ⟨node, hget, hkind, -⟩ := Arena.shows_node.mp hc
  refine ⟨c, ?_, by rw [Arena.kind?_of_get? hget, hkind]⟩
  rw [Arena.showsAll_nil_iff.mp hrest]

/-- `spots x.position` are where the element of `x` was, below the same parent. -/
theorem Spans.places (h : Spans t copy outputs spots i)
    (hstanding : Standing t home tree outputs spots i) (hx : x ∈ t.placeholders) :
    ∃ e parent, copy.elements.lookup x.position = some e ∧ copy.arena.parent? e = some parent ∧
      i.Places x (outputs x.position ≠ none) e parent (spots x.position) := by
  have hf := hstanding.sound.forest
  obtain ⟨parent, hseat, -, ⟨pre, post, hchildren⟩, -⟩ := h.seated x hx
  obtain ⟨e, hlookup, hparent⟩ := Option.bind_eq_some_iff.mp hseat
  -- The spots are children of the seat, which is where the element of the copy was.
  have hup : ∀ n ∈ spots x.position, i.arena.parent? n = some parent := by
    intro n hn
    refine hf.parent_of_mem ?_
    rw [hchildren]
    exact List.mem_append_left post (List.mem_append_right pre hn)
  refine ⟨e, parent, hlookup, hparent, ?_⟩
  constructor
  case children => exact ⟨pre, post, hchildren⟩
  case live => exact fun n hn => ⟨Arena.Up.live (hup n hn), hup n hn⟩
  case untouched =>
    intro hnone
    rw [not_not] at hnone
    obtain ⟨hresponse, e', hlookup', hspots⟩ := h.unanswered x hx hnone
    obtain ⟨-, -, -, hregion⟩ := hstanding.untouched x hx hnone
    obtain rfl : e' = e := Option.some.inj (hlookup'.symm.trans hlookup)
    exact ⟨hspots, hregion, hresponse⟩
  case tracked =>
    intro hsome htracked
    obtain ⟨hne, parent', hregion, hparents⟩ := hstanding.tracked x hx htracked hsome
    obtain ⟨n, hn⟩ := List.exists_mem_of_ne_nil _ hne
    obtain rfl : parent' = parent := Arena.Up.unique (hparents n hn) (hup n hn)
    refine ⟨hne, hregion, ?_⟩
    obtain ⟨trees, htrees⟩ := Option.ne_none_iff_exists'.mp hsome
    -- An output without nodes is held by a comment, and the region stays empty.
    rcases h.answered x hx trees htrees with hsame | ⟨-, hempty, rfl⟩
    · exact Or.inl hsame
    · have hshows := hstanding.laid.output (hstanding.marked x hx) htrees
      exact Or.inr ⟨hempty, kind?_of_shows_comment hshows⟩
  case once =>
    intro hsome htracked
    refine ⟨h.untracked x hx htracked, ?_⟩
    obtain ⟨trees, htrees⟩ := Option.ne_none_iff_exists'.mp hsome
    rcases h.answered x hx trees htrees with hsame | ⟨htracked', -⟩
    · exact hsame
    · rw [htracked] at htracked'
      exact absurd htracked' (by simp)

/-- **What an instance says about its placeholders is true of its tree.** Between steps the nodes in
the place of each placeholder stand side by side where its element was when the instance was new.
They are what its region holds, if it is tracked, and what the response was said to be, apart from
the comment that keeps the place of an empty one; before the first success they are the element
itself. Different placeholders share no node, and a request that does not succeed changes none of
this. -/
theorem places_of_run {source : String} {ds ds' : List Diagnostic}
    (hcompile : (Template.compile source).run ds = .ok t ds') (hsingle : t.single = false)
    (htemplate : t.arena.Fits) (hobserve : Lawful observe) (hrun : Run observe t responses s)
    (hfit : s.inst.arena.Fits) :
    ∃ (copy : Instance) (nodes : Position → List NodeId),
      Instance.ofTemplate t s.inst.id = .ok copy ∧
      (∀ x ∈ t.placeholders, ∃ e parent,
        copy.elements.lookup x.position = some e ∧ copy.arena.parent? e = some parent ∧
          s.inst.Places x (∃ r, Template.latest? responses x.position = some r) e parent
            (nodes x.position)) ∧
      (∀ x ∈ t.placeholders, ∀ y ∈ t.placeholders, x ≠ y →
        ∀ m ∈ nodes x.position, ∀ n ∈ nodes y.position, n ∉ m :: s.inst.arena.descendants m) ∧
      ∀ id task, (id, task) ∈ s.requests →
        (∀ r, s.answer? task = some r → isSuccess r.status = false) →
          SameContents s.inst (s.turn observe id task).inst := by
  have hcompiled := Template.compiled_compile hcompile
  obtain ⟨home, ht, hflow, -, h⟩ :=
    (invariant_displays hcompiled hsingle htemplate hobserve).of_run hcompiled hobserve hrun
  obtain ⟨copy, tree, hmade, -, ⟨spots, hstanding, hspans⟩, -⟩ := h hfit
  have hf := hstanding.sound.forest
  have hsucceeded : ∀ p, (t.outputs responses p ≠ none) =
      ∃ r, Template.latest? responses p = some r := by
    intro p
    rw [Template.outputs, ne_eq, Option.map_eq_none_iff, ← ne_eq, Option.ne_none_iff_exists']
  refine ⟨copy, spots, hmade, fun x hx => ?_, fun x hx y hy hne m hm n hn => ?_,
    fun id task hmem hfailed => sameContents_turn (hobserve.tame ht) hflow hmem hfailed⟩
  · have hplaces := hspans.places hstanding hx
    rwa [hsucceeded] at hplaces
  · have hp : x.position ≠ y.position := fun he => hne (ht.eq_of_position hx hy he)
    rw [hf.mem_cons_descendants]
    exact hstanding.laid.apart hf hp (hstanding.marked x hx) (hstanding.marked y hy) m hm n hn

/-- The second response to a tracked placeholder is empty, and a comment keeps its place. -/
theorem places_once_refreshed : ∃ (t : Template) (ds : List Diagnostic) (s : Scene Unit),
    (Template.compile "<i><b></b><request src=a after=click:b></request></i>").run [] = .ok t ds ∧
    Run (fun _ _ s => s) t [(1, ⟨200, "x<script></script>"⟩), (1, ⟨200, ""⟩)] s ∧
    s.inst.arena.html s.inst.root = "<i><b></b><!----></i>" ∧
    ∃ (copy : Instance) (nodes : Position → List NodeId),
      Instance.ofTemplate t s.inst.id = .ok copy ∧
      ∀ x ∈ t.placeholders, ∃ e parent, copy.elements.lookup x.position = some e ∧
        copy.arena.parent? e = some parent ∧ s.inst.Places x
          (∃ r, Template.latest? [(1, ⟨200, "x<script></script>"⟩), (1, ⟨200, ""⟩)] x.position =
            some r)
          e parent (nodes x.position) := by
  obtain ⟨t, ds, s, hcompile, hrun, hsingle, htemplate, hfit, hhtml⟩ := exists_run_refreshed
  have hrecording : Recording fun _ _ (s : Scene Unit) => s := fun _ _ s => ⟨s.memory, rfl⟩
  obtain ⟨copy, nodes, hmade, hplaces, -, -⟩ :=
    places_of_run hcompile hsingle htemplate hrecording.lawful hrun hfit
  exact ⟨t, ds, s, hcompile, hrun, hhtml, copy, nodes, hmade, hplaces⟩

end Scene

end Inlay
