import Inlay.Proofs.Arena.Reachable
import Inlay.Proofs.Markup.Reread

/-!
# Printing again

A text is parsed, cleaned and printed, and what was printed goes through a parser once more.

* `reprint_reprint`: printing then gives the same text with its line ends unified. It is the same
  text exactly when no carriage return was printed, and one can be, because it is not among the
  characters that printing escapes.
* `hasTag_reparsed`: elements that were removed do not come back.
-/

namespace Inlay

namespace Tree

variable {tag : String}

mutual

/-- There is no element of that tag name, neither at the top nor below. -/
def Lacks (tag : String) : Tree → Prop
  | node kind cs => kind.hasTag tag = false ∧ LacksAll tag cs

def LacksAll (tag : String) : List Tree → Prop
  | [] => True
  | t :: ts => t.Lacks tag ∧ LacksAll tag ts

end

theorem lacksAll_append {ts us : List Tree} (hts : LacksAll tag ts) (hus : LacksAll tag us) :
    LacksAll tag (ts ++ us) := by
  induction ts with
  | nil => exact hus
  | cons t ts ih => exact ⟨hts.1, ih hts.2⟩

mutual

/-- Without the elements of `tag` a tree lacks them, if its root is none. -/
theorem lacks_without : ∀ {t : Tree}, t.kind.hasTag tag = false → (t.without tag).Lacks tag
  | node _ cs, h => ⟨h, lacksAll_withoutAll cs⟩

theorem lacksAll_withoutAll : ∀ ts : List Tree, LacksAll tag (withoutAll tag ts)
  | [] => trivial
  | t :: ts => by
    rw [withoutAll]
    split
    · exact lacksAll_withoutAll ts
    · exact ⟨lacks_without (Bool.eq_false_iff.mpr ‹_›), lacksAll_withoutAll ts⟩

end

theorem lacksAll_textRow (s : String) : LacksAll tag (textRow s) := by
  unfold textRow
  split
  · trivial
  · exact ⟨⟨rfl, trivial⟩, trivial⟩

mutual

/-- Reading back joins texts and unifies line ends, so it makes no element of `tag`. -/
theorem Lacks.reread : ∀ {t : Tree}, t.Lacks tag → t.reread.Lacks tag
  | node (.element _) _, h => ⟨h.1, h.2.rereadAll ""⟩
  | node (.text _) _, h => h
  | node (.comment _) _, h => h
  | node .fragment _, h => h

theorem LacksAll.rereadAll : ∀ {ts : List Tree} (text : String), LacksAll tag ts →
    LacksAll tag (Tree.rereadAll text ts)
  | [], text, _ => lacksAll_textRow text
  | t :: ts, text, h => by
    cases htext : t.isText with
    | true =>
      obtain ⟨s, cs, rfl⟩ := Markup.Draft.exists_of_isText htext
      rw [rereadAll_text]
      exact h.2.rereadAll _
    | false =>
      rw [rereadAll_cons htext]
      exact lacksAll_append (lacksAll_textRow text) ⟨h.1.reread, h.2.rereadAll ""⟩

end

end Tree

namespace Arena

variable {a : Arena} {tag : String}

mutual

/-- What a tree lacks the nodes that show it lack: `a.hasTag n tag = false` at and below the
node. -/
theorem Shows.hasTag (hf : a.Forest) : ∀ {t : Tree} {id : NodeId}, a.Shows id t → t.Lacks tag →
    ∀ n, a.Under id n → a.hasTag n tag = false
  | .node kind cs, id, h, ⟨hkind, hcs⟩, n, hn => by
    obtain ⟨node, hget, rfl, hrow⟩ := shows_node.mp h
    rcases under_iff_eq_or_below.mp hn with rfl | hbelow
    · exact (hasTag_of_get? hget tag).trans hkind
    · obtain ⟨c, hc, hcn⟩ := (below_iff hf).mp hbelow
      rw [children_of_get? hget] at hc
      exact hrow.hasTag hf hcs c hc n hcn

theorem ShowsAll.hasTag (hf : a.Forest) : ∀ {ts : List Tree} {ids : List NodeId},
    a.ShowsAll ids ts → Tree.LacksAll tag ts →
    ∀ id ∈ ids, ∀ n, a.Under id n → a.hasTag n tag = false
  | [], ids, h, _, id, hid, _, _ => by
    rw [showsAll_nil_iff.mp h] at hid
    exact absurd hid List.not_mem_nil
  | t :: ts, ids, h, ⟨ht, hts⟩, id, hid, n, hn => by
    obtain ⟨first, rest, rfl, hfirst, hrest⟩ := showsAll_cons_iff.mp h
    rcases List.mem_cons.mp hid with rfl | hid
    · exact hfirst.hasTag hf ht n hn
    · exact hrest.hasTag hf hts id hid n hn

end

/-- The markup of a node is that of the tree that it shows: `a.html id = t.html`. -/
theorem html_of_shows (hf : a.Forest) {id : NodeId} {t : Tree} (h : a.Shows id t) :
    a.html id = t.html := by
  rw [html, h.tree? hf]

end Arena

namespace Markup

open Arena (Reachable Shows)

/-- Frees the elements of each of these tag names in turn. -/
def removeByTags (root : NodeId) : List String → TreeM Unit
  | [] => pure ()
  | tag :: tags => do
    let _ ← removeByTag root tag
    removeByTags root tags

/-- Parses a text, removes elements and, if asked to, blank texts, and prints what is left. -/
def reprint (tags : List String) (strip : Bool) (markup : String) : TreeM String := do
  let fragment ← parse markup
  removeByTags fragment tags
  if strip then stripBlankTexts fragment
  return (← get).html fragment

variable {a b c : Arena}

/-- Removing the elements of `tags` never fails, and leaves scanned trees. -/
theorem removeByTags_spec (fragment : NodeId) : ∀ (tags : List String) {a : Arena} {ts : List Tree},
    a.Sound → Tree.ScannedAll ts → a.Shows fragment (.node .fragment ts) →
    ∃ b us, (removeByTags fragment tags).run a = .ok () b ∧ b.Sound ∧ Tree.ScannedAll us ∧
      b.Shows fragment (.node .fragment us)
  | [], a, ts, h, hts, hs => ⟨a, ts, rfl, h, hts, hs⟩
  | tag :: tags, a, ts, h, hts, hs => by
    obtain ⟨count, b, ids, hrun, hpruned, -, hshows⟩ := Arena.removeByTag_spec h fragment tag
    -- what is left is scanned still, though texts may have come side by side
    obtain ⟨c, us, hrun', hrest⟩ :=
      removeByTags_spec fragment tags hpruned.sound hts.withoutAll (hshows _ hs)
    refine ⟨c, us, ?_, hrest⟩
    rw [removeByTags, run_bind_of_ok hrun, hrun']

/-- What parsing gives shows scanned trees `ts` under a fragment. -/
theorem parse_scanned (h : a.Sound) (markup : String) (hfit : (stateAfter (parse markup) a).Fits) :
    ∃ fragment b ts, (parse markup).run a = .ok fragment b ∧ b.Sound ∧ Tree.ScannedAll ts ∧
      b.Shows fragment (.node .fragment ts) := by
  obtain ⟨fragment, b, hrun, hplanted⟩ := parse_spec h markup hfit
  have hscanned := scannedAll_treeOf markup
  have hshows := hplanted.shows
  rw [treeOf_eq] at hshows
  generalize (treeOf (tokenize markup)).children = ts at hscanned hshows
  exact ⟨fragment, b, ts, hrun, hplanted.sound, hscanned, hshows⟩

/-- Parsing, cleaning and printing never fails, and prints `ts`, which are scanned. -/
theorem reprint_spec (h : a.Sound) (tags : List String) (strip : Bool) (markup : String)
    (hfit : (stateAfter (parse markup) a).Fits) :
    ∃ ts b, Tree.ScannedAll ts ∧ (reprint tags strip markup).run a = .ok (Tree.htmlAll ts) b := by
  obtain ⟨fragment, a₁, us, hparse, hsound₁, hus, hshows₁⟩ := parse_scanned h markup hfit
  obtain ⟨a₂, ts, hremove, hsound₂, hts, hshows₂⟩ :=
    removeByTags_spec fragment tags hsound₁ hus hshows₁
  unfold reprint
  rw [run_bind_of_ok hparse, run_bind_of_ok hremove]
  cases strip with
  | false =>
    refine ⟨ts, a₂, hts, ?_⟩
    show EStateM.Result.ok (a₂.html fragment) a₂ = _
    rw [Arena.html_of_shows hsound₂.forest hshows₂, Tree.html]
  | true =>
    obtain ⟨a₃, ids, hrun, hpruned, -, hshows₃⟩ := Arena.stripBlankTexts_spec hsound₂ hshows₂ rfl
    refine ⟨_, a₃, hts.strippedAll, ?_⟩
    rw [if_pos rfl, run_bind_of_ok hrun]
    show EStateM.Result.ok (a₃.html fragment) a₃ = _
    rw [Arena.html_of_shows hpruned.sound.forest hshows₃]
    rfl

/-- What was printed, `Tree.htmlAll ts`, parsed again: the copy shows `Tree.rereadAll "" ts`. -/
theorem parse_printed (h : c.Sound) {ts : List Tree} (hts : Tree.ScannedAll ts)
    (hfit : (stateAfter (parse (Tree.htmlAll ts)) c).Fits) :
    ∃ copy d, (parse (Tree.htmlAll ts)).run c = .ok copy d ∧ d.Forest ∧
      d.Shows copy (.node .fragment (Tree.rereadAll "" ts)) := by
  obtain ⟨copy, d, hparse, hplanted⟩ := parse_spec h (Tree.htmlAll ts) hfit
  have hshows := hplanted.shows
  rw [treeOf_tokenize_htmlAll hts] at hshows
  exact ⟨copy, d, hparse, hplanted.sound.forest, hshows⟩

/-- **Printing again what was printed gives the same text with its line ends unified.** So it gives
the same text exactly when there is no carriage return in it. -/
theorem reprint_reprint (ha : a.Reachable) (hc : c.Reachable) (tags : List String) (strip : Bool)
    (markup : String) (hfit : (stateAfter (parse markup) a).Fits) :
    ∃ printed b, (reprint tags strip markup).run a = .ok printed b ∧
      ((stateAfter (parse printed) c).Fits →
        ∃ again d, (reprint [] false printed).run c = .ok again d ∧ again = unified printed ∧
          (again = printed ↔ '\r' ∉ printed.toList)) := by
  obtain ⟨ts, b, hts, hprinted⟩ := reprint_spec ha.sound tags strip markup hfit
  refine ⟨_, b, hprinted, fun hfit' => ?_⟩
  obtain ⟨copy, d, hparse, hforest, hshows⟩ := parse_printed hc.sound hts hfit'
  have hhtml : d.html copy = unified (Tree.htmlAll ts) := by
    rw [Arena.html_of_shows hforest hshows, Tree.html, Tree.html_rereadAll hts]
  refine ⟨_, d, ?_, hhtml, ?_⟩
  · unfold reprint
    rw [run_bind_of_ok hparse]
    rfl
  · rw [hhtml]
    constructor
    · intro hsame
      rw [← hsame]
      exact Tree.return_not_mem_unified _
    · intro hreturn
      rw [unified, Tree.unifyLineEnds_eq_self hreturn, String.ofList_toList]

/-- A carriage return that came from a character reference is a line feed the second time. -/
example : (match (reprint [] false "a&#13;b").run .empty with
    | .ok printed _ => match (reprint [] false printed).run .empty with
      | .ok again _ => some (printed, again)
      | .error _ _ => none
    | .error _ _ => none) = some ("a\rb", "a\nb") := by
  decide +kernel

/-- **Removed elements do not come back.** Whatever is in the text, once the elements of a tag name
are removed and what is left is printed, parsing that gives no element of this tag name, at any
depth. -/
theorem hasTag_reparsed (ha : a.Reachable) (hc : c.Reachable) (tag body : String)
    (hfit : (stateAfter (parse body) a).Fits) :
    ∃ fragment a₁ count b, (parse body).run a = .ok fragment a₁ ∧
      (removeByTag fragment tag).run a₁ = .ok count b ∧
      ((stateAfter (parse (b.html fragment)) c).Fits →
        ∃ copy d, (parse (b.html fragment)).run c = .ok copy d ∧
          ∀ n ∈ d.descendants copy, d.hasTag n tag = false) := by
  obtain ⟨fragment, a₁, ts, hparse, hsound₁, hts, hshows₁⟩ := parse_scanned ha.sound body hfit
  obtain ⟨count, b, ids, hremove, hpruned, -, hshows₂⟩ :=
    Arena.removeByTag_spec hsound₁ fragment tag
  refine ⟨fragment, a₁, count, b, hparse, hremove, fun hfit' => ?_⟩
  have hhtml : b.html fragment = Tree.htmlAll (Tree.withoutAll tag ts) := by
    rw [Arena.html_of_shows hpruned.sound.forest (hshows₂ _ hshows₁), Tree.without, Tree.html]
  rw [hhtml] at hfit' ⊢
  obtain ⟨copy, d, hparse', hforest, hshows⟩ := parse_printed hc.sound hts.withoutAll hfit'
  -- joining the texts around what was removed makes no element
  have hlacks : Tree.LacksAll tag (Tree.rereadAll "" (Tree.withoutAll tag ts)) :=
    (Tree.lacksAll_withoutAll ts).rereadAll ""
  refine ⟨copy, d, hparse', fun n hn => ?_⟩
  exact hshows.hasTag hforest ⟨rfl, hlacks⟩ n (hforest.mem_descendants.mp hn).under

/-- The name is in a tag name, an attribute name, a value and a comment, and an element stands
between two texts that are one once it is gone. -/
theorem hasTag_reparsed_of_pieces :
    ∃ fragment a₁ count b,
      (parse "<a<script <script='<script>'>&lt;<script>x</script>script><!--<script>-->").run
        .empty = .ok fragment a₁ ∧
      (removeByTag fragment "script").run a₁ = .ok count b ∧
      ∃ copy d, (parse (b.html fragment)).run .empty = .ok copy d ∧
        ∀ n ∈ d.descendants copy, d.hasTag n "script" = false := by
  have hfit : (stateAfter
      (parse "<a<script <script='<script>'>&lt;<script>x</script>script><!--<script>-->")
      .empty).Fits := by
    decide +kernel
  have hfit' : (match (parse
      "<a<script <script='<script>'>&lt;<script>x</script>script><!--<script>-->").run .empty with
    | .ok fragment a₁ => match (removeByTag fragment "script").run a₁ with
      | .ok _ b => decide ((stateAfter (parse (b.html fragment)) .empty).Fits)
      | .error _ _ => false
    | .error _ _ => false) = true := by
    decide +kernel
  -- from here on the text does not matter
  generalize "<a<script <script='<script>'>&lt;<script>x</script>script><!--<script>-->" = body at *
  obtain ⟨fragment, a₁, count, b, hparse, hremove, h⟩ :=
    hasTag_reparsed .empty .empty "script" body hfit
  refine ⟨fragment, a₁, count, b, hparse, hremove, h ?_⟩
  rw [hparse] at hfit'
  dsimp only at hfit'
  rw [hremove] at hfit'
  exact of_decide_eq_true hfit'

end Markup

end Inlay
