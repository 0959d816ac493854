import Inlay.Proofs.Arena.Reachable
import Inlay.Proofs.Markup.Lex

/-!
# Printing and parsing

A canonical tree comes back from its markup:

* `treeOf_tokenize_html`: the markup of a canonical fragment stands for the fragment;
* `tree?_parse_html`: parsing what printing a node gives, in any arena, makes a node with the same
  tree.
-/

namespace Inlay

namespace Markup.Draft

/-- Puts finished trees into the current level. -/
def addAll (d : Draft) (ts : List Tree) : Draft :=
  { d with current := { d.current with trees := d.current.trees ++ ts } }

variable {d : Draft}

theorem addAll_cons (d : Draft) (t : Tree) (ts : List Tree) :
    d.addAll (t :: ts) = (d.add t).addAll ts := by
  rw [addAll, addAll, add, Level.add, List.append_assoc, List.singleton_append]

theorem takeAll_append (d : Draft) (ss ts : List Token) :
    d.takeAll (ss ++ ts) = (d.takeAll ss).takeAll ts :=
  List.foldl_append

theorem flush_eq_self (h : d.text = "") : d.flush = d := by
  rw [flush, h]
  rfl

/-- The characters of `s` are collected one by one into `d.text ++ s`. -/
theorem takeAll_text (d : Draft) (s : String) :
    d.takeAll (s.toList.map fun c => .text c.toString) = { d with text := d.text ++ s } := by
  suffices h : ∀ (cs : List Char) (d : Draft), d.takeAll (cs.map fun c => .text c.toString)
      = { d with text := d.text ++ String.ofList cs } by
    rw [h, String.ofList_toList]
  intro cs
  induction cs with
  | nil =>
    intro d
    rw [String.ofList_nil, String.append_empty]
    rfl
  | cons c cs ih =>
    intro d
    rw [List.map_cons, takeAll, List.foldl_cons, ← takeAll, ih, take, String.append_assoc]
    simp

/-- An end tag of the name of the current element closes that element only: `d.flush.close`. -/
theorem take_endTag {e : Element} (hcurrent : d.flush.current.kind = .element e) :
    d.take (.endTag e.tag) = d.flush.close := by
  have hclosing : closing e.tag (d.flush.current :: d.flush.outer) = 1 := by
    have htag : d.flush.current.kind.hasTag e.tag = true := by
      rw [hcurrent]
      exact beq_self_eq_true _
    rw [closing, List.findIdx?_cons, if_pos htag]
  rw [take, hclosing]
  rfl

/-! ### From tokens to the tree -/

/-- An element with canonical names is in lower case already: `Element.of e.tag e.attrs = e`. -/
theorem element_of_canonical {e : Element} (htag : CanonicalTag e.tag)
    (hnames : ∀ x ∈ e.attrs, CanonicalName x.1) : Element.of e.tag e.attrs = e := by
  have hlower : ∀ {s : String}, (∀ c ∈ s.toList, NameChar c) → s.toLower = s := fun hs =>
    Text.toLower_eq_self fun c hc => toLower_of_nameChar (hs c hc)
  have hattrs : e.attrs.map (fun a => (a.1.toLower, a.2)) = e.attrs := by
    refine (List.map_congr_left fun a ha => ?_).trans (List.map_id' _)
    rw [hlower (hnames a ha).chars]
  rw [Element.of, hlower htag.chars, hattrs]

theorem exists_of_isText {t : Tree} (h : t.isText = true) : ∃ s cs, t = .node (.text s) cs := by
  obtain ⟨kind, cs⟩ := t
  cases kind with
  | text s => exact ⟨s, cs, rfl⟩
  | _ => exact absurd h (by simp [Tree.isText])

mutual

/-- The tokens of a canonical tree other than a text add the tree: `d.flush.add t`. -/
theorem takeAll_tokens : ∀ {t : Tree} (d : Draft), t.Canonical → t.Natural → t.isText = false →
    d.takeAll t.tokens = d.flush.add t
  | .node (.element e) cs, d, hc, hn, _ => by
    obtain ⟨helement, hvoid, hcs⟩ := hc
    have hof := element_of_canonical helement.tag helement.names
    rw [Tree.tokens]
    -- A void element has no end tag and, being canonical, no children either.
    by_cases hv : isVoid e.tag = true
    · rw [if_pos hv, hvoid hv]
      show d.take (.startTag e.tag e.attrs false) = _
      rw [take, hof, hv, Bool.or_true, if_pos rfl]
    · have hstart : d.take (.startTag e.tag e.attrs false) = d.flush.enter (.element e) := by
        rw [take, hof, Bool.false_or, if_neg hv]
      have htext : (d.flush.enter (.element e)).text = "" := text_flush d
      have hinner := takeAll_tokensAll (d.flush.enter (.element e)) hcs hn.2
        fun hne => absurd htext hne
      rw [flush_eq_self htext] at hinner
      rw [if_neg hv, takeAll, List.foldl_cons, ← takeAll, takeAll_append, hstart]
      -- The children leave the element innermost, so its end tag closes the element itself.
      show take _ (.endTag e.tag) = _
      rw [take_endTag (e := e) (by rw [hinner]; rfl), hinner]
      rfl
  | .node (.comment s) cs, d, _, hn, _ => by
    have hcs : cs = [] := by
      by_contra hne
      exact absurd (hn.1 hne) (by simp [NodeKind.isContainer])
    rw [hcs]
    rfl
  | .node (.text _) _, _, _, _, hnot => absurd hnot (by simp [Tree.isText])
  | .node .fragment _, _, h, _, _ => h.elim

/-- The tokens of canonical trees side by side add the trees: `d.flush.addAll ts`. -/
theorem takeAll_tokensAll : ∀ {ts : List Tree} (d : Draft), Tree.CanonicalAll ts →
    Tree.NaturalAll ts → (d.text ≠ "" → ∀ u ∈ ts.head?, u.isText = false) →
    (d.takeAll (Tree.tokensAll ts)).flush = d.flush.addAll ts
  | [], d, _, _, _ => by
    rw [addAll, List.append_nil]
    rfl
  | t :: ts, d, hc, hn, hapart => by
    obtain ⟨ht, hnext, hts⟩ := hc
    rw [Tree.tokensAll, takeAll_append]
    cases htext : t.isText with
    | true =>
      -- the text stays with the draft until the next token that is no text
      obtain ⟨s, cs, rfl⟩ := exists_of_isText htext
      have hempty : d.text = "" := by
        by_contra hne
        exact absurd (hapart hne _ rfl) (by rw [htext]; simp)
      have hcs : cs = [] := by
        by_contra hne
        exact absurd (hn.1.1 hne) (by simp [NodeKind.isContainer])
      have hadd : ({ d with text := d.text ++ s } : Draft).flush = d.add (.node (.text s) []) := by
        obtain ⟨current, outer, text⟩ := d
        obtain rfl : text = "" := hempty
        rw [flush, String.empty_append, if_neg (by simpa using ht.1)]
        rfl
      rw [Tree.tokens, takeAll_text, takeAll_tokensAll _ hts hn.2 fun _ => hnext htext, hadd,
        flush_eq_self hempty, hcs, addAll_cons]
    | false =>
      have hflush : (d.flush.add t).text = "" := text_flush d
      rw [takeAll_tokens d ht hn.1 htext, takeAll_tokensAll _ hts hn.2 fun hne => absurd hflush hne,
        flush_eq_self hflush, addAll_cons]

end

end Markup.Draft

open Markup

/-- The markup of a canonical fragment stands for the fragment, `.node .fragment ts`. -/
theorem treeOf_tokenize_html {ts : List Tree} (hc : Tree.CanonicalAll ts)
    (hn : Tree.NaturalAll ts) :
    treeOf (tokenize (Tree.node .fragment ts).html) = .node .fragment ts := by
  have htake := Draft.takeAll_tokensAll Draft.start hc hn fun hne => absurd rfl hne
  rw [Tree.html, Tree.tokenize_htmlAll hc, treeOf, htake]
  rfl

/-- **A canonical fragment comes back from its markup.** -/
theorem tree?_parse_html {a b : Arena} (ha : a.Reachable) (hb : b.Reachable) {fragment : NodeId}
    {ts : List Tree} (ht : a.tree? fragment = some (.node .fragment ts)) (hc : Tree.CanonicalAll ts)
    (hfit : (stateAfter (parse (a.html fragment)) b).Fits) :
    ∃ copy b', (parse (a.html fragment)).run b = .ok copy b' ∧
      b'.tree? copy = some (.node .fragment ts) := by
  have hnatural := (Arena.shows_of_treeWithin ht).natural ha.sound.forest
  have hhtml : a.html fragment = (Tree.node .fragment ts).html := by
    rw [Arena.html, ht]
  obtain ⟨copy, b', hrun, hplanted⟩ := parse_spec hb.sound _ hfit
  refine ⟨copy, b', hrun, ?_⟩
  have hshows := hplanted.shows
  rw [hhtml, treeOf_tokenize_html hc hnatural.2] at hshows
  exact hshows.tree? hplanted.sound.forest

/-- An element with an attribute, a comment and a text, each with a character that needs care. -/
theorem tree?_parse_html_of_escapes :
    ∃ copy b', (parse (([.newFragment, .newElement "a" [("=", "<")], .newComment "-",
        .newText "\"&", .appendChild ⟨0, 0⟩ ⟨1, 0⟩, .appendChild ⟨1, 0⟩ ⟨2, 0⟩,
        .appendChild ⟨1, 0⟩ ⟨3, 0⟩].foldl Arena.Op.after .empty).html ⟨0, 0⟩)).run .empty
        = .ok copy b' ∧
      b'.tree? copy = some (.node .fragment [.node (.element ⟨"a", [("=", "<")]⟩)
        [.node (.comment "-") [], .node (.text "\"&") []]]) :=
  tree?_parse_html (Arena.Reachable.empty.foldl _ (by decide +kernel)) .empty
    (by with_unfolding_all rfl) (by decide +kernel) (by decide +kernel)

end Inlay
