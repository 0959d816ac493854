import Inlay.Proofs.Markup.Plain
import Inlay.Proofs.Markup.RoundTrip
import Inlay.Proofs.Markup.Scan

/-!
# Reading back what was printed

The trees of a parsed text are `Scanned`: canonical, except that texts may stand side by side or be
empty once something between them is gone, and that texts and values may hold carriage returns,
which come from character references. Printing leaves a carriage return as it is, and reading turns
it into a line feed. So what comes back is `rereadAll`: the trees with adjacent texts joined and
line ends unified (`treeOf_tokenize_htmlAll`). These trees are canonical, and printing them gives
the same text with its line ends unified (`html_rereadAll`).
-/

namespace Inlay

namespace Markup

/-- The text with every line end a line feed. -/
def unified (s : String) : String :=
  String.ofList (unifyLineEnds s.toList)

@[simp] theorem toList_unified (s : String) : (unified s).toList = unifyLineEnds s.toList :=
  String.toList_ofList

/-! ### Line ends of a text in two parts -/

theorem unifyLineEnds_cons {c : Char} (hc : c ≠ '\r') (cs : List Char) :
    unifyLineEnds (c :: cs) = c :: unifyLineEnds cs := by
  rw [unifyLineEnds, if_neg hc]
  rintro cs' rfl
  exact absurd rfl hc

theorem unifyLineEnds_append_of_not_mem {xs : List Char} (h : '\r' ∉ xs) (ys : List Char) :
    unifyLineEnds (xs ++ ys) = xs ++ unifyLineEnds ys := by
  induction xs with
  | nil => rfl
  | cons c xs ih =>
    rw [List.mem_cons, not_or] at h
    rw [List.cons_append, unifyLineEnds_cons (Ne.symm h.1), ih h.2, List.cons_append]

/-- A `'\r'` in front of anything but `'\n'` becomes `'\n'`. -/
theorem unifyLineEnds_return {cs : List Char} (h : cs.head? ≠ some '\n') :
    unifyLineEnds ('\r' :: cs) = '\n' :: unifyLineEnds cs := by
  rw [unifyLineEnds]
  · rfl
  · rintro cs' - rfl
    exact h rfl

/-- A line end does not go across a character that is no line feed, so `xs` and `ys` are unified
apart. -/
theorem unifyLineEnds_append {xs ys : List Char} (h : ys.head? ≠ some '\n') :
    unifyLineEnds (xs ++ ys) = unifyLineEnds xs ++ unifyLineEnds ys := by
  fun_induction unifyLineEnds xs with
  | case1 => rfl
  | case2 xs ih =>
    rw [List.cons_append, List.cons_append, unifyLineEnds, ih, List.cons_append]
  | case3 c xs hnot ih =>
    by_cases hc : c = '\r'
    · subst hc
      -- a line feed behind the carriage return would be in `xs`, which is another case
      have hhead : (xs ++ ys).head? ≠ some '\n' := by
        cases xs with
        | nil => exact h
        | cons d xs =>
          intro hd
          obtain ⟨xs', hxs⟩ := List.head?_eq_some_iff.mp hd
          obtain ⟨rfl, -⟩ := List.cons.inj hxs
          exact hnot xs rfl rfl
      rw [List.cons_append, unifyLineEnds_return hhead, ih, if_pos rfl, List.cons_append]
    · rw [List.cons_append, unifyLineEnds_cons hc, ih, if_neg hc, List.cons_append]

/-- Unifying line ends brings in no character but `'\n'`. -/
theorem mem_unifyLineEnds {d : Char} {cs : List Char} (h : d ∈ unifyLineEnds cs) :
    d = '\n' ∨ d ∈ cs := by
  fun_induction unifyLineEnds cs with
  | case1 => exact absurd h List.not_mem_nil
  | case2 cs ih =>
    rcases List.mem_cons.mp h with rfl | h
    · exact .inl rfl
    · exact (ih h).imp_right fun hd => List.mem_cons_of_mem _ (List.mem_cons_of_mem _ hd)
  | case3 c cs _ ih =>
    rcases List.mem_cons.mp h with rfl | h
    · split
      · exact .inl rfl
      · exact .inr List.mem_cons_self
    · exact (ih h).imp_right (List.mem_cons_of_mem _)

theorem eq_nil_of_unifyLineEnds {cs : List Char} (h : unifyLineEnds cs = []) : cs = [] := by
  fun_cases unifyLineEnds cs with
  | case1 => rfl
  | case2 cs => exact absurd h (by simp [unifyLineEnds])
  | case3 c cs hnot =>
    rw [unifyLineEnds] at h
    · exact absurd h (by simp)
    · exact hnot

theorem head?_escapeChars_ne {cs : List Char} (h : cs.head? ≠ some '\n') :
    (Text.escapeChars cs).head? ≠ some '\n' := by
  cases cs with
  | nil => exact h
  | cons c cs =>
    rw [Text.escapeChars_cons]
    unfold Text.escapeChar
    split <;> simp_all

/-- Escaping and `unifyLineEnds` can be done in either order, as no line end is escaped. -/
theorem unifyLineEnds_escapeChars (cs : List Char) :
    unifyLineEnds (Text.escapeChars cs) = Text.escapeChars (unifyLineEnds cs) := by
  fun_induction unifyLineEnds cs with
  | case1 => rfl
  | case2 cs ih =>
    show unifyLineEnds ('\r' :: '\n' :: Text.escapeChars cs) = '\n' :: Text.escapeChars _
    rw [unifyLineEnds, ih]
  | case3 c cs hnot ih =>
    by_cases hc : c = '\r'
    · subst hc
      have hhead : (Text.escapeChars cs).head? ≠ some '\n' := by
        refine head?_escapeChars_ne fun hd => ?_
        obtain ⟨cs', rfl⟩ := List.head?_eq_some_iff.mp hd
        exact hnot cs' rfl rfl
      show unifyLineEnds ('\r' :: Text.escapeChars cs) = _
      rw [unifyLineEnds_return hhead, ih]
      rfl
    · have hescaped : '\r' ∉ Text.escapeChar c := by
        have hone := Tree.return_not_mem_escapeChars (s := [c]) (by simpa using Ne.symm hc)
        simpa using hone
      rw [if_neg hc, Text.escapeChars_cons, Text.escapeChars_cons,
        unifyLineEnds_append_of_not_mem hescaped, ih]

end Markup

namespace Tree

open Markup

/-! ### Trees that parsing gives -/

mutual

/-- A tree below the top of a parsed text, or what is left of one when nodes in it were removed. -/
def Scanned : Tree → Prop
  | node (.element e) cs => ScannedElement e ∧ (isVoid e.tag = true → cs = []) ∧ ScannedAll cs
  | node (.text _) cs => cs = []
  | node (.comment s) cs => CanonicalComment s ∧ cs = []
  | node .fragment _ => False

def ScannedAll : List Tree → Prop
  | [] => True
  | t :: ts => t.Scanned ∧ ScannedAll ts

end

theorem scannedAll_iff {ts : List Tree} : ScannedAll ts ↔ ∀ t ∈ ts, t.Scanned := by
  induction ts with
  | nil => simp [ScannedAll]
  | cons t ts ih => simp [ScannedAll, ih]

/-! ### What they are read as -/

/-- The node that collected text makes, if there is any. -/
def textRow (s : String) : List Tree :=
  if s.isEmpty then [] else [node (.text (unified s)) []]

/-- An element with the line ends in its values unified. -/
def rereadElement (e : Element) : Element :=
  { e with attrs := e.attrs.map fun x => (x.1, unified x.2) }

mutual

/-- What the markup of a tree is read as. -/
def reread : Tree → Tree
  | node (.element e) cs => node (.element (rereadElement e)) (rereadAll "" cs)
  | node kind cs => node kind cs

/-- What the markup of trees side by side is read as, with text that stands in front of them. -/
def rereadAll (text : String) : List Tree → List Tree
  | [] => textRow text
  | t :: ts =>
    match t.kind with
    | .text s => rereadAll (text ++ s) ts
    | _ => textRow text ++ t.reread :: rereadAll "" ts

end

theorem rereadAll_text (text s : String) (cs ts : List Tree) :
    rereadAll text (node (.text s) cs :: ts) = rereadAll (text ++ s) ts := by
  rw [rereadAll]
  rfl

/-- A tree `t` that is no text ends the `text` before it, which is read as one row. -/
theorem rereadAll_cons {t : Tree} (h : t.isText = false) (text : String) (ts : List Tree) :
    rereadAll text (t :: ts) = textRow text ++ t.reread :: rereadAll "" ts := by
  obtain ⟨kind, cs⟩ := t
  cases kind with
  | text s => exact absurd h (by simp [isText])
  | _ =>
    rw [rereadAll]
    rfl

theorem isText_reread (t : Tree) : t.reread.isText = t.isText := by
  obtain ⟨kind, cs⟩ := t
  cases kind <;> rfl

/-! ### Their markup -/

theorem htmlAll_textRow (s : String) : htmlAll (textRow s) = Text.escape (unified s) := by
  unfold textRow
  split
  · rename_i hs
    rw [String.isEmpty_iff.mp hs]
    rfl
  · rw [htmlAll, htmlAll, html, String.append_empty]

theorem htmlAll_append (ts us : List Tree) : htmlAll (ts ++ us) = htmlAll ts ++ htmlAll us := by
  induction ts with
  | nil => exact String.empty_append.symm
  | cons t ts ih => rw [List.cons_append, htmlAll, htmlAll, ih, String.append_assoc]

/-- In a start tag only the values of `attrs` can have a carriage return, which is read as a line
feed there. -/
theorem unifyLineEnds_attrsHtml (rest : List Char) : ∀ {attrs : List (String × String)},
    (∀ x ∈ attrs, CanonicalName x.1) →
    unifyLineEnds ((attrsHtml attrs).toList ++ '>' :: rest)
      = (attrsHtml (attrs.map fun x => (x.1, unified x.2))).toList ++ unifyLineEnds ('>' :: rest)
  | [], _ => rfl
  | (name, value) :: attrs, h => by
    have hname := return_not_mem_of_nameChar (h (name, value) List.mem_cons_self).chars
    have hrest := unifyLineEnds_attrsHtml rest fun x hx => h x (List.mem_cons_of_mem _ hx)
    have hhtml : (attrsHtml ((name, value) :: attrs)).toList ++ '>' :: rest =
        (' ' :: name.toList ++ ['=', '"']) ++ (Text.escapeChars value.toList ++
          '"' :: ((attrsHtml attrs).toList ++ '>' :: rest)) := by
      simp [attrsHtml]
    have hreturn : '\r' ∉ ' ' :: name.toList ++ ['=', '"'] := by simpa using hname
    rw [hhtml, unifyLineEnds_append_of_not_mem hreturn, unifyLineEnds_append (by simp),
      unifyLineEnds_escapeChars, unifyLineEnds_cons (by decide), hrest]
    simp [attrsHtml]

/-- Unifying line ends in the start tag of `e` gives that of `rereadElement e`. -/
theorem unifyLineEnds_startTagHtml {e : Element} (h : ScannedElement e) (rest : List Char) :
    unifyLineEnds ((startTagHtml e).toList ++ rest)
      = (startTagHtml (rereadElement e)).toList ++ unifyLineEnds rest := by
  have htag := return_not_mem_of_nameChar h.tag.chars
  have hhtml : (startTagHtml e).toList ++ rest =
      ('<' :: e.tag.toList) ++ ((attrsHtml e.attrs).toList ++ '>' :: rest) := by
    simp [startTagHtml]
  have hreturn : '\r' ∉ '<' :: e.tag.toList := by simpa using htag
  rw [hhtml, unifyLineEnds_append_of_not_mem hreturn, unifyLineEnds_attrsHtml rest h.names,
    unifyLineEnds_cons (by decide)]
  simp [startTagHtml, rereadElement]

/-- The markup of anything but a text begins with `<`, so no line feed. -/
theorem head?_html {t : Tree} (h : t.Scanned) (htext : t.isText = false) (rest : List Char) :
    (t.html.toList ++ rest).head? ≠ some '\n' := by
  obtain ⟨kind, cs⟩ := t
  cases kind with
  | element e =>
    rw [html]
    split <;> simp [startTagHtml]
  | comment s => simp [html]
  | text s => exact absurd htext (by simp [isText])
  | fragment => exact h.elim

mutual

/-- Unifying line ends in the markup of a tree gives the markup of `t.reread`. -/
theorem unifyLineEnds_html : ∀ {t : Tree} (rest : List Char), t.Scanned → t.isText = false →
    unifyLineEnds (t.html.toList ++ rest) = t.reread.html.toList ++ unifyLineEnds rest
  | node (.element e) cs, rest, h, _ => by
    obtain ⟨helement, hvoid, hcs⟩ := h
    have htag : (rereadElement e).tag = e.tag := rfl
    rw [reread, html, html, htag]
    split
    · exact unifyLineEnds_startTagHtml helement rest
    · have hhtml : (startTagHtml e ++ htmlAll cs ++ "</" ++ e.tag ++ ">").toList ++ rest =
          (startTagHtml e).toList ++ (Text.escapeChars "".toList ++ ((htmlAll cs).toList ++
            (("</" ++ e.tag ++ ">").toList ++ rest))) := by
        simp
      have hend : '\r' ∉ ("</" ++ e.tag ++ ">").toList := by
        simpa using return_not_mem_of_nameChar helement.tag.chars
      -- no text stands in front of the children
      rw [hhtml, unifyLineEnds_startTagHtml helement, unifyLineEnds_htmlAll "" hcs (by simp),
        unifyLineEnds_append_of_not_mem hend]
      simp
  | node (.comment s) cs, rest, h, _ => by
    have hreturn : '\r' ∉ (html (node (.comment s) cs)).toList := by
      rw [html]
      simpa using h.1.noReturn
    exact unifyLineEnds_append_of_not_mem hreturn rest
  | node (.text _) _, _, _, htext => absurd htext (by simp [isText])
  | node .fragment _, _, h, _ => h.elim

/-- The markup of `rereadAll text ts` is that of `text` and `ts` with its line ends unified. -/
theorem unifyLineEnds_htmlAll : ∀ {ts : List Tree} (text : String) {rest : List Char},
    ScannedAll ts → rest.head? ≠ some '\n' →
    unifyLineEnds (Text.escapeChars text.toList ++ ((htmlAll ts).toList ++ rest))
      = (htmlAll (rereadAll text ts)).toList ++ unifyLineEnds rest
  | [], text, rest, _, hrest => by
    rw [htmlAll, rereadAll, htmlAll_textRow, String.toList_empty, List.nil_append,
      unifyLineEnds_append hrest, unifyLineEnds_escapeChars, Text.toList_escape, toList_unified]
  | t :: ts, text, rest, h, hrest => by
    obtain ⟨ht, hts⟩ := h
    rw [htmlAll, String.toList_append, List.append_assoc]
    -- a text is put off, since a line end may go on in the next one
    cases htext : t.isText with
    | true =>
      obtain ⟨s, cs, rfl⟩ := Draft.exists_of_isText htext
      rw [rereadAll_text, ← unifyLineEnds_htmlAll (text ++ s) hts hrest, html, Text.toList_escape,
        String.toList_append, Text.escapeChars_append, List.append_assoc]
    | false =>
      have hrest' := unifyLineEnds_htmlAll "" hts hrest
      rw [rereadAll_cons htext, htmlAll_append, htmlAll_textRow, htmlAll,
        unifyLineEnds_append (head?_html ht htext _), unifyLineEnds_escapeChars,
        unifyLineEnds_html _ ht htext]
      simp only [String.toList_append, Text.toList_escape, toList_unified, List.append_assoc]
      rw [← hrest', String.toList_empty, Text.escapeChars_nil, List.nil_append]

end

/-- **Printing what the markup of trees is read as gives the markup with its line ends unified**:
`unified (htmlAll ts)`. -/
theorem html_rereadAll {ts : List Tree} (h : ScannedAll ts) :
    htmlAll (rereadAll "" ts) = unified (htmlAll ts) := by
  have hunified := @unifyLineEnds_htmlAll ts "" [] h (by simp)
  rw [← String.toList_inj, toList_unified]
  simpa [unifyLineEnds] using hunified.symm

/-! ### They are canonical -/

theorem return_not_mem_unified (s : String) : '\r' ∉ (unified s).toList := by
  rw [toList_unified]
  exact return_not_mem_unifyLineEnds _

/-- A scanned element is canonical once it was read back, as no `'\r'` is left in its values. -/
theorem canonicalElement_reread {e : Element} (h : ScannedElement e) :
    CanonicalElement (rereadElement e) where
  tag := h.tag
  names x hx := by
    obtain ⟨y, hy, rfl⟩ := List.mem_map.mp hx
    exact h.names y hy
  ascending := List.pairwise_map.mpr h.ascending
  values x hx := by
    obtain ⟨y, hy, rfl⟩ := List.mem_map.mp hx
    refine ⟨return_not_mem_unified _, ?_⟩
    rw [toList_unified]
    exact fun hmem => h.values y hy ((mem_unifyLineEnds hmem).resolve_left (by decide))

theorem canonicalAll_textRow_append (s : String) {ts : List Tree} (h : CanonicalAll ts)
    (hnext : ∀ u ∈ ts.head?, u.isText = false) : CanonicalAll (textRow s ++ ts) := by
  unfold textRow
  split
  · exact h
  · rename_i hs
    refine ⟨⟨fun he => hs ?_, return_not_mem_unified s⟩, fun _ => hnext, h⟩
    rw [← String.toList_inj, toList_unified] at he
    rw [String.isEmpty_iff, ← String.toList_eq_nil_iff]
    exact eq_nil_of_unifyLineEnds he

mutual

/-- A scanned tree other than a text is canonical once it was read back: `t.reread.Canonical`. -/
theorem canonical_reread : ∀ {t : Tree}, t.Scanned → t.isText = false → t.reread.Canonical
  | node (.element e) cs, h, _ => by
    obtain ⟨helement, hvoid, hcs⟩ := h
    refine ⟨canonicalElement_reread helement, fun hv => ?_, canonicalAll_rereadAll "" hcs⟩
    rw [hvoid hv]
    rfl
  | node (.comment _) _, h, _ => h.1
  | node (.text _) _, _, htext => absurd htext (by simp [isText])
  | node .fragment _, h, _ => h.elim

/-- Scanned trees side by side are canonical once they were read back, as no two texts in
`rereadAll text ts` stand next to each other. -/
theorem canonicalAll_rereadAll : ∀ {ts : List Tree} (text : String), ScannedAll ts →
    CanonicalAll (rereadAll text ts)
  | [], text, _ => by
    have hrow := @canonicalAll_textRow_append text [] trivial (by simp)
    rwa [List.append_nil] at hrow
  | t :: ts, text, h => by
    obtain ⟨ht, hts⟩ := h
    cases htext : t.isText with
    | true =>
      obtain ⟨s, cs, rfl⟩ := Draft.exists_of_isText htext
      rw [rereadAll_text]
      exact canonicalAll_rereadAll _ hts
    | false =>
      have hreread : t.reread.isText = false := (isText_reread t).trans htext
      rw [rereadAll_cons htext]
      refine canonicalAll_textRow_append text ⟨canonical_reread ht htext, fun h => ?_,
        canonicalAll_rereadAll "" hts⟩ fun u hu => ?_
      · exact absurd h (by simp [hreread])
      · obtain rfl := Option.some.inj hu
        exact hreread

end

theorem naturalAll_append {ts us : List Tree} (hts : NaturalAll ts) (hus : NaturalAll us) :
    NaturalAll (ts ++ us) := by
  induction ts with
  | nil => exact hus
  | cons t ts ih => exact ⟨hts.1, ih hts.2⟩

theorem naturalAll_textRow (s : String) : NaturalAll (textRow s) := by
  unfold textRow
  split
  · trivial
  · exact ⟨⟨fun h => absurd rfl h, trivial⟩, trivial⟩

mutual

theorem natural_reread : ∀ {t : Tree}, t.Scanned → t.reread.Natural
  | node (.element _) _, h => ⟨fun _ => rfl, naturalAll_rereadAll "" h.2.2⟩
  | node (.text _) _, h => by
    obtain rfl := h
    exact ⟨fun h => absurd rfl h, trivial⟩
  | node (.comment _) _, h => by
    obtain rfl := h.2
    exact ⟨fun h => absurd rfl h, trivial⟩
  | node .fragment _, h => h.elim

theorem naturalAll_rereadAll : ∀ {ts : List Tree} (text : String), ScannedAll ts →
    NaturalAll (rereadAll text ts)
  | [], text, _ => naturalAll_textRow text
  | t :: ts, text, h => by
    obtain ⟨ht, hts⟩ := h
    cases htext : t.isText with
    | true =>
      obtain ⟨s, cs, rfl⟩ := Draft.exists_of_isText htext
      rw [rereadAll_text]
      exact naturalAll_rereadAll _ hts
    | false =>
      rw [rereadAll_cons htext]
      exact naturalAll_append (naturalAll_textRow text)
        ⟨natural_reread ht, naturalAll_rereadAll "" hts⟩

end

/-! ### Removing nodes -/

mutual

theorem Scanned.without {tag : String} : ∀ {t : Tree}, t.Scanned → (t.without tag).Scanned
  | node (.element e) cs, h => by
    obtain ⟨helement, hvoid, hcs⟩ := h
    refine ⟨helement, fun hv => ?_, hcs.withoutAll⟩
    rw [hvoid hv]
    rfl
  | node (.text _) _, h => by
    obtain rfl := h
    rfl
  | node (.comment _) _, h => by
    obtain ⟨hs, rfl⟩ := h
    exact ⟨hs, rfl⟩
  | node .fragment _, h => h.elim

/-- Scanned trees are so without the elements of `tag`. -/
theorem ScannedAll.withoutAll {tag : String} : ∀ {ts : List Tree}, ScannedAll ts →
    ScannedAll (Tree.withoutAll tag ts)
  | [], _ => trivial
  | t :: ts, h => by
    rw [Tree.withoutAll]
    split
    · exact h.2.withoutAll
    · exact ⟨h.1.without, h.2.withoutAll⟩

end

mutual

theorem Scanned.stripped : ∀ {t : Tree}, t.Scanned → t.stripped.Scanned
  | node (.element e) cs, h => by
    obtain ⟨helement, hvoid, hcs⟩ := h
    rw [Tree.stripped]
    refine ⟨helement, fun hv => ?_, ?_⟩
    · rw [hvoid hv]
      exact ite_self _
    · split
      · exact hcs
      · exact hcs.strippedAll
  | node (.text _) _, h => by
    obtain rfl := h
    rfl
  | node (.comment _) _, h => by
    obtain ⟨hs, rfl⟩ := h
    exact ⟨hs, rfl⟩
  | node .fragment _, h => h.elim

/-- They are so without their blank texts, too. -/
theorem ScannedAll.strippedAll : ∀ {ts : List Tree}, ScannedAll ts →
    ScannedAll (Tree.strippedAll ts)
  | [], _ => trivial
  | t :: ts, h => by
    rw [Tree.strippedAll]
    split
    · exact h.2.strippedAll
    · exact ⟨h.1.stripped, h.2.strippedAll⟩

end

end Tree

namespace Markup

open Inlay.Tree

/-- Below its top the tree of a `markup` is scanned. -/
theorem scannedAll_treeOf (markup : String) : ScannedAll (treeOf (tokenize markup)).children := by
  have hgrown : Grown Tree.Scanned fun kind =>
      ∃ e, kind = .element e ∧ ScannedElement e ∧ isVoid e.tag = false :=
    { text := fun _ => rfl
      close := by
        rintro _ ts ⟨e, rfl, he, hvoid⟩ hts
        refine ⟨he, fun hv => ?_, scannedAll_iff.mpr hts⟩
        rw [hvoid] at hv
        exact absurd hv (by simp) }
  rw [scannedAll_iff]
  refine forall_children_treeOf hgrown fun token ht => ?_
  have hsane := sane_tokenize markup token ht
  cases token with
  | startTag name attrs selfClosing =>
    have hsane : ScannedElement ⟨name, attrs⟩ := hsane
    have hof : Element.of name attrs = ⟨name, attrs⟩ :=
      Draft.element_of_canonical (e := ⟨name, attrs⟩) hsane.tag hsane.names
    rw [Token.Makes, hof]
    exact ⟨⟨hsane, fun _ => rfl, trivial⟩, fun hvoid => ⟨_, rfl, hsane, hvoid⟩⟩
  | comment s => exact ⟨hsane, rfl⟩
  | _ => trivial

/-- The markup of scanned trees stands for `rereadAll "" ts`, under a fragment. -/
theorem treeOf_tokenize_htmlAll {ts : List Tree} (h : ScannedAll ts) :
    treeOf (tokenize (htmlAll ts)) = .node .fragment (rereadAll "" ts) := by
  have hcanonical := canonicalAll_rereadAll "" h
  have hroundtrip := treeOf_tokenize_html hcanonical (naturalAll_rereadAll "" h)
  -- the tokenizer sees the line ends unified in any case
  have htokens : tokenize (htmlAll ts) = tokenize (htmlAll (rereadAll "" ts)) := by
    rw [tokenize, tokenize, unifyLineEnds_eq_self (return_not_mem_htmlAll hcanonical),
      html_rereadAll h, toList_unified]
  rw [htokens]
  exact hroundtrip

end Markup

end Inlay
