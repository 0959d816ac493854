import Inlay.Proofs.Arena.Reachable
import Inlay.Proofs.Arena.Rows
import Inlay.Proofs.Text.Case

/-!
# What a row of tokens lists

Another reading of tokens, without trees and without a text that is still being collected. First the
texts are put together: `merge` leaves one token for each run of them (`merge_of_run`), where a run
ends at a tag or a comment (`merge_append_cons`). Then every token that makes a node makes one row,
whose depth is the number of elements open at the token, and one more for the fragment. Which
elements are open is a list of names (`opens`).

* `rows_treeOf`: the rows of `treeOf tokens` are the fragment and this listing.
* `listed_of_reachable`: what `buildFragment` makes in a reachable arena, read off that arena, is
  this listing, and its stack holds at each moment what `opens` says.
-/

namespace Inlay.Markup

/-! ### Runs of texts -/

namespace Token

/-- What the token says as text. -/
def ownText : Token → String
  | .text s => s
  | .startTag .. | .endTag _ | .comment _ | .doctype | .error => ""

def isText : Token → Bool
  | .text _ => true
  | .startTag .. | .endTag _ | .comment _ | .doctype | .error => false

/-- Whether texts before and after the token are different texts. -/
def separates : Token → Bool
  | .startTag .. | .endTag _ | .comment _ => true
  | .text _ | .doctype | .error => false

/-- The node that the token makes. -/
def kind? : Token → Option NodeKind
  | .text s => some (.text s)
  | .startTag name attrs _ => some (.element (.of name attrs))
  | .comment s => some (.comment s)
  | .endTag _ | .doctype | .error => none

theorem eq_text_of_isText : ∀ {token : Token}, token.isText = true → ∃ s, token = .text s
  | .text s, _ => ⟨s, rfl⟩

theorem not_isText_of_separates : ∀ {token : Token}, token.separates = true → token.isText = false
  | .startTag .., _ | .endTag _, _ | .comment _, _ => rfl

end Token

/-- The texts of a row of tokens, joined. -/
def textOf (tokens : List Token) : String :=
  String.join (tokens.map Token.ownText)

/-- Puts a text in front of tokens, joined with the text that they begin with. -/
def addText (s : String) : List Token → List Token
  | .text t :: rest => .text (s ++ t) :: rest
  | rest => if s.isEmpty then rest else .text s :: rest

/-- One text for each run of texts, if that is not empty, and neither doctypes nor errors. -/
def merge : List Token → List Token
  | [] => []
  | .text s :: rest => addText s (merge rest)
  | .doctype :: rest | .error :: rest => merge rest
  | token :: rest => token :: merge rest

@[simp] theorem addText_nil (s : String) :
    addText s [] = if s.isEmpty then [] else [.text s] := rfl

@[simp] theorem addText_text (s t : String) (rest : List Token) :
    addText s (.text t :: rest) = .text (s ++ t) :: rest := rfl

theorem addText_empty (rest : List Token) : addText "" rest = rest := by
  rw [addText.eq_def]
  split
  · rw [String.empty_append]
  · rfl

theorem addText_cons {token : Token} (h : token.isText = false) (s : String) (rest : List Token) :
    addText s (token :: rest) = addText s [] ++ token :: rest := by
  cases token with
  | text t => exact absurd h (by simp [Token.isText])
  | startTag | endTag | comment | doctype | error =>
    rw [addText, addText_nil]
    split <;> rfl
    exact fun _ _ => nofun

/-- Texts are put together: `s` before `t` is `s ++ t`. -/
theorem addText_addText (s t : String) (tokens : List Token) :
    addText s (addText t tokens) = addText (s ++ t) tokens := by
  have hnil : addText s (addText t []) = addText (s ++ t) [] := by
    by_cases ht : t = ""
    · rw [ht, String.append_empty]
      rfl
    · simp [String.isEmpty_iff, ht]
  cases tokens with
  | nil => exact hnil
  | cons token rest =>
    cases htext : token.isText with
    | true =>
      obtain ⟨u, rfl⟩ := Token.eq_text_of_isText htext
      rw [addText_text, addText_text, addText_text, String.append_assoc]
    | false =>
      rw [addText_cons htext, addText_cons htext (s ++ t), ← hnil, addText_nil]
      split
      · exact addText_cons htext s rest
      · rfl

section Separates

variable {token : Token} (h : token.separates = true)

include h

theorem merge_of_separates (rest : List Token) : merge (token :: rest) = token :: merge rest := by
  cases token with
  | startTag | endTag | comment => rfl
  | text | doctype | error => exact absurd h (by simp [Token.separates])

/-- A text `s` that is put before a token which separates does not get behind it. -/
theorem addText_append_cons (s : String) (before rest : List Token) :
    addText s (before ++ token :: rest) = addText s before ++ token :: rest := by
  cases before with
  | nil => exact addText_cons (Token.not_isText_of_separates h) s rest
  | cons t ts =>
    cases htext : t.isText with
    | true =>
      obtain ⟨u, rfl⟩ := Token.eq_text_of_isText htext
      rfl
    | false =>
      rw [List.cons_append, addText_cons htext, addText_cons htext, List.append_assoc]
      rfl

/-- What stands before a separating token has nothing to do with what stands behind it,
`merge rest`. -/
theorem merge_append_cons (before rest : List Token) :
    merge (before ++ token :: rest) = merge before ++ token :: merge rest := by
  induction before with
  | nil => exact merge_of_separates h rest
  | cons t ts ih =>
    cases t with
    | text s => rw [List.cons_append, merge, merge, ih, addText_append_cons h]
    | doctype | error => exact ih
    | startTag | endTag | comment => exact congrArg _ ih

end Separates

theorem textOf_cons (token : Token) (tokens : List Token) :
    textOf (token :: tokens) = token.ownText ++ textOf tokens := by
  rw [textOf, List.map_cons, String.join_cons, textOf]

/-- A run of texts, with doctypes and errors in between, is one text, `textOf tokens`, or nothing if
that is empty. -/
theorem merge_of_run {tokens : List Token} (h : ∀ token ∈ tokens, token.separates = false) :
    merge tokens = addText (textOf tokens) [] := by
  induction tokens with
  | nil => rfl
  | cons token rest ih =>
    have hrest := ih fun t ht => h t (List.mem_cons_of_mem _ ht)
    have hhead := h token List.mem_cons_self
    rw [textOf_cons]
    cases token with
    | text s => rw [merge, hrest, addText_addText, Token.ownText]
    | doctype | error => rw [merge, hrest, Token.ownText, String.empty_append]
    | startTag | endTag | comment => exact absurd hhead (by simp [Token.separates])

/-! ### Open elements and rows -/

/-- The names of the open elements after a token, innermost first. An end tag closes the innermost
element of its name and all in it; if there is none, it closes nothing. -/
def opens (opened : List String) : Token → List String
  | .startTag name _ selfClosing => if selfClosing || isVoid name then opened else name :: opened
  | .endTag name =>
    match opened.findIdx? (Text.eqIgnoreCase · name) with
    | some i => opened.drop (i + 1)
    | none => opened
  | .text _ | .comment _ | .doctype | .error => opened

/-- The row of a token where these elements are open, if it makes a node. -/
def rowOf (opened : List String) (token : Token) : List (Nat × NodeKind) :=
  (token.kind?.map (opened.length + 1, ·)).toList

/-- The rows of a row of tokens, the texts in which have been put together. -/
def listing (opened : List String) : List Token → List (Nat × NodeKind)
  | [] => []
  | token :: rest => rowOf opened token ++ listing (opens opened token) rest

/-- The listing of `xs ++ ys` is that of `xs`, and then that of `ys` at the depth that `xs` leads
to. -/
theorem listing_append (opened : List String) (xs ys : List Token) :
    listing opened (xs ++ ys) = listing opened xs ++ listing (xs.foldl opens opened) ys := by
  induction xs generalizing opened with
  | nil => rfl
  | cons token xs ih =>
    rw [List.cons_append, listing, listing, ih, List.append_assoc, List.foldl_cons]

theorem listing_addText_cons {token : Token} (h : token.separates = true) (opened : List String)
    (s : String) (rest : List Token) :
    listing opened (addText s (token :: rest)) =
      listing opened (addText s []) ++ listing opened (token :: rest) := by
  have hsame : (addText s []).foldl opens opened = opened := by
    rw [addText_nil]
    split <;> rfl
  rw [addText_cons (Token.not_isText_of_separates h), listing_append, hsame]

/-- The text of some rows. -/
def shownText (rows : List (Nat × NodeKind)) : String :=
  String.join (rows.map fun row => row.2.ownText)

theorem shownText_append (xs ys : List (Nat × NodeKind)) :
    shownText (xs ++ ys) = shownText xs ++ shownText ys := by
  rw [shownText, List.map_append, String.join_append, shownText, shownText]

theorem shownText_rowOf (opened : List String) (token : Token) :
    shownText (rowOf opened token) = token.ownText := by
  cases token with
  | text s => exact String.join_cons.trans String.append_empty
  | startTag | comment => exact String.join_cons.trans String.append_empty
  | endTag | doctype | error => rfl

/-- The texts in the listing say what those of `tokens` say, in order. -/
theorem shownText_listing (tokens : List Token) : ∀ opened : List String,
    shownText (listing opened tokens) = textOf tokens := by
  induction tokens with
  | nil => exact fun _ => rfl
  | cons token rest ih =>
    intro opened
    rw [listing, shownText_append, shownText_rowOf, ih, textOf_cons]

theorem textOf_append (xs ys : List Token) : textOf (xs ++ ys) = textOf xs ++ textOf ys := by
  rw [textOf, List.map_append, String.join_append, textOf, textOf]

theorem textOf_addText (s : String) (tokens : List Token) :
    textOf (addText s tokens) = s ++ textOf tokens := by
  have hnil : textOf (addText s []) = s := by
    by_cases hs : s = ""
    · rw [hs]
      rfl
    · simp [String.isEmpty_iff, hs, textOf, Token.ownText, String.join_cons]
  cases tokens with
  | nil => rw [hnil, textOf, List.map_nil, String.join_nil, String.append_empty]
  | cons token rest =>
    cases htext : token.isText with
    | true =>
      obtain ⟨u, rfl⟩ := Token.eq_text_of_isText htext
      rw [addText_text, textOf_cons, textOf_cons, Token.ownText, Token.ownText, String.append_assoc]
    | false => rw [addText_cons htext, textOf_append, hnil]

/-- No text is lost by putting texts together: `textOf (merge tokens) = textOf tokens`. -/
theorem textOf_merge (tokens : List Token) : textOf (merge tokens) = textOf tokens := by
  induction tokens with
  | nil => rfl
  | cons token rest ih =>
    cases token with
    | text s => rw [merge, textOf_addText, ih, textOf_cons, Token.ownText]
    | doctype | error => rw [merge, ih, textOf_cons, Token.ownText, String.empty_append]
    | startTag | endTag | comment =>
      rw [textOf_cons, ← ih]
      exact textOf_cons _ _

/-! ### Drafts -/

/-- The open levels are elements of these names, innermost first, and the fragment around them. -/
inductive Named : List String → List Level → Prop where
  | fragment {trees : List Tree} : Named [] [⟨.fragment, trees⟩]
  | element {name : String} {attrs : List (String × String)} {trees : List Tree}
    {opened : List String} {levels : List Level} :
    Named opened levels → Named (name :: opened) (⟨.element (.of name attrs), trees⟩ :: levels)

variable {opened : List String} {d : Draft} {l : Level} {levels : List Level}

namespace Named

theorem length_eq (h : Named opened levels) : levels.length = opened.length + 1 := by
  induction h with
  | fragment => rfl
  | element _ ih => rw [List.length_cons, ih, List.length_cons]

theorem add (h : Named opened (l :: levels)) (t : Tree) : Named opened (l.add t :: levels) := by
  cases h with
  | fragment => exact .fragment
  | element h => exact .element h

theorem eqIgnoreCase_of (name : String) (attrs : List (String × String)) (tag : String) :
    (NodeKind.element (.of name attrs)).hasTag tag = Text.eqIgnoreCase name tag := by
  show (name.toLower.toLower == tag.toLower) = _
  rw [Text.toLower_toLower, Text.eqIgnoreCase]

/-- The open levels have the names that the list has, and the fragment has none, so an end tag of
`tag` finds the same one in both. -/
theorem findIdx? (h : Named opened levels) (tag : String) :
    levels.findIdx? (·.kind.hasTag tag) = opened.findIdx? (Text.eqIgnoreCase · tag) := by
  induction h with
  | fragment => rfl
  | element _ ih => rw [List.findIdx?_cons, List.findIdx?_cons, eqIgnoreCase_of, ih]

end Named

namespace Draft

/-- The elements of these names are open. -/
def Opens (opened : List String) (d : Draft) : Prop :=
  Named opened (d.current :: d.outer)

theorem Opens.length_outer (h : d.Opens opened) : d.outer.length = opened.length :=
  Nat.succ_inj.mp h.length_eq

theorem Opens.add (h : d.Opens opened) (t : Tree) : (d.add t).Opens opened :=
  Named.add h t

/-- Closing the innermost level takes `name` off the list. -/
theorem Opens.close {name : String} (h : d.Opens (name :: opened)) : d.close.Opens opened := by
  obtain ⟨current, outer, text⟩ := d
  cases h with
  | element h =>
    cases outer with
    | nil => exact nomatch h
    | cons l ls => exact h.add _

theorem Opens.iterate_close (h : d.Opens opened) {n : Nat} (hn : n ≤ opened.length) :
    (Draft.close^[n] d).Opens (opened.drop n) := by
  induction n with
  | zero => exact h
  | succ n ih =>
    have hclosed := ih (Nat.le_of_lt hn)
    rw [List.drop_eq_getElem_cons hn] at hclosed
    rw [Function.iterate_succ_apply']
    exact hclosed.close

theorem Opens.flush (h : d.Opens opened) : d.flush.Opens opened := by
  unfold Draft.flush
  split
  · exact h
  · exact h.add _

/-- The draft opens and closes what the names say, `opens opened token`. -/
theorem Opens.take (h : d.Opens opened) (token : Token) :
    (d.take token).Opens (opens opened token) := by
  cases token with
  | text | doctype | error => exact h
  | comment s => exact h.flush.add _
  | startTag name attrs selfClosing =>
    rw [Draft.take, opens]
    split
    · exact h.flush.add _
    · exact Named.element h.flush
  | endTag name =>
    rw [Draft.take, closing, Named.findIdx? h.flush, opens]
    cases hi : opened.findIdx? (Text.eqIgnoreCase · name) with
    | none => exact h.flush
    | some i => exact h.flush.iterate_close (List.findIdx?_eq_some_iff_getElem.mp hi).1

/-- So it does for all `tokens`, one after the other. -/
theorem Opens.takeAll (h : d.Opens opened) (tokens : List Token) :
    (d.takeAll tokens).Opens (tokens.foldl opens opened) := by
  induction tokens generalizing d opened with
  | nil => exact h
  | cons token rest ih => exact ih (h.take token)

/-! ### The rows of a draft -/

/-- What stands in the tree so far. -/
def rows (d : Draft) : List (Nat × NodeKind) :=
  d.tree.rows 0

end Draft

theorem rowsAll_append (n : Nat) (ss ts : List Tree) :
    Tree.rowsAll n (ss ++ ts) = Tree.rowsAll n ss ++ Tree.rowsAll n ts := by
  induction ss with
  | nil => rfl
  | cons s ss ih => rw [List.cons_append, Tree.rowsAll, Tree.rowsAll, ih, List.append_assoc]

theorem Level.rows_add (l : Level) (t : Tree) (n : Nat) :
    (l.add t).tree.rows n = l.tree.rows n ++ t.rows (n + 1) := by
  show (n, l.kind) :: Tree.rowsAll (n + 1) (l.trees ++ [t]) = _
  rw [rowsAll_append, Tree.rowsAll, Tree.rowsAll, List.append_nil, Level.tree, Tree.rows,
    List.cons_append]

namespace Draft

/-- The innermost level is the last in document order, so a tree `t` that comes into it comes
last. -/
theorem rows_enclose_add (n : Nat) : ∀ (ls : List Level) (l : Level) (t : Tree),
    (enclose (l.add t).tree ls).rows n =
      (enclose l.tree ls).rows n ++ t.rows (n + ls.length + 1)
  | [], l, t => l.rows_add t n
  | m :: ms, l, t => by
    rw [enclose, enclose, rows_enclose_add n ms m, rows_enclose_add n ms m, Level.rows_add,
      List.append_assoc, List.length_cons, Nat.add_assoc n]

/-- The rows of a tree that is added come last, at depth `opened.length + 1`. -/
theorem rows_add (h : d.Opens opened) (t : Tree) :
    (d.add t).rows = d.rows ++ t.rows (opened.length + 1) := by
  rw [rows, tree, ← h.length_outer]
  exact (rows_enclose_add 0 d.outer d.current t).trans (by rw [Nat.zero_add, rows, tree])

theorem rows_leaf (h : d.Opens opened) (kind : NodeKind) :
    (d.add (.node kind [])).rows = d.rows ++ [(opened.length + 1, kind)] :=
  rows_add h _

/-- Closing a level changes no row: `d.close.rows = d.rows`. -/
theorem rows_close (d : Draft) : d.close.rows = d.rows := by
  obtain ⟨current, outer, text⟩ := d
  cases outer <;> rfl

theorem rows_iterate_close (d : Draft) (n : Nat) : (close^[n] d).rows = d.rows := by
  induction n with
  | zero => rfl
  | succ n ih => rw [Function.iterate_succ_apply', rows_close, ih]

theorem text_iterate_close (d : Draft) (n : Nat) : (close^[n] d).text = d.text := by
  induction n with
  | zero => rfl
  | succ n ih =>
    rw [Function.iterate_succ_apply', ← ih, close]
    split <;> rfl

/-- The collected `d.text` becomes a row, if it is not empty. -/
theorem rows_flush (h : d.Opens opened) :
    d.flush.rows = d.rows ++ listing opened (addText d.text []) := by
  rw [flush, addText_nil]
  split
  · exact (List.append_nil _).symm
  · exact rows_leaf h _

/-- A token that separates texts puts the text before it into a row, and then makes its own,
`rowOf opened token`. -/
theorem rows_take (h : d.Opens opened) {token : Token} (hsep : token.separates = true) :
    (d.take token).rows = d.rows ++ listing opened (addText d.text []) ++ rowOf opened token ∧
      (d.take token).text = "" := by
  rw [← rows_flush h]
  cases token with
  | text | doctype | error => exact absurd hsep (by simp [Token.separates])
  | comment s => exact ⟨rows_leaf h.flush _, d.text_flush⟩
  | startTag name attrs selfClosing =>
    rw [take]
    split
    · exact ⟨rows_leaf h.flush _, d.text_flush⟩
    · exact ⟨rows_leaf h.flush _, d.text_flush⟩
  | endTag name =>
    rw [take]
    exact ⟨(rows_iterate_close _ _).trans (List.append_nil _).symm,
      (text_iterate_close _ _).trans d.text_flush⟩

/-- What a draft comes to: `d.rows`, and then the listing of what is to come, in front of which
stands the text that it has collected. -/
theorem rows_takeAll (tokens : List Token) : ∀ {d : Draft} {opened : List String}, d.Opens opened →
    (d.takeAll tokens).flush.rows = d.rows ++ listing opened (addText d.text (merge tokens)) := by
  induction tokens with
  | nil => exact fun h => rows_flush h
  | cons token rest ih =>
    intro d opened h
    have hrest := ih (h.take token)
    cases hsep : token.separates with
    | true =>
      obtain ⟨hrows, htext⟩ := rows_take h hsep
      rw [hrows, htext, addText_empty] at hrest
      rw [merge_of_separates hsep, listing_addText_cons hsep, listing, ← List.append_assoc,
        ← List.append_assoc]
      exact hrest
    | false =>
      cases token with
      | text s =>
        rw [merge, addText_addText]
        exact hrest
      | doctype | error => exact hrest
      | startTag | endTag | comment => exact absurd hsep (by simp [Token.separates])

end Draft

/-- The rows of the tree that tokens stand for: the fragment, and `listing [] (merge tokens)`. -/
theorem rows_treeOf (tokens : List Token) :
    (treeOf tokens).rows 0 = (0, .fragment) :: listing [] (merge tokens) := by
  have hstart : Draft.start.Opens [] := .fragment
  refine (Draft.rows_takeAll tokens hstart).trans ?_
  rw [show Draft.start.text = "" from rfl, addText_empty]
  rfl

/-! ### The stack -/

open Arena

/-- The fragment `f` is outside all open elements, and as it has no name, no end tag closes it. -/
theorem afterEndTag_concat {a : Arena} {f : NodeId} {name : String} (hf : a.hasTag f name = false)
    (opened : List NodeId) :
    Builder.afterEndTag a name (opened ++ [f]) = Builder.afterEndTag a name opened ++ [f] := by
  rw [Builder.afterEndTag, Builder.afterEndTag, List.dropWhile_append]
  cases opened.dropWhile (!a.hasTag · name) with
  | nil => simp [hf]
  | cons id outer => rfl

theorem tag?_of_stands {a : Arena} {id : NodeId} {l : Level} {inner : Option NodeId}
    (h : a.Stands id l inner) : a.tag? id = l.kind.element?.map (·.tag) := by
  obtain ⟨node, done, hget, hkind, -⟩ := h
  rw [tag?, element?, kind?_of_get? hget, hkind]
  rfl

/-- The open nodes have the tags in `opened`, and the fragment, which is the last, has none. -/
theorem tags_of_spine {a : Arena} {opened : List String} {levels : List Level}
    (h : Named opened levels) : ∀ {ids : List NodeId} {inner : Option NodeId},
    a.Spine inner ids levels → ids.map a.tag? = opened.map (some ·.toLower) ++ [none] := by
  induction h with
  | fragment =>
    intro ids inner hs
    cases ids with
    | nil => exact hs.elim
    | cons id ids =>
      cases ids with
      | nil => rw [List.map_singleton, tag?_of_stands hs.1]; rfl
      | cons => exact hs.2.elim
  | element _ ih =>
    intro ids inner hs
    cases ids with
    | nil => exact hs.elim
    | cons id ids =>
      rw [List.map_cons, tag?_of_stands hs.1, ih hs.2]
      rfl

/-- The builder `b` has opened the elements of these names, innermost first, and the fragment `f`
around them is there to stay, whichever end tag comes next. -/
structure Stacks (a : Arena) (f : NodeId) (opened : List String) (b : Builder) : Prop where
  fragment_eq : b.fragment = f
  tags : b.opened.map a.tag? = opened.map (some ·.toLower)
  bottom : ∀ name, Builder.afterEndTag a name (b.opened ++ [f]) =
    Builder.afterEndTag a name b.opened ++ [f]

/-- The stack of the builder holds the elements in `opened`, above the fragment. -/
theorem Raised.stacks {f : NodeId} {a₀ a : Arena} {b : Builder} (h : Raised f a₀ a b d)
    (hd : d.Opens opened) : Stacks a f opened b := by
  have htags := tags_of_spine hd h.spine
  rw [List.map_append, List.map_singleton] at htags
  obtain ⟨htags, htop⟩ := List.append_inj' htags rfl
  refine ⟨h.fragment_eq, htags, fun name => afterEndTag_concat ?_ b.opened⟩
  rw [hasTag, ← h.fragment_eq, (List.cons.inj htop).1]

theorem takeAll_append (b : Builder) (xs ys : List Token) :
    b.takeAll (xs ++ ys) = b.takeAll xs >>= (·.takeAll ys) := by
  induction xs generalizing b with
  | nil => rfl
  | cons token xs ih =>
    rw [List.cons_append, Builder.takeAll, Builder.takeAll, bind_assoc]
    exact congrArg _ (funext fun b => ih b)

/-- The `fragment` is what is made first, before any token is taken. -/
theorem created_of_buildFragment {a b : Arena} {tokens : List Token} {fragment : NodeId}
    (hrun : (buildFragment tokens).run a = .ok fragment b) :
    ∃ a₁, (create .fragment).run a = .ok fragment a₁ := by
  unfold buildFragment at hrun
  obtain ⟨f, a₁, hcreate, hrest⟩ := exists_of_run_bind_eq_ok hrun
  obtain ⟨s, a₂, -, hrest⟩ := exists_of_run_bind_eq_ok hrest
  obtain ⟨s', a₃, -, hpure⟩ := exists_of_run_bind_eq_ok hrest
  injection hpure with hf _
  exact ⟨a₁, hf ▸ hcreate⟩

/-- After each part `before` of the tokens the builder has opened what the names say. -/
theorem stacks_of_prefix {a : Arena} {before tokens : List Token}
    (hbefore : before <+: tokens) {f : NodeId} {a₁ : Arena} (hc : Created a a₁ .fragment f)
    (hfit : (stateAfter ((Builder.mk f [] "").takeAll tokens) a₁).Fits) :
    ∃ s c, ((Builder.mk f [] "").takeAll before).run a₁ = .ok s c ∧
      Stacks c f (before.foldl opens []) s := by
  obtain ⟨after, rfl⟩ := hbefore
  rw [takeAll_append] at hfit
  obtain ⟨s, c, hrun, hraised, -⟩ := Raised.takeAll (Raised.start hc) Draft.open_start
    (fits_of_bind (grows_takeAll after) hfit)
  have hstart : Draft.start.Opens [] := .fragment
  exact ⟨s, c, hrun, hraised.stacks (hstart.takeAll before)⟩

/-- `b` is `a` with a new fragment that holds what the tokens list. -/
structure Listed (a b : Arena) (fragment : NodeId) (tokens : List Token) : Prop where
  fresh : a.get? fragment = none
  kind : b.kind? fragment = some .fragment
  top : b.parent? fragment = none
  rows : (b.descendants fragment).map b.row? = (listing [] (merge tokens)).map some
  text : b.textContent fragment = textOf tokens
  kept : ∀ n, a.isLive n → b.get? n = a.get? n

/-- If `treeOf tokens` was planted, it is `Listed` as they say. -/
theorem listed_of_planted {a b : Arena} {fragment : NodeId} {tokens : List Token}
    (h : Planted a b fragment (treeOf tokens)) : Listed a b fragment tokens := by
  have hf := h.sound.forest
  have hdepth := depth_of_top hf h.top
  have hrows := h.shows.map_row? hf
  rw [hdepth, rows_treeOf, List.map_cons, List.map_cons, List.cons.injEq] at hrows
  constructor
  case fresh => exact h.fresh
  case kind =>
    obtain ⟨row, hrow, hkind⟩ := Option.map_eq_some_iff.mp hrows.1
    rw [hrow, (Prod.mk.inj hkind).2]
  case top => exact h.top
  case rows => exact hrows.2
  case text =>
    rw [h.shows.textContent hf, hdepth, rows_treeOf]
    show String.join ("" :: (listing [] (merge tokens)).map fun row => row.2.ownText) = _
    rw [String.join_cons, String.empty_append, ← shownText, shownText_listing, textOf_merge]
  case kept =>
    intro n hn
    obtain ⟨node, hnode⟩ := isLive_iff.mp hn
    rw [hnode, h.kept n node hnode]

/-- **Building a fragment is a reading of its tokens.** In every reachable arena and for every row
of tokens it succeeds. The new fragment, read in document order, has one node for each start tag,
each comment and each run of texts that is not empty, as deep as elements are open there; it says
all that the texts say, and no other node changes. While the tokens come in, the stack holds the
elements that are open, above the fragment, which is never closed. -/
theorem listed_of_reachable {a : Arena} (h : Reachable a) (tokens : List Token)
    (hfit : (stateAfter (buildFragment tokens) a).Fits) :
    ∃ fragment b, (buildFragment tokens).run a = .ok fragment b ∧ Listed a b fragment tokens ∧
      ∀ before, before <+: tokens → ∃ s c,
        ((Builder.mk fragment [] "").takeAll before).run (stateAfter (create .fragment) a) =
          .ok s c ∧
        Stacks c fragment (before.foldl opens []) s := by
  obtain ⟨fragment, b, hrun, hplanted⟩ := buildFragment_spec h.sound tokens hfit
  refine ⟨fragment, b, hrun, listed_of_planted hplanted, fun before hbefore => ?_⟩
  obtain ⟨a₁, hcreate⟩ := created_of_buildFragment hrun
  unfold buildFragment at hfit
  have hgrows : ∀ f, Grows ((Builder.mk f [] "").takeAll tokens >>= fun s =>
      s.flush >>= fun _ => pure f) := fun f =>
    (grows_takeAll tokens _).bind fun s => (grows_flush s).bind fun _ => grows_pure f
  have hfit₁ := fits_of_bind hgrows hfit
  obtain ⟨f, a₂, hcreate', hc⟩ := create_spec h.sound .fragment hfit₁
  rw [hcreate] at hcreate'
  injection hcreate' with hf ha
  rw [stateAfter_of_ok hcreate, ha]
  subst hf
  have hfit₂ := fits_after hcreate hfit
  have hfit₃ := fits_of_bind (fun s => (grows_flush s).bind fun _ => grows_pure fragment) hfit₂
  exact stacks_of_prefix hbefore hc (ha ▸ hfit₃)

/-- A void element, a text in pieces, end tags in the wrong case and order, and one element that is
never closed. -/
theorem listed_of_misnested :
    let tokens : List Token := [.startTag "DIV" [] false, .text "a", .doctype, .text "b",
      .startTag "br" [] false, .startTag "i" [] false, .endTag "p", .text "c", .endTag "div",
      .text "", .error, .comment "d", .startTag "p" [] false, .text "e"]
    ∃ fragment b, (buildFragment tokens).run .empty = .ok fragment b ∧
      (b.descendants fragment).map b.row? = [some (1, .element ⟨"div", []⟩), some (2, .text "ab"),
        some (2, .element ⟨"br", []⟩), some (2, .element ⟨"i", []⟩), some (3, .text "c"),
        some (1, .comment "d"), some (1, .element ⟨"p", []⟩), some (2, .text "e")] ∧
      b.textContent fragment = "abce" := by
  intro tokens
  obtain ⟨fragment, b, hrun, hlisted, -⟩ :=
    listed_of_reachable Reachable.empty tokens (by decide +kernel)
  refine ⟨fragment, b, hrun, hlisted.rows.trans ?_, hlisted.text.trans ?_⟩
  · cbv
  · decide +kernel

end Inlay.Markup
