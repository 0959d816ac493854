import Inlay.Proofs.Selector.Spelling

/-!
# Writing and reading selectors

A selector that was read is read again from its own text, `parse s.text = .ok s`, exactly if no
value of an attribute condition in it has a double quote (`parse_text_iff`). One direction follows
the text through the readers. For the other the selector itself does not matter, only how many
single quotes there are: its text has no more of them than its values, and reading a value with a
double quote takes two more than that.
-/

namespace Inlay.Selector

open Reader

/-! ### Complex selectors -/

def Complex.Readable : Complex → Prop
  | .compound c => c.Readable
  | .combine left _ right => left.Readable ∧ right.Readable

/-- Every compound of a legible alternative can be read again, if no value has a `'"'`. -/
theorem Complex.readable :
    ∀ {x : Complex}, x.Legible → (∀ v ∈ x.values, '"' ∉ v.toList) → x.Readable
  | .compound _, h, hvalues => readable_compound h hvalues
  | .combine left _ right, ⟨hleft, hright⟩, hvalues => by
    rw [values, List.forall_mem_append] at hvalues
    exact ⟨Complex.readable hleft hvalues.1, readable_compound hright hvalues.2⟩

/-- How many combinators there are. -/
def Complex.joints : Complex → Nat
  | .compound _ => 0
  | .combine left _ _ => left.joints + 1

/-- Each combinator takes at least one character: `x.joints ≤ x.text.toList.length`. -/
theorem Complex.joints_le : ∀ x : Complex, x.joints ≤ x.text.toList.length
  | .compound _ => Nat.zero_le _
  | .combine left k right => by
    have hleft := left.joints_le
    have hk : 1 ≤ k.text.toList.length := by cases k <;> decide
    rw [joints, text, String.toList_append, String.toList_append, List.length_append,
      List.length_append]
    omega

section Joined

variable {left x : Complex} {right : Compound} {fuel : Nat} {ds rest : List Char}

/-- A compound `right` is added to what is on the left, `left`, with the combinator `k`. -/
theorem reads_joined_right {k : Combinator} (hright : right.Readable)
    (hfuel : right.text.toList.length < fuel) (hends : Ends (ds ++ rest))
    (h : Reads (joined fuel (.combine left k right)) ds x rest) :
    Reads (do joined fuel (.combine left k (← compound fuel))) (right.text.toList ++ ds) x rest :=
  (hright.reads fuel _ hfuel hends).bind h

/-- A combinator with a sign `c` is followed by a space, and then by its compound `right`. -/
theorem reads_joined_signed {k : Combinator} (c : Char) (hright : right.Readable)
    (hfuel : right.text.toList.length < fuel) (hends : Ends (ds ++ rest))
    (h : Reads (joined fuel (.combine left k right)) ds x rest) :
    Reads (do
      advance
      let _ ← skipBlanks
      joined fuel (.combine left k (← compound fuel)))
      ([c] ++ ([' '] ++ (right.text.toList ++ ds))) x rest := by
  have hfresh := hright.fresh (ds ++ rest)
  rw [← List.append_assoc] at hfresh
  exact (reads_advance c _).bind
    ((reads_skipBlanks_space hfresh).bind (reads_joined_right hright hfuel hends h))

/-- A combinator `k` and a compound `right` are added to `left`, with one unit of fuel. -/
theorem reads_joined (k : Combinator) (hright : right.Readable)
    (hfuel : right.text.toList.length < fuel) (hends : Ends (ds ++ rest))
    (h : Reads (joined fuel (.combine left k right)) ds x rest) :
    Reads (joined (fuel + 1) left) (k.text.toList ++ (right.text.toList ++ ds)) x rest := by
  rw [joined]
  cases k with
  | descendant =>
    have hfresh := hright.fresh (ds ++ rest)
    rw [← List.append_assoc] at hfresh
    refine (reads_skipBlanks_space hfresh).bind ?_
    simp only
    refine (reads_peek _).after ?_
    -- a compound begins with none of the characters that the reader takes for something else here
    obtain ⟨ch, hch, -, hcomma, hchild, hadjacent, hsibling⟩ := hright.begins
    obtain ⟨cs, he⟩ := List.head?_eq_some_iff.mp hch
    have hhead : (right.text.toList ++ ds ++ rest).head? = some ch := by rw [he]; rfl
    have hread := reads_joined_right hright hfuel hends h
    rw [hhead]
    split
    · exact absurd ‹_› (by simp)
    · exact absurd (Option.some.inj ‹_›) hcomma
    · exact absurd (Option.some.inj ‹_›) hchild
    · exact absurd (Option.some.inj ‹_›) hadjacent
    · exact absurd (Option.some.inj ‹_›) hsibling
    · rw [if_pos trivial]
      exact hread
  | child =>
    refine (reads_skipBlanks_space (by simp; decide)).bind ((reads_peek _).after ?_)
    exact reads_joined_signed '>' hright hfuel hends h
  | adjacent =>
    refine (reads_skipBlanks_space (by simp; decide)).bind ((reads_peek _).after ?_)
    exact reads_joined_signed '+' hright hfuel hends h
  | sibling =>
    refine (reads_skipBlanks_space (by simp; decide)).bind ((reads_peek _).after ?_)
    exact reads_joined_signed '~' hright hfuel hends h

end Joined

theorem Combinator.ends_text (k : Combinator) (rest : List Char) :
    Ends (k.text.toList ++ rest) := by
  have hspace : ∃ cs, k.text.toList = ' ' :: cs := by
    cases k with
    | descendant => exact ⟨[], rfl⟩
    | child => exact ⟨['>', ' '], rfl⟩
    | adjacent => exact ⟨['+', ' '], rfl⟩
    | sibling => exact ⟨['~', ' '], rfl⟩
  obtain ⟨cs, he⟩ := hspace
  rw [he]
  rintro _ ⟨⟩
  simp [IsMark]
  decide

/-- White space `lead` before a text is skipped. -/
theorem reads_lead {lead rest : List Char} (hlead : lead = [] ∨ lead = [' '])
    (hrest : ∀ c ∈ rest.head?, Text.isBlank c = false) : ∃ any, Reads skipBlanks lead any rest := by
  rcases hlead with rfl | rfl
  · exact ⟨false, reads_skipBlanks hrest⟩
  · exact ⟨true, reads_skipBlanks_space hrest⟩

/-- The text of an alternative is read up to where more combinators and compounds may follow,
`ds`. -/
theorem reads_complex {lead : List Char} (hlead : lead = [] ∨ lead = [' ']) :
    ∀ {x : Complex}, x.Readable → ∀ {fuel : Nat}, x.text.toList.length < fuel →
    ∀ {ds rest : List Char} {y : Complex}, Ends (ds ++ rest) →
    Reads (joined (fuel - x.joints) x) ds y rest →
    Reads (complex fuel) (lead ++ (x.text.toList ++ ds)) y rest
  | .compound c, h, fuel, hfuel, ds, rest, y, hends, hjoined => by
    have hc : c.Readable := h
    have hfresh := hc.fresh (ds ++ rest)
    rw [← List.append_assoc] at hfresh
    obtain ⟨any, hskip⟩ := reads_lead hlead hfresh
    exact hskip.bind ((hc.reads fuel _ hfuel hends).bind hjoined)
  | .combine left k right, ⟨hleft, hright⟩, fuel, hfuel, ds, rest, y, hends, hjoined => by
    have hjoints := left.joints_le
    have hlength : 1 ≤ k.text.toList.length := by cases k <;> decide
    have htext : (Complex.combine left k right).text.toList ++ ds =
        left.text.toList ++ (k.text.toList ++ (right.text.toList ++ ds)) := by
      simp [Complex.text]
    rw [Complex.text, String.toList_append, String.toList_append, List.length_append,
      List.length_append] at hfuel
    rw [Complex.joints] at hjoined
    have hends' : Ends (k.text.toList ++ (right.text.toList ++ ds) ++ rest) := by
      rw [List.append_assoc]
      exact k.ends_text _
    -- `joined` has spent one unit of fuel on each combinator to the left of this one
    have hfuel' : fuel - left.joints = fuel - (left.joints + 1) + 1 := by omega
    rw [htext]
    refine reads_complex hlead hleft (by omega) hends' ?_
    rw [hfuel']
    exact reads_joined k hright (by omega) hends hjoined

/-- Where an alternative ends: at a comma or where nothing is left. -/
def Closes (rest : List Char) : Prop :=
  ∀ c ∈ rest.head?, c = ','

theorem Closes.ends {rest : List Char} (h : Closes rest) : Ends rest := by
  intro c hc
  rw [h c hc]
  simp [IsMark]
  decide

/-- Where an alternative is closed, nothing is joined to `x` any more. -/
theorem reads_joined_closed (fuel : Nat) (x : Complex) {rest : List Char} (hrest : Closes rest) :
    Reads (joined fuel x) [] x rest := by
  cases fuel with
  | zero => exact reads_pure x rest
  | succ fuel =>
    rw [joined]
    have hblank : ∀ c ∈ rest.head?, Text.isBlank c = false := by
      intro c hc
      rw [hrest c hc]
      decide
    refine (reads_skipBlanks hblank).after ?_
    simp only
    refine (reads_peek rest).after ?_
    cases hhead : rest.head? with
    | none => exact reads_pure x rest
    | some c =>
      obtain rfl := hrest c hhead
      exact reads_pure x rest

theorem reads_alternative {lead : List Char} (hlead : lead = [] ∨ lead = [' ']) {x : Complex}
    (h : x.Readable) {fuel : Nat} (hfuel : x.text.toList.length < fuel) {rest : List Char}
    (hrest : Closes rest) : Reads (complex fuel) (lead ++ x.text.toList) x rest := by
  have hends : Ends ([] ++ rest) := hrest.ends
  have hread := reads_complex hlead h hfuel hends (reads_joined_closed _ x hrest)
  rwa [List.append_nil] at hread

/-! ### Selectors -/

/-- Alternatives that follow a comma each. -/
def furtherAlternativesText (xs : List Complex) : List Char :=
  xs.flatMap fun x => ',' :: ' ' :: x.text.toList

theorem toList_text (x : Complex) : ∀ xs : List Complex,
    (text ⟨x :: xs⟩).toList = x.text.toList ++ furtherAlternativesText xs
  | [] => by simp [text, furtherAlternativesText]
  | y :: ys => by
    have hrest := toList_text y ys
    rw [text, List.map_cons] at hrest
    rw [text, List.map_cons, List.map_cons, String.intercalate_cons_cons, String.toList_append,
      hrest]
    simp [furtherAlternativesText]

theorem closes_furtherAlternativesText (xs : List Complex) :
    Closes (furtherAlternativesText xs) := by
  cases xs with
  | nil => exact nofun
  | cons x xs =>
    rintro c ⟨⟩
    rfl

/-- The alternatives `xs` behind the first one are read to the end of the source. -/
theorem reads_furtherAlternatives : ∀ {xs : List Complex}, (∀ x ∈ xs, x.Readable) →
    ∀ {fuel : Nat}, (furtherAlternativesText xs).length ≤ fuel →
    Reads (furtherAlternatives fuel) (furtherAlternativesText xs) xs []
  | [], _, fuel, _ => by
    cases fuel with
    | zero => exact reads_pure [] []
    | succ fuel =>
      rw [furtherAlternatives]
      refine (reads_peek []).after ?_
      rw [if_neg (by simp)]
      exact reads_pure [] []
  | x :: xs, h, fuel, hfuel => by
    obtain ⟨hx, hxs⟩ := List.forall_mem_cons.mp h
    have htext : furtherAlternativesText (x :: xs) =
        [','] ++ (([' '] ++ x.text.toList) ++ furtherAlternativesText xs) := by
      simp [furtherAlternativesText]
    rw [htext] at hfuel ⊢
    simp only [List.length_append, List.length_singleton] at hfuel
    cases fuel with
    | zero => omega
    | succ fuel =>
      rw [furtherAlternatives]
      refine (reads_peek _).after ?_
      rw [if_pos (by simp)]
      -- The alternative ends at the comma of the next one or at the end.
      have hcloses : Closes (furtherAlternativesText xs ++ []) := by
        rw [List.append_nil]
        exact closes_furtherAlternativesText xs
      refine (reads_advance ',' _).bind ?_
      refine (reads_alternative (Or.inr rfl) hx (by omega) hcloses).bind ?_
      exact (reads_furtherAlternatives hxs (by omega)).returning (x :: ·)

/-- A selector is read from its text to the end, with more `fuel` than that has characters. -/
theorem reads_selector {x : Complex} {xs : List Complex} (hx : x.Readable)
    (hxs : ∀ y ∈ xs, y.Readable) {fuel : Nat}
    (hfuel : (text ⟨x :: xs⟩).toList.length < fuel) :
    Reads (selector fuel) (text ⟨x :: xs⟩).toList ⟨x :: xs⟩ [] := by
  have hcloses : Closes (furtherAlternativesText xs ++ []) := by
    rw [List.append_nil]
    exact closes_furtherAlternativesText xs
  rw [toList_text] at hfuel ⊢
  rw [List.length_append] at hfuel
  refine (reads_alternative (Or.inl rfl) hx (by omega) hcloses).bind ?_
  exact (reads_furtherAlternatives hxs (by omega)).returning fun ys => (⟨x :: ys⟩ : Selector)

/-- **The text of a legible selector is read as the selector**, if no value has a double quote. -/
theorem parse_text {s : Selector} (h : s.Legible) (hvalues : ∀ v ∈ s.values, '"' ∉ v.toList) :
    parse s.text = .ok s := by
  obtain ⟨alternatives⟩ := s
  cases alternatives with
  | nil => exact absurd rfl h.nonempty
  | cons x xs =>
    have hreadable : ∀ y ∈ x :: xs, y.Readable := fun y hy => Complex.readable (h.alternatives y hy)
      fun v hv => hvalues v (List.mem_flatMap.mpr ⟨y, hy, hv⟩)
    obtain ⟨hx, hxs⟩ := List.forall_mem_cons.mp hreadable
    have hfuel : (text ⟨x :: xs⟩).toList.length < 2 * (text ⟨x :: xs⟩).toList.length + 2 := by omega
    have hrun := reads_selector hx hxs hfuel 0
    rw [List.append_nil] at hrun
    simp only [parse, hrun]

/-! ### Quotes in texts -/

/-- How many single quotes there are in some values. -/
def quotesIn (values : List String) : Nat :=
  (values.map fun v => v.toList.count '\'').sum

theorem quotesIn_append (vs ws : List String) :
    quotesIn (vs ++ ws) = quotesIn vs + quotesIn ws := by
  rw [quotesIn, List.map_append, List.sum_append, ← quotesIn, ← quotesIn]

/-- A name has no `'\''`. -/
theorem IsName.count_quote {s : String} (h : IsName s) : s.toList.count '\'' = 0 :=
  List.count_eq_zero_of_not_mem fun hmem => absurd (h.chars _ hmem) (by decide)

/-- In the text of an attribute condition only the value has single quotes, `quotesIn a.values`. -/
theorem AttrTest.count_quote {a : AttrTest} (h : IsFoldedName a.name) :
    a.text.toList.count '\'' = quotesIn a.values := by
  have hname : a.name.toList.count '\'' = 0 := h.count_quote
  cases a with
  | present name =>
    simp only [AttrTest.name] at hname
    simp [text, values, quotesIn, hname]
  | equals name value =>
    simp only [AttrTest.name] at hname
    simp [text, values, quotesIn, hname]

theorem count_quote_classes : ∀ {classes : List String}, (∀ s ∈ classes, IsName s) →
    (classes.flatMap fun s => '.' :: s.toList).count '\'' = 0
  | [], _ => rfl
  | s :: ss, h => by
    obtain ⟨hs, hss⟩ := List.forall_mem_cons.mp h
    rw [List.flatMap_cons, List.count_append, count_quote_classes hss]
    simp [hs.count_quote]

theorem count_quote_attrs : ∀ {attrs : List AttrTest}, (∀ a ∈ attrs, IsFoldedName a.name) →
    (attrs.flatMap (·.text.toList)).count '\'' = quotesIn (attrs.flatMap AttrTest.values)
  | [], _ => rfl
  | a :: as, h => by
    obtain ⟨ha, has⟩ := List.forall_mem_cons.mp h
    rw [List.flatMap_cons, List.count_append, AttrTest.count_quote ha, count_quote_attrs has,
      List.flatMap_cons, quotesIn_append]

mutual

theorem count_quote_pseudo : ∀ {p : Pseudo}, p.Legible →
    p.text.toList.count '\'' = quotesIn p.values
  | .firstChild, _ => by simp [Pseudo.text, Pseudo.values, quotesIn]
  | .lastChild, _ => by simp [Pseudo.text, Pseudo.values, quotesIn]
  | .nthChild n, _ => by
    have hn : '\'' ∉ n.text.toList := fun hmem =>
      absurd (Nth.isSign_of_mem_text hmem) (by simp [Nth.IsSign])
    simp [Pseudo.text, Pseudo.values, quotesIn, List.count_eq_zero_of_not_mem hn]
  | .not cs, ⟨_, hcs⟩ => by
    have hinner := count_quote_compounds hcs
    simp [Pseudo.text, Pseudo.values, hinner]

/-- In the text of a legible compound only its values have single quotes, `quotesIn c.values`. -/
theorem count_quote_compound : ∀ {c : Compound}, c.Legible →
    c.text.toList.count '\'' = quotesIn c.values
  | ⟨tag, id, classes, attrs, pseudos⟩, ⟨htag, hid, hclasses, hattrs, hpseudos⟩ => by
    have hfront : (Compound.front ⟨tag, id, classes, attrs, pseudos⟩).count '\'' = 0 := by
      cases tag with
      | some t => exact (htag t rfl).count_quote
      | none =>
        rw [Compound.front]
        split <;> decide
    have hidText : (id.elim [] fun i => '#' :: i.toList).count '\'' = 0 := by
      cases id with
      | none => rfl
      | some i => simp [(hid i rfl).count_quote]
    rw [Compound.toList_text, List.count_append, Compound.rest, List.count_append,
      List.count_append, List.count_append, count_quote_pseudos hpseudos, Compound.values,
      quotesIn_append, hfront,
      hidText, count_quote_classes hclasses, count_quote_attrs hattrs]
    omega

theorem count_quote_compounds : ∀ {cs : List Compound}, CompoundsLegible cs →
    (compoundsText cs).toList.count '\'' = quotesIn (compoundsValues cs)
  | [], _ => rfl
  | [c], ⟨hc, _⟩ => by
    rw [compoundsText, count_quote_compound hc, compoundsValues, compoundsValues, List.append_nil]
  | c :: d :: ds, ⟨hc, hds⟩ => by
    have hsplit : compoundsText (c :: d :: ds) = c.text ++ ", " ++ compoundsText (d :: ds) := by
      rw [compoundsText]
      exact nofun
    have hcomma : ", ".toList.count '\'' = 0 := by decide
    have hvalues : compoundsValues (c :: d :: ds) = c.values ++ compoundsValues (d :: ds) := rfl
    rw [hsplit, String.toList_append, String.toList_append, List.count_append, List.count_append,
      count_quote_compound hc, count_quote_compounds hds, hcomma, hvalues, quotesIn_append,
      Nat.add_zero]

theorem count_quote_pseudos : ∀ {ps : List Pseudo}, PseudosLegible ps →
    (pseudosText ps).toList.count '\'' = quotesIn (pseudosValues ps)
  | [], _ => rfl
  | p :: ps, ⟨hp, hps⟩ => by
    rw [pseudosText, String.toList_append, List.count_append, count_quote_pseudo hp,
      count_quote_pseudos hps, pseudosValues, quotesIn_append]

end

/-- In the text of a legible alternative only its values have single quotes, `quotesIn x.values`. -/
theorem count_quote_complex : ∀ {x : Complex}, x.Legible →
    x.text.toList.count '\'' = quotesIn x.values
  | .compound _, h => count_quote_compound h
  | .combine left k right, ⟨hleft, hright⟩ => by
    have hk : k.text.toList.count '\'' = 0 := by cases k <;> decide
    rw [Complex.text, String.toList_append, String.toList_append, List.count_append,
      List.count_append, count_quote_complex hleft, hk, count_quote_compound hright, Complex.values,
      quotesIn_append, Nat.add_zero]

theorem count_quote_furtherAlternatives : ∀ {xs : List Complex}, (∀ x ∈ xs, x.Legible) →
    (furtherAlternativesText xs).count '\'' = quotesIn (xs.flatMap Complex.values)
  | [], _ => rfl
  | x :: xs, h => by
    obtain ⟨hx, hxs⟩ := List.forall_mem_cons.mp h
    have hrest := count_quote_furtherAlternatives hxs
    rw [furtherAlternativesText] at hrest
    rw [furtherAlternativesText, List.flatMap_cons, List.count_append, hrest, List.flatMap_cons,
      quotesIn_append, ← count_quote_complex hx]
    simp

/-- The text of a legible selector has no single quotes but those of its values,
`quotesIn s.values`. -/
theorem count_quote_text {s : Selector} (h : s.Legible) :
    s.text.toList.count '\'' = quotesIn s.values := by
  obtain ⟨alternatives⟩ := s
  cases alternatives with
  | nil => exact absurd rfl h.nonempty
  | cons x xs =>
    obtain ⟨hx, hxs⟩ := List.forall_mem_cons.mp h.alternatives
    rw [toList_text, List.count_append, count_quote_complex hx, count_quote_furtherAlternatives hxs,
      values, List.flatMap_cons, quotesIn_append]

/-- Values are charged for the quotes that they have, at least: `quotesIn vs ≤ chargeAll vs`. -/
theorem quotesIn_le_chargeAll : ∀ vs : List String, quotesIn vs ≤ chargeAll vs
  | [] => Nat.le_refl 0
  | v :: vs => by
    have hrest := quotesIn_le_chargeAll vs
    simp only [quotesIn, chargeAll, charge, List.map_cons, List.sum_cons] at hrest ⊢
    omega

/-- Values with `chargeAll vs ≤ quotesIn vs` have no `'"'`, as one of those costs a pair of single
quotes. -/
theorem no_doubleQuote_of_chargeAll_le : ∀ {vs : List String}, chargeAll vs ≤ quotesIn vs →
    ∀ v ∈ vs, '"' ∉ v.toList
  | [], _ => nofun
  | v :: vs, h => by
    have hrest := quotesIn_le_chargeAll vs
    simp only [quotesIn, chargeAll, charge, List.map_cons, List.sum_cons] at h hrest
    refine List.forall_mem_cons.mpr ⟨fun hmem => ?_, no_doubleQuote_of_chargeAll_le ?_⟩
    · rw [if_pos hmem] at h
      omega
    · rw [chargeAll, quotesIn]
      omega

/-- **A selector that was read is read again from its text exactly if no value has a double
quote.** -/
theorem parse_text_iff {source : String} {s : Selector} (h : parse source = .ok s) :
    parse s.text = .ok s ↔ ∀ v ∈ s.values, '"' ∉ v.toList := by
  obtain ⟨hlegible, -⟩ := legible_of_parse h
  constructor
  · intro hagain
    obtain ⟨-, hcharge⟩ := legible_of_parse hagain
    rw [count_quote_text hlegible] at hcharge
    exact no_doubleQuote_of_chargeAll_le hcharge
  · exact parse_text hlegible

/-- Two selectors that differ in the quotes around a value only: the text of one is read as itself,
that of the other is not. -/
theorem parse_text_iff_of_quotes : ∃ s s' : Selector,
    parse "p > A:not([b='c d'], :nth-child( 2N - 1 )) , .e#f" = .ok s ∧
    parse "p:not([b='\"'])" = .ok s' ∧
    (parse s.text = .ok s ↔ ∀ v ∈ s.values, '"' ∉ v.toList) ∧
    (parse s'.text = .ok s' ↔ ∀ v ∈ s'.values, '"' ∉ v.toList) ∧
    s.text = "p > a:not([b=\"c d\"], :nth-child(2n-1)), #f.e" ∧
    s.values = ["c d"] ∧ s'.values = ["\""] := by
  have hplayed : (match parse "p > A:not([b='c d'], :nth-child( 2N - 1 )) , .e#f",
        parse "p:not([b='\"'])" with
      | .ok s, .ok s' => decide (s.text = "p > a:not([b=\"c d\"], :nth-child(2n-1)), #f.e" ∧
          s.values = ["c d"] ∧ s'.values = ["\""])
      | _, _ => false) = true := by
    decide +kernel
  split at hplayed
  · rename_i s s' h h'
    exact ⟨s, s', h, h', parse_text_iff h, parse_text_iff h', of_decide_eq_true hplayed⟩
  · exact absurd hplayed (by simp)

end Inlay.Selector
