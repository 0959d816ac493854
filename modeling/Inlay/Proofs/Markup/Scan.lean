import Inlay.Proofs.Markup.Lex

/-!
# What the tokenizer emits

Whatever the input, the tags and comments that come out of it can be written down again: names and
comments are canonical, attributes stand in ascending order, and no value holds a NUL. Only a
carriage return may be in a value, since a character reference can stand for one.

The invariant `State.Sane` says the same of what has been read so far; every step keeps it
(`State.Sane.step`), and so every token has it (`sane_tokenize`).
-/

namespace Inlay.Markup

/-- An element as a start tag gives it: canonical but for carriage returns in values. -/
structure ScannedElement (e : Element) : Prop where
  tag : CanonicalTag e.tag
  names : ∀ x ∈ e.attrs, CanonicalName x.1
  ascending : e.attrs.Pairwise fun x y => x.1 < y.1
  values : ∀ x ∈ e.attrs, '\x00' ∉ x.2.toList

def Token.Sane : Token → Prop
  | .startTag name attrs _ => ScannedElement ⟨name, attrs⟩
  | .comment s => CanonicalComment s
  | .text _ | .endTag _ | .doctype | .error => True

def TagDraft.Sane (t : TagDraft) : Prop :=
  ScannedElement ⟨t.name, t.attrs⟩

/-- An attribute value being read, without a NUL so far. -/
structure ValueDraft.Sane (v : ValueDraft) : Prop where
  tag : v.tag.Sane
  name : CanonicalName v.name
  value : '\x00' ∉ v.value.toList

/-- A reference being read, the text of which holds no NUL. -/
def Reference.Sane : Reference → Prop
  | .named name => '\x00' ∉ name.toList
  | .hexMark x => x ≠ '\x00'
  | .ampersand | .number | .decimal _ | .hex _ => True

/-- What a comment can hold that ends at the first `>`. -/
structure Bare (s : String) : Prop where
  noReturn : '\r' ∉ s.toList
  noNul : '\x00' ∉ s.toList
  noEnd : '>' ∉ s.toList

/-- The invariant of the tokenizer. Inside a comment it depends on the dashes at the end of what has
been read whether a `>` could end the comment there. -/
def State.Sane : State → Prop
  | data | tagOpen | endTagOpen | commentStart | commentStartDash | doctype => True
  | tagName t | beforeAttr t | afterValue t | slash t => t.Sane
  | attrName t name | afterAttrName t name | beforeValue t name => t.Sane ∧ CanonicalName name
  | value v => v.Sane
  | valueReference v r => v.Sane ∧ r.Sane
  | textReference r => r.Sane
  | declaration s | bogusComment s => Bare s
  | comment s => CanonicalComment s ∧ s ≠ "" ∧ ¬ ['-'] <:+ s.toList ∧ ¬ ['-', '-', '!'] <:+ s.toList
  | commentDash s => CanonicalComment s ∧ s ≠ "" ∧ ¬ ['-'] <:+ s.toList
  | commentDashes s | commentBang s => CanonicalComment s

/-- What a step leads to and emits is sane. -/
def Step.Sane (p : Step) : Prop :=
  p.1.Sane ∧ ∀ token ∈ p.2, token.Sane

theorem State.Sane.silent {s : State} (h : s.Sane) : Step.Sane (s, []) :=
  ⟨h, fun _ ht => absurd ht List.not_mem_nil⟩

theorem Token.Sane.alone {s : State} {token : Token} (h : token.Sane) (hs : s.Sane) :
    Step.Sane (s, [token]) :=
  ⟨hs, fun _ ht => List.mem_singleton.mp ht ▸ h⟩

/-! ### Characters -/

theorem noNul_ne (c : Char) : noNul c ≠ '\x00' := by
  unfold noNul
  split
  · decide
  · assumption

/-- Nothing but U+FFFD comes from a character other than itself: `noNul c = d` gives `c = d`. -/
theorem eq_of_noNul_eq {c d : Char} (hd : d ≠ '\ufffd') (h : noNul c = d) : c = d := by
  unfold noNul at h
  split at h
  · exact absurd h.symm hd
  · exact h

theorem forall_mem_push {p : Char → Prop} {s : String} {c : Char} (h : ∀ d ∈ s.toList, p d)
    (hc : p c) : ∀ d ∈ (s.push c).toList, p d := by
  intro d hd
  rw [String.toList_push, List.mem_append, List.mem_singleton] at hd
  rcases hd with hd | rfl
  · exact h d hd
  · exact hc

theorem nul_not_mem_push {s : String} {c : Char} (h : '\x00' ∉ s.toList) (hc : c ≠ '\x00') :
    '\x00' ∉ (s.push c).toList := by
  rw [String.toList_push, List.mem_append, List.mem_singleton, not_or]
  exact ⟨h, hc.symm⟩

theorem nul_not_mem_append {s t : String} (hs : '\x00' ∉ s.toList) (ht : '\x00' ∉ t.toList) :
    '\x00' ∉ (s ++ t).toList := by
  rw [String.toList_append, List.mem_append, not_or]
  exact ⟨hs, ht⟩

/-- Folding the case gives lowercase letters, and leaves every other character `d` as it is. -/
theorem eq_of_toLower_eq {c d : Char} (hd : d.isLower = false) (h : c.toLower = d) : c = d := by
  by_cases hupper : c.isUpper = true
  · have hlower : c.toLower.isLower = true := by
      rw [Char.isLower_toLower_eq_isAlpha, Char.isAlpha, hupper, Bool.true_or]
    rw [h, hd] at hlower
    exact absurd hlower (by simp)
  · rwa [Char.toLower_eq_of_not_isUpper hupper] at h

theorem noNul_toLower_ne {c d : Char} (hd : d.isLower = false) (hreplaced : d ≠ '\ufffd')
    (h : c ≠ d) : noNul c.toLower ≠ d :=
  fun he => h (eq_of_toLower_eq hd (eq_of_noNul_eq hreplaced he))

/-- A `c` that ends neither a name nor the tag can stand in a name, in lower case and with no
NUL. -/
theorem nameChar_of_step {c : Char} (hspace : isTagSpace c = false) (hslash : c ≠ '/')
    (hend : c ≠ '>') (hreturn : c ≠ '\r') : NameChar (noNul c.toLower) := by
  simp only [isTagSpace, Bool.or_eq_false_iff, beq_eq_false_iff_ne, ne_eq] at hspace
  obtain ⟨⟨⟨hblank, htab⟩, hfeed⟩, hform⟩ := hspace
  have hspace' : Text.isAsciiSpace (noNul c.toLower) = false := by
    simp only [Text.isAsciiSpace, Bool.or_eq_false_iff, beq_eq_false_iff_ne, ne_eq]
    exact ⟨⟨⟨⟨noNul_toLower_ne rfl (by decide) hblank, noNul_toLower_ne rfl (by decide) htab⟩,
      noNul_toLower_ne rfl (by decide) hfeed⟩, noNul_toLower_ne rfl (by decide) hform⟩,
      noNul_toLower_ne rfl (by decide) hreturn⟩
  have hupper : (noNul c.toLower).isUpper = false := by
    unfold noNul
    split
    · decide
    · exact Char.isUpper_toLower_eq_false c
  exact ⟨hupper, hspace', noNul_toLower_ne rfl (by decide) hslash,
    noNul_toLower_ne rfl (by decide) hend, noNul_ne _⟩

theorem nameChar_of_isLower {c : Char} (h : c.isLower = true) : NameChar c := by
  have hne : ∀ {d : Char}, d.isAlpha = false → c ≠ d := ne_of_isAlpha (isAlpha_of_isLower h)
  have hupper : c.isUpper = false := by
    by_contra hupper
    have hfold := Char.isUpper_toLower_eq_false c
    simp only [Char.isUpper, Char.isLower, Bool.and_eq_true, decide_eq_true_eq, ge_iff_le,
      UInt32.le_iff_toNat_le, Bool.not_eq_false] at h hupper
    have hlow : 97 ≤ c.val.toNat := h.1
    have hhigh : c.val.toNat ≤ 90 := hupper.2
    omega
  have hspace : Text.isAsciiSpace c = false := by
    simp only [Text.isAsciiSpace, Bool.or_eq_false_iff, beq_eq_false_iff_ne]
    exact ⟨⟨⟨⟨hne rfl, hne rfl⟩, hne rfl⟩, hne rfl⟩, hne rfl⟩
  exact ⟨hupper, hspace, hne rfl, hne rfl, hne rfl⟩

/-! ### Names -/

theorem CanonicalTag.single {c : Char} (h : c.isLower = true) : CanonicalTag c.toString where
  head := by simpa using h
  chars d hd := by
    obtain rfl : d = c := by simpa using hd
    exact nameChar_of_isLower h

theorem CanonicalTag.push {tag : String} (h : CanonicalTag tag) {c : Char} (hc : NameChar c) :
    CanonicalTag (tag.push c) where
  head := by
    obtain ⟨d, ds, hds, hlower⟩ := h.exists_cons
    simpa [hds] using hlower
  chars := forall_mem_push h.chars hc

theorem CanonicalName.single {c : Char} (hc : NameChar c) : CanonicalName ("".push c) where
  nonempty h := by simpa using congrArg String.toList h
  chars d hd := by
    obtain rfl : d = c := by simpa using hd
    exact hc
  equals := by simp

theorem CanonicalName.push {name : String} (h : CanonicalName name) {c : Char} (hc : NameChar c)
    (hequals : c ≠ '=') : CanonicalName (name.push c) where
  nonempty he := by simpa using congrArg String.toList he
  chars := forall_mem_push h.chars hc
  equals := by
    have hname : name.toList ≠ [] := fun he => h.nonempty (String.toList_eq_nil_iff.mp he)
    rw [String.toList_push, List.tail_append_of_ne_nil hname, List.mem_append, not_or]
    exact ⟨h.equals, by simpa using hequals.symm⟩

/-! ### Attributes -/

/-- An attribute that is there afterwards is `(name, value)`, or was there before. -/
theorem mem_putAttr {name value : String} {x : String × String} :
    ∀ {attrs : List (String × String)}, x ∈ putAttr name value attrs → x = (name, value) ∨ x ∈ attrs
  | [], h => .inl (List.mem_singleton.mp h)
  | (k, v) :: rest, h => by
    unfold putAttr at h
    split at h
    · exact List.mem_cons.mp h
    · split at h
      · exact .inr h
      · rcases List.mem_cons.mp h with rfl | h
        · exact .inr List.mem_cons_self
        · exact (mem_putAttr h).imp_right (List.mem_cons_of_mem _)

/-- The names of `putAttr name value attrs` ascend if those of `attrs` do. -/
theorem pairwise_putAttr (name value : String) : ∀ {attrs : List (String × String)},
    attrs.Pairwise (fun x y => x.1 < y.1) →
    (putAttr name value attrs).Pairwise fun x y => x.1 < y.1
  | [], _ => List.pairwise_singleton ..
  | (k, v) :: rest, h => by
    obtain ⟨hk, hrest⟩ := List.pairwise_cons.mp h
    unfold putAttr
    split
    · rename_i hlt
      refine List.pairwise_cons.mpr ⟨fun x hx => ?_, h⟩
      rcases List.mem_cons.mp hx with rfl | hx
      · exact hlt
      · exact String.lt_trans hlt (hk x hx)
    · split
      · exact h
      · rename_i hnot hne
        refine List.pairwise_cons.mpr ⟨fun x hx => ?_, pairwise_putAttr name value hrest⟩
        rcases mem_putAttr hx with rfl | hx
        · exact lt_of_le_of_ne (not_lt.mp hnot) (Ne.symm hne)
        · exact hk x hx

/-- A tag stays sane with one more attribute that has a canonical `name` and no NUL in its
`value`. -/
theorem TagDraft.Sane.withAttr {t : TagDraft} (h : t.Sane) {name value : String}
    (hname : CanonicalName name) (hvalue : '\x00' ∉ value.toList) :
    (t.withAttr name value).Sane where
  tag := h.tag
  names x hx := by
    rcases mem_putAttr hx with rfl | hx
    · exact hname
    · exact h.names x hx
  ascending := pairwise_putAttr name value h.ascending
  values x hx := by
    rcases mem_putAttr hx with rfl | hx
    · exact hvalue
    · exact h.values x hx

/-- A tag of which the first letter `c` was read is sane. -/
theorem TagDraft.sane_begin (closing : Bool) {c : Char} (h : c.isAlpha = true) :
    TagDraft.Sane ⟨closing, c.toLower.toString, []⟩ where
  tag := .single (by rwa [Char.isLower_toLower_eq_isAlpha])
  names := by simp
  ascending := List.Pairwise.nil
  values := by simp

/-- A tag stays sane with a canonical `name` that has no value. -/
theorem TagDraft.Sane.withBare {t : TagDraft} (h : t.Sane) {name : String}
    (hname : CanonicalName name) : (t.withAttr name "").Sane :=
  h.withAttr hname (by simp)

/-- The token of a sane tag is sane, `selfClosing` or not. -/
theorem TagDraft.Sane.close {t : TagDraft} (h : t.Sane) (selfClosing : Bool) :
    (t.close selfClosing).Sane := by
  refine Token.Sane.alone ?_ trivial
  unfold TagDraft.token
  split
  · trivial
  · exact h

/-! ### Comments -/

theorem Bare.comment {s : String} (h : Bare s) : CanonicalComment s where
  noReturn := h.noReturn
  noNul := h.noNul
  start hs := h.noEnd (hs.subset (by simp))
  startDash hs := h.noEnd (hs.subset (by simp))
  noEnd hs := h.noEnd (hs.subset (by simp))
  noBangEnd hs := h.noEnd (hs.subset (by simp))

/-- A comment without dashes goes on with any character but `>`. -/
theorem Bare.push {s : String} (h : Bare s) {c : Char} (hreturn : c ≠ '\r') (hnul : c ≠ '\x00')
    (hend : c ≠ '>') : Bare (s.push c) where
  noReturn := by simpa using ⟨h.noReturn, hreturn.symm⟩
  noNul := nul_not_mem_push h.noNul hnul
  noEnd := by simpa using ⟨h.noEnd, hend.symm⟩

theorem bare_empty : Bare "" where
  noReturn := by simp
  noNul := by simp
  noEnd := by simp

theorem suffix_concat_concat {l cs : List Char} {c d : Char} (h : l ++ [d] <:+ cs ++ [c]) :
    c = d ∧ l <:+ cs := by
  rcases List.suffix_concat_iff.mp h with h | ⟨t, ht, hsuffix⟩
  · exact absurd h (by simp)
  · obtain ⟨rfl, hd⟩ := List.append_inj' ht rfl
    exact ⟨by simpa using hd.symm, hsuffix⟩

/-- Something that ends with `>` comes into a comment with that character only: it was in `cs`, or
`c` is the `>`. -/
theorem infix_concat_end {l cs : List Char} {c : Char} (h : l ++ ['>'] <:+: cs ++ [c]) :
    l ++ ['>'] <:+: cs ∨ c = '>' ∧ l <:+ cs := by
  rcases List.infix_concat_iff.mp h with h | h
  · exact .inr (suffix_concat_concat h)
  · exact .inl h

theorem prefix_concat_end {l cs : List Char} {c : Char} (h : l ++ ['>'] <+: cs ++ [c]) :
    l ++ ['>'] <+: cs ∨ c = '>' ∧ l = cs := by
  rcases List.prefix_concat_iff.mp h with h | h
  · obtain ⟨rfl, hc⟩ := List.append_inj' h rfl
    exact .inr ⟨by simpa using hc.symm, rfl⟩
  · exact .inl h

/-- Where a `>` would end the comment. -/
def Ends (s : String) : Prop :=
  s = "" ∨ s = "-" ∨ ['-', '-'] <:+ s.toList ∨ ['-', '-', '!'] <:+ s.toList

/-- A canonical comment can go on with any character `c` that does not end it. -/
theorem CanonicalComment.push {s : String} (h : CanonicalComment s) {c : Char} (hreturn : c ≠ '\r')
    (hnul : c ≠ '\x00') (hend : c = '>' → ¬ Ends s) : CanonicalComment (s.push c) where
  -- all that a comment cannot hold ends with `>`, so the new character would have to be that
  noReturn := by simpa using ⟨h.noReturn, hreturn.symm⟩
  noNul := nul_not_mem_push h.noNul hnul
  start hs := by
    rw [String.toList_push] at hs
    rcases prefix_concat_end (l := []) hs with hs | ⟨hc, hs⟩
    · exact h.start hs
    · exact hend hc (.inl (String.toList_eq_nil_iff.mp hs.symm))
  startDash hs := by
    rw [String.toList_push] at hs
    rcases prefix_concat_end (l := ['-']) hs with hs | ⟨hc, hs⟩
    · exact h.startDash hs
    · exact hend hc (.inr (.inl (String.toList_inj.mp hs.symm)))
  noEnd hs := by
    rw [String.toList_push] at hs
    rcases infix_concat_end (l := ['-', '-']) hs with hs | ⟨hc, hs⟩
    · exact h.noEnd hs
    · exact hend hc (.inr (.inr (.inl hs)))
  noBangEnd hs := by
    rw [String.toList_push] at hs
    rcases infix_concat_end (l := ['-', '-', '!']) hs with hs | ⟨hc, hs⟩
    · exact h.noBangEnd hs
    · exact hend hc (.inr (.inr (.inr hs)))

theorem CanonicalComment.dash {s : String} (h : CanonicalComment s) :
    CanonicalComment (s.push '-') :=
  h.push (by decide) (by decide) fun hc => absurd hc (by decide)

/-- A canonical comment is so with `"--"` at its end. -/
theorem CanonicalComment.dashes {s : String} (h : CanonicalComment s) :
    CanonicalComment (s ++ "--") := by
  have hs : s ++ "--" = (s.push '-').push '-' := by simp [← String.toList_inj]
  rw [hs]
  exact h.dash.dash

theorem CanonicalComment.bang {s : String} (h : CanonicalComment s) :
    CanonicalComment (s ++ "--!") := by
  have hs : s ++ "--!" = (s ++ "--").push '!' := by simp [← String.toList_inj]
  rw [hs]
  exact h.dashes.push (by decide) (by decide) fun hc => absurd hc (by decide)

/-! ### References -/

/-- No named reference stands for a text with `'\x00'`. -/
theorem nul_not_mem_namesUnder (c : Char) : ∀ p ∈ namesUnder c, '\x00' ∉ p.2.toList := by
  unfold namesUnder
  split <;> decide +kernel

/-- What a `name` stands for has no `'\x00'`. -/
theorem nul_not_mem_namedText? {name text : String} (h : namedText? name = some text) :
    '\x00' ∉ text.toList := by
  unfold namedText? at h
  split at h
  · exact absurd h (by simp)
  · obtain ⟨before, after, hnames, -⟩ := List.lookup_eq_some_iff.mp h
    exact nul_not_mem_namesUnder _ (_, text) (hnames ▸ List.mem_append_right _ List.mem_cons_self)

theorem mem_of_longestBare? {name : List Char} : ∀ {n : Nat} {p : String} {rest : List Char},
    longestBare? name n = some (p, rest) → rest ⊆ name
  | 0, _, _, h => absurd h (by simp [longestBare?])
  | n + 1, p, rest, h => by
    rw [longestBare?] at h
    split at h
    · obtain ⟨-, rfl⟩ := Prod.mk.inj (Option.some.inj h)
      exact List.drop_subset ..
    · exact mem_of_longestBare? h

/-- Nor has what is read where a name is not ended by `;`, as only parts of the name itself are
added. -/
theorem nul_not_mem_bareText {name : String} (h : '\x00' ∉ name.toList) (inValue : Bool)
    (next : Option Char) : '\x00' ∉ (bareText inValue name next).toList := by
  have hamp : '\x00' ∉ ("&" ++ name).toList := nul_not_mem_append (by decide) h
  unfold bareText
  split
  · exact hamp
  · rename_i p rest hbare
    split
    · exact hamp
    · refine nul_not_mem_append ?_ ?_
      · cases htext : namedText? p with
        | none => exact List.not_mem_nil
        | some text => exact nul_not_mem_namedText? htext
      · rw [String.toList_ofList]
        exact fun hmem => h (mem_of_longestBare? hbare hmem)

/-- A number `n ≠ 0` of a character is not that of NUL. -/
theorem ofNat_ne {n : Nat} (hzero : n ≠ 0) (hlarge : n ≤ 0x10ffff)
    (hsurrogate : ¬ (0xd800 ≤ n ∧ n ≤ 0xdfff)) : Char.ofNat n ≠ '\x00' := by
  intro he
  have hvalid : n.isValidChar := by
    unfold Nat.isValidChar
    omega
  have hnat := congrArg Char.toNat he
  rw [Char.toNat_ofNat, if_pos hvalid] at hnat
  exact hzero hnat

/-- A numbered reference never stands for `'\x00'`, which U+FFFD replaces. -/
theorem numberedChar_ne (n : Nat) : numberedChar n ≠ '\x00' := by
  unfold numberedChar
  split
  · decide
  · rename_i hn
    rw [not_or, not_or, Nat.not_lt] at hn
    -- some numbers stand for other characters, for historical reasons
    cases hreplaced : c1Replacements.lookup n with
    | none => exact ofNat_ne hn.1 hn.2.1 hn.2.2
    | some m =>
      obtain ⟨before, after, htable, -⟩ := List.lookup_eq_some_iff.mp hreplaced
      have hall : ∀ p ∈ c1Replacements, Char.ofNat p.2 ≠ '\x00' := by decide
      exact hall (n, m) (by simp [htable])

/-- What a sane reference comes to has no `'\x00'`. -/
theorem Reference.Sane.close {r : Reference} (h : r.Sane) (inValue : Bool) (next : Option Char) :
    '\x00' ∉ (r.close inValue next).1.toList := by
  cases r with
  | ampersand => simp [Reference.close]
  | number => simp [Reference.close]
  -- a mark with no digits behind it stays text
  | hexMark x => simpa [Reference.close] using Ne.symm h
  | decimal n => simpa [Reference.close] using (numberedChar_ne n).symm
  | hex n => simpa [Reference.close] using (numberedChar_ne n).symm
  | named name =>
    unfold Reference.close
    dsimp only
    split
    · exact nul_not_mem_namedText? ‹_›
    · exact nul_not_mem_bareText h _ _

theorem Reference.Sane.extend {r r' : Reference} (h : r.Sane) {c : Char}
    (he : r.extend? c = some r') : r'.Sane := by
  have hne : ∀ {d : Char}, d.isAlphanum = true → d ≠ '\x00' := by
    rintro d hd rfl
    exact absurd hd (by decide)
  cases r with
  | ampersand =>
    simp only [Reference.extend?] at he
    split at he
    · rename_i hc
      obtain rfl := Option.some.inj he
      simpa [Reference.Sane] using (hne hc).symm
    · split at he
      · obtain rfl := Option.some.inj he
        trivial
      · exact absurd he (by simp)
  | named name =>
    simp only [Reference.extend?] at he
    split at he
    · rename_i hc
      obtain rfl := Option.some.inj he
      exact nul_not_mem_push h (hne hc)
    · exact absurd he (by simp)
  | number =>
    simp only [Reference.extend?] at he
    split at he
    · obtain rfl := Option.some.inj he
      trivial
    · split at he
      · rename_i hx
        obtain rfl := Option.some.inj he
        rcases hx with rfl | rfl <;> simp [Reference.Sane]
      · exact absurd he (by simp)
  | decimal | hexMark | hex =>
    simp only [Reference.extend?, Option.ite_none_right_eq_some, Option.some.injEq] at he
    obtain ⟨-, rfl⟩ := he
    trivial

/-! ### Steps

The input has no carriage returns, since line ends are unified before it is read. -/

section Steps

variable {t : TagDraft} {name s : String} {c : Char}

theorem sane_stepData (c : Char) : Step.Sane (stepData c) := by
  unfold stepData
  split
  · exact State.Sane.silent trivial
  · split
    · exact State.Sane.silent trivial
    · exact Token.Sane.alone trivial trivial

/-- A step stays sane with `.text s` in front of what it emits. -/
theorem Step.Sane.text {p : Step} (h : p.Sane) (s : String) : Step.Sane (p.1, .text s :: p.2) := by
  refine ⟨h.1, fun token ht => ?_⟩
  rcases List.mem_cons.mp ht with rfl | ht
  · trivial
  · exact h.2 token ht

theorem sane_stepBogusComment (h : Bare s) (hreturn : c ≠ '\r') :
    Step.Sane (stepBogusComment s c) := by
  unfold stepBogusComment
  split
  · exact Token.Sane.alone h.comment trivial
  · rename_i hend
    -- a NUL becomes U+FFFD, which is neither of the two
    have hreturn' : noNul c ≠ '\r' := fun he => hreturn (eq_of_noNul_eq (by decide) he)
    have hend' : noNul c ≠ '>' := fun he => hend (eq_of_noNul_eq (by decide) he)
    exact State.Sane.silent (h.push hreturn' (noNul_ne c) hend')

/-- Behind `<` a tag, a comment or a declaration begins, or the `<` was a text. -/
theorem sane_stepTagOpen (hreturn : c ≠ '\r') : Step.Sane (stepTagOpen c) := by
  unfold stepTagOpen
  split
  · exact State.Sane.silent bare_empty
  split
  · exact State.Sane.silent trivial
  split
  · exact State.Sane.silent (TagDraft.sane_begin _ ‹_›)
  split
  · exact sane_stepBogusComment bare_empty hreturn
  · exact (sane_stepData c).text "<"

theorem sane_stepEndTagOpen (hreturn : c ≠ '\r') : Step.Sane (stepEndTagOpen c) := by
  unfold stepEndTagOpen
  split
  · exact State.Sane.silent (TagDraft.sane_begin _ ‹_›)
  split
  · exact State.Sane.silent trivial
  · exact sane_stepBogusComment bare_empty hreturn

/-- A tag name goes on with `c`, or ends with a space, a slash or the end of the tag. -/
theorem sane_stepTagName (h : t.Sane) (hreturn : c ≠ '\r') : Step.Sane (stepTagName t c) := by
  unfold stepTagName
  split
  · exact State.Sane.silent h
  rename_i hspace
  split
  · exact State.Sane.silent h
  rename_i hslash
  split
  · exact h.close false
  · rename_i hend
    have hc := nameChar_of_step (Bool.eq_false_iff.mpr hspace) hslash hend hreturn
    exact State.Sane.silent ⟨h.tag.push hc, h.names, h.ascending, h.values⟩

/-- An attribute name goes on with `c`, or ends with a space, a slash, an equals sign or the end of
the tag. -/
theorem sane_stepAttrName (h : t.Sane) (hname : CanonicalName name) (hreturn : c ≠ '\r') :
    Step.Sane (stepAttrName t name c) := by
  unfold stepAttrName
  split
  · exact State.Sane.silent ⟨h, hname⟩
  rename_i hspace
  split
  · exact State.Sane.silent (h.withBare hname)
  rename_i hslash
  split
  · exact (h.withBare hname).close false
  rename_i hend
  split
  · exact State.Sane.silent ⟨h, hname⟩
  · rename_i hequals
    have hc := nameChar_of_step (Bool.eq_false_iff.mpr hspace) hslash hend hreturn
    exact State.Sane.silent ⟨h, hname.push hc (noNul_toLower_ne rfl (by decide) hequals)⟩

/-- The first character `c` of a name, with those that have a meaning there dealt with before. -/
theorem sane_stepAttrName_empty (h : t.Sane) (hspace : ¬ isTagSpace c = true) (hslash : c ≠ '/')
    (hend : c ≠ '>') (hequals : c ≠ '=') (hreturn : c ≠ '\r') :
    Step.Sane (stepAttrName t "" c) := by
  rw [stepAttrName, if_neg hspace, if_neg hslash, if_neg hend, if_neg hequals]
  have hc := nameChar_of_step (Bool.eq_false_iff.mpr hspace) hslash hend hreturn
  exact State.Sane.silent ⟨h, .single hc⟩

theorem sane_stepBeforeAttr (h : t.Sane) (hreturn : c ≠ '\r') : Step.Sane (stepBeforeAttr t c) := by
  unfold stepBeforeAttr
  split
  · exact State.Sane.silent h
  rename_i hspace
  split
  · exact State.Sane.silent h
  rename_i hslash
  split
  · exact h.close false
  rename_i hend
  split
  · exact State.Sane.silent ⟨h, by decide⟩
  · rename_i hequals
    exact sane_stepAttrName_empty h hspace hslash hend hequals hreturn

theorem sane_stepAfterAttrName (h : t.Sane) (hname : CanonicalName name) (hreturn : c ≠ '\r') :
    Step.Sane (stepAfterAttrName t name c) := by
  unfold stepAfterAttrName
  split
  · exact State.Sane.silent ⟨h, hname⟩
  rename_i hspace
  split
  · exact State.Sane.silent (h.withBare hname)
  rename_i hslash
  split
  · exact (h.withBare hname).close false
  rename_i hend
  split
  · exact State.Sane.silent ⟨h, hname⟩
  · rename_i hequals
    exact sane_stepAttrName_empty (h.withBare hname) hspace hslash hend hequals hreturn

/-- A value goes on with `c`, or ends with its quote, a space or the end of the tag. -/
theorem sane_stepValue {v : ValueDraft} (h : v.Sane) (c : Char) : Step.Sane (stepValue v c) := by
  have hdone := h.tag.withAttr h.name h.value
  unfold stepValue
  dsimp only
  split
  · exact State.Sane.silent hdone
  split
  · exact State.Sane.silent ⟨h, trivial⟩
  split
  · exact State.Sane.silent hdone
  split
  · exact hdone.close false
  · exact State.Sane.silent ⟨h.tag, h.name, nul_not_mem_push h.value (noNul_ne c)⟩

theorem sane_stepBeforeValue (h : t.Sane) (hname : CanonicalName name) (c : Char) :
    Step.Sane (stepBeforeValue t name c) := by
  have hvalue : ∀ quoting, ValueDraft.Sane ⟨quoting, t, name, ""⟩ := fun _ => ⟨h, hname, by simp⟩
  unfold stepBeforeValue
  split
  · exact State.Sane.silent ⟨h, hname⟩
  split
  · exact State.Sane.silent (hvalue _)
  split
  · exact State.Sane.silent (hvalue _)
  split
  · exact (h.withBare hname).close false
  · exact sane_stepValue (hvalue _) c

theorem sane_stepAfterValue (h : t.Sane) (hreturn : c ≠ '\r') : Step.Sane (stepAfterValue t c) := by
  unfold stepAfterValue
  split
  · exact State.Sane.silent h
  split
  · exact State.Sane.silent h
  split
  · exact h.close false
  · exact sane_stepBeforeAttr h hreturn

theorem sane_stepSlash (h : t.Sane) (hreturn : c ≠ '\r') : Step.Sane (stepSlash t c) := by
  unfold stepSlash
  split
  · exact h.close true
  · exact sane_stepBeforeAttr h hreturn

theorem sane_stepDeclaration (h : Bare s) (hreturn : c ≠ '\r') :
    Step.Sane (stepDeclaration s c) := by
  unfold stepDeclaration
  dsimp only
  split
  · exact State.Sane.silent trivial
  split
  · exact State.Sane.silent trivial
  split
  · rename_i hprefix
    -- what may be read here is a dash or a letter of `doctype`
    have hmem : c.toLower ∈ "-doctype".toList := by
      rcases hprefix with hdash | hdoctype
      · have hlast := congrArg String.toList hdash
        rw [String.toList_push] at hlast
        have hc := (List.append_inj' (show _ ++ [_] = [] ++ ['-'] from hlast) rfl).2
        rw [List.singleton_inj.mp hc]
        decide
      · rw [Text.toList_toLower, String.toList_push, List.map_append] at hdoctype
        have hsub := (List.isPrefixOf_iff_prefix.mp hdoctype).subset
        exact List.mem_cons_of_mem _ (hsub (by simp))
    have hnul : c ≠ '\x00' := by
      rintro rfl
      exact absurd hmem (by decide)
    have hend : c ≠ '>' := by
      rintro rfl
      exact absurd hmem (by decide)
    exact State.Sane.silent (h.push hreturn hnul hend)
  · exact sane_stepBogusComment h hreturn

/-! ### Steps inside comments -/

/-- A comment goes on with a character that is no dash and does not end it, `c = '>' → ¬ Ends s`. -/
theorem sane_stepComment (h : CanonicalComment s) (hreturn : c ≠ '\r') (hdash : c ≠ '-')
    (hend : c = '>' → ¬ Ends s) (hbang : c = '!' → ¬ ['-', '-'] <:+ s.toList) :
    Step.Sane (stepComment s c) := by
  rw [stepComment, if_neg hdash]
  have hreturn' : noNul c ≠ '\r' := fun he => hreturn (eq_of_noNul_eq (by decide) he)
  have hdash' : noNul c ≠ '-' := fun he => hdash (eq_of_noNul_eq (by decide) he)
  have hpush : CanonicalComment (s.push (noNul c)) :=
    h.push hreturn' (noNul_ne c) fun he => hend (eq_of_noNul_eq (by decide) he)
  refine State.Sane.silent ⟨hpush, fun he => ?_, fun he => ?_, fun he => ?_⟩
  · simpa using congrArg String.toList he
  · rw [String.toList_push] at he
    exact hdash' (suffix_concat_concat (l := []) he).1
  · rw [String.toList_push] at he
    obtain ⟨hc, hsuffix⟩ := suffix_concat_concat (l := ['-', '-']) he
    exact hbang (eq_of_noNul_eq (by decide) hc) hsuffix

theorem sane_stepCommentStart (hreturn : c ≠ '\r') : Step.Sane (stepCommentStart c) := by
  unfold stepCommentStart
  split
  · exact State.Sane.silent trivial
  rename_i hdash
  split
  · exact Token.Sane.alone bare_empty.comment trivial
  · rename_i hend
    exact sane_stepComment bare_empty.comment hreturn hdash (fun he => absurd he hend)
      fun _ => by decide

/-- After a dash, in front of which the comment has begun, `s ≠ ""`, or no `>` follows. -/
theorem sane_stepCommentDash (h : CanonicalComment s) (hdash : ¬ ['-'] <:+ s.toList)
    (hbegun : s ≠ "" ∨ c ≠ '>') (hreturn : c ≠ '\r') : Step.Sane (stepCommentDash s c) := by
  unfold stepCommentDash
  split
  · exact State.Sane.silent h
  · rename_i hc
    have hsuffix : ¬ ['-', '-'] <:+ (s.push '-').toList := fun he => by
      rw [String.toList_push] at he
      exact hdash (suffix_concat_concat (l := ['-']) he).2
    refine sane_stepComment h.dash hreturn hc (fun he hends => ?_) fun _ => hsuffix
    have hs := hbegun.resolve_right (not_not.mpr he)
    -- the comment ends with one dash now, and there was something in front of it
    rcases hends with hempty | hone | htwo | hbang
    · simpa using congrArg String.toList hempty
    · rw [← String.toList_inj, String.toList_push] at hone
      have hempty := (List.append_inj' (show _ ++ [_] = [] ++ ['-'] from hone) rfl).1
      exact hs (String.toList_eq_nil_iff.mp hempty)
    · exact hsuffix htwo
    · rw [String.toList_push] at hbang
      exact absurd (suffix_concat_concat (l := ['-', '-']) hbang).1 (by decide)

theorem sane_stepCommentStartDash (hreturn : c ≠ '\r') : Step.Sane (stepCommentStartDash c) := by
  unfold stepCommentStartDash
  split
  · exact Token.Sane.alone bare_empty.comment trivial
  · rename_i hend
    exact sane_stepCommentDash bare_empty.comment (by decide) (.inr hend) hreturn

theorem sane_stepCommentDashes (h : CanonicalComment s) (hreturn : c ≠ '\r') :
    Step.Sane (stepCommentDashes s c) := by
  unfold stepCommentDashes
  split
  · exact Token.Sane.alone h trivial
  rename_i hend
  split
  · exact State.Sane.silent h
  rename_i hbang
  split
  · exact State.Sane.silent h.dash
  · rename_i hdash
    exact sane_stepComment h.dashes hreturn hdash (fun he => absurd he hend)
      fun he => absurd he hbang

theorem sane_stepCommentBang (h : CanonicalComment s) (hreturn : c ≠ '\r') :
    Step.Sane (stepCommentBang s c) := by
  have hlist : (s ++ "--!").toList = s.toList ++ ['-', '-'] ++ ['!'] := by simp
  unfold stepCommentBang
  split
  · refine State.Sane.silent ⟨h.bang, fun he => ?_, fun he => ?_⟩
    · simpa [hlist] using congrArg String.toList he
    · rw [hlist] at he
      exact absurd (suffix_concat_concat (l := []) he).1 (by decide)
  rename_i hdash
  split
  · exact Token.Sane.alone h trivial
  · rename_i hend
    refine sane_stepComment h.bang hreturn hdash (fun he => absurd he hend) fun _ he => ?_
    rw [hlist] at he
    exact absurd (suffix_concat_concat (l := ['-']) he).1 (by decide)

/-! ### Steps inside references -/

theorem sane_stepTextReference {r : Reference} (h : r.Sane) (c : Char) :
    Step.Sane (stepTextReference r c) := by
  unfold stepTextReference
  split
  · rename_i r' hextend
    exact State.Sane.silent (h.extend hextend)
  · split
    · exact Token.Sane.alone trivial trivial
    · exact (sane_stepData c).text _

theorem sane_stepValueReference {v : ValueDraft} (hv : v.Sane) {r : Reference} (h : r.Sane)
    (c : Char) : Step.Sane (stepValueReference v r c) := by
  unfold stepValueReference
  split
  · rename_i r' hextend
    exact State.Sane.silent ⟨hv, h.extend hextend⟩
  · have htext := h.close true (some c)
    have hvalue : ValueDraft.Sane { v with value := v.value ++ (r.close true (some c)).1 } :=
      ⟨hv.tag, hv.name, nul_not_mem_append hv.value htext⟩
    split
    · rename_i text hclose
      rw [hclose] at hvalue
      exact State.Sane.silent hvalue
    · rename_i text hclose
      rw [hclose] at hvalue
      exact sane_stepValue hvalue c

end Steps

/-! ### Runs -/

/-- Every step keeps the state sane, and the tokens that it emits are, for `c ≠ '\r'`. -/
theorem State.Sane.step {s : State} (h : s.Sane) {c : Char} (hreturn : c ≠ '\r') :
    Step.Sane (s.step c) := by
  cases s with
  | data => exact sane_stepData c
  | tagOpen => exact sane_stepTagOpen hreturn
  | endTagOpen => exact sane_stepEndTagOpen hreturn
  | tagName t => exact sane_stepTagName h hreturn
  | beforeAttr t => exact sane_stepBeforeAttr h hreturn
  | attrName t name => exact sane_stepAttrName h.1 h.2 hreturn
  | afterAttrName t name => exact sane_stepAfterAttrName h.1 h.2 hreturn
  | beforeValue t name => exact sane_stepBeforeValue h.1 h.2 c
  | value v => exact sane_stepValue h c
  | afterValue t => exact sane_stepAfterValue h hreturn
  | slash t => exact sane_stepSlash h hreturn
  | declaration seen => exact sane_stepDeclaration h hreturn
  | bogusComment s => exact sane_stepBogusComment h hreturn
  | commentStart => exact sane_stepCommentStart hreturn
  | commentStartDash => exact sane_stepCommentStartDash hreturn
  | comment s =>
    obtain ⟨hs, hbegun, hdash, hbang⟩ := h
    show Step.Sane (stepComment s c)
    by_cases hc : c = '-'
    · rw [stepComment, if_pos hc]
      exact State.Sane.silent ⟨hs, hbegun, hdash⟩
    · -- it does not end with a dash, so it does not end with two
      have hdashes : ¬ ['-', '-'] <:+ s.toList := fun he => hdash ((List.suffix_cons ..).trans he)
      refine sane_stepComment hs hreturn hc (fun _ hends => ?_) fun _ => hdashes
      rcases hends with hempty | rfl | htwo | hthree
      exacts [hbegun hempty, hdash (List.suffix_refl _), hdashes htwo, hbang hthree]
  | commentDash s => exact sane_stepCommentDash h.1 h.2.2 (.inl h.2.1) hreturn
  | commentDashes s => exact sane_stepCommentDashes h hreturn
  | commentBang s => exact sane_stepCommentBang h hreturn
  | doctype =>
    show Step.Sane (stepDoctype c)
    unfold stepDoctype
    split
    · exact Token.Sane.alone trivial trivial
    · exact State.Sane.silent trivial
  | textReference r => exact sane_stepTextReference h c
  | valueReference v r => exact sane_stepValueReference h.1 h.2 c

/-- So are the tokens of `s.finish`, which come at the end of the text. -/
theorem State.Sane.finish {s : State} (h : s.Sane) : ∀ token ∈ s.finish, token.Sane := by
  have hcomment : ∀ {s : String}, CanonicalComment s → ∀ token ∈ [Token.comment s], token.Sane :=
    fun hs token ht => List.mem_singleton.mp ht ▸ hs
  cases s with
  | declaration seen => exact hcomment h.comment
  | bogusComment s => exact hcomment h.comment
  | commentStart | commentStartDash => exact hcomment bare_empty.comment
  | comment s | commentDash s => exact hcomment h.1
  | commentDashes s | commentBang s => exact hcomment h
  | tagOpen | endTagOpen | doctype | textReference => simp [State.finish, Token.Sane]
  | _ => simp [State.finish]

/-- A run from a sane state over a text without `'\r'` emits sane tokens only. -/
theorem State.Sane.run : ∀ {cs : List Char} {s : State}, s.Sane → '\r' ∉ cs →
    ∀ token ∈ s.run cs, token.Sane
  | [], _, h, _ => h.finish
  | c :: cs, s, h, hreturn => by
    rw [List.mem_cons, not_or] at hreturn
    obtain ⟨hnext, hemitted⟩ := h.step (Ne.symm hreturn.1)
    intro token ht
    rw [State.run, List.mem_append] at ht
    rcases ht with ht | ht
    · exact hemitted token ht
    · exact hnext.run hreturn.2 token ht

/-- No `'\r'` is left once line ends are unified. -/
theorem return_not_mem_unifyLineEnds (cs : List Char) : '\r' ∉ unifyLineEnds cs := by
  fun_induction unifyLineEnds cs with
  | case1 => simp
  | case2 cs ih => simpa using ih
  | case3 c cs _ ih =>
    rw [List.mem_cons, not_or]
    refine ⟨?_, ih⟩
    split
    · decide
    · exact Ne.symm ‹_›

/-- Every token of `tokenize markup` is sane. -/
theorem sane_tokenize (markup : String) : ∀ token ∈ tokenize markup, token.Sane :=
  State.Sane.run trivial (return_not_mem_unifyLineEnds _)

end Inlay.Markup
