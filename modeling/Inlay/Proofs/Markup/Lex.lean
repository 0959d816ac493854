import Inlay.Proofs.Markup.Canonical
import Inlay.Proofs.Text.Case

/-!
# Reading canonical markup

`tokenize_htmlAll`: the markup of canonical trees is read as their tokens. The tokenizer is in its
data state before and after each of them, whatever follows, so the statements are about markup with
more text behind it.
-/

namespace Inlay

namespace Markup

theorem push_append_ofList (s : String) (c : Char) (cs : List Char) :
    s.push c ++ String.ofList cs = s ++ String.ofList (c :: cs) := by
  rw [← String.toList_inj]
  simp

theorem append_append_ofList (s t : String) (cs : List Char) :
    s ++ t ++ String.ofList cs = s ++ String.ofList (t.toList ++ cs) := by
  rw [← String.toList_inj]
  simp

/-- A run takes one step, emits its tokens `ts`, and goes on from the state after it. -/
theorem State.run_of_step {s s' : State} {c : Char} {ts : List Token} (h : s.step c = (s', ts))
    (cs : List Char) : s.run (c :: cs) = ts ++ s'.run cs := by
  rw [State.run, h]

/-! ### Texts and attribute values -/

/-- An escaped character is read as itself, `.text c.toString`. -/
theorem run_data_escapeChar (c : Char) (cs : List Char) :
    State.data.run (Text.escapeChar c ++ cs) = .text c.toString :: State.data.run cs := by
  unfold Text.escapeChar
  split
  · rfl
  · rfl
  · rfl
  · rfl
  · rfl
  · rename_i hamp hlt _ _ _
    have hstep : State.data.step c = (.data, [.text c.toString]) := by
      rw [State.step, stepData, if_neg hamp, if_neg hlt]
    exact State.run_of_step hstep cs

/-- An escaped text `s` is read as its characters, one token for each. -/
theorem run_data_escape (s cs : List Char) :
    State.data.run (Text.escapeChars s ++ cs)
      = (s.map fun c => .text c.toString) ++ State.data.run cs := by
  induction s with
  | nil => rfl
  | cons c s ih =>
    rw [Text.escapeChars_cons, List.append_assoc, run_data_escapeChar, ih, List.map_cons,
      List.cons_append]

/-- In a value between double quotes an escaped `c` is read as `c`. -/
theorem run_value_escapeChar (t : TagDraft) (name value : String) {c : Char} (hc : c ≠ '\x00')
    (cs : List Char) :
    (State.value ⟨.double, t, name, value⟩).run (Text.escapeChar c ++ cs)
      = (State.value ⟨.double, t, name, value.push c⟩).run cs := by
  unfold Text.escapeChar
  split
  · rfl
  · rfl
  · rfl
  · rfl
  · rfl
  · rename_i hamp _ _ hquote _
    have hend : Quoting.double.end? ≠ some c := fun he => hquote (Option.some.inj he).symm
    have hstep : (State.value ⟨.double, t, name, value⟩).step c
        = (.value ⟨.double, t, name, value.push c⟩, []) := by
      rw [State.step, stepValue]
      simp only [if_neg hend, if_neg hamp, reduceCtorEq, false_and, if_false, noNul, if_neg hc]
    exact State.run_of_step hstep cs

/-- An escaped value `s` is read up to its closing quote, and added to the attributes. -/
theorem run_value_escape (t : TagDraft) (name : String) (cs : List Char) :
    ∀ (s : List Char) (value : String), '\x00' ∉ s →
      (State.value ⟨.double, t, name, value⟩).run (Text.escapeChars s ++ '"' :: cs)
        = (State.afterValue (t.withAttr name (value ++ String.ofList s))).run cs
  | [], value, _ => by
    rw [String.ofList_nil, String.append_empty]
    rfl
  | c :: s, value, hs => by
    rw [List.mem_cons, not_or] at hs
    rw [Text.escapeChars_cons, List.append_assoc, run_value_escapeChar t name value (Ne.symm hs.1),
      run_value_escape t name cs s (value.push c) hs.2, push_append_ofList]

/-! ### Tags -/

theorem toLower_of_nameChar {c : Char} (h : NameChar c) : c.toLower = c :=
  Char.toLower_eq_of_not_isUpper (Bool.eq_false_iff.mp h.1)

theorem noNul_toLower {c : Char} (h : NameChar c) : noNul c.toLower = c := by
  rw [toLower_of_nameChar h, noNul, if_neg h.2.2.2.2]

theorem not_isTagSpace {c : Char} (h : NameChar c) : isTagSpace c = false := by
  have hspace := h.2.1
  unfold Text.isAsciiSpace at hspace
  unfold isTagSpace
  exact (Bool.or_eq_false_iff.mp hspace).1

/-- The characters of `name` are read into the name of the tag. -/
theorem run_tagName : ∀ {name : List Char} (t : TagDraft) (cs : List Char),
    (∀ c ∈ name, NameChar c) →
    (State.tagName t).run (name ++ cs)
      = (State.tagName { t with name := t.name ++ String.ofList name }).run cs
  | [], t, cs, _ => by
    rw [String.ofList_nil, String.append_empty]
    rfl
  | c :: name, t, cs, h => by
    have hc := h c List.mem_cons_self
    have hstep : (State.tagName t).step c = (.tagName { t with name := t.name.push c }, []) := by
      rw [State.step, stepTagName]
      simp only [not_isTagSpace hc, Bool.false_eq_true, if_false, if_neg hc.2.2.1,
        if_neg hc.2.2.2.1, noNul_toLower hc]
    rw [List.cons_append, State.run_of_step hstep, List.nil_append,
      run_tagName _ cs fun x hx => h x (List.mem_cons_of_mem _ hx), push_append_ofList]

/-- The characters `l` of a name are read up to the equals sign. -/
theorem run_attrName : ∀ {l : List Char} (t : TagDraft) (name : String) (cs : List Char),
    (∀ c ∈ l, NameChar c) → '=' ∉ l →
    (State.attrName t name).run (l ++ '=' :: cs)
      = (State.beforeValue t (name ++ String.ofList l)).run cs
  | [], t, name, cs, _, _ => by
    rw [String.ofList_nil, String.append_empty]
    rfl
  | c :: l, t, name, cs, h, heq => by
    have hc := h c List.mem_cons_self
    rw [List.mem_cons, not_or] at heq
    have hstep : (State.attrName t name).step c = (.attrName t (name.push c), []) := by
      rw [State.step, stepAttrName]
      simp only [not_isTagSpace hc, Bool.false_eq_true, if_false, if_neg hc.2.2.1,
        if_neg hc.2.2.2.1, if_neg (Ne.symm heq.1), noNul_toLower hc]
    rw [List.cons_append, State.run_of_step hstep, List.nil_append,
      run_attrName t _ cs (fun x hx => h x (List.mem_cons_of_mem _ hx)) heq.2, push_append_ofList]

/-- The first character of `name` may be an equals sign, the others may not. -/
theorem run_beforeAttr {name : String} (h : CanonicalName name) (t : TagDraft) (cs : List Char) :
    (State.beforeAttr t).run (name.toList ++ '=' :: cs) = (State.beforeValue t name).run cs := by
  obtain ⟨c, l, hl⟩ : ∃ c l, name.toList = c :: l := by
    cases hname : name.toList with
    | nil => exact absurd (String.toList_eq_nil_iff.mp hname) h.nonempty
    | cons c l => exact ⟨c, l, rfl⟩
  have hchars := h.chars
  have hequals := h.equals
  rw [hl] at hchars hequals
  have hc := hchars c List.mem_cons_self
  have hstep : (State.beforeAttr t).step c = (.attrName t c.toString, []) := by
    rw [State.step, stepBeforeAttr]
    simp only [not_isTagSpace hc, Bool.false_eq_true, if_false, if_neg hc.2.2.1,
      if_neg hc.2.2.2.1]
    -- an equals sign counts as part of the name here, and only here
    by_cases heq : c = '='
    · rw [if_pos heq, heq]
      rfl
    · rw [if_neg heq, stepAttrName]
      simp only [not_isTagSpace hc, Bool.false_eq_true, if_false, if_neg hc.2.2.1,
        if_neg hc.2.2.2.1, if_neg heq, noNul_toLower hc]
      rfl
  have hname : c.toString ++ String.ofList l = name := by
    rw [← String.toList_inj, hl]
    simp
  rw [hl, List.cons_append, State.run_of_step hstep, List.nil_append,
    run_attrName t _ cs (fun x hx => hchars x (List.mem_cons_of_mem _ hx)) hequals, hname]

/-- A name that comes after all others is added at the end, `attrs ++ [(name, value)]`. -/
theorem putAttr_of_forall_lt {name value : String} : ∀ {attrs : List (String × String)},
    (∀ x ∈ attrs, x.1 < name) → putAttr name value attrs = attrs ++ [(name, value)]
  | [], _ => rfl
  | (k, v) :: rest, h => by
    have hk : k < name := h (k, v) List.mem_cons_self
    have hnot : ¬ name < k := fun hlt => String.lt_irrefl _ (String.lt_trans hlt hk)
    have hne : name ≠ k := by
      rintro rfl
      exact String.lt_irrefl _ hk
    rw [putAttr, if_neg hnot, if_neg hne,
      putAttr_of_forall_lt fun x hx => h x (List.mem_cons_of_mem _ hx), List.cons_append]

/-- The attributes and the end of a start tag, read in a state `s` that is done with what stands
before them. -/
theorem run_attrs : ∀ {attrs : List (String × String)} {s : State} {t : TagDraft} (cs : List Char),
    s.step ' ' = (.beforeAttr t, []) → s.step '>' = t.close false →
    (∀ x ∈ attrs, CanonicalName x.1 ∧ '\x00' ∉ x.2.toList) →
    (t.attrs ++ attrs).Pairwise (fun x y => x.1 < y.1) →
    s.run ((attrsHtml attrs).toList ++ '>' :: cs)
      = { t with attrs := t.attrs ++ attrs }.token false :: State.data.run cs
  | [], s, t, cs, _, hclose, _, _ => by
    rw [List.append_nil]
    exact State.run_of_step hclose cs
  | (name, value) :: attrs, s, t, cs, hspace, _, hattrs, hpair => by
    obtain ⟨hname, hvalue⟩ := hattrs (name, value) List.mem_cons_self
    have hput : t.withAttr name value = { t with attrs := t.attrs ++ [(name, value)] } := by
      rw [TagDraft.withAttr, putAttr_of_forall_lt]
      exact fun x hx => (List.pairwise_append.mp hpair).2.2 x hx _ List.mem_cons_self
    have hhtml : (attrsHtml ((name, value) :: attrs)).toList ++ '>' :: cs = ' ' :: (name.toList ++
        '=' :: '"' :: (Text.escapeChars value.toList ++
          '"' :: ((attrsHtml attrs).toList ++ '>' :: cs))) := by
      simp [attrsHtml]
    have hquote : (State.beforeValue t name).step '"' = (.value ⟨.double, t, name, ""⟩, []) := rfl
    rw [hhtml, State.run_of_step hspace, List.nil_append, run_beforeAttr hname,
      State.run_of_step hquote, List.nil_append, run_value_escape t name _ _ _ hvalue,
      String.empty_append, String.ofList_toList, hput,
      run_attrs cs rfl rfl (fun x hx => hattrs x (List.mem_cons_of_mem _ hx))]
    · simp
    · simpa using hpair

theorem CanonicalTag.exists_cons {tag : String} (h : CanonicalTag tag) :
    ∃ c cs, tag.toList = c :: cs ∧ c.isLower = true := by
  obtain ⟨c, hc, hlower⟩ := (Option.any_eq_true ..).mp h.head
  obtain ⟨cs, hcs⟩ := List.head?_eq_some_iff.mp hc
  exact ⟨c, cs, hcs, hlower⟩

theorem isAlpha_of_isLower {c : Char} (h : c.isLower = true) : c.isAlpha = true :=
  (Bool.or_eq_true c.isUpper c.isLower).mpr (Or.inr h)

/-- A letter is none of the characters that have a meaning behind `<`. -/
theorem ne_of_isAlpha {c d : Char} (h : c.isAlpha = true) (hd : d.isAlpha = false) : c ≠ d := by
  rintro rfl
  rw [h] at hd
  exact absurd hd (by simp)

/-- A `tag` is read as a name in a state in which a letter begins a tag. -/
theorem run_tag {s : State} {closing : Bool}
    (hletter : ∀ c, c.isAlpha = true → s.step c = (.tagName ⟨closing, c.toLower.toString, []⟩, []))
    {tag : String} (h : CanonicalTag tag) (cs : List Char) :
    s.run (tag.toList ++ cs) = (State.tagName ⟨closing, tag, []⟩).run cs := by
  obtain ⟨c, l, hl, hlower⟩ := h.exists_cons
  have hchars := h.chars
  rw [hl] at hchars
  have hstep := hletter c (isAlpha_of_isLower hlower)
  rw [toLower_of_nameChar (hchars c List.mem_cons_self)] at hstep
  have htag : c.toString ++ String.ofList l = tag := by
    rw [← String.toList_inj, hl]
    simp
  rw [hl, List.cons_append, State.run_of_step hstep, List.nil_append,
    run_tagName _ cs fun x hx => hchars x (List.mem_cons_of_mem _ hx), htag]

theorem step_tagOpen_of_isAlpha {c : Char} (h : c.isAlpha = true) :
    State.tagOpen.step c = (.tagName ⟨false, c.toLower.toString, []⟩, []) := by
  rw [State.step, stepTagOpen, if_neg (ne_of_isAlpha h rfl), if_neg (ne_of_isAlpha h rfl), if_pos h]

theorem step_endTagOpen_of_isAlpha {c : Char} (h : c.isAlpha = true) :
    State.endTagOpen.step c = (.tagName ⟨true, c.toLower.toString, []⟩, []) := by
  rw [State.step, stepEndTagOpen, if_pos h]

/-- The printed start tag of `e` is read as that, with its attributes in order. -/
theorem run_startTag {e : Element} (h : CanonicalElement e) (cs : List Char) :
    State.data.run ((startTagHtml e).toList ++ cs)
      = .startTag e.tag e.attrs false :: State.data.run cs := by
  have hhtml : (startTagHtml e).toList ++ cs =
      '<' :: (e.tag.toList ++ ((attrsHtml e.attrs).toList ++ '>' :: cs)) := by
    simp [startTagHtml]
  have hopen : State.data.step '<' = (.tagOpen, []) := rfl
  rw [hhtml, State.run_of_step hopen, List.nil_append,
    run_tag (fun _ => step_tagOpen_of_isAlpha) h.tag,
    run_attrs cs rfl rfl (fun x hx => ⟨h.names x hx, (h.values x hx).2⟩)]
  · rfl
  · exact h.ascending

/-- The end tag of `tag` is read as `.endTag tag`. -/
theorem run_endTag {tag : String} (h : CanonicalTag tag) (cs : List Char) :
    State.data.run (("</" ++ tag ++ ">").toList ++ cs) = .endTag tag :: State.data.run cs := by
  have hhtml : ("</" ++ tag ++ ">").toList ++ cs = '<' :: '/' :: (tag.toList ++ '>' :: cs) := by
    simp
  have hopen : State.data.step '<' = (.tagOpen, []) := rfl
  have hslash : State.tagOpen.step '/' = (.endTagOpen, []) := rfl
  rw [hhtml, State.run_of_step hopen, List.nil_append, State.run_of_step hslash, List.nil_append,
    run_tag (fun _ => step_endTagOpen_of_isAlpha) h]
  rfl

/-! ### Comments -/

/-- What a comment may hold behind a certain point: nothing that ends it. -/
def Calm (cs : List Char) : Prop :=
  '\x00' ∉ cs ∧ ¬ ['-', '-', '>'] <:+: cs ∧ ¬ ['-', '-', '!', '>'] <:+: cs

theorem Calm.of_cons {c : Char} {cs : List Char} (h : Calm (c :: cs)) : Calm cs :=
  ⟨fun hm => h.1 (List.mem_cons_of_mem _ hm), fun hi => h.2.1 (List.infix_cons hi),
    fun hi => h.2.2 (List.infix_cons hi)⟩

theorem Calm.noNul_eq {c : Char} {cs : List Char} (h : Calm (c :: cs)) : noNul c = c := by
  rw [noNul, if_neg]
  rintro rfl
  exact h.1 List.mem_cons_self

/-- In a `Calm` text there is no end of a comment. -/
theorem Calm.not_end {cs : List Char} (h : Calm ('-' :: '-' :: '>' :: cs)) : False :=
  h.2.1 ⟨[], cs, rfl⟩

theorem Calm.not_bangEnd {cs : List Char} (h : Calm ('-' :: '-' :: '!' :: '>' :: cs)) : False :=
  h.2.2 ⟨[], cs, rfl⟩

/-- Inside a comment a character `c ≠ '-'` is added to it. -/
theorem stepComment_of_ne {s : String} {c : Char} (hdash : c ≠ '-') (hnul : noNul c = c) :
    stepComment s c = (.comment (s.push c), []) := by
  rw [stepComment, if_neg hdash, hnul]

/-- After a dash, `c ≠ '-'` makes the dash part of the comment. -/
theorem stepCommentDash_of_ne {s : String} {c : Char} (hdash : c ≠ '-') (hnul : noNul c = c) :
    stepCommentDash s c = (.comment ((s.push '-').push c), []) := by
  rw [stepCommentDash, if_neg hdash, stepComment_of_ne hdash hnul]

/-- After two dashes, a `c` that goes on with the comment makes both part of it. -/
theorem stepCommentDashes_of_ne {s : String} {c : Char} (hend : c ≠ '>') (hbang : c ≠ '!')
    (hdash : c ≠ '-') (hnul : noNul c = c) :
    stepCommentDashes s c = (.comment ((s ++ "--").push c), []) := by
  rw [stepCommentDashes, if_neg hend, if_neg hbang, if_neg hdash, stepComment_of_ne hdash hnul]

theorem stepCommentBang_of_ne {s : String} {c : Char} (hdash : c ≠ '-') (hend : c ≠ '>')
    (hnul : noNul c = c) : stepCommentBang s c = (.comment ((s ++ "--!").push c), []) := by
  rw [stepCommentBang, if_neg hdash, if_neg hend, stepComment_of_ne hdash hnul]

/-- A comment is read up to its end. What was read before the last dashes, `s`, and these dashes,
depend on the state, so all states inside comments are looked at together. -/
theorem run_comment_states (rest : List Char) : ∀ (cs : List Char) (s : String),
    (Calm cs → (State.comment s).run (cs ++ '-' :: '-' :: '>' :: rest)
      = .comment (s ++ String.ofList cs) :: State.data.run rest) ∧
    (Calm ('-' :: cs) → (State.commentDash s).run (cs ++ '-' :: '-' :: '>' :: rest)
      = .comment (s ++ String.ofList ('-' :: cs)) :: State.data.run rest) ∧
    (Calm ('-' :: '-' :: cs) → (State.commentDashes s).run (cs ++ '-' :: '-' :: '>' :: rest)
      = .comment (s ++ String.ofList ('-' :: '-' :: cs)) :: State.data.run rest) ∧
    (Calm ('-' :: '-' :: '!' :: cs) → (State.commentBang s).run (cs ++ '-' :: '-' :: '>' :: rest)
      = .comment (s ++ String.ofList ('-' :: '-' :: '!' :: cs)) :: State.data.run rest) := by
  intro cs
  induction cs with
  | nil =>
    intro s
    refine ⟨fun _ => ?_, fun _ => ?_, fun _ => ?_, fun _ => rfl⟩
    · rw [String.ofList_nil, String.append_empty]
      rfl
    · rw [← push_append_ofList, String.ofList_nil, String.append_empty]
      rfl
    · rw [← push_append_ofList, ← push_append_ofList, String.ofList_nil, String.append_empty]
      rfl
  | cons c cs ih =>
    intro s
    refine ⟨fun h => ?_, fun h => ?_, fun h => ?_, fun h => ?_⟩
    · by_cases hdash : c = '-'
      · subst hdash
        have hstep : (State.comment s).step '-' = (.commentDash s, []) := rfl
        rw [List.cons_append, State.run_of_step hstep, List.nil_append, (ih s).2.1 h]
      · have hstep : (State.comment s).step c = (.comment (s.push c), []) :=
          stepComment_of_ne hdash h.noNul_eq
        rw [List.cons_append, State.run_of_step hstep, List.nil_append, (ih _).1 h.of_cons,
          push_append_ofList]
    · by_cases hdash : c = '-'
      · subst hdash
        have hstep : (State.commentDash s).step '-' = (.commentDashes s, []) := rfl
        rw [List.cons_append, State.run_of_step hstep, List.nil_append, (ih s).2.2.1 h]
      · have hstep : (State.commentDash s).step c = _ :=
          stepCommentDash_of_ne hdash h.of_cons.noNul_eq
        rw [List.cons_append, State.run_of_step hstep, List.nil_append, (ih _).1 h.of_cons.of_cons,
          push_append_ofList, push_append_ofList]
    · by_cases hend : c = '>'
      · subst hend
        exact h.not_end.elim
      by_cases hbang : c = '!'
      · subst hbang
        have hstep : (State.commentDashes s).step '!' = (.commentBang s, []) := rfl
        rw [List.cons_append, State.run_of_step hstep, List.nil_append, (ih s).2.2.2 h]
      by_cases hdash : c = '-'
      · subst hdash
        have hstep : (State.commentDashes s).step '-' = (.commentDashes (s.push '-'), []) := rfl
        rw [List.cons_append, State.run_of_step hstep, List.nil_append, (ih _).2.2.1 h.of_cons,
          push_append_ofList]
      · have hstep : (State.commentDashes s).step c = _ :=
          stepCommentDashes_of_ne hend hbang hdash h.of_cons.of_cons.noNul_eq
        rw [List.cons_append, State.run_of_step hstep, List.nil_append,
          (ih _).1 h.of_cons.of_cons.of_cons, push_append_ofList, append_append_ofList]
        rfl
    · by_cases hend : c = '>'
      · subst hend
        exact h.not_bangEnd.elim
      by_cases hdash : c = '-'
      · subst hdash
        have hstep : (State.commentBang s).step '-' = (.commentDash (s ++ "--!"), []) := rfl
        rw [List.cons_append, State.run_of_step hstep, List.nil_append,
          (ih _).2.1 h.of_cons.of_cons.of_cons, append_append_ofList]
        rfl
      · have hstep : (State.commentBang s).step c = _ :=
          stepCommentBang_of_ne hdash hend h.of_cons.of_cons.of_cons.noNul_eq
        rw [List.cons_append, State.run_of_step hstep, List.nil_append,
          (ih _).1 h.of_cons.of_cons.of_cons.of_cons, push_append_ofList, append_append_ofList]
        rfl

/-- A canonical comment is `Calm`: it nowhere has what ends a comment. -/
theorem CanonicalComment.calm {s : String} (h : CanonicalComment s) : Calm s.toList :=
  ⟨h.noNul, h.noEnd, h.noBangEnd⟩

/-- Behind `<!--`, a comment must not end at once: `s` begins with neither `>` nor `->`. -/
theorem run_commentStart {s : String} (h : CanonicalComment s) (rest : List Char) :
    State.commentStart.run (s.toList ++ '-' :: '-' :: '>' :: rest)
      = .comment s :: State.data.run rest := by
  have hcalm := h.calm
  have hstart := h.start
  have hstartDash := h.startDash
  have hs : "" ++ String.ofList s.toList = s := by rw [String.empty_append, String.ofList_toList]
  cases hlist : s.toList with
  | nil =>
    obtain rfl := String.toList_eq_nil_iff.mp hlist
    rfl
  | cons c cs =>
    rw [hlist] at hcalm hstart hstartDash hs
    by_cases hend : c = '>'
    · subst hend
      exact absurd ⟨cs, rfl⟩ hstart
    by_cases hdash : c = '-'
    · subst hdash
      -- one dash may follow, and then anything but `>`
      cases cs with
      | nil =>
        rw [← hs]
        rfl
      | cons d cs =>
        by_cases hend' : d = '>'
        · subst hend'
          exact absurd ⟨cs, rfl⟩ hstartDash
        have hstep : State.commentStart.step '-' = (.commentStartDash, []) := rfl
        have hdashes : State.commentStartDash.step d = (State.commentDash "").step d := by
          rw [State.step, stepCommentStartDash, if_neg hend']
          rfl
        have hrun := ((run_comment_states rest (d :: cs) "").2.1 hcalm)
        rw [hs, List.cons_append, State.run] at hrun
        rw [List.cons_append, List.cons_append, State.run_of_step hstep, List.nil_append, State.run,
          hdashes, hrun]
    · have hstep : State.commentStart.step c = (State.comment "").step c := by
        rw [State.step, stepCommentStart, if_neg hdash, if_neg hend]
        rfl
      have hrun := (run_comment_states rest (c :: cs) "").1 hcalm
      rw [hs, List.cons_append, State.run] at hrun
      rw [List.cons_append, State.run, hstep, hrun]

/-- The printed comment of `s` is read as `.comment s`. -/
theorem run_comment {s : String} (h : CanonicalComment s) (rest : List Char) :
    State.data.run (("<!--" ++ s ++ "-->").toList ++ rest) = .comment s :: State.data.run rest := by
  have hhtml : ("<!--" ++ s ++ "-->").toList ++ rest
      = '<' :: '!' :: '-' :: '-' :: (s.toList ++ '-' :: '-' :: '>' :: rest) := by
    simp
  have hopen : State.data.step '<' = (.tagOpen, []) := rfl
  have hbang : State.tagOpen.step '!' = (.declaration "", []) := rfl
  have hdash : (State.declaration "").step '-' = (.declaration "-", []) := by
    simp [State.step, stepDeclaration, Text.toList_toLower, ← String.toList_inj]
  have hdashes : (State.declaration "-").step '-' = (.commentStart, []) := rfl
  rw [hhtml, State.run_of_step hopen, List.nil_append, State.run_of_step hbang, List.nil_append,
    State.run_of_step hdash, List.nil_append, State.run_of_step hdashes, List.nil_append,
    run_commentStart h]

end Markup

namespace Tree

open Markup

/-! ### Trees -/

mutual

/-- The markup of a canonical tree is read as its tokens, whatever text `rest` follows. -/
theorem run_html : ∀ {t : Tree} (rest : List Char), t.Canonical →
    State.data.run (t.html.toList ++ rest) = t.tokens ++ State.data.run rest
  | node (.element e) cs, rest, h => by
    obtain ⟨helement, hvoid, hcs⟩ := h
    rw [html, tokens]
    split
    · rw [run_startTag helement]
      rfl
    · have hhtml : (startTagHtml e ++ htmlAll cs ++ "</" ++ e.tag ++ ">").toList ++ rest =
          (startTagHtml e).toList ++ ((htmlAll cs).toList ++
            (("</" ++ e.tag ++ ">").toList ++ rest)) := by
        simp
      rw [hhtml, run_startTag helement, run_htmlAll _ hcs, run_endTag helement.tag,
        List.cons_append, List.append_assoc]
      rfl
  | node (.text s) _, rest, _ => by
    rw [html, tokens, Text.toList_escape, run_data_escape]
  | node (.comment s) _, rest, h => by
    rw [html, tokens, run_comment h]
    rfl
  | node .fragment _, _, h => h.elim

theorem run_htmlAll : ∀ {ts : List Tree} (rest : List Char), CanonicalAll ts →
    State.data.run ((htmlAll ts).toList ++ rest) = tokensAll ts ++ State.data.run rest
  | [], rest, _ => by
    rw [htmlAll, tokensAll]
    simp
  | t :: ts, rest, h => by
    obtain ⟨ht, -, hts⟩ := h
    rw [htmlAll, tokensAll, String.toList_append, List.append_assoc, run_html _ ht,
      run_htmlAll rest hts, List.append_assoc]

end

/-! ### No carriage returns -/

theorem return_not_mem_escapeChars {s : List Char} (h : '\r' ∉ s) :
    '\r' ∉ Text.escapeChars s := by
  intro hmem
  obtain ⟨c, hc, hmem⟩ := List.mem_flatMap.mp hmem
  unfold Text.escapeChar at hmem
  split at hmem
  · simp at hmem
  · simp at hmem
  · simp at hmem
  · simp at hmem
  · simp at hmem
  · rw [List.mem_singleton] at hmem
    exact h (hmem ▸ hc)

theorem return_not_mem_of_nameChar {name : List Char} (h : ∀ c ∈ name, NameChar c) :
    '\r' ∉ name := by
  intro hmem
  have hspace := (h _ hmem).2.1
  exact absurd hspace (by decide)

theorem return_not_mem_attrsHtml : ∀ {attrs : List (String × String)},
    (∀ x ∈ attrs, CanonicalName x.1 ∧ '\r' ∉ x.2.toList) → '\r' ∉ (attrsHtml attrs).toList
  | [], _ => by simp [attrsHtml]
  | (name, value) :: attrs, h => by
    obtain ⟨hname, hvalue⟩ := h (name, value) List.mem_cons_self
    have hname' := return_not_mem_of_nameChar hname.chars
    have hvalue' := return_not_mem_escapeChars hvalue
    have hrest := return_not_mem_attrsHtml fun x hx => h x (List.mem_cons_of_mem _ hx)
    simp [attrsHtml, hname', hvalue', hrest]

theorem return_not_mem_startTagHtml {e : Element} (h : CanonicalElement e) :
    '\r' ∉ (startTagHtml e).toList := by
  have htag := return_not_mem_of_nameChar h.tag.chars
  have hattrs := return_not_mem_attrsHtml fun x hx => ⟨h.names x hx, (h.values x hx).1⟩
  simp [startTagHtml, htag, hattrs]

mutual

theorem return_not_mem_html : ∀ {t : Tree}, t.Canonical → '\r' ∉ t.html.toList
  | node (.element e) cs, h => by
    obtain ⟨helement, -, hcs⟩ := h
    have hstart := return_not_mem_startTagHtml helement
    have htag := return_not_mem_of_nameChar helement.tag.chars
    rw [html]
    split
    · exact hstart
    · simp [hstart, htag, return_not_mem_htmlAll hcs]
  | node (.text s) _, h => by
    rw [html, Text.toList_escape]
    exact return_not_mem_escapeChars h.2
  | node (.comment s) _, h => by
    have hs := h.noReturn
    rw [html]
    simp [hs]
  | node .fragment _, h => h.elim

/-- There is no `'\r'` in the markup of canonical trees, so unifying line ends leaves it. -/
theorem return_not_mem_htmlAll : ∀ {ts : List Tree}, CanonicalAll ts → '\r' ∉ (htmlAll ts).toList
  | [], _ => by simp [htmlAll]
  | t :: ts, h => by
    obtain ⟨ht, -, hts⟩ := h
    rw [htmlAll, String.toList_append, List.mem_append, not_or]
    exact ⟨return_not_mem_html ht, return_not_mem_htmlAll hts⟩

end

theorem unifyLineEnds_eq_self {cs : List Char} (h : '\r' ∉ cs) : unifyLineEnds cs = cs := by
  fun_induction unifyLineEnds cs with
  | case1 => rfl
  | case2 => simp at h
  | case3 c cs _ ih =>
    rw [List.mem_cons, not_or] at h
    rw [ih h.2, if_neg (Ne.symm h.1)]

/-- The markup of canonical trees is read as their tokens:
`tokenize (htmlAll ts) = tokensAll ts`. -/
theorem tokenize_htmlAll {ts : List Tree} (h : CanonicalAll ts) :
    tokenize (htmlAll ts) = tokensAll ts := by
  have hrun := run_htmlAll [] h
  rw [List.append_nil, State.run, State.finish, List.append_nil] at hrun
  rw [tokenize, unifyLineEnds_eq_self (return_not_mem_htmlAll h), hrun]

end Tree

end Inlay
