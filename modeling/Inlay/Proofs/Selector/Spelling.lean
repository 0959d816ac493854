import Inlay.Proofs.Selector.Periodic
import Inlay.Proofs.Selector.Yield

/-!
# Reading what was written

`Reads m cs x rest`: where `cs` and then `rest` is left of a source, `m` consumes just `cs` and
returns `x`. Names end where a character comes that no name has, so what follows matters; how far
the source has been read does not. The text of a legible compound without double quotes in its
values is read as that compound (`readable_compound`), given more fuel than the text is long.
-/

namespace Inlay.Selector

open Reader

namespace Reader

variable {α β : Type}

def Reads (m : Reader α) (cs : List Char) (x : α) (rest : List Char) : Prop :=
  ∀ p, m.run ⟨cs ++ rest, p⟩ = .ok x ⟨rest, p + cs.length⟩

/-! ### Parts of the source -/

/-- If `m` reads `cs` and then `f x` reads `ds`, both read `cs ++ ds`. -/
theorem Reads.bind {m : Reader α} {f : α → Reader β} {cs ds rest : List Char} {x : α} {y : β}
    (hm : Reads m cs x (ds ++ rest)) (hf : Reads (f x) ds y rest) :
    Reads (m >>= f) (cs ++ ds) y rest := by
  intro p
  rw [List.append_assoc, run_bind_of_ok (hm p), hf, List.length_append, Nat.add_assoc]

theorem reads_pure (x : α) (rest : List Char) : Reads (pure x) [] x rest :=
  fun _ => rfl

theorem reads_peek (rest : List Char) : Reads peek [] rest.head? rest :=
  fun _ => rfl

theorem reads_advance (c : Char) (rest : List Char) : Reads advance [c] () rest :=
  fun _ => rfl

/-- `m >>= f` reads what `f x` reads, if `m` reads nothing. -/
theorem Reads.after {m : Reader α} {f : α → Reader β} {ds rest : List Char} {x : α} {y : β}
    (hm : Reads m [] x (ds ++ rest)) (hf : Reads (f x) ds y rest) : Reads (m >>= f) ds y rest :=
  hm.bind hf

/-- `m >>= f` reads what `m` reads, if `f x` reads nothing. -/
theorem Reads.before {m : Reader α} {f : α → Reader β} {cs rest : List Char} {x : α} {y : β}
    (hm : Reads m cs x rest) (hf : Reads (f x) [] y rest) : Reads (m >>= f) cs y rest := by
  intro p
  rw [run_bind_of_ok (hm p)]
  exact hf _

theorem Reads.returning {m : Reader α} {cs rest : List Char} {x : α} (hm : Reads m cs x rest)
    (f : α → β) : Reads (m >>= fun x => pure (f x)) cs (f x) rest :=
  hm.before (reads_pure (f x) rest)

theorem reads_expect (c : Char) (rest : List Char) : Reads (expect c) [c] () rest := by
  refine (reads_peek ([c] ++ rest)).after ?_
  rw [List.singleton_append, List.head?_cons, if_pos rfl]
  exact reads_advance c rest

/-- A run `cs` of characters of a class ends where another character or nothing comes. -/
theorem reads_takeWhile {p : Char → Bool} {cs rest : List Char} (hcs : ∀ c ∈ cs, p c = true)
    (hrest : ∀ c ∈ rest.head?, p c = false) : Reads (takeWhile p) cs cs rest := by
  intro position
  have htake : (cs ++ rest).takeWhile p = cs := by
    rw [List.takeWhile_append_of_pos hcs]
    cases rest with
    | nil => simp
    | cons c rest => simp [hrest c rfl]
  change EStateM.Result.ok ((cs ++ rest).takeWhile p) (Cursor.mk
    ((cs ++ rest).drop ((cs ++ rest).takeWhile p).length)
    (position + ((cs ++ rest).takeWhile p).length)) = _
  rw [htake, List.drop_left]

/-- Where something else than white space comes, `skipBlanks` skips nothing. -/
theorem reads_skipBlanks {rest : List Char} (hrest : ∀ c ∈ rest.head?, Text.isBlank c = false) :
    Reads skipBlanks [] false rest := by
  have htake : Reads (takeWhile Text.isBlank) [] [] rest := reads_takeWhile (by simp) hrest
  exact htake.returning fun cs => !cs.isEmpty

theorem reads_skipBlanks_space {rest : List Char}
    (hrest : ∀ c ∈ rest.head?, Text.isBlank c = false) : Reads skipBlanks [' '] true rest := by
  have hspace : ∀ c ∈ [' '], Text.isBlank c = true := fun c hc => by
    rw [List.mem_singleton.mp hc]
    decide
  exact (reads_takeWhile hspace hrest).returning fun cs => !cs.isEmpty

/-- A name `s` is read as far as it goes: up to a character that cannot be part of one. -/
theorem reads_name {s : String} (h : IsName s) {rest : List Char}
    (hrest : ∀ c ∈ rest.head?, isNameChar c = false) : Reads name s.toList s rest := by
  intro p
  have htake := reads_takeWhile h.chars hrest p
  have hne : s.toList.isEmpty = false := by simpa using h.nonempty
  unfold name
  rw [run_bind_of_ok (EStateM.run_get ..), run_bind_of_ok htake, hne, String.ofList_toList]
  rfl

/-- What stands up to `close` is read, and `close` too. -/
theorem reads_through {s : String} {close : Char} (h : close ∉ s.toList) (missing : SyntaxError)
    (rest : List Char) : Reads (through close missing) (s.toList ++ [close]) s rest := by
  have hall : ∀ c ∈ s.toList, decide (c ≠ close) = true := by
    rintro c hc
    exact decide_eq_true fun he => h (he ▸ hc)
  refine (reads_takeWhile hall (by simp)).bind ((reads_peek ([close] ++ rest)).after ?_)
  rw [if_neg (by simp), String.ofList_toList]
  exact (reads_advance close rest).returning fun _ => s

end Reader

/-! ### Attribute conditions -/

/-- The text of an attribute condition after its opening bracket. -/
def AttrTest.inside : AttrTest → List Char
  | present name => name.toList ++ [']']
  | equals name value => name.toList ++ '=' :: '"' :: (value.toList ++ ['"']) ++ [']']

theorem AttrTest.toList_text (a : AttrTest) : a.text.toList = '[' :: a.inside := by
  cases a <;> simp [text, inside]

/-- A folded name `s` begins with no white space, so skipping that leaves it as it is. -/
theorem IsFoldedName.fresh {s : String} (h : IsFoldedName s) (rest : List Char) :
    ∀ c ∈ (s.toList ++ rest).head?, Text.isBlank c = false := by
  obtain ⟨c, cs, he⟩ := List.exists_cons_of_ne_nil h.nonempty
  have hhead := h.head
  rw [he] at hhead ⊢
  exact hhead

theorem not_isBlank_bracket (rest : List Char) :
    ∀ c ∈ (']' :: rest).head?, Text.isBlank c = false := by
  rintro _ ⟨⟩
  decide

/-- A value `v` between double quotes is read, if it has none itself. -/
theorem reads_attrValue {v : String} (h : '"' ∉ v.toList) (rest : List Char) :
    Reads attrValue ('"' :: (v.toList ++ ['"'])) v rest := by
  refine (reads_peek _).after ?_
  exact (reads_advance '"' _).bind (reads_through h .unterminatedString rest)

/-- An attribute condition is read after its opening bracket: what is `a.inside` is read as `a`. -/
theorem reads_attrTest {a : AttrTest} (hname : IsFoldedName a.name)
    (hvalues : ∀ v ∈ a.values, '"' ∉ v.toList) (rest : List Char) :
    Reads attrTest a.inside a rest := by
  have hfolded : a.name.toLower = a.name := hname.folded
  cases a with
  | present name =>
    have hfresh : ∀ c ∈ (name.toList ++ [']'] ++ rest).head?, Text.isBlank c = false := by
      rw [List.append_assoc]
      exact hname.fresh _
    refine (reads_skipBlanks hfresh).after ((reads_name hname.toIsName (by simp; decide)).bind ?_)
    refine (reads_skipBlanks (not_isBlank_bracket rest)).after ((reads_peek _).after ?_)
    rw [if_neg (by simp), hfolded]
    exact (reads_expect ']' rest).returning fun _ => AttrTest.present name
  | equals name value =>
    -- The value is written between quotes, with neither blanks nor anything else around it.
    have hinside : (AttrTest.equals name value).inside =
        name.toList ++ (['='] ++ (('"' :: (value.toList ++ ['"'])) ++ [']'])) := by
      simp [AttrTest.inside]
    have hvalue : '"' ∉ value.toList := hvalues value (List.mem_singleton_self value)
    rw [hinside]
    have hfresh := hname.fresh ((['='] ++ (('"' :: (value.toList ++ ['"'])) ++ [']'])) ++ rest)
    rw [← List.append_assoc] at hfresh
    refine (reads_skipBlanks hfresh).after ((reads_name hname.toIsName (by simp; decide)).bind ?_)
    refine (reads_skipBlanks (by simp; decide)).after ((reads_peek _).after ?_)
    rw [if_pos (by simp), hfolded]
    refine (reads_advance '=' _).bind ((reads_skipBlanks (by simp; decide)).after ?_)
    refine (reads_attrValue hvalue _).bind ((reads_skipBlanks (not_isBlank_bracket rest)).after ?_)
    exact (reads_expect ']' rest).returning fun _ => AttrTest.equals name value

/-! ### Conditions -/

/-- A character that begins a condition. -/
def IsMark (c : Char) : Prop :=
  c = '#' ∨ c = '.' ∨ c = '[' ∨ c = ':'

/-- A compound ends here. -/
def Ends (rest : List Char) : Prop :=
  ∀ c ∈ rest.head?, isNameChar c = false ∧ ¬ IsMark c ∧ c ≠ '*'

/-- In `ds` the conditions are written that make `x` out of `acc`. -/
structure Continues (acc : Compound) (ds : List Char) (x : Compound) (rest : List Char) : Prop where
  mark : ∀ c ∈ ds.head?, IsMark c
  ends : Ends rest
  reads : ∀ fuel, ds.length ≤ fuel → Reads (conditions fuel acc) ds x rest

/-- A character with `IsMark` ends a name. -/
theorem IsMark.not_isNameChar {c : Char} (h : IsMark c) : isNameChar c = false := by
  rcases h with rfl | rfl | rfl | rfl <;> decide

namespace Continues

variable {acc x : Compound} {ds rest : List Char}

/-- A name right before conditions `ds`, or before what ends the compound, is read to its end. -/
theorem stops (h : Continues acc ds x rest) : ∀ c ∈ (ds ++ rest).head?, isNameChar c = false := by
  intro c hc
  cases ds with
  | nil => exact (h.ends c hc).1
  | cons d ds => exact (h.mark c hc).not_isNameChar

theorem ne_star (h : Continues acc ds x rest) : ∀ c ∈ (ds ++ rest).head?, c ≠ '*' := by
  intro c hc
  cases ds with
  | nil => exact (h.ends c hc).2.2
  | cons d ds =>
    rintro rfl
    exact absurd (h.mark _ hc) (by simp [IsMark])

/-- With no condition left, what was read so far is `acc`. -/
theorem nil (acc : Compound) (hends : Ends rest) : Continues acc [] acc rest where
  mark := nofun
  ends := hends
  reads fuel _ := by
    cases fuel with
    | zero => exact reads_pure acc rest
    | succ fuel =>
      rw [conditions]
      refine (reads_peek rest).after ?_
      split
      · exact absurd (Or.inl rfl) (hends '#' ‹_›).2.1
      · exact absurd (Or.inr (Or.inl rfl)) (hends '.' ‹_›).2.1
      · exact absurd (Or.inr (Or.inr (Or.inl rfl))) (hends '[' ‹_›).2.1
      · exact absurd (Or.inr (Or.inr (Or.inr rfl))) (hends ':' ‹_›).2.1
      · exact reads_pure acc rest

/-- One more condition costs one more unit of fuel, and is read with `fuel + 1`. -/
theorem cons {c : Char} (hmark : IsMark c) (hends : Ends rest)
    (hreads : ∀ fuel, ds.length ≤ fuel → Reads (conditions (fuel + 1) acc) (c :: ds) x rest) :
    Continues acc (c :: ds) x rest where
  mark d hd := Option.some.inj hd ▸ hmark
  ends := hends
  reads fuel hfuel := by
    cases fuel with
    | zero => exact absurd hfuel (by simp)
    | succ fuel => exact hreads fuel (Nat.le_of_succ_le_succ hfuel)

/-- After `#` comes the name of an id, which takes the place of one that was read before. -/
theorem id {i : String} (hi : IsName i) (h : Continues { acc with id := some i } ds x rest) :
    Continues acc ('#' :: (i.toList ++ ds)) x rest := by
  refine cons (Or.inl rfl) h.ends fun fuel hfuel => ?_
  rw [List.length_append] at hfuel
  rw [conditions]
  refine (reads_peek _).after ((reads_advance '#' _).bind ?_)
  exact (reads_name hi h.stops).bind (h.reads fuel (by omega))

/-- After `.` comes the name of a class, which is put behind the others. -/
theorem cls {s : String} (hs : IsName s)
    (h : Continues { acc with classes := acc.classes ++ [s] } ds x rest) :
    Continues acc ('.' :: (s.toList ++ ds)) x rest := by
  refine cons (Or.inr (Or.inl rfl)) h.ends fun fuel hfuel => ?_
  rw [List.length_append] at hfuel
  rw [conditions]
  refine (reads_peek _).after ((reads_advance '.' _).bind ?_)
  exact (reads_name hs h.stops).bind (h.reads fuel (by omega))

/-- After `[` comes an attribute condition, which is put behind the others. -/
theorem attr {a : AttrTest} (hname : IsFoldedName a.name) (hvalues : ∀ v ∈ a.values, '"' ∉ v.toList)
    (h : Continues { acc with attrs := acc.attrs ++ [a] } ds x rest) :
    Continues acc ('[' :: (a.inside ++ ds)) x rest := by
  refine cons (Or.inr (Or.inr (Or.inl rfl))) h.ends fun fuel hfuel => ?_
  rw [List.length_append] at hfuel
  rw [conditions]
  refine (reads_peek _).after ((reads_advance '[' _).bind ?_)
  exact (reads_attrTest hname hvalues _).bind (h.reads fuel (by omega))

/-- After `:` comes a pseudo-class, which is put behind the others. -/
theorem pseudo {p : Pseudo} {inside : List Char} (hp : ∀ fuel tail, inside.length ≤ fuel →
      (∀ c ∈ tail.head?, isNameChar c = false) → Reads (Reader.pseudo fuel) inside p tail)
    (h : Continues { acc with pseudos := acc.pseudos ++ [p] } ds x rest) :
    Continues acc (':' :: (inside ++ ds)) x rest := by
  refine cons (Or.inr (Or.inr (Or.inr rfl))) h.ends fun fuel hfuel => ?_
  rw [List.length_append] at hfuel
  rw [conditions]
  refine (reads_peek _).after ((reads_advance ':' _).bind ?_)
  exact (hp fuel _ (by omega) h.stops).bind (h.reads fuel (by omega))

/-- All classes `ss` are read one after the other, and `ds` behind them. -/
theorem classes : ∀ {ss : List String} {acc : Compound}, (∀ s ∈ ss, IsName s) →
    Continues { acc with classes := acc.classes ++ ss } ds x rest →
    Continues acc (ss.flatMap (fun s => '.' :: s.toList) ++ ds) x rest
  | [], ⟨_, _, _, _, _⟩, _, h => by
    rw [List.append_nil] at h
    exact h
  | s :: ss, acc, hss, h => by
    obtain ⟨hs, hss⟩ := List.forall_mem_cons.mp hss
    rw [List.flatMap_cons, List.append_assoc]
    refine cls hs (classes hss ?_)
    rw [List.append_assoc]
    exact h

/-- All attribute conditions `as` are read one after the other, and `ds` behind them. -/
theorem attrs : ∀ {as : List AttrTest} {acc : Compound}, (∀ a ∈ as, IsFoldedName a.name) →
    (∀ v ∈ as.flatMap AttrTest.values, '"' ∉ v.toList) →
    Continues { acc with attrs := acc.attrs ++ as } ds x rest →
    Continues acc (as.flatMap (·.text.toList) ++ ds) x rest
  | [], ⟨_, _, _, _, _⟩, _, _, h => by
    rw [List.append_nil] at h
    exact h
  | a :: as, acc, hnames, hvalues, h => by
    obtain ⟨hname, hnames⟩ := List.forall_mem_cons.mp hnames
    rw [List.flatMap_cons, List.forall_mem_append] at hvalues
    rw [List.flatMap_cons, List.append_assoc, a.toList_text]
    refine attr hname hvalues.1 (attrs hnames hvalues.2 ?_)
    rw [List.append_assoc]
    exact h

end Continues

/-! ### Compounds -/

/-- A character that a compound can begin with. -/
def Begins (c : Char) : Prop :=
  Text.isBlank c = false ∧ c ≠ ',' ∧ c ≠ '>' ∧ c ≠ '+' ∧ c ≠ '~'

theorem IsMark.begins {c : Char} (h : IsMark c) : Begins c := by
  rcases h with rfl | rfl | rfl | rfl <;> simp [Begins] <;> decide

theorem IsMark.not_isBlank {c : Char} (h : IsMark c) : Text.isBlank c = false :=
  h.begins.1

/-- The text of a pseudo-class is read after its colon. -/
def Pseudo.Readable (p : Pseudo) : Prop :=
  ∃ inside, p.text.toList = ':' :: inside ∧ ∀ fuel rest, inside.length ≤ fuel →
    (∀ c ∈ rest.head?, isNameChar c = false) → Reads (pseudo fuel) inside p rest

/-- The text of a compound is read as the compound. -/
structure Compound.Readable (c : Compound) : Prop where
  begins : ∃ ch ∈ c.text.toList.head?, Begins ch
  reads : ∀ fuel rest, c.text.toList.length < fuel → Ends rest →
    Reads (compound fuel) c.text.toList c rest

/-- All pseudo-classes `ps` are read one after the other, up to the end of the compound. -/
theorem Continues.pseudos {rest : List Char} (hends : Ends rest) :
    ∀ {ps : List Pseudo} {acc : Compound}, (∀ p ∈ ps, p.Readable) →
    Continues acc (pseudosText ps).toList { acc with pseudos := acc.pseudos ++ ps } rest
  | [], ⟨_, _, _, _, _⟩, _ => by
    rw [List.append_nil]
    exact .nil _ hends
  | p :: ps, acc, h => by
    obtain ⟨⟨inside, htext, hp⟩, hps⟩ := List.forall_mem_cons.mp h
    have hrest : Continues { acc with pseudos := acc.pseudos ++ [p] } (pseudosText ps).toList
        { acc with pseudos := acc.pseudos ++ [p] ++ ps } rest := pseudos hends hps
    rw [List.append_assoc] at hrest
    rw [pseudosText, String.toList_append, htext, List.cons_append]
    exact .pseudo hp hrest

/-- What the text of a compound begins with: its tag, or `*` if nothing else would stand there. -/
def Compound.front : Compound → List Char
  | ⟨some t, _, _, _, _⟩ => t.toList
  | ⟨none, id, classes, attrs, pseudos⟩ =>
    if id.isNone && classes.isEmpty && attrs.isEmpty && pseudos.isEmpty then ['*'] else []

/-- The text of a compound after that. -/
def Compound.rest : Compound → List Char
  | ⟨_, id, classes, attrs, pseudos⟩ =>
    (id.elim [] fun i => '#' :: i.toList) ++ (classes.flatMap (fun s => '.' :: s.toList) ++
      (attrs.flatMap (·.text.toList) ++ (pseudosText pseudos).toList))

/-- The text of a compound is its front, a tag or `*` or nothing, and its conditions. -/
theorem Compound.toList_text (c : Compound) : c.text.toList = c.front ++ c.rest := by
  obtain ⟨tag, id, classes, attrs, pseudos⟩ := c
  have hclasses : (String.join (classes.map ("." ++ ·))).toList =
      classes.flatMap fun s => '.' :: s.toList := by
    rw [String.toList_join, List.flatMap_map]
    simp
  have hattrs : (String.join (attrs.map AttrTest.text)).toList = attrs.flatMap (·.text.toList) := by
    rw [String.toList_join, List.flatMap_map]
  have hfront : (if id.isNone && classes.isEmpty && attrs.isEmpty && pseudos.isEmpty then "*"
      else "").toList = Compound.front ⟨none, id, classes, attrs, pseudos⟩ := by
    rw [front]
    split <;> rfl
  cases tag with
  | none =>
    cases id <;> simp only [text, String.toList_append, hclasses, hattrs, hfront, rest] <;> simp
  | some t => cases id <;> simp [text, hclasses, hattrs, front, rest]

/-- The conditions of a compound are read as `c.rest` is written: id, classes, attributes,
pseudo-classes. -/
theorem Compound.continues {c : Compound} (h : c.Legible) (hvalues : ∀ v ∈ c.values, '"' ∉ v.toList)
    (hpseudos : ∀ p ∈ c.pseudos, p.Readable) {rest : List Char} (hends : Ends rest) :
    Continues { Compound.any with tag := c.tag } c.rest c rest := by
  obtain ⟨tag, id, classes, attrs, pseudos⟩ := c
  obtain ⟨-, hid, hclasses, hattrs, -⟩ := h
  rw [values, List.forall_mem_append] at hvalues
  have hrest : Continues ⟨tag, id, [], [], []⟩
      (classes.flatMap (fun s => '.' :: s.toList) ++
        (attrs.flatMap (·.text.toList) ++ (pseudosText pseudos).toList))
      ⟨tag, id, classes, attrs, pseudos⟩ rest :=
    .classes hclasses (.attrs hattrs hvalues.1 (.pseudos hends hpseudos))
  cases id with
  | none => exact hrest
  | some i => exact .id (hid i rfl) hrest

/-- A compound is read from its front and its conditions, `front ++ ds`, of which one is there. -/
theorem reads_compound_succ {tag : Option String} {front ds rest : List Char} {x : Compound}
    {fuel : Nat} (htag : Reads optionalTag front tag (ds ++ rest))
    (hconditions : Reads (conditions fuel { Compound.any with tag }) ds x rest)
    (hne : front ++ ds ≠ []) : Reads (compound (fuel + 1)) (front ++ ds) x rest := by
  intro p
  -- the reader compares where it is with where it started, and both are known
  rw [compound_succ, run_bind_of_ok (EStateM.run_get ..), List.append_assoc,
    run_bind_of_ok (htag p), run_bind_of_ok (hconditions _),
    run_bind_of_ok (EStateM.run_get ..), if_neg]
  · rw [List.length_append, Nat.add_assoc]
    rfl
  · have hpos := List.length_pos_iff.mpr hne
    rw [List.length_append] at hpos
    simp only
    omega

theorem reads_compound {tag : Option String} {front ds rest : List Char} {x : Compound}
    (htag : Reads optionalTag front tag (ds ++ rest))
    (h : Continues { Compound.any with tag } ds x rest) (hne : front ++ ds ≠ []) {fuel : Nat}
    (hfuel : (front ++ ds).length < fuel) : Reads (compound fuel) (front ++ ds) x rest := by
  cases fuel with
  | zero => exact absurd hfuel (Nat.not_lt_zero _)
  | succ fuel =>
    have hlength : ds.length ≤ fuel := by
      rw [List.length_append] at hfuel
      omega
    exact reads_compound_succ htag (h.reads fuel hlength) hne

/-! ### Tags -/

/-- A tag `t` that is folded is read as it stands. -/
theorem reads_optionalTag {t : String} (ht : IsFoldedName t) {rest : List Char}
    (hrest : ∀ c ∈ rest.head?, isNameChar c = false) :
    Reads optionalTag t.toList (some t) rest := by
  obtain ⟨ch, cs, he⟩ := List.exists_cons_of_ne_nil ht.nonempty
  have hch : isNameChar ch = true := ht.chars ch (he ▸ List.mem_cons_self)
  have hhead : (t.toList ++ rest).head? = some ch := by rw [he]; rfl
  have hname := (reads_name ht.toIsName hrest).returning fun s => some s.toLower
  rw [ht.folded] at hname
  refine (reads_peek _).after ?_
  rw [hhead]
  split
  · exact absurd (Option.some.inj ‹_› ▸ hch) (by decide)
  · rename_i ch' _ heq
    obtain rfl := Option.some.inj heq
    rw [if_pos hch]
    exact hname
  · exact absurd ‹_› (by simp)

theorem reads_optionalTag_star (rest : List Char) : Reads optionalTag ['*'] none rest :=
  (reads_peek _).after ((reads_advance '*' rest).returning fun _ => (none : Option String))

theorem reads_optionalTag_none {rest : List Char}
    (hrest : ∀ c ∈ rest.head?, isNameChar c = false ∧ c ≠ '*') :
    Reads optionalTag [] none rest := by
  refine (reads_peek rest).after ?_
  split
  · exact absurd rfl (hrest '*' ‹_›).2
  · rename_i ch _ heq
    rw [if_neg (by simp [(hrest ch heq).1])]
    exact reads_pure none rest
  · exact reads_pure none rest

/-- Only the compound without any condition needs the `*`; one with a tag has the tag in front. -/
theorem Compound.front_cases (c : Compound) :
    (∃ t, c.tag = some t ∧ c.front = t.toList) ∨ c.tag = none ∧ c.front = ['*'] ∨
      c.tag = none ∧ c.front = [] ∧ c.rest ≠ [] := by
  obtain ⟨tag, id, classes, attrs, pseudos⟩ := c
  cases tag with
  | some t => exact Or.inl ⟨t, rfl, rfl⟩
  | none =>
    rw [front]
    split
    · exact Or.inr (Or.inl ⟨rfl, rfl⟩)
    · rename_i hcond
      -- If nothing were written for the conditions there would be none, and a `*` was needed.
      refine Or.inr (Or.inr ⟨rfl, rfl, fun hnil => hcond ?_⟩)
      simp only [rest, List.append_eq_nil_iff] at hnil
      obtain ⟨hid, hclasses, hattrs, hpseudos⟩ := hnil
      have hid : id = none := by cases id with
        | none => rfl
        | some i => exact absurd hid (by simp)
      have hclasses : classes = [] := by cases classes with
        | nil => rfl
        | cons s ss => exact absurd hclasses (by simp)
      have hattrs : attrs = [] := by cases attrs with
        | nil => rfl
        | cons a as => exact absurd hattrs (by simp [a.toList_text])
      have hpseudos : pseudos = [] := by cases pseudos with
        | nil => rfl
        | cons p ps => exact absurd hpseudos (by cases p <;> simp [pseudosText, Pseudo.text])
      rw [hid, hclasses, hattrs, hpseudos]
      rfl

theorem Compound.reads_front {c : Compound} (h : c.Legible) {rest : List Char}
    (hcontinues : Continues { Compound.any with tag := c.tag } c.rest c rest) :
    Reads optionalTag c.front c.tag (c.rest ++ rest) := by
  rcases c.front_cases with ⟨t, htag, hfront⟩ | ⟨htag, hfront⟩ | ⟨htag, hfront, -⟩
  · rw [hfront, htag]
    obtain ⟨tag, id, classes, attrs, pseudos⟩ := c
    exact reads_optionalTag (h.1 t htag) hcontinues.stops
  · rw [hfront, htag]
    exact reads_optionalTag_star _
  · rw [hfront, htag]
    exact reads_optionalTag_none fun ch hch => ⟨hcontinues.stops ch hch, hcontinues.ne_star ch hch⟩

theorem begins_of_isNameChar {c : Char} (hname : isNameChar c = true)
    (hblank : Text.isBlank c = false) : Begins c := by
  refine ⟨hblank, ?_, ?_, ?_, ?_⟩ <;> rintro rfl <;> exact absurd hname (by decide)

theorem Compound.begins {c : Compound} (h : c.Legible) (hmark : ∀ ch ∈ c.rest.head?, IsMark ch) :
    ∃ ch ∈ (c.front ++ c.rest).head?, Begins ch := by
  rcases c.front_cases with ⟨t, htag, hfront⟩ | ⟨-, hfront⟩ | ⟨-, hfront, hne⟩
  · obtain ⟨tag, id, classes, attrs, pseudos⟩ := c
    have ht : IsFoldedName t := h.1 t htag
    obtain ⟨ch, cs, he⟩ := List.exists_cons_of_ne_nil ht.nonempty
    have hch : isNameChar ch = true := ht.chars ch (he ▸ List.mem_cons_self)
    have hblank : Text.isBlank ch = false := ht.head ch (he ▸ rfl)
    rw [hfront, he]
    exact ⟨ch, rfl, begins_of_isNameChar hch hblank⟩
  · rw [hfront]
    exact ⟨'*', rfl, by decide, by decide, by decide, by decide, by decide⟩
  · obtain ⟨ch, cs, he⟩ := List.exists_cons_of_ne_nil hne
    rw [hfront, he]
    exact ⟨ch, rfl, (hmark ch (he ▸ rfl)).begins⟩

/-- A legible compound is `Readable`, if its pseudo-classes are and no value has a double quote. -/
theorem Compound.readable_of {c : Compound} (h : c.Legible)
    (hvalues : ∀ v ∈ c.values, '"' ∉ v.toList) (hpseudos : ∀ p ∈ c.pseudos, p.Readable) :
    c.Readable := by
  have hend : Ends [] := nofun
  have hbegins := c.begins h (c.continues h hvalues hpseudos hend).mark
  constructor
  · rwa [c.toList_text]
  · intro fuel rest hfuel hends
    rw [c.toList_text] at hfuel ⊢
    have hne : c.front ++ c.rest ≠ [] := by
      rintro hnil
      obtain ⟨ch, hch, -⟩ := hbegins
      simp [hnil] at hch
    have hcontinues := c.continues h hvalues hpseudos hends
    exact reads_compound (c.reads_front h hcontinues) hcontinues hne hfuel

/-! ### Negations -/

/-- Compounds that follow a comma each. -/
def furtherText (cs : List Compound) : List Char :=
  cs.flatMap fun c => ',' :: ' ' :: c.text.toList

/-- The text of `c :: cs` is that of `c` and then `furtherText cs`, with a comma and a space between
any two. -/
theorem toList_compoundsText (c : Compound) : ∀ cs : List Compound,
    (compoundsText (c :: cs)).toList = c.text.toList ++ furtherText cs
  | [] => by simp [compoundsText, furtherText]
  | d :: ds => by
    have hrest := toList_compoundsText d ds
    rw [compoundsText, String.toList_append, String.toList_append, hrest]
    · simp [furtherText]
    · exact nofun

theorem ends_furtherText (cs : List Compound) (rest : List Char) :
    Ends (furtherText cs ++ ')' :: rest) := by
  cases cs with
  | nil =>
    rintro _ ⟨⟩
    simp [IsMark]
    decide
  | cons c cs =>
    rintro _ ⟨⟩
    simp [IsMark]
    decide

theorem notBlank_furtherText (cs : List Compound) (rest : List Char) :
    ∀ c ∈ (furtherText cs ++ ')' :: rest).head?, Text.isBlank c = false := by
  cases cs with
  | nil =>
    rintro _ ⟨⟩
    decide
  | cons c cs =>
    rintro _ ⟨⟩
    decide

theorem Compound.Readable.fresh {c : Compound} (h : c.Readable) (rest : List Char) :
    ∀ ch ∈ (c.text.toList ++ rest).head?, Text.isBlank ch = false := by
  obtain ⟨ch, hch, hbegins⟩ := h.begins
  obtain ⟨cs, he⟩ := List.head?_eq_some_iff.mp hch
  rw [he]
  rintro _ ⟨⟩
  exact hbegins.1

/-- The compounds `cs` behind the first one are read up to the `')'` that closes the list. -/
theorem reads_furtherCompounds : ∀ {cs : List Compound}, (∀ c ∈ cs, c.Readable) →
    ∀ {fuel : Nat}, (furtherText cs).length ≤ fuel → ∀ rest : List Char,
    Reads (furtherCompounds fuel) (furtherText cs) cs (')' :: rest)
  | [], _, fuel, _, rest => by
    cases fuel with
    | zero => exact reads_pure [] _
    | succ fuel =>
      rw [furtherCompounds]
      refine (reads_peek _).after ?_
      rw [if_neg (by simp [furtherText])]
      exact reads_pure [] _
  | c :: cs, h, fuel, hfuel, rest => by
    obtain ⟨hc, hcs⟩ := List.forall_mem_cons.mp h
    cases fuel with
    | zero => exact absurd hfuel (by simp [furtherText])
    | succ fuel =>
      have htext : furtherText (c :: cs) =
          [','] ++ ([' '] ++ (c.text.toList ++ furtherText cs)) := by
        simp [furtherText]
      rw [htext] at hfuel ⊢
      simp only [List.length_append, List.length_singleton] at hfuel
      rw [furtherCompounds]
      refine (reads_peek _).after ?_
      rw [if_pos (by simp)]
      -- No compound begins with a blank, so skipping blanks takes the space and nothing more.
      have hfresh := hc.fresh (furtherText cs ++ ')' :: rest)
      rw [← List.append_assoc] at hfresh
      refine (reads_advance ',' _).bind ((reads_skipBlanks_space hfresh).bind ?_)
      refine (hc.reads fuel _ (by omega) (ends_furtherText cs rest)).bind ?_
      refine (reads_skipBlanks (notBlank_furtherText cs rest)).after ?_
      exact (reads_furtherCompounds hcs (by omega) rest).returning (c :: ·)

theorem isFoldedName_of_all {s : String} (hne : s.toList ≠ [])
    (hall : (s.toList.all fun c => isNameChar c && c.toLower == c && !Text.isBlank c) = true) :
    IsFoldedName s := by
  have h : ∀ c ∈ s.toList, (isNameChar c = true ∧ c.toLower = c) ∧ Text.isBlank c = false := by
    simpa only [List.all_eq_true, Bool.and_eq_true, beq_iff_eq, Bool.not_eq_true'] using hall
  constructor
  case toIsName => exact ⟨hne, fun c hc => (h c hc).1.1⟩
  case folded => exact Text.toLower_eq_self fun c hc => (h c hc).1.2
  case head => exact fun c hc => (h c (List.mem_of_mem_head? hc)).2

theorem Pseudo.readable_not {c : Compound} {cs : List Compound} (hc : c.Readable)
    (hcs : ∀ c ∈ cs, c.Readable) : (Pseudo.not (c :: cs)).Readable := by
  have hkeyword : IsFoldedName "not" := isFoldedName_of_all (by decide) (by decide)
  refine ⟨"not".toList ++ (['('] ++ (c.text.toList ++ (furtherText cs ++ [')']))), ?_, ?_⟩
  · simp [text, toList_compoundsText]
  · intro fuel rest hfuel _
    simp only [List.length_append, List.length_singleton] at hfuel
    cases fuel with
    | zero => omega
    | succ fuel =>
      have hlength : "not".toList.length = 3 := rfl
      rw [pseudo]
      refine (reads_name hkeyword.toIsName (by simp; decide)).bind ?_
      simp only
      rw [hkeyword.folded, if_neg (by decide), if_neg (by decide), if_neg (by decide), if_pos rfl]
      have hfresh := hc.fresh (furtherText cs ++ [')'] ++ rest)
      rw [← List.append_assoc] at hfresh
      have hends := ends_furtherText cs rest
      have hblank := notBlank_furtherText cs rest
      rw [← List.singleton_append, ← List.append_assoc] at hends hblank
      refine (reads_expect '(' _).bind ((reads_skipBlanks hfresh).after ?_)
      refine (hc.reads fuel _ (by omega) hends).bind ((reads_skipBlanks hblank).after ?_)
      refine (reads_furtherCompounds hcs (by omega) rest).bind ?_
      exact (reads_expect ')' rest).returning fun _ => Pseudo.not (c :: cs)

theorem Pseudo.readable_firstChild : Pseudo.firstChild.Readable := by
  have hkeyword : IsFoldedName "first-child" := isFoldedName_of_all (by decide) (by decide)
  refine ⟨"first-child".toList, by simp [text], fun fuel rest hfuel hrest => ?_⟩
  cases fuel with
  | zero => exact absurd hfuel (by decide)
  | succ fuel =>
    rw [pseudo]
    refine (reads_name hkeyword.toIsName hrest).before ?_
    simp only
    rw [hkeyword.folded, if_pos rfl]
    exact reads_pure _ rest

theorem Pseudo.readable_lastChild : Pseudo.lastChild.Readable := by
  have hkeyword : IsFoldedName "last-child" := isFoldedName_of_all (by decide) (by decide)
  refine ⟨"last-child".toList, by simp [text], fun fuel rest hfuel hrest => ?_⟩
  cases fuel with
  | zero => exact absurd hfuel (by decide)
  | succ fuel =>
    rw [pseudo]
    refine (reads_name hkeyword.toIsName hrest).before ?_
    simp only
    rw [hkeyword.folded, if_neg (by decide), if_pos rfl]
    exact reads_pure _ rest

/-- The argument of `:nth-child` is read with its brackets, as `n`. -/
theorem reads_nthArgument (n : Nth) (rest : List Char) :
    Reads nthArgument (['('] ++ (n.text.toList ++ [')'])) n rest := by
  have hclose : ')' ∉ n.text.toList := fun hmem =>
    absurd (Nth.isSign_of_mem_text hmem) (by simp [Nth.IsSign])
  refine (reads_expect '(' _).bind ((reads_through hclose .unclosedParenthesis rest).before ?_)
  rw [Nth.parse?_text]
  exact reads_pure n rest

theorem Pseudo.readable_nthChild (n : Nth) : (Pseudo.nthChild n).Readable := by
  have hkeyword : IsFoldedName "nth-child" := isFoldedName_of_all (by decide) (by decide)
  refine ⟨"nth-child".toList ++ (['('] ++ (n.text.toList ++ [')'])), by simp [text], ?_⟩
  intro fuel rest hfuel _
  cases fuel with
  | zero => exact absurd hfuel (by simp)
  | succ fuel =>
    rw [pseudo]
    refine (reads_name hkeyword.toIsName (by simp; decide)).bind ?_
    simp only
    rw [hkeyword.folded, if_neg (by decide), if_neg (by decide), if_pos rfl]
    exact (reads_nthArgument n rest).returning Pseudo.nthChild

/-! ### All compounds -/

mutual

/-- **The text of a legible pseudo-class is read as that**, if no value in it has a double quote. -/
theorem readable_pseudo : ∀ {p : Pseudo}, p.Legible → (∀ v ∈ p.values, '"' ∉ v.toList) → p.Readable
  | .firstChild, _, _ => Pseudo.readable_firstChild
  | .lastChild, _, _ => Pseudo.readable_lastChild
  | .nthChild n, _, _ => Pseudo.readable_nthChild n
  | .not [], h, _ => absurd rfl h.1
  | .not (c :: cs), ⟨_, hc, hcs⟩, hvalues => by
    rw [Pseudo.values, compoundsValues, List.forall_mem_append] at hvalues
    exact Pseudo.readable_not (readable_compound hc hvalues.1) (readable_compounds hcs hvalues.2)

/-- **The text of a legible compound is read as the compound**, if no value has a double quote. -/
theorem readable_compound : ∀ {c : Compound}, c.Legible → (∀ v ∈ c.values, '"' ∉ v.toList) →
    c.Readable
  | ⟨tag, id, classes, attrs, pseudos⟩, h, hvalues => by
    have hpseudos : PseudosLegible pseudos := h.2.2.2.2
    have hpseudosValues : ∀ v ∈ pseudosValues pseudos, '"' ∉ v.toList := fun v hv =>
      hvalues v (List.mem_append_right _ hv)
    exact Compound.readable_of h hvalues (readable_pseudos hpseudos hpseudosValues)

theorem readable_compounds : ∀ {cs : List Compound}, CompoundsLegible cs →
    (∀ v ∈ compoundsValues cs, '"' ∉ v.toList) → ∀ c ∈ cs, c.Readable
  | [], _, _ => nofun
  | c :: cs, ⟨hc, hcs⟩, hvalues => by
    rw [compoundsValues, List.forall_mem_append] at hvalues
    exact List.forall_mem_cons.mpr
      ⟨readable_compound hc hvalues.1, readable_compounds hcs hvalues.2⟩

theorem readable_pseudos : ∀ {ps : List Pseudo}, PseudosLegible ps →
    (∀ v ∈ pseudosValues ps, '"' ∉ v.toList) → ∀ p ∈ ps, p.Readable
  | [], _, _ => nofun
  | p :: ps, ⟨hp, hps⟩, hvalues => by
    rw [pseudosValues, List.forall_mem_append] at hvalues
    exact List.forall_mem_cons.mpr ⟨readable_pseudo hp hvalues.1, readable_pseudos hps hvalues.2⟩

end

end Inlay.Selector
