import Inlay.Proofs.Outcome
import Inlay.Proofs.Selector.Legible
import Mathlib.Data.List.TakeWhile

/-!
# What reading a selector yields

A selector that was read is legible, and its source has at least as many single quotes as its values
account for (`charge`): a value with a double quote can only have stood in single quotes, so it
costs two more than it contains. Both go through all the readers together, as what holds of the
result and of the rest of the source (`Meets`).
-/

namespace Inlay.Selector

/-! ### Counting quotes -/

/-- How many single quotes a source must have for a value. -/
def charge (value : String) : Nat :=
  value.toList.count '\'' + if '"' ∈ value.toList then 2 else 0

/-- How many it must have for several values. -/
def chargeAll (values : List String) : Nat :=
  (values.map charge).sum

theorem chargeAll_append (vs ws : List String) :
    chargeAll (vs ++ ws) = chargeAll vs + chargeAll ws := by
  rw [chargeAll, List.map_append, List.sum_append, ← chargeAll, ← chargeAll]

namespace Reader

variable {α β : Type}

/-- What is left of the source pays for `spent` quotes less than the budget `k`. -/
def Affords (k spent : Nat) (c : Cursor) : Prop :=
  spent + c.rest.count '\'' ≤ k

/-- No white space comes next. -/
def Fresh (c : Cursor) : Prop :=
  ∀ ch ∈ c.rest.head?, Text.isBlank ch = false

/-! ### Assertions about readers -/

/-- From where `pre` holds, `m` gets to where `post` holds, if it gets anywhere. -/
def Meets (pre : Cursor → Prop) (m : Reader α) (post : α → Cursor → Prop) : Prop :=
  ∀ c x c', pre c → m.run c = .ok x c' → post x c'

variable {pre : Cursor → Prop} {m : Reader α} {k spent : Nat}

/-- What `m` ensures, `mid`, is what `f x` may rely on. -/
theorem Meets.bind {mid : α → Cursor → Prop} {f : α → Reader β} {post : β → Cursor → Prop}
    (hm : Meets pre m mid) (hf : ∀ x, Meets (mid x) (f x) post) : Meets pre (m >>= f) post := by
  intro c y c'' hpre hrun
  obtain ⟨x, c', hx, hy⟩ := exists_of_run_bind_eq_ok hrun
  exact hf x c' y c'' (hm c x c' hpre hx) hy

/-- What is known of the result of `m`, `P x`, stays known. -/
theorem Meets.bind_of {P : α → Prop} {mid : α → Cursor → Prop} {f : α → Reader β}
    {post : β → Cursor → Prop} (hm : Meets pre m fun x c => P x ∧ mid x c)
    (hf : ∀ x, P x → Meets (mid x) (f x) post) : Meets pre (m >>= f) post :=
  hm.bind fun x c y c' hc hrun => hf x hc.1 c y c' hc.2 hrun

/-- Where `pre` is enough, more may hold before. -/
theorem Meets.left {pre' : Cursor → Prop} {post : α → Cursor → Prop} (h : Meets pre m post) :
    Meets (fun c => pre c ∧ pre' c) m post :=
  fun c x c' hc hrun => h c x c' hc.1 hrun

/-- What is ensured may be weakened, from `post` to `post'`. -/
theorem Meets.mono {post post' : α → Cursor → Prop} (h : Meets pre m post)
    (hpost : ∀ x c, post x c → post' x c) : Meets pre m post' :=
  fun c x c' hc hrun => hpost x c' (h c x c' hc hrun)

theorem meets_pure {x : α} {post : α → Cursor → Prop} (h : ∀ c, pre c → post x c) :
    Meets pre (pure x) post := by
  intro c y c' hc hrun
  cases hrun
  exact h c hc

theorem meets_throw (e : SyntaxError) (post : α → Cursor → Prop) : Meets pre (throw e) post :=
  fun c x c' _ hrun => absurd hrun (run_throw_ne_ok e c c' x)

theorem meets_get : Meets pre (get : Reader Cursor) fun _ c => pre c := by
  intro c x c' hc hrun
  cases hrun
  exact hc

theorem meets_peek : Meets pre peek fun next c => pre c ∧ c.rest.head? = next := by
  intro c x c' hc hrun
  cases hrun
  exact ⟨hc, rfl⟩

/-! ### Parts of the source -/

theorem Affords.weaken {c : Cursor} {less : Nat} (h : Affords k spent c) (hless : less ≤ spent) :
    Affords k less c :=
  Nat.le_trans (Nat.add_le_add_right hless _) h

/-- What is dropped was not needed: `k` single quotes less those that were `spent` may still be
there. -/
theorem Affords.drop {c : Cursor} (h : Affords k spent c) (n p : Nat) :
    Affords k spent ⟨c.rest.drop n, p⟩ := by
  have hcount : (c.rest.drop n).count '\'' ≤ c.rest.count '\'' :=
    (List.drop_sublist n c.rest).count_le '\''
  exact Nat.le_trans (Nat.add_le_add_left hcount spent) h

theorem meets_advance : Meets (Affords k spent) advance fun _ => Affords k spent := by
  intro c x c' hc hrun
  cases hrun
  simpa using hc.drop 1 (c.position + 1)

/-- A single quote that is consumed can be spent: `spent + 1`. -/
theorem meets_advance_quote :
    Meets (fun c => Affords k spent c ∧ c.rest.head? = some '\'') advance fun _ =>
      Affords k (spent + 1) := by
  intro c x c' hc hrun
  obtain ⟨hpaid, hnext⟩ := hc
  cases hrun
  obtain ⟨rest, hrest⟩ := List.head?_eq_some_iff.mp hnext
  simp only [Affords, hrest, List.count_cons_self, List.tail_cons] at hpaid ⊢
  omega

theorem meets_expect (ch : Char) :
    Meets (Affords k spent) (expect ch) fun _ => Affords k spent := by
  refine meets_peek.bind fun next => ?_
  split
  · exact meets_advance.left
  · exact meets_get.bind fun _ => meets_throw _ _

theorem drop_length_takeWhile (p : Char → Bool) :
    ∀ cs : List Char, cs.drop (cs.takeWhile p).length = cs.dropWhile p
  | [] => rfl
  | c :: cs => by
    cases hc : p c with
    | false => simp [hc]
    | true => simp [hc, drop_length_takeWhile p cs]

/-- A run of characters of the class `p` is taken, and no such character comes next. Its single
quotes can be spent. -/
theorem meets_takeWhile (p : Char → Bool) : Meets (Affords k spent) (takeWhile p) fun cs c =>
    (∀ ch ∈ cs, p ch = true) ∧ Affords k (spent + cs.count '\'') c ∧
      ∀ ch ∈ c.rest.head?, p ch = false := by
  intro c cs c' hc hrun
  cases hrun
  refine ⟨fun ch hch => List.mem_takeWhile_imp hch, ?_, fun ch hch => ?_⟩
  · have hsplit := congrArg (List.count '\'')
      (List.takeWhile_append_dropWhile (p := p) (l := c.rest))
    rw [List.count_append] at hsplit
    simp only [Affords, drop_length_takeWhile] at hc ⊢
    omega
  · rw [drop_length_takeWhile, Option.mem_def] at hch
    simpa [hch] using List.head?_dropWhile_not p c.rest

theorem meets_skipBlanks :
    Meets (Affords k spent) skipBlanks fun _ c => Affords k spent c ∧ Fresh c := by
  refine (meets_takeWhile Text.isBlank).bind fun cs => meets_pure fun c hc => ?_
  obtain ⟨-, hpaid, hfresh⟩ := hc
  exact ⟨hpaid.weaken (Nat.le_add_right spent _), hfresh⟩

/-- A name begins with what came next, `s.toList.head? = next`. -/
theorem meets_name (next : Option Char) :
    Meets (fun c => Affords k spent c ∧ c.rest.head? = next) name fun s c =>
      IsName s ∧ s.toList.head? = next ∧ Affords k spent c := by
  intro c s c' hc hrun
  obtain ⟨hpaid, hnext⟩ := hc
  obtain ⟨_, _, hget, hrun⟩ := exists_of_run_bind_eq_ok hrun
  cases hget
  obtain ⟨cs, c₁, htake, hrun⟩ := exists_of_run_bind_eq_ok hrun
  obtain ⟨hchars, hpaid', -⟩ := meets_takeWhile isNameChar c cs c₁ hpaid htake
  have hcs : cs = c.rest.takeWhile isNameChar := by cases htake; rfl
  split at hrun
  · exact absurd hrun (run_throw_ne_ok _ _ _ _)
  · rename_i hne
    cases hrun
    refine ⟨⟨?_, ?_⟩, ?_, hpaid'.weaken (Nat.le_add_right spent _)⟩
    · simpa using hne
    · simpa using hchars
    · rw [String.toList_ofList, ← hnext]
      cases hrest : c.rest with
      | nil => simp [hcs, hrest] at hne
      | cons ch rest =>
        rw [hcs, hrest, List.takeWhile_cons] at hne ⊢
        cases hch : isNameChar ch with
        | false => simp [hch] at hne
        | true => simp

theorem meets_anyName : Meets (Affords k spent) name fun s c => IsName s ∧ Affords k spent c := by
  intro c s c' hc hrun
  obtain ⟨hname, -, hpaid⟩ := meets_name c.rest.head? c s c' ⟨hc, rfl⟩ hrun
  exact ⟨hname, hpaid⟩

/-- Everything up to `close` is read and that too, and its single quotes can be spent. -/
theorem meets_through (close : Char) (missing : SyntaxError) :
    Meets (Affords k spent) (through close missing) fun s c => close ∉ s.toList ∧
      Affords k (spent + s.toList.count '\'' + if close = '\'' then 1 else 0) c := by
  refine (meets_takeWhile (· ≠ close)).bind fun cs => meets_peek.bind fun next => ?_
  split
  · exact meets_throw _ _
  · rename_i hsome
    intro c s c' hc hrun
    obtain ⟨⟨hchars, hpaid, hclosed⟩, hnext⟩ := hc
    cases hrun
    rw [String.toList_ofList]
    refine ⟨fun hmem => by simpa using hchars close hmem, ?_⟩
    cases hrest : c.rest with
    | nil => simp [← hnext, hrest] at hsome
    | cons ch rest =>
      obtain rfl : ch = close := by simpa [hrest] using hclosed ch
      simp only [Affords, hrest, List.count_cons, beq_iff_eq, List.tail_cons] at hpaid ⊢
      omega

/-- A name has no quotes, so it costs nothing: `charge s = 0`. -/
theorem charge_of_isName {s : String} (h : IsName s) : charge s = 0 := by
  have hsingle : '\'' ∉ s.toList := fun hmem => absurd (h.chars _ hmem) (by decide)
  have hdouble : '"' ∉ s.toList := fun hmem => absurd (h.chars _ hmem) (by decide)
  rw [charge, List.count_eq_zero_of_not_mem hsingle, if_neg hdouble]

/-- A value `v` is paid for, however it is written: `charge v` single quotes were in its text. -/
theorem meets_attrValue :
    Meets (Affords k spent) attrValue fun v c => Affords k (spent + charge v) c := by
  refine meets_peek.bind fun next => ?_
  split
  · -- a value in double quotes has no double quote
    refine meets_advance.left.bind fun _ => (meets_through '"' .unterminatedString).mono ?_
    rintro v c ⟨hfree, hpaid⟩
    rw [charge, if_neg hfree]
    exact hpaid.weaken (Nat.le_add_right _ _)
  · -- one in single quotes pays for a double quote with these two
    refine meets_advance_quote.bind fun _ => (meets_through '\'' .unterminatedString).mono ?_
    rintro v c ⟨-, hpaid⟩
    refine hpaid.weaken ?_
    rw [charge, if_pos rfl]
    split <;> omega
  · refine (meets_name next).mono ?_
    rintro v c ⟨hname, -, hpaid⟩
    rwa [charge_of_isName hname]

/-- A name after white space is read as an `s` that is a name in lower case. -/
theorem meets_foldedName : Meets (fun c => Affords k spent c ∧ Fresh c) name fun s c =>
    IsFoldedName s.toLower ∧ Affords k spent c := by
  intro c s c' hc hrun
  obtain ⟨hpaid, hfresh⟩ := hc
  obtain ⟨hname, hhead, hpaid'⟩ := meets_name c.rest.head? c s c' ⟨hpaid, rfl⟩ hrun
  exact ⟨hname.toLower (hhead ▸ hfresh), hpaid'⟩

theorem meets_attrTest : Meets (Affords k spent) attrTest fun a c =>
    IsFoldedName a.name ∧ Affords k (spent + chargeAll a.values) c := by
  refine meets_skipBlanks.bind fun _ => meets_foldedName.bind_of fun attr hname => ?_
  refine meets_skipBlanks.bind fun _ => meets_peek.left.bind fun next => ?_
  split
  · refine meets_advance.left.bind fun _ => meets_skipBlanks.bind fun _ => ?_
    refine meets_attrValue.left.bind fun value => meets_skipBlanks.bind fun _ => ?_
    refine (meets_expect ']').left.bind fun _ => meets_pure fun c hpaid => ⟨hname, ?_⟩
    simpa [AttrTest.values, chargeAll] using hpaid
  · exact (meets_expect ']').left.bind fun _ => meets_pure fun c hpaid => ⟨hname, hpaid⟩

theorem meets_nthArgument : Meets (Affords k spent) nthArgument fun _ => Affords k spent := by
  refine (meets_expect '(').bind fun _ =>
    (meets_through ')' .unclosedParenthesis).bind_of fun s _ => ?_
  cases Nth.parse? s with
  | none => exact meets_throw _ _
  | some n => exact meets_pure fun c hpaid => hpaid.weaken (Nat.le_add_right _ _)

/-! ### Compounds -/

/-- The tag of a compound; `*` stands for none. -/
def optionalTag : Reader (Option String) := do
  match ← peek with
  | some '*' =>
    advance
    return none
  | some ch => if isNameChar ch then return some (← name).toLower else return none
  | none => return none

theorem compound_succ (fuel : Nat) : compound (fuel + 1) = (do
    let start := (← get).position
    let tag ← optionalTag
    let c ← conditions fuel { Compound.any with tag }
    if (← get).position = start then
      match ← peek with
      | some ch => throw (.unexpectedChar ch start)
      | none => throw .unexpectedEnd
    else return c) := by
  rw [compound]
  rfl

theorem meets_optionalTag : Meets (fun c => Affords k spent c ∧ Fresh c) optionalTag fun tag c =>
    (∀ t ∈ tag, IsFoldedName t) ∧ Affords k spent c := by
  refine meets_peek.bind fun next => ?_
  split
  · exact meets_advance.left.left.bind fun _ => meets_pure fun c hpaid => ⟨nofun, hpaid⟩
  · split
    · refine meets_foldedName.left.bind_of fun t ht => meets_pure fun c hpaid => ⟨?_, hpaid⟩
      exact fun t' ht' => Option.some.inj ht' ▸ ht
    · exact meets_pure fun c hc => ⟨nofun, hc.1.1⟩
  · exact meets_pure fun c hc => ⟨nofun, hc.1.1⟩

mutual

/-- A pseudo-class that was read is legible, and `chargeAll p.values` is paid for. -/
theorem meets_pseudo : ∀ (fuel : Nat) {spent : Nat},
    Meets (Affords k spent) (pseudo fuel) fun p c =>
      p.Legible ∧ Affords k (spent + chargeAll p.values) c
  | 0, _ => meets_throw _ _
  | fuel + 1, spent => by
    rw [pseudo]
    refine meets_anyName.bind_of fun s _ => ?_
    simp only
    split
    · exact meets_pure fun c hpaid => ⟨trivial, hpaid⟩
    split
    · exact meets_pure fun c hpaid => ⟨trivial, hpaid⟩
    split
    · exact meets_nthArgument.bind fun n => meets_pure fun c hpaid => ⟨trivial, hpaid⟩
    split
    · refine (meets_expect '(').bind fun _ => meets_skipBlanks.bind fun _ => ?_
      refine (meets_compound fuel).bind_of fun x hx => meets_skipBlanks.bind fun _ => ?_
      refine (meets_furtherCompounds fuel).left.bind_of fun xs hxs => ?_
      refine (meets_expect ')').bind fun _ => meets_pure fun c hpaid => ?_
      refine ⟨⟨List.cons_ne_nil x xs, hx, hxs⟩, ?_⟩
      rwa [Pseudo.values, compoundsValues, chargeAll_append, ← Nat.add_assoc]
    · exact meets_throw _ _

theorem meets_furtherCompounds : ∀ (fuel : Nat) {spent : Nat},
    Meets (Affords k spent) (furtherCompounds fuel) fun cs c =>
      CompoundsLegible cs ∧ Affords k (spent + chargeAll (compoundsValues cs)) c
  | 0, _ => meets_pure fun c hpaid => ⟨trivial, hpaid⟩
  | fuel + 1, spent => by
    rw [furtherCompounds]
    refine meets_peek.bind fun next => ?_
    split
    · refine meets_advance.left.bind fun _ => meets_skipBlanks.bind fun _ => ?_
      refine (meets_compound fuel).bind_of fun x hx => meets_skipBlanks.bind fun _ => ?_
      refine (meets_furtherCompounds fuel).left.bind_of fun xs hxs => meets_pure fun c hpaid => ?_
      refine ⟨⟨hx, hxs⟩, ?_⟩
      rwa [compoundsValues, chargeAll_append, ← Nat.add_assoc]
    · exact meets_pure fun c hc => ⟨trivial, hc.1⟩

/-- The conditions in `acc` have been paid for already, and so are those that are read. -/
theorem meets_conditions : ∀ (fuel spent : Nat) {acc : Compound}, acc.Legible →
    Meets (Affords k (spent + chargeAll acc.values)) (conditions fuel acc) fun x c =>
      x.Legible ∧ Affords k (spent + chargeAll x.values) c
  | 0, _, _, h => meets_pure fun c hpaid => ⟨h, hpaid⟩
  | fuel + 1, spent, ⟨tag, id, classes, attrs, pseudos⟩, h => by
    obtain ⟨htag, hid, hclasses, hattrs, hpseudos⟩ := h
    rw [conditions]
    refine meets_peek.bind fun next => ?_
    split
    · refine meets_advance.left.bind fun _ => meets_anyName.bind_of fun i hi => ?_
      have hacc : Compound.Legible ⟨tag, some i, classes, attrs, pseudos⟩ :=
        ⟨htag, fun j hj => Option.some.inj hj ▸ hi, hclasses, hattrs, hpseudos⟩
      exact meets_conditions fuel spent hacc
    · refine meets_advance.left.bind fun _ => meets_anyName.bind_of fun s hs => ?_
      have hacc : Compound.Legible ⟨tag, id, classes ++ [s], attrs, pseudos⟩ :=
        ⟨htag, hid, List.forall_mem_append.mpr ⟨hclasses, List.forall_mem_singleton.mpr hs⟩, hattrs,
          hpseudos⟩
      exact meets_conditions fuel spent hacc
    · refine meets_advance.left.bind fun _ => meets_attrTest.bind_of fun a ha => ?_
      have hacc : Compound.Legible ⟨tag, id, classes, attrs ++ [a], pseudos⟩ :=
        ⟨htag, hid, hclasses, List.forall_mem_append.mpr ⟨hattrs, List.forall_mem_singleton.mpr ha⟩,
          hpseudos⟩
      -- what is spent on the value is what the longer list of conditions costs more
      have hcharge : spent + chargeAll (Compound.values ⟨tag, id, classes, attrs, pseudos⟩) +
          chargeAll a.values =
          spent + chargeAll (Compound.values ⟨tag, id, classes, attrs ++ [a], pseudos⟩) := by
        simp only [Compound.values, List.flatMap_append, List.flatMap_singleton, chargeAll_append]
        omega
      rw [hcharge]
      exact meets_conditions fuel spent hacc
    · refine meets_advance.left.bind fun _ => (meets_pseudo fuel).bind_of fun p hp => ?_
      have hacc : Compound.Legible ⟨tag, id, classes, attrs, pseudos ++ [p]⟩ :=
        ⟨htag, hid, hclasses, hattrs, pseudosLegible_append.mpr ⟨hpseudos, hp, trivial⟩⟩
      have hcharge : spent + chargeAll (Compound.values ⟨tag, id, classes, attrs, pseudos⟩) +
          chargeAll p.values =
          spent + chargeAll (Compound.values ⟨tag, id, classes, attrs, pseudos ++ [p]⟩) := by
        simp only [Compound.values, pseudosValues_append, pseudosValues, chargeAll_append,
          List.append_nil]
        omega
      rw [hcharge]
      exact meets_conditions fuel spent hacc
    · exact meets_pure fun c hc => ⟨⟨htag, hid, hclasses, hattrs, hpseudos⟩, hc.1⟩

/-- A compound that was read is legible, and `chargeAll x.values` is paid for. -/
theorem meets_compound : ∀ (fuel : Nat) {spent : Nat},
    Meets (fun c => Affords k spent c ∧ Fresh c) (compound fuel) fun x c =>
      x.Legible ∧ Affords k (spent + chargeAll x.values) c
  | 0, _ => meets_throw _ _
  | fuel + 1, spent => by
    rw [compound_succ]
    refine meets_get.bind fun start => meets_optionalTag.bind_of fun tag htag => ?_
    have hacc : Compound.Legible { Compound.any with tag } :=
      ⟨htag, nofun, nofun, nofun, trivial⟩
    refine (meets_conditions fuel spent hacc).bind_of fun x hx => meets_get.bind fun _ => ?_
    split
    · refine meets_peek.bind fun next => ?_
      split
      · exact meets_throw _ _
      · exact meets_throw _ _
    · exact meets_pure fun c hpaid => ⟨hx, hpaid⟩

end

/-! ### Selectors -/

theorem meets_joined : ∀ (fuel spent : Nat) {left : Complex}, left.Legible →
    Meets (Affords k (spent + chargeAll left.values)) (joined fuel left) fun x c =>
      x.Legible ∧ Affords k (spent + chargeAll x.values) c
  | 0, _, _, h => meets_pure fun c hpaid => ⟨h, hpaid⟩
  | fuel + 1, spent, left, h => by
    -- in all cases in which a compound follows
    have hfurther : ∀ combinator, Meets
        (fun c => Affords k (spent + chargeAll left.values) c ∧ Fresh c)
        (do joined fuel (.combine left combinator (← compound fuel))) fun x c =>
          x.Legible ∧ Affords k (spent + chargeAll x.values) c := by
      intro combinator
      refine (meets_compound fuel).bind_of fun right hright => ?_
      have hleft : (Complex.combine left combinator right).Legible := ⟨h, hright⟩
      have hjoined := meets_joined fuel spent hleft
      rwa [Complex.values, chargeAll_append, ← Nat.add_assoc] at hjoined
    have hmarked : ∀ combinator next, Meets
        (fun c => (Affords k (spent + chargeAll left.values) c ∧ Fresh c) ∧ c.rest.head? = next)
        (do
          advance
          let _ ← skipBlanks
          joined fuel (.combine left combinator (← compound fuel))) fun x c =>
          x.Legible ∧ Affords k (spent + chargeAll x.values) c := fun combinator _ =>
      meets_advance.left.left.bind fun _ => meets_skipBlanks.bind fun _ => hfurther combinator
    rw [joined]
    refine meets_skipBlanks.bind fun spaced => ?_
    simp only
    refine meets_peek.bind fun next => ?_
    split
    · exact meets_pure fun c hc => ⟨h, hc.1.1⟩
    · exact meets_pure fun c hc => ⟨h, hc.1.1⟩
    · exact hmarked .child _
    · exact hmarked .adjacent _
    · exact hmarked .sibling _
    · split
      · exact (hfurther .descendant).left
      · exact meets_get.bind fun _ => meets_throw _ _

/-- An alternative that was read is legible, and `chargeAll x.values` is paid for. -/
theorem meets_complex (fuel : Nat) : Meets (Affords k spent) (complex fuel) fun x c =>
    x.Legible ∧ Affords k (spent + chargeAll x.values) c := by
  refine meets_skipBlanks.bind fun _ => (meets_compound fuel).bind_of fun x hx => ?_
  have hleft : (Complex.compound x).Legible := hx
  exact meets_joined fuel spent hleft

theorem meets_furtherAlternatives : ∀ (fuel : Nat) {spent : Nat},
    Meets (Affords k spent) (furtherAlternatives fuel) fun xs c =>
      (∀ x ∈ xs, x.Legible) ∧ Affords k (spent + chargeAll (xs.flatMap Complex.values)) c
  | 0, _ => meets_pure fun c hpaid => ⟨nofun, hpaid⟩
  | fuel + 1, spent => by
    rw [furtherAlternatives]
    refine meets_peek.bind fun next => ?_
    split
    · refine meets_advance.left.bind fun _ => (meets_complex fuel).bind_of fun x hx => ?_
      refine (meets_furtherAlternatives fuel).bind_of fun xs hxs => meets_pure fun c hpaid => ?_
      refine ⟨List.forall_mem_cons.mpr ⟨hx, hxs⟩, ?_⟩
      rwa [List.flatMap_cons, chargeAll_append, ← Nat.add_assoc]
    · exact meets_pure fun c hc => ⟨nofun, hc.1⟩

/-- A selector that was read is legible, and `chargeAll s.values` single quotes of its source are
spent on it. -/
theorem meets_selector (fuel : Nat) : Meets (Affords k spent) (selector fuel) fun s c =>
    s.Legible ∧ Affords k (spent + chargeAll s.values) c := by
  refine (meets_complex fuel).bind_of fun x hx => ?_
  refine (meets_furtherAlternatives fuel).bind_of fun xs hxs => meets_pure fun c hpaid => ?_
  refine ⟨⟨List.cons_ne_nil x xs, List.forall_mem_cons.mpr ⟨hx, hxs⟩⟩, ?_⟩
  rwa [values, List.flatMap_cons, chargeAll_append, ← Nat.add_assoc]

end Reader

/-- **What was read is legible, and its source had enough single quotes**: at least
`chargeAll s.values`. -/
theorem legible_of_parse {source : String} {s : Selector} (h : parse source = .ok s) :
    s.Legible ∧ chargeAll s.values ≤ source.toList.count '\'' := by
  simp only [parse] at h
  split at h
  · rename_i s' c hrun
    cases h
    have hbudget : Reader.Affords (source.toList.count '\'') 0 ⟨source.toList, 0⟩ :=
      Nat.le_of_eq (Nat.zero_add _)
    obtain ⟨hlegible, hpaid⟩ := Reader.meets_selector _ _ _ _ hbudget hrun
    rw [Reader.Affords] at hpaid
    exact ⟨hlegible, by omega⟩
  · exact absurd h (by simp)

end Inlay.Selector
