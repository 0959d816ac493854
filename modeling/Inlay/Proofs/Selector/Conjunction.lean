import Inlay.Proofs.Arena.Reachable
import Inlay.Proofs.Selector.Lookahead
import Inlay.Selector.Match

/-!
# Conditions written one after the other

Where further conditions follow a compound without anything between, the whole is read as the
compound with these conditions added (`eq_extend_of_parse`). The readers of the first part do not
see that more follows (`Reader.conditions_append`), and what those of the second part find does not
depend on what came before (`Reader.conditions_extend`). Conditions of each kind add up, but of
several ids only the last one stays. Hence

* `accepts_append_iff_of_ids`: the whole matches the elements that both parts match, if the parts do
  not name different ids;
* `accepts_append_iff`: in any case it matches those that the second part matches and the first part
  without its id, where the second one has an id; `accepts_second_id` is a case in which that is not
  what both parts match.
-/

namespace Inlay.Selector

/-- A compound with the conditions of another one added. The tag stays. -/
def Compound.extend (c x : Compound) : Compound :=
  { c with
    id := x.id.or c.id
    classes := c.classes ++ x.classes
    attrs := c.attrs ++ x.attrs
    pseudos := c.pseudos ++ x.pseudos }

theorem Compound.extend_any : ∀ c : Compound, c.extend .any = c
  | ⟨_, _, _, _, _⟩ => by simp [extend, any]

/-- A condition `s` that is added to an extended compound is added to what extends it. -/
theorem Compound.extend_add (c x : Compound) (s : Simple) :
    (c.extend x).add s = c.extend (x.add s) := by
  cases s <;> simp [extend, add]

@[simp] theorem Compound.tag_add (c : Compound) (s : Simple) : (c.add s).tag = c.tag := by
  cases s <;> rfl

namespace Reader

theorem alike_append (p : Char → Prop) {rest : List Char} (hrest : ∃ c ∈ rest.head?, p c) :
    ∀ ds : List Char, Alike p ds (ds ++ rest)
  | [] => Or.inr ⟨rfl, hrest⟩
  | _ :: _ => Or.inl rfl

/-! ### One condition more -/

variable {fuel : Nat} {acc x : Compound} {c c' : Cursor}

/-- A mark leads to a condition `s`, which is added, and reading goes on. -/
theorem run_conditions_of_simple? {ch : Char} {rest : List Char} {p : Nat} {m : Reader Simple}
    {s : Simple} (hm : simple? fuel ch = some m) (hs : m.run ⟨rest, p + 1⟩ = .ok s c) :
    (conditions (fuel + 1) acc).run ⟨ch :: rest, p⟩ = (conditions fuel (acc.add s)).run c := by
  have hpeek : peek.run ⟨ch :: rest, p⟩ = .ok (some ch) ⟨ch :: rest, p⟩ := rfl
  have hadvance : advance.run ⟨ch :: rest, p⟩ = .ok () ⟨rest, p + 1⟩ := rfl
  rw [conditions_succ, run_bind_of_ok hpeek, Option.bind_some, hm]
  simp only
  rw [run_bind_of_ok hadvance, run_bind_of_ok hs]

/-- Where no condition begins, reading ends with `acc`, what there is. -/
theorem run_conditions_of_none (h : c.rest.head?.bind (simple? fuel) = none) :
    (conditions (fuel + 1) acc).run c = .ok acc c := by
  have hpeek : peek.run c = .ok c.rest.head? c := rfl
  rw [conditions_succ, run_bind_of_ok hpeek, h]
  rfl

/-- Either a condition `s` is read and then further ones, or reading ends with `x = acc`. -/
theorem cases_of_conditions (hrun : (conditions (fuel + 1) acc).run c = .ok x c') :
    (∃ ch rest m s c₁, c.rest = ch :: rest ∧ simple? fuel ch = some m ∧
      m.run ⟨rest, c.position + 1⟩ = .ok s c₁ ∧
      (conditions fuel (acc.add s)).run c₁ = .ok x c') ∨
    c.rest.head?.bind (simple? fuel) = none ∧ x = acc ∧ c' = c := by
  obtain ⟨rest, p⟩ := c
  cases h : rest.head?.bind (simple? fuel) with
  | none =>
    rw [run_conditions_of_none h] at hrun
    cases hrun
    exact Or.inr ⟨rfl, rfl, rfl⟩
  | some m =>
    obtain ⟨ch, hhead, hm⟩ := Option.bind_eq_some_iff.mp h
    obtain ⟨rest, rfl⟩ := List.head?_eq_some_iff.mp hhead
    rw [conditions_succ] at hrun
    obtain ⟨_, _, hpeek, hrun⟩ := exists_of_run_bind_eq_ok hrun
    cases hpeek
    rw [h] at hrun
    obtain ⟨_, _, hadvance, hrun⟩ := exists_of_run_bind_eq_ok hrun
    cases hadvance
    obtain ⟨s, c₁, hs, hrun⟩ := exists_of_run_bind_eq_ok hrun
    exact Or.inl ⟨ch, rest, m, s, c₁, rfl, hm, hs, hrun⟩

/-! ### The first part -/

/-- Conditions that end with the source are read the same before further conditions `xs`, with which
reading then goes on from `x`. -/
theorem conditions_append {xs : List Char} (hxs : ∃ ch ∈ xs.head?, IsMark ch) :
    ∀ {fuel : Nat} {acc : Compound} {c : Cursor}, c.rest.length < fuel →
    (conditions fuel acc).run c = .ok x c' → c'.rest = [] →
    ∃ fuel', fuel ≤ fuel' + c.rest.length ∧ ∀ p, (conditions fuel acc).run ⟨c.rest ++ xs, p⟩ =
      (conditions fuel' x).run ⟨xs, p + c.rest.length⟩
  | 0, _, _, hfuel, _, _ => absurd hfuel (Nat.not_lt_zero _)
  | fuel + 1, acc, c, hfuel, hrun, hend => by
    rcases cases_of_conditions hrun with ⟨ch, rest, m, s, c₁, hrest, hm, hs, hrun⟩ | ⟨-, rfl, rfl⟩
    · obtain ⟨ds, hds, hreads⟩ := local_simple (local_pseudo fuel) hm _ _ s c₁ rfl hs
      change rest = ds ++ c₁.rest at hds
      have hlength : c.rest.length = 1 + ds.length + c₁.rest.length := by
        rw [hrest, hds, List.length_cons, List.length_append]
        omega
      obtain ⟨fuel', hfuel', hgo⟩ := conditions_append hxs (by omega) hrun hend
      refine ⟨fuel', by omega, fun p => ?_⟩
      -- if this is the last condition, it ends before the mark as it ended with the source
      have hread := hreads _ (alike_append IsMark hxs c₁.rest) (p + 1)
      rw [← List.append_assoc, ← hds] at hread
      rw [hlength, hrest, List.cons_append, run_conditions_of_simple? hm hread, hgo]
      congr 2
      omega
    · rw [hend]
      exact ⟨fuel + 1, Nat.le_refl _, fun p => rfl⟩

/-! ### The second part -/

/-- Conditions add up to the same whatever they are added to: those read after `d.extend acc` give
`d.extend x`. -/
theorem conditions_extend (d : Compound) : ∀ {fuel : Nat} {acc : Compound} {c : Cursor},
    (conditions fuel acc).run c = .ok x c' →
    x.tag = acc.tag ∧ (conditions fuel (d.extend acc)).run c = .ok (d.extend x) c'
  | 0, _, _, hrun => by
    cases hrun
    exact ⟨rfl, rfl⟩
  | fuel + 1, acc, ⟨_, p⟩, hrun => by
    rcases cases_of_conditions hrun with ⟨ch, rest, m, s, c₁, rfl, hm, hs, hrun⟩ | ⟨hend, rfl, rfl⟩
    · obtain ⟨htag, hextend⟩ := conditions_extend d hrun
      rw [run_conditions_of_simple? hm hs, Compound.extend_add]
      exact ⟨htag.trans (acc.tag_add s), hextend⟩
    · exact ⟨rfl, run_conditions_of_none hend⟩

/-- A source that begins with a condition is read as `conditions`, without a tag. -/
theorem conditions_of_compound (hmark : ∃ ch ∈ c.rest.head?, IsMark ch)
    (hrun : (compound (fuel + 1)).run c = .ok x c') : (conditions fuel .any).run c = .ok x c' := by
  obtain ⟨tag, c₁, htag, hconditions, -⟩ := exists_of_compound hrun
  obtain ⟨ch, hch, hmark⟩ := hmark
  have hnone : Reads optionalTag [] none c.rest := reads_optionalTag_none fun ch' hch' => by
    obtain rfl := Option.mem_unique hch hch'
    exact ⟨hmark.not_isNameChar, by rintro rfl; simp [IsMark] at hmark⟩
  have hrun' : optionalTag.run c = .ok none c := hnone c.position
  rw [hrun'] at htag
  cases htag
  exact hconditions

/-- A compound that ends with the source goes on with the conditions `xs` that follow. -/
theorem compound_append {xs : List Char} (hxs : ∃ ch ∈ xs.head?, IsMark ch) {y : Compound}
    {c₁ : Cursor} {p : Nat} (hfuel : c.rest.length < fuel)
    (hrun : (compound (fuel + 1)).run c = .ok x c') (hend : c'.rest = [])
    (happend : (compound (fuel + 1)).run ⟨c.rest ++ xs, p⟩ = .ok y c₁) :
    ∃ fuel' q, fuel ≤ fuel' + c.rest.length ∧ (conditions fuel' x).run ⟨xs, q⟩ = .ok y c₁ := by
  obtain ⟨tag, c₂, htag, hconditions, -⟩ := exists_of_compound hrun
  obtain ⟨front, hfront, -, hreads⟩ := local_optionalTag.exists_reads htag
  have hlength : c.rest.length = front.length + c₂.rest.length := by
    rw [hfront, List.length_append]
  obtain ⟨fuel', hfuel', hgo⟩ := conditions_append hxs (by omega) hconditions hend
  obtain ⟨tag', c₃, htag', hconditions', -⟩ := exists_of_compound happend
  have hread := hreads _ (alike_append IsMark hxs c₂.rest) p
  rw [← List.append_assoc, ← hfront, htag'] at hread
  cases hread
  rw [hgo] at hconditions'
  exact ⟨fuel', _, by omega, hconditions'⟩

/-- A compound after which the source goes on, `c'.rest ≠ []`, does not go on with what follows the
source. -/
theorem compound_append_of_rest (xs : List Char) (p : Nat) (hrun : (compound fuel).run c = .ok x c')
    (hrest : c'.rest ≠ []) :
    ∃ q, (compound fuel).run ⟨c.rest ++ xs, p⟩ = .ok x ⟨c'.rest ++ xs, q⟩ := by
  obtain ⟨ds, hds, -, hreads⟩ := (local_compound fuel).exists_reads hrun
  have hsame : Alike (fun _ => False) c'.rest (c'.rest ++ xs) := by
    obtain ⟨ch, rest, hcons⟩ := List.exists_cons_of_ne_nil hrest
    exact Or.inl (by rw [hcons]; rfl)
  rw [hds, List.append_assoc]
  exact ⟨_, hreads _ hsame p⟩

/-! ### Single compounds -/

/-- Nothing in particular is known of where a reader gets: `fun _ _ => True`. -/
theorem meets_any {α : Type} (m : Reader α) : Meets (fun _ => True) m fun _ _ => True :=
  fun _ _ _ _ _ => trivial

/-- No longer a single compound. -/
def Joined (x : Complex) : Prop :=
  ∀ c, x ≠ .compound c

theorem meets_further (fuel : Nat) (left : Complex) (k : Combinator)
    (h : ∀ right, Meets (fun _ => True) (joined fuel (.combine left k right)) fun x _ => Joined x) :
    Meets (fun _ => True) (do
      advance
      let _ ← skipBlanks
      joined fuel (.combine left k (← compound fuel))) fun x _ => Joined x :=
  (meets_any _).bind fun _ => (meets_any _).bind fun _ => (meets_any _).bind h

/-- Once `right` was joined, more may be, but what comes out is `Joined`. -/
theorem meets_joined_combine : ∀ (fuel : Nat) (left : Complex) (k : Combinator) (right : Compound),
    Meets (fun _ => True) (joined fuel (.combine left k right)) fun x _ => Joined x
  | 0, _, _, _ => meets_pure fun _ _ => nofun
  | fuel + 1, left, k, right => by
    rw [joined]
    refine (meets_any _).bind fun spaced => (meets_any _).bind fun next => ?_
    split
    · exact meets_pure fun _ _ => nofun
    · exact meets_pure fun _ _ => nofun
    · exact meets_further fuel _ _ (meets_joined_combine fuel _ _)
    · exact meets_further fuel _ _ (meets_joined_combine fuel _ _)
    · exact meets_further fuel _ _ (meets_joined_combine fuel _ _)
    · split
      · exact (meets_any _).bind (meets_joined_combine fuel _ _)
      · exact (meets_any _).bind fun _ => meets_throw _ _

theorem run_skipBlanks (c : Cursor) : ∃ spaced p,
    skipBlanks.run c = .ok spaced ⟨c.rest.dropWhile Text.isBlank, p⟩ :=
  ⟨_, _, by rw [← drop_length_takeWhile]; rfl⟩

/-- Where a single compound came out, nothing was joined to it: `left = .compound x`, and white
space follows and then a comma or nothing. -/
theorem rest_of_joined {left : Complex}
    (hrun : (joined (fuel + 1) left).run c = .ok (.compound x) c') :
    left = .compound x ∧ c'.rest = c.rest.dropWhile Text.isBlank ∧
      ∀ ch ∈ c'.rest.head?, ch = ',' := by
  rw [joined] at hrun
  obtain ⟨spaced, c₁, hblanks, hrun⟩ := exists_of_run_bind_eq_ok hrun
  obtain ⟨_, _, hblanks'⟩ := run_skipBlanks c
  rw [hblanks] at hblanks'
  cases hblanks'
  obtain ⟨_, _, hpeek, hrun⟩ := exists_of_run_bind_eq_ok hrun
  cases hpeek
  -- After a combinator the selector is a combination, whatever is read further on.
  have hfurther : ∀ k c₂, (do
      advance
      let _ ← skipBlanks
      joined fuel (.combine left k (← compound fuel)) : Reader Complex).run c₂ ≠
        .ok (.compound x) c' := fun k c₂ hrun =>
    meets_further fuel left k (meets_joined_combine fuel left k) c₂ _ c' trivial hrun x rfl
  split at hrun
  · -- The source has ended.
    rename_i hhead
    cases hrun
    exact ⟨rfl, rfl, fun ch hch => absurd (hhead ▸ hch) (Option.not_mem_none ch)⟩
  · -- A comma begins the next alternative.
    rename_i hhead
    cases hrun
    exact ⟨rfl, rfl, fun ch hch => (Option.some.inj (hhead ▸ hch)).symm⟩
  · exact absurd hrun (hfurther _ _)
  · exact absurd hrun (hfurther _ _)
  · exact absurd hrun (hfurther _ _)
  · split at hrun
    · obtain ⟨right, c₂, _, hrun⟩ := exists_of_run_bind_eq_ok hrun
      exact absurd rfl (meets_joined_combine fuel left _ right c₂ _ c' trivial hrun x)
    · obtain ⟨_, _, _, hrun⟩ := exists_of_run_bind_eq_ok hrun
      exact absurd hrun (run_throw_ne_ok _ _ _ _)

/-- Where there are no further alternatives no `','` came next. -/
theorem rest_of_furtherAlternatives (hrun : (furtherAlternatives (fuel + 1)).run c = .ok [] c') :
    c' = c ∧ c.rest.head? ≠ some ',' := by
  rw [furtherAlternatives] at hrun
  obtain ⟨_, _, hpeek, hrun⟩ := exists_of_run_bind_eq_ok hrun
  cases hpeek
  split at hrun
  · obtain ⟨_, _, _, hrun⟩ := exists_of_run_bind_eq_ok hrun
    obtain ⟨_, _, _, hrun⟩ := exists_of_run_bind_eq_ok hrun
    obtain ⟨_, _, _, hrun⟩ := exists_of_run_bind_eq_ok hrun
    cases hrun
  · cases hrun
    exact ⟨rfl, ‹_›⟩

end Reader

open Reader

/-- Around a single compound there is nothing but white space, so `compound` reads the source
without that in front. -/
theorem exists_of_parse_compound {source : String} {c : Compound}
    (h : parse source = .ok ⟨[.compound c]⟩) : ∃ p c',
    (compound (2 * source.toList.length + 2)).run ⟨source.toList.dropWhile Text.isBlank, p⟩ =
      .ok c c' ∧ ∀ ch ∈ c'.rest, Text.isBlank ch = true := by
  simp only [parse] at h
  split at h
  · rename_i s c₃ hrun
    cases h
    obtain ⟨x, c₂, hcomplex, hrun⟩ := exists_of_run_bind_eq_ok hrun
    obtain ⟨xs, c₄, hfurther, hrun⟩ := exists_of_run_bind_eq_ok hrun
    cases hrun
    obtain ⟨_, c₁, hblanks, hcomplex⟩ := exists_of_run_bind_eq_ok hcomplex
    obtain ⟨_, p, hblanks'⟩ := run_skipBlanks ⟨source.toList, 0⟩
    rw [hblanks] at hblanks'
    cases hblanks'
    obtain ⟨y, c', hcompound, hjoined⟩ := exists_of_run_bind_eq_ok hcomplex
    obtain ⟨hsame, hrest, hcomma⟩ := rest_of_joined hjoined
    cases hsame
    obtain ⟨-, hnext⟩ := rest_of_furtherAlternatives hfurther
    refine ⟨p, c', hcompound, List.dropWhile_eq_nil_iff.mp ?_⟩
    -- What is left begins with a comma if at all, and there it would be a further alternative.
    rw [← hrest]
    cases hc₂ : c₂.rest with
    | nil => rfl
    | cons ch rest =>
      rw [hc₂] at hcomma hnext
      exact absurd (congrArg some (hcomma ch rfl)) hnext
  · exact absurd h (by simp)

/-- White space in front is the same before `xs`, which begins with a mark. -/
theorem dropWhile_blank_append {xs : List Char} (hxs : ∃ ch ∈ xs.head?, IsMark ch) :
    ∀ cs : List Char, (cs ++ xs).dropWhile Text.isBlank = cs.dropWhile Text.isBlank ++ xs := by
  intro cs
  obtain ⟨ch, hch, hmark⟩ := hxs
  obtain ⟨rest, rfl⟩ := List.head?_eq_some_iff.mp hch
  have hkeep : (ch :: rest).dropWhile Text.isBlank = ch :: rest :=
    List.dropWhile_cons_of_neg (by simp [hmark.not_isBlank])
  rw [List.dropWhile_append, hkeep]
  split
  · rename_i hnil
    rw [List.isEmpty_iff.mp hnil, List.nil_append]
  · rfl

/-- Conditions that follow a compound `C` at the end of the source are read there as `C.extend X`,
if they are `X` alone. -/
theorem eq_extend_of_conditions {cursor cursor' : Cursor} {fuel fuel' q : Nat} {C X D : Compound}
    {d₁ : Cursor} (hfuel : 2 * cursor.rest.length + 1 ≤ fuel)
    (hfuel' : 2 * cursor.rest.length + 1 ≤ fuel')
    (hX : (conditions fuel .any).run cursor = .ok X cursor')
    (hD : (conditions fuel' C).run ⟨cursor.rest, q⟩ = .ok D d₁) :
    X.tag = none ∧ D = C.extend X := by
  have hagree : Agree (cursor.rest.length + 1) (conditions fuel .any) (conditions fuel' .any) :=
    (agreeReaders _).conditions (by omega) (by omega) .any
  rw [hagree cursor (Nat.lt_succ_self _)] at hX
  obtain ⟨htag, hextend⟩ := conditions_extend C hX
  obtain ⟨_, hat⟩ := (local_conditions fuel' _).run_at hextend q
  rw [Compound.extend_any, hD] at hat
  cases hat
  exact ⟨htag, rfl⟩

/-- **Conditions written after a compound are added to it**: `D = C.extend X`, and `X` has no
tag. -/
theorem eq_extend_of_parse {c x : String} {C X D : Compound}
    (hmark : ∃ ch ∈ x.toList.head?, IsMark ch) (hc : parse c = .ok ⟨[.compound C]⟩)
    (hx : parse x = .ok ⟨[.compound X]⟩) (hd : parse (c ++ x) = .ok ⟨[.compound D]⟩) :
    X.tag = none ∧ D = C.extend X := by
  obtain ⟨p, c₁, hC, -⟩ := exists_of_parse_compound hc
  obtain ⟨q, x₁, hX, -⟩ := exists_of_parse_compound hx
  obtain ⟨r, d₁, hD, hblank⟩ := exists_of_parse_compound hd
  have hdrop : x.toList.dropWhile Text.isBlank = x.toList := dropWhile_blank_append hmark []
  rw [hdrop] at hX
  rw [String.toList_append, dropWhile_blank_append hmark, List.length_append] at hD
  have hlength : (c.toList.dropWhile Text.isBlank).length ≤ c.toList.length :=
    (List.dropWhile_sublist _).length_le
  -- the fuel for the whole is more than enough for the first part
  have hagree : Agree (c.toList.length + 1) (compound (2 * c.toList.length + 2))
      (compound (2 * (c.toList.length + x.toList.length) + 2)) :=
    (agreeReaders _).compound (by omega) (by omega)
  rw [hagree _ (Nat.lt_succ_of_le hlength)] at hC
  by_cases hend : c₁.rest = []
  · obtain ⟨fuel, position, hfuel, hconditions⟩ :=
      compound_append hmark (by simp only; omega) hC hend hD
    simp only at hfuel
    exact eq_extend_of_conditions (by simp only; omega) (by simp only; omega)
      (conditions_of_compound hmark hX) hconditions
  · -- white space after the compound, so the conditions would have begun another one
    obtain ⟨_, hagain⟩ := compound_append_of_rest x.toList r hC hend
    rw [hD] at hagain
    cases hagain
    obtain ⟨ch, hch, hmark⟩ := hmark
    have hmem := List.mem_append_right c₁.rest (List.mem_of_mem_head? hch)
    exact absurd (hblank ch hmem) (by simp [hmark.not_isBlank])

/-! ### What the whole matches -/

section Matching

variable {a : Arena} {id : NodeId}

/-- A compound holds of an element `e` if its tag, id, classes and attributes do and all its
pseudo-classes. -/
theorem Compound.holds_iff : ∀ {c : Compound}, c.holds a id = .ok true ↔
    ∃ e, a.element? id = some e ∧ simpleHolds e c.tag c.id c.classes c.attrs = true ∧
      allHold a id c.pseudos = .ok true
  | ⟨_, _, _, _, _⟩ => by
    rw [holds]
    cases a.element? id with
    | none => simp
    | some e =>
      simp only [Option.some.injEq, exists_eq_left']
      split <;> simp [*]

/-- The pseudo-classes `ps ++ qs` all hold if all of `ps` and all of `qs` do. -/
theorem allHold_append_iff {qs : List Pseudo} : ∀ {ps : List Pseudo},
    allHold a id (ps ++ qs) = .ok true ↔ allHold a id ps = .ok true ∧ allHold a id qs = .ok true
  | [] => by simp [allHold]
  | p :: ps => by
    have ih : allHold a id (ps ++ qs) = .ok true ↔
        allHold a id ps = .ok true ∧ allHold a id qs = .ok true := allHold_append_iff
    rw [List.cons_append, allHold, allHold]
    cases p.holds a id with
    | error e => simp [bind, Except.bind]
    | ok b => cases b <;> simp [bind, Except.bind, pure, Except.pure, ih]

/-- What is left of a compound when another one is added: its id gives way to the other id. -/
def Compound.besides (c x : Compound) : Compound :=
  { c with id := if x.id.isSome then none else c.id }

/-- Conditions put together hold if both lots do, where an id in `wanted'` takes the place of one in
`wanted`. -/
theorem simpleHolds_append_iff {e : Element} {tag wanted wanted' : Option String}
    {classes classes' : List String} {attrs attrs' : List AttrTest} :
    simpleHolds e tag (wanted'.or wanted) (classes ++ classes') (attrs ++ attrs') = true ↔
      simpleHolds e tag (if wanted'.isSome then none else wanted) classes attrs = true ∧
        simpleHolds e none wanted' classes' attrs' = true := by
  cases wanted' with
  | none =>
    simp only [simpleHolds, Option.none_or, List.all_append, Bool.and_eq_true, Option.isSome_none,
      Bool.false_eq_true, if_false, true_and]
    tauto
  | some i =>
    simp only [simpleHolds, Option.some_or, List.all_append, Bool.and_eq_true, Option.isSome_some,
      if_true, and_true, true_and]
    tauto

/-- An extended compound holds if `x` does, and `c` does but for an id that `x` replaces. -/
theorem Compound.holds_extend_iff {c x : Compound} (hx : x.tag = none) :
    (c.extend x).holds a id = .ok true ↔
      (c.besides x).holds a id = .ok true ∧ x.holds a id = .ok true := by
  simp only [holds_iff, extend, besides, allHold_append_iff, simpleHolds_append_iff, hx]
  constructor
  · rintro ⟨e, he, ⟨hc, hx⟩, hcs, hxs⟩
    exact ⟨⟨e, he, hc, hcs⟩, e, he, hx, hxs⟩
  · rintro ⟨⟨e, he, hc, hcs⟩, e', he', hx, hxs⟩
    obtain rfl := Option.some.inj (he.symm.trans he')
    exact ⟨e, he, ⟨hc, hx⟩, hcs, hxs⟩

theorem Compound.attribute?_of_holds {x : Compound} {i : String} (h : x.holds a id = .ok true)
    (hi : x.id = some i) : ∃ e, a.element? id = some e ∧ e.attribute? "id" = some i := by
  obtain ⟨e, he, hsimple, -⟩ := holds_iff.mp h
  refine ⟨e, he, ?_⟩
  simp only [simpleHolds, hi, Bool.and_eq_true, beq_iff_eq] at hsimple
  exact hsimple.1.1.2

/-- An id that gives way makes no difference where the other one is the same: `i = j`. -/
theorem Compound.holds_besides_iff {c x : Compound} (hids : ∀ i ∈ c.id, ∀ j ∈ x.id, i = j)
    (hx : x.holds a id = .ok true) :
    (c.besides x).holds a id = .ok true ↔ c.holds a id = .ok true := by
  obtain ⟨tag, wanted, classes, attrs, pseudos⟩ := c
  cases hxi : x.id with
  | none => simp [besides, hxi]
  | some i =>
    cases wanted with
    | none => simp [besides]
    | some j =>
      obtain rfl : j = i := hids j rfl i hxi
      obtain ⟨e, he, hattribute⟩ := attribute?_of_holds hx hxi
      simp [holds_iff, besides, hxi, he, simpleHolds, hattribute]

/-- A selector that is one compound `c` accepts what `c.holds` of. -/
theorem accepts_compound (c : Compound) : accepts ⟨[.compound c]⟩ a id = c.holds a id := by
  simp only [accepts, List.anyM, Complex.holds]
  cases c.holds a id with
  | error e => rfl
  | ok b => cases b <;> rfl

/-- **A compound with conditions written after it matches what both match**, except that an id in
the compound gives way to an id in the conditions. -/
theorem accepts_append_iff {c x : String} {C X D : Compound}
    (hmark : ∃ ch ∈ x.toList.head?, IsMark ch) (hc : parse c = .ok ⟨[.compound C]⟩)
    (hx : parse x = .ok ⟨[.compound X]⟩) (hd : parse (c ++ x) = .ok ⟨[.compound D]⟩) :
    accepts ⟨[.compound D]⟩ a id = .ok true ↔
      accepts ⟨[.compound (C.besides X)]⟩ a id = .ok true ∧
        accepts ⟨[.compound X]⟩ a id = .ok true := by
  obtain ⟨htag, rfl⟩ := eq_extend_of_parse hmark hc hx hd
  rw [accepts_compound, accepts_compound, accepts_compound, Compound.holds_extend_iff htag]

/-- **A compound with conditions written after it matches what both match**, if they do not name
different ids. -/
theorem accepts_append_iff_of_ids {c x : String} {C X D : Compound}
    (hmark : ∃ ch ∈ x.toList.head?, IsMark ch) (hc : parse c = .ok ⟨[.compound C]⟩)
    (hx : parse x = .ok ⟨[.compound X]⟩) (hd : parse (c ++ x) = .ok ⟨[.compound D]⟩)
    (hids : ∀ i ∈ C.id, ∀ j ∈ X.id, i = j) :
    accepts ⟨[.compound D]⟩ a id = .ok true ↔
      accepts ⟨[.compound C]⟩ a id = .ok true ∧ accepts ⟨[.compound X]⟩ a id = .ok true := by
  rw [accepts_append_iff hmark hc hx hd, accepts_compound, accepts_compound, accepts_compound]
  exact and_congr_left fun hholds => Compound.holds_besides_iff hids hholds

/-- The second id is the only one that counts: of the parts of `#a#b` a paragraph with the id `b`
does not match the first one, and it matches the whole. -/
theorem accepts_second_id : ∃ s t u,
    parse "#a" = .ok s ∧ parse "#b" = .ok t ∧ parse "#a#b" = .ok u ∧
    s.accepts ((Arena.Op.parse "<p id=b></p>").after .empty) ⟨1, 0⟩ = .ok false ∧
    t.accepts ((Arena.Op.parse "<p id=b></p>").after .empty) ⟨1, 0⟩ = .ok true ∧
    u.accepts ((Arena.Op.parse "<p id=b></p>").after .empty) ⟨1, 0⟩ = .ok true := by
  refine ⟨⟨[.compound { Compound.any with id := some "a" }]⟩,
    ⟨[.compound { Compound.any with id := some "b" }]⟩,
    ⟨[.compound { Compound.any with id := some "b" }]⟩, ?_⟩
  decide +kernel

/-- A tag and an id, and then a class and a negation. -/
theorem accepts_append_iff_of_class : ∃ c x d, parse "p#a" = .ok ⟨[.compound c]⟩ ∧
    parse ".k:not([x])" = .ok ⟨[.compound x]⟩ ∧ parse "p#a.k:not([x])" = .ok ⟨[.compound d]⟩ ∧
    ∀ (a : Arena) (id : NodeId), accepts ⟨[.compound d]⟩ a id = .ok true ↔
      accepts ⟨[.compound c]⟩ a id = .ok true ∧ accepts ⟨[.compound x]⟩ a id = .ok true := by
  have hc : parse "p#a" = .ok ⟨[.compound ⟨some "p", some "a", [], [], []⟩]⟩ := by decide +kernel
  have hx : parse ".k:not([x])" = .ok ⟨[.compound ⟨none, none, ["k"], [],
      [.not [⟨none, none, [], [.present "x"], []⟩]]⟩]⟩ := by decide +kernel
  have hd : parse ("p#a" ++ ".k:not([x])") = .ok ⟨[.compound ⟨some "p", some "a", ["k"], [],
      [.not [⟨none, none, [], [.present "x"], []⟩]]⟩]⟩ := by decide +kernel
  exact ⟨_, _, _, hc, hx, hd, fun a id =>
    accepts_append_iff_of_ids ⟨'.', by decide, Or.inr (Or.inl rfl)⟩ hc hx hd nofun⟩

end Matching

end Inlay.Selector
