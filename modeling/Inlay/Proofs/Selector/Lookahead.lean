import Inlay.Proofs.Selector.Spelling

/-!
# How far readers look

A reader that succeeds has consumed a beginning of the source and has seen at most one character
after it. So it reads the same wherever that beginning stands with the same character after it. Some
readers would also stop before a character of a class `p` as they stop at the end of the source.
`Local p` says both. Where a condition ends a mark may follow as well as nothing, since names have
no marks in them (`local_pseudo`, `local_attrTest`); a compound goes on there (`local_compound`).

How much fuel a reader has makes no difference if it is enough for the source (`Agree`).
-/

namespace Inlay.Selector

/-! ### Simple selectors -/

/-- A condition as it is written. -/
inductive Simple where
  | id (i : String)
  | cls (s : String)
  | attr (a : AttrTest)
  | pseudo (p : Pseudo)

/-- One more condition. There is room for one id only. -/
def Compound.add (c : Compound) : Simple → Compound
  | .id i => { c with id := some i }
  | .cls s => { c with classes := c.classes ++ [s] }
  | .attr a => { c with attrs := c.attrs ++ [a] }
  | .pseudo p => { c with pseudos := c.pseudos ++ [p] }

namespace Reader

variable {α β : Type} {p q : Char → Prop} {next : Option Char} {m : Reader α}

/-- What is read after a mark. -/
def simple? (fuel : Nat) : Char → Option (Reader Simple)
  | '#' => some do return .id (← name)
  | '.' => some do return .cls (← name)
  | '[' => some do return .attr (← attrTest)
  | ':' => some do return .pseudo (← pseudo fuel)
  | _ => none

theorem conditions_succ (fuel : Nat) (acc : Compound) : conditions (fuel + 1) acc = (do
    match (← peek).bind (simple? fuel) with
    | some m =>
      advance
      conditions fuel (acc.add (← m))
    | none => return acc) := by
  rw [conditions]
  refine congrArg _ (funext fun next => ?_)
  split
  · simp [simple?, Compound.add]
  · simp [simple?, Compound.add]
  · simp [simple?, Compound.add]
  · simp [simple?, Compound.add]
  · cases next with
    | none => rfl
    | some c => simp_all [simple?]

/-- The compounds of a negation, up to its closing parenthesis. -/
def negated (fuel : Nat) : Reader (List Compound) := do
  expect '('
  let _ ← skipBlanks
  let c ← compound fuel
  let _ ← skipBlanks
  return c :: (← furtherCompounds fuel)

theorem pseudo_succ (fuel : Nat) : pseudo (fuel + 1) = (do
    let keyword := (← name).toLower
    if keyword = "first-child" then return .firstChild
    else if keyword = "last-child" then return .lastChild
    else if keyword = "nth-child" then return .nthChild (← nthArgument)
    else if keyword = "not" then
      let cs ← negated fuel
      expect ')'
      return .not cs
    else throw (.unsupportedPseudo keyword)) := by
  rw [pseudo]
  simp only [negated, bind_assoc, pure_bind]

/-! ### Looking ahead -/

/-- What follows in one source looks like what follows in another: it begins with the same
character, or with one of the class `p` where the other source is at its end. -/
def Alike (p : Char → Prop) (rest rest' : List Char) : Prop :=
  rest'.head? = rest.head? ∨ rest = [] ∧ ∃ c ∈ rest'.head?, p c

theorem Alike.append {rest rest' : List Char} (h : Alike p rest rest') :
    ∀ ds : List Char, Alike p (ds ++ rest) (ds ++ rest')
  | [] => h
  | _ :: _ => Or.inl rfl

/-- Where `next` comes, `m` reads what it reads wherever what follows looks alike. -/
def LocalAt (next : Option Char) (p : Char → Prop) (m : Reader α) : Prop :=
  ∀ c x c', c.rest.head? = next → m.run c = .ok x c' →
    ∃ ds, c.rest = ds ++ c'.rest ∧ ∀ rest, Alike p c'.rest rest → Reads m ds x rest

/-- What a reader reads depends on what it consumes and on the look of what follows only. -/
def Local (p : Char → Prop) (m : Reader α) : Prop :=
  ∀ next, LocalAt next p m

/-- What a local reader consumes is a text `ds`, and it reads that text before any rest that is
alike. -/
theorem Local.exists_reads (h : Local p m) {c c' : Cursor} {x : α} (hrun : m.run c = .ok x c') :
    ∃ ds, c.rest = ds ++ c'.rest ∧ c'.position = c.position + ds.length ∧
      ∀ rest, Alike p c'.rest rest → Reads m ds x rest := by
  obtain ⟨ds, hrest, hreads⟩ := h _ c x c' rfl hrun
  have hsame := hreads c'.rest (Or.inl rfl) c.position
  rw [← hrest, hrun] at hsame
  exact ⟨ds, hrest, congrArg (fun r => match r with
    | .ok _ c => c.position
    | .error _ c => c.position) hsame, hreads⟩

/-- A reader does not lengthen its source: `c'.rest.length ≤ c.rest.length`. -/
theorem Local.length_le (h : Local p m) {c c' : Cursor} {x : α} (hrun : m.run c = .ok x c') :
    c'.rest.length ≤ c.rest.length := by
  obtain ⟨ds, hrest, -⟩ := h.exists_reads hrun
  rw [hrest, List.length_append]
  exact Nat.le_add_left _ _

/-- Where the source stands does not matter: from any `position` the same is read and the same is
left. -/
theorem Local.run_at (h : Local p m) {c c' : Cursor} {x : α} (hrun : m.run c = .ok x c')
    (position : Nat) : ∃ position', m.run ⟨c.rest, position⟩ = .ok x ⟨c'.rest, position'⟩ := by
  obtain ⟨ds, hrest, -, hreads⟩ := h.exists_reads hrun
  exact ⟨position + ds.length, hrest ▸ hreads c'.rest (Or.inl rfl) position⟩

theorem Local.mono (h : Local p m) (hq : ∀ c, q c → p c) : Local q m := by
  intro next c x c' hnext hrun
  obtain ⟨ds, hrest, hreads⟩ := h next c x c' hnext hrun
  refine ⟨ds, hrest, fun rest hrest' => hreads rest ?_⟩
  rcases hrest' with hsame | ⟨hend, ch, hch, hq'⟩
  · exact Or.inl hsame
  · exact Or.inr ⟨hend, ch, hch, hq ch hq'⟩

theorem local_pure (x : α) : Local p (pure x : Reader α) := by
  intro next c y c' _ hrun
  cases hrun
  exact ⟨[], rfl, fun rest _ => reads_pure x rest⟩

theorem local_throw (e : SyntaxError) : Local p (throw e : Reader α) :=
  fun _ c x c' _ hrun => absurd hrun (run_throw_ne_ok e c c' x)

theorem LocalAt.bind {f : α → Reader β} (hm : LocalAt next p m) (hf : ∀ x, Local p (f x)) :
    LocalAt next p (m >>= f) := by
  intro c y c'' hnext hrun
  obtain ⟨x, c', hx, hy⟩ := exists_of_run_bind_eq_ok hrun
  obtain ⟨ds, hds, hreads⟩ := hm c x c' hnext hx
  obtain ⟨es, hes, hreads'⟩ := hf x _ c' y c'' rfl hy
  refine ⟨ds ++ es, by rw [hds, hes, List.append_assoc], fun rest hrest => ?_⟩
  exact (hreads (es ++ rest) (hes ▸ hrest.append es)).bind (hreads' rest hrest)

/-- If `m` is local and so is what follows its result, `m >>= f` is. -/
theorem Local.bind {f : α → Reader β} (hm : Local p m) (hf : ∀ x, Local p (f x)) :
    Local p (m >>= f) :=
  fun next => (hm next).bind hf

theorem localAt_advance (c : Char) : LocalAt (some c) p advance := by
  intro cursor x c' hnext hrun
  obtain ⟨rest, hrest⟩ := List.head?_eq_some_iff.mp hnext
  cases hrun
  exact ⟨[c], by simp [hrest], fun rest _ => reads_advance c rest⟩

/-- A look at what comes next is local, where the end of the source must be taken for any character
of `p`. -/
theorem local_peek {f : Option Char → Reader β} (h : ∀ next, LocalAt next p (f next))
    (hend : ∀ c, p c → f (some c) = f none) : Local p (peek >>= f) := by
  intro next c y c' hnext hrun
  obtain ⟨ds, hds, hreads⟩ := h next c y c' hnext (hnext ▸ hrun)
  refine ⟨ds, hds, fun rest hrest => (reads_peek (ds ++ rest)).after ?_⟩
  rcases hrest.append ds with hsame | ⟨hnil, ch, hch, hp⟩
  · rw [hsame, ← hds, hnext]
    exact hreads rest hrest
  · -- nothing was consumed at the end of the source, so the look itself gives something else
    rw [hds, hnil] at hnext
    rw [hch, hend ch hp, ← List.head?_nil, hnext]
    exact hreads rest hrest

/-! ### Parts of the source -/

/-- A run of the class `f` is local before characters outside `f`. -/
theorem local_takeWhile {f : Char → Bool} (h : ∀ c, p c → f c = false) : Local p (takeWhile f) := by
  intro next c cs c' _ hrun
  cases hrun
  refine ⟨c.rest.takeWhile f, ?_, fun rest hrest => ?_⟩
  · rw [drop_length_takeWhile, List.takeWhile_append_dropWhile]
  · refine reads_takeWhile (fun ch hch => List.mem_takeWhile_imp hch) fun ch hch => ?_
    rcases hrest with hsame | ⟨-, ch', hch', hp⟩
    · rw [drop_length_takeWhile] at hsame
      rw [Option.mem_def, hsame] at hch
      simpa [hch] using List.head?_dropWhile_not f c.rest
    · rw [Option.mem_unique hch hch']
      exact h ch' hp

theorem local_skipBlanks (h : ∀ c, p c → Text.isBlank c = false) : Local p skipBlanks :=
  (local_takeWhile h).bind fun _ => local_pure _

theorem local_skipBlanks_next : Local (fun _ => False) skipBlanks :=
  local_skipBlanks nofun

theorem local_name (h : ∀ c, p c → isNameChar c = false) : Local p name := by
  intro next c s c' _ hrun
  obtain ⟨_, _, hget, hrun⟩ := exists_of_run_bind_eq_ok hrun
  cases hget
  obtain ⟨cs, c₁, htake, hrun⟩ := exists_of_run_bind_eq_ok hrun
  obtain ⟨ds, hds, hreads⟩ := local_takeWhile h _ c cs c₁ rfl htake
  split at hrun
  · exact absurd hrun (run_throw_ne_ok _ _ _ _)
  · rename_i hne
    cases hrun
    refine ⟨ds, hds, fun rest hrest position => ?_⟩
    unfold name
    rw [run_bind_of_ok (EStateM.run_get ..), run_bind_of_ok (hreads rest hrest position),
      if_neg hne]
    rfl

/-- The character `ch` that was expected stood there. -/
theorem rest_of_expect {ch : Char} {c c' : Cursor} (hrun : (expect ch).run c = .ok () c') :
    c.rest = ch :: c'.rest := by
  obtain ⟨_, _, hpeek, hrun⟩ := exists_of_run_bind_eq_ok hrun
  cases hpeek
  split at hrun
  · rename_i hhead
    obtain ⟨rest, hrest⟩ := List.head?_eq_some_iff.mp hhead
    cases hrun
    simp [hrest]
  · obtain ⟨_, _, _, hrun⟩ := exists_of_run_bind_eq_ok hrun
    exact absurd hrun (run_throw_ne_ok _ _ _ _)

/-- Nothing that follows a character `ch` that is expected matters. -/
theorem local_expect (ch : Char) : Local p (expect ch) :=
  fun _ _ _ _ _ hrun => ⟨[ch], rest_of_expect hrun, fun rest _ => reads_expect ch rest⟩

/-- Nor does what follows `ch` matter to what was read before it. -/
theorem Local.closed (h : Local (fun _ => False) m) (ch : Char) (f : α → β) :
    Local p (m >>= fun x => expect ch >>= fun _ => pure (f x)) := by
  intro next c y c'' _ hrun
  obtain ⟨x, c', hx, hrun⟩ := exists_of_run_bind_eq_ok hrun
  obtain ⟨_, _, hexpect, hpure⟩ := exists_of_run_bind_eq_ok hrun
  cases hpure
  have hclose := rest_of_expect hexpect
  obtain ⟨ds, hds, hreads⟩ := h _ c x c' rfl hx
  refine ⟨ds ++ [ch], by rw [hds, hclose, List.append_assoc]; rfl, fun rest _ => ?_⟩
  have hsame : Alike (fun _ => False) c'.rest ([ch] ++ rest) := Or.inl (by rw [hclose]; rfl)
  exact (hreads _ hsame).bind ((reads_expect ch rest).returning fun _ => f x)

theorem local_through (close : Char) (missing : SyntaxError) : Local p (through close missing) := by
  intro next c s c' _ hrun
  obtain ⟨cs, c₁, htake, hrun⟩ := exists_of_run_bind_eq_ok hrun
  obtain ⟨_, _, hpeek, hrun⟩ := exists_of_run_bind_eq_ok hrun
  cases htake
  cases hpeek
  rw [drop_length_takeWhile] at hrun
  have hsplit := List.takeWhile_append_dropWhile (p := fun d => decide (d ≠ close)) (l := c.rest)
  cases hclosed : c.rest.dropWhile (fun d => decide (d ≠ close)) with
  | nil =>
    rw [hclosed] at hrun
    exact absurd hrun (run_throw_ne_ok _ _ _ _)
  | cons ch rest =>
    obtain rfl : ch = close := by
      have hstop := List.head?_dropWhile_not (fun d => decide (d ≠ close)) c.rest
      rw [hclosed] at hstop
      simpa using hstop
    rw [hclosed] at hrun hsplit
    cases hrun
    have hfree : ch ∉ (String.ofList (c.rest.takeWhile fun d => decide (d ≠ ch))).toList := by
      rw [String.toList_ofList]
      exact fun hmem => by simpa using List.mem_takeWhile_imp hmem
    refine ⟨_, ?_, fun rest _ => reads_through hfree missing rest⟩
    rw [String.toList_ofList, List.append_assoc]
    exact hsplit.symm

/-! ### Attribute conditions -/

theorem local_attrValue (h : ∀ c, p c → IsMark c) : Local p attrValue := by
  refine local_peek (fun next => ?_) fun c hc => ?_
  · split
    · exact (localAt_advance '"').bind fun _ => local_through '"' _
    · exact (localAt_advance '\'').bind fun _ => local_through '\'' _
    · exact local_name (fun c hc => (h c hc).not_isNameChar) next
  · rcases h c hc with rfl | rfl | rfl | rfl <;> rfl

theorem local_attrTest : Local IsMark attrTest := by
  have hblanks : Local IsMark skipBlanks := local_skipBlanks fun _ => IsMark.not_isBlank
  refine hblanks.bind fun _ => (local_name fun _ => IsMark.not_isNameChar).bind fun attr => ?_
  refine hblanks.bind fun _ => local_peek (fun next => ?_) fun c hc => ?_
  · split
    · rename_i hnext
      rw [hnext]
      refine (localAt_advance '=').bind fun _ => hblanks.bind fun _ => ?_
      refine (local_attrValue fun _ => id).bind fun value => hblanks.bind fun _ => ?_
      exact (local_expect ']').bind fun _ => local_pure _
    · exact ((local_expect ']').bind fun _ => local_pure _) next
  · rcases hc with rfl | rfl | rfl | rfl <;> rfl

theorem local_nthArgument : Local p nthArgument := by
  refine (local_expect '(').bind fun _ => (local_through ')' _).bind fun argument => ?_
  cases Nth.parse? argument with
  | none => exact local_throw _
  | some n => exact local_pure n

/-! ### Compounds -/

theorem local_optionalTag : Local IsMark optionalTag := by
  refine local_peek (fun next => ?_) fun c hc => ?_
  · split
    · exact (localAt_advance '*').bind fun _ => local_pure _
    · split
      · exact ((local_name fun _ => IsMark.not_isNameChar).bind fun _ => local_pure _) _
      · exact local_pure _ _
    · exact local_pure _ _
  · rcases hc with rfl | rfl | rfl | rfl <;> rfl

theorem local_simple {fuel : Nat} {c : Char} {m : Reader Simple}
    (hpseudo : Local IsMark (pseudo fuel)) (h : simple? fuel c = some m) : Local IsMark m := by
  unfold simple? at h
  have hname : Local IsMark name := local_name fun _ => IsMark.not_isNameChar
  split at h
  · exact Option.some.inj h ▸ hname.bind fun _ => local_pure _
  · exact Option.some.inj h ▸ hname.bind fun _ => local_pure _
  · exact Option.some.inj h ▸ local_attrTest.bind fun _ => local_pure _
  · exact Option.some.inj h ▸ hpseudo.bind fun _ => local_pure _
  · exact absurd h nofun

/-- A compound that was read is a `tag`, or none, and conditions, and something of it was there. -/
theorem exists_of_compound {fuel : Nat} {c c' : Cursor} {x : Compound}
    (hrun : (compound (fuel + 1)).run c = .ok x c') : ∃ tag c₁, optionalTag.run c = .ok tag c₁ ∧
      (conditions fuel { Compound.any with tag }).run c₁ = .ok x c' ∧ c'.position ≠ c.position := by
  rw [compound_succ] at hrun
  obtain ⟨_, _, hget, hrun⟩ := exists_of_run_bind_eq_ok hrun
  cases hget
  obtain ⟨tag, c₁, htag, hrun⟩ := exists_of_run_bind_eq_ok hrun
  obtain ⟨y, c₂, hconditions, hrun⟩ := exists_of_run_bind_eq_ok hrun
  obtain ⟨_, _, hget, hrun⟩ := exists_of_run_bind_eq_ok hrun
  cases hget
  split at hrun
  · obtain ⟨next, c₃, _, hrun⟩ := exists_of_run_bind_eq_ok hrun
    cases next <;> exact absurd hrun (run_throw_ne_ok _ _ _ _)
  · rename_i hmoved
    cases hrun
    exact ⟨tag, c₁, htag, hconditions, hmoved⟩

/-- A compound is local, with one unit of `fuel` more, if its conditions are. -/
theorem local_compound_succ {fuel : Nat}
    (h : ∀ acc, Local (fun _ => False) (conditions fuel acc)) :
    Local (fun _ => False) (compound (fuel + 1)) := by
  intro next c x c' _ hrun
  obtain ⟨tag, c₁, htag, hconditions, hmoved⟩ := exists_of_compound hrun
  obtain ⟨front, hfront, hposition, hreads⟩ :=
    (local_optionalTag.mono (q := fun _ => False) nofun).exists_reads htag
  obtain ⟨ds, hds, hposition', hreads'⟩ := (h _).exists_reads hconditions
  refine ⟨front ++ ds, by rw [hfront, hds, List.append_assoc], fun rest hrest => ?_⟩
  refine reads_compound_succ (hreads _ (hds ▸ hrest.append ds)) (hreads' rest hrest) ?_
  -- the position has changed, so something was consumed
  intro hnil
  have hlength := congrArg List.length hnil
  rw [List.length_append, List.length_nil] at hlength
  omega

/-- A negated list is local with the `fuel` with which its compounds are. -/
theorem local_negated {fuel : Nat} (hcompound : Local (fun _ => False) (compound fuel))
    (hfurther : Local (fun _ => False) (furtherCompounds fuel)) :
    Local (fun _ => False) (negated fuel) := by
  refine (local_expect '(').bind fun _ => local_skipBlanks_next.bind fun _ => ?_
  refine hcompound.bind fun c => local_skipBlanks_next.bind fun _ => ?_
  exact hfurther.bind fun cs => local_pure _

theorem local_pseudo_succ {fuel : Nat} (h : Local (fun _ => False) (negated fuel)) :
    Local IsMark (pseudo (fuel + 1)) := by
  rw [pseudo_succ]
  refine (local_name fun _ => IsMark.not_isNameChar).bind fun keyword => ?_
  simp only
  split
  · exact local_pure _
  split
  · exact local_pure _
  split
  · exact local_nthArgument.bind fun _ => local_pure _
  split
  · exact h.closed ')' Pseudo.not
  · exact local_throw _

theorem local_furtherCompounds_succ {fuel : Nat}
    (hcompound : Local (fun _ => False) (compound fuel))
    (hfurther : Local (fun _ => False) (furtherCompounds fuel)) :
    Local (fun _ => False) (furtherCompounds (fuel + 1)) := by
  rw [furtherCompounds]
  refine local_peek (fun next => ?_) nofun
  split
  · rename_i hnext
    rw [hnext]
    refine (localAt_advance ',').bind fun _ => local_skipBlanks_next.bind fun _ => ?_
    refine hcompound.bind fun c => local_skipBlanks_next.bind fun _ => ?_
    exact hfurther.bind fun cs => local_pure _
  · exact local_pure _ next

theorem local_conditions_succ {fuel : Nat} (hpseudo : Local IsMark (pseudo fuel))
    (h : ∀ acc, Local (fun _ => False) (conditions fuel acc)) (acc : Compound) :
    Local (fun _ => False) (conditions (fuel + 1) acc) := by
  rw [conditions_succ]
  refine local_peek (fun next => ?_) nofun
  split
  · rename_i m hm
    obtain ⟨ch, rfl, hm⟩ := Option.bind_eq_some_iff.mp hm
    refine (localAt_advance ch).bind fun _ => ?_
    exact ((local_simple hpseudo hm).mono nofun).bind fun s => h (acc.add s)
  · exact local_pure _ next

/-- The readers that call each other with less fuel. -/
structure LocalReaders (fuel : Nat) : Prop where
  pseudo : Local IsMark (pseudo fuel)
  furtherCompounds : Local (fun _ => False) (furtherCompounds fuel)
  conditions : ∀ acc, Local (fun _ => False) (conditions fuel acc)
  compound : Local (fun _ => False) (compound fuel)

/-- **All readers are local**, by induction on the fuel that they share. -/
theorem localReaders (fuel : Nat) : LocalReaders fuel := by
  induction fuel with
  | zero => exact ⟨local_throw _, local_pure _, fun acc => local_pure acc, local_throw _⟩
  | succ fuel ih =>
    constructor
    case pseudo => exact local_pseudo_succ (local_negated ih.compound ih.furtherCompounds)
    case furtherCompounds => exact local_furtherCompounds_succ ih.compound ih.furtherCompounds
    case conditions => exact local_conditions_succ ih.pseudo ih.conditions
    case compound => exact local_compound_succ ih.conditions

/-- A mark may stand where a pseudo-class ended with the source: it is local before `IsMark`. -/
theorem local_pseudo (fuel : Nat) : Local IsMark (pseudo fuel) :=
  (localReaders fuel).pseudo

theorem local_furtherCompounds (fuel : Nat) : Local (fun _ => False) (furtherCompounds fuel) :=
  (localReaders fuel).furtherCompounds

theorem local_conditions (fuel : Nat) (acc : Compound) :
    Local (fun _ => False) (conditions fuel acc) :=
  (localReaders fuel).conditions acc

/-- Where a compound ended with the source only the end may stand: it is local before nothing,
`fun _ => False`. -/
theorem local_compound (fuel : Nat) : Local (fun _ => False) (compound fuel) :=
  (localReaders fuel).compound

/-!
### Enough fuel

From the conditions of a compound to those of a compound in a negation it takes three units of fuel,
and a colon and a parenthesis are consumed on the way; to the next condition or compound it takes
one, and a mark or a comma is consumed. So two units for each character are enough.
-/

/-- On sources of less than `n` characters both readers do the same. -/
def Agree (n : Nat) (m m' : Reader α) : Prop :=
  ∀ c, c.rest.length < n → m.run c = m'.run c

theorem agree_zero (m m' : Reader α) : Agree 0 m m' :=
  fun _ hc => absurd hc (Nat.not_lt_zero _)

theorem agree_refl (n : Nat) (m : Reader α) : Agree n m m :=
  fun _ _ => rfl

/-- If `m` and `m'` agree, and `f` and `f'` do after every result, they agree as wholes. -/
theorem Agree.bind {n : Nat} {m' : Reader α} {f f' : α → Reader β} (h : Agree n m m')
    (hm : Local p m) (hf : ∀ x, Agree n (f x) (f' x)) : Agree n (m >>= f) (m' >>= f') := by
  intro c hc
  rw [EStateM.run_bind, EStateM.run_bind, ← h c hc]
  cases hrun : m.run c with
  | error e c' => rfl
  | ok x c' => exact hf x c' (Nat.lt_of_le_of_lt (hm.length_le hrun) hc)

theorem Local.agree {n : Nat} {f f' : α → Reader β} (hm : Local p m)
    (hf : ∀ x, Agree n (f x) (f' x)) : Agree n (m >>= f) (m >>= f') :=
  (agree_refl n m).bind hm hf

/-- A character that is consumed leaves a shorter source, so `n` characters after it are `n + 1`
with it. -/
theorem agree_expect {n : Nat} (ch : Char) {f f' : Unit → Reader β} (h : Agree n (f ()) (f' ())) :
    Agree (n + 1) (expect ch >>= f) (expect ch >>= f') := by
  intro c hc
  rw [EStateM.run_bind, EStateM.run_bind]
  cases hrun : (expect ch).run c with
  | error e c' => rfl
  | ok x c' =>
    refine h c' ?_
    rw [rest_of_expect hrun] at hc
    exact Nat.lt_of_succ_lt_succ hc

/-- It is enough to agree on each source of less than `n` characters, with what comes next known. -/
theorem agree_peek {n : Nat} {f f' : Option Char → Reader β}
    (h : ∀ c, c.rest.length < n → (f c.rest.head?).run c = (f' c.rest.head?).run c) :
    Agree n (peek >>= f) (peek >>= f') :=
  fun c hc => h c hc

/-- A character is consumed, so readers that agree on `n` characters after it agree on `n + 1`. -/
theorem run_advance_eq {n : Nat} {ch : Char} {f f' : Unit → Reader β} (h : Agree n (f ()) (f' ()))
    {c : Cursor} (hnext : c.rest.head? = some ch) (hc : c.rest.length < n + 1) :
    (advance >>= f).run c = (advance >>= f').run c := by
  obtain ⟨rest, hrest⟩ := List.head?_eq_some_iff.mp hnext
  refine h ⟨c.rest.tail, c.position + 1⟩ ?_
  rw [hrest] at hc ⊢
  exact Nat.lt_of_succ_lt_succ hc

theorem agree_simple {n fuel fuel' : Nat} (hpseudo : Agree n (pseudo fuel) (pseudo fuel'))
    (c : Char) : simple? fuel c = none ∧ simple? fuel' c = none ∨
      ∃ m m', simple? fuel c = some m ∧ simple? fuel' c = some m' ∧ Agree n m m' := by
  unfold simple?
  split
  · exact Or.inr ⟨_, _, rfl, rfl, agree_refl n _⟩
  · exact Or.inr ⟨_, _, rfl, rfl, agree_refl n _⟩
  · exact Or.inr ⟨_, _, rfl, rfl, agree_refl n _⟩
  · exact Or.inr ⟨_, _, rfl, rfl, hpseudo.bind (local_pseudo fuel) fun _ => agree_refl n _⟩
  · exact Or.inl ⟨rfl, rfl⟩

theorem agree_negated {n fuel fuel' : Nat} (hcompound : Agree n (compound fuel) (compound fuel'))
    (hfurther : Agree n (furtherCompounds fuel) (furtherCompounds fuel')) :
    Agree (n + 1) (negated fuel) (negated fuel') := by
  refine agree_expect '(' (local_skipBlanks_next.agree fun _ => ?_)
  refine hcompound.bind (local_compound fuel) fun c => local_skipBlanks_next.agree fun _ => ?_
  exact hfurther.bind (local_furtherCompounds fuel) fun cs => agree_refl n _

theorem agree_compound_succ {n fuel fuel' : Nat}
    (h : ∀ acc, Agree n (conditions fuel acc) (conditions fuel' acc)) :
    Agree n (compound (fuel + 1)) (compound (fuel' + 1)) := by
  intro c hc
  rw [compound_succ, compound_succ, EStateM.run_bind, EStateM.run_bind]
  refine local_optionalTag.agree (fun tag => ?_) c hc
  exact (h _).bind (local_conditions fuel _) fun x => agree_refl n _

theorem agree_pseudo_succ {n fuel fuel' : Nat} (h : Agree n (negated fuel) (negated fuel')) :
    Agree n (pseudo (fuel + 1)) (pseudo (fuel' + 1)) := by
  rw [pseudo_succ, pseudo_succ]
  refine (local_name fun _ => IsMark.not_isNameChar).agree fun keyword => ?_
  simp only
  split
  · exact agree_refl n _
  split
  · exact agree_refl n _
  split
  · exact agree_refl n _
  split
  · exact h.bind (local_negated (local_compound fuel) (local_furtherCompounds fuel))
      fun cs => agree_refl n _
  · exact agree_refl n _

theorem agree_furtherCompounds_succ {n fuel fuel' : Nat}
    (hcompound : Agree n (compound fuel) (compound fuel'))
    (hfurther : Agree n (furtherCompounds fuel) (furtherCompounds fuel')) :
    Agree (n + 1) (furtherCompounds (fuel + 1)) (furtherCompounds (fuel' + 1)) := by
  rw [furtherCompounds, furtherCompounds]
  refine agree_peek fun c hc => ?_
  split
  · refine run_advance_eq (local_skipBlanks_next.agree fun _ => ?_) ‹_› hc
    refine hcompound.bind (local_compound fuel) fun x => local_skipBlanks_next.agree fun _ => ?_
    exact hfurther.bind (local_furtherCompounds fuel) fun xs => agree_refl n _
  · rfl

theorem agree_conditions_succ {n fuel fuel' : Nat} (hpseudo : Agree n (pseudo fuel) (pseudo fuel'))
    (h : ∀ acc, Agree n (conditions fuel acc) (conditions fuel' acc)) (acc : Compound) :
    Agree (n + 1) (conditions (fuel + 1) acc) (conditions (fuel' + 1) acc) := by
  rw [conditions_succ, conditions_succ]
  refine agree_peek fun c hc => ?_
  cases hnext : c.rest.head? with
  | none => rfl
  | some ch =>
    rw [Option.bind_some, Option.bind_some]
    rcases agree_simple hpseudo ch with ⟨hm, hm'⟩ | ⟨m, m', hm, hm', hagree⟩
    · rw [hm, hm']
    · rw [hm, hm']
      refine run_advance_eq (hagree.bind (local_simple (local_pseudo fuel) hm) fun s => ?_) hnext hc
      exact h (acc.add s)

/-- On sources of less than `n` characters it makes no difference by how much there is enough
fuel. -/
structure AgreeReaders (n : Nat) : Prop where
  pseudo : ∀ {fuel fuel' : Nat}, 2 * n ≤ fuel + 1 → 2 * n ≤ fuel' + 1 →
    Agree n (pseudo fuel) (pseudo fuel')
  furtherCompounds : ∀ {fuel fuel' : Nat}, 2 * n ≤ fuel + 1 → 2 * n ≤ fuel' + 1 →
    Agree n (furtherCompounds fuel) (furtherCompounds fuel')
  conditions : ∀ {fuel fuel' : Nat}, 2 * n ≤ fuel + 1 → 2 * n ≤ fuel' + 1 → ∀ acc,
    Agree n (conditions fuel acc) (conditions fuel' acc)
  compound : ∀ {fuel fuel' : Nat}, 2 * n ≤ fuel → 2 * n ≤ fuel' →
    Agree n (compound fuel) (compound fuel')

/-- Enough `fuel` for `n + 1` is one unit more than enough for `n`. -/
theorem exists_less_fuel {n fuel : Nat} (h : 2 * (n + 1) ≤ fuel + 1) :
    ∃ less, fuel = less + 1 ∧ 2 * n ≤ less :=
  ⟨fuel - 1, by omega, by omega⟩

/-- **On a source of less than `n` characters, `2 * n` units of fuel are enough**: more of it makes
no difference. -/
theorem agreeReaders (n : Nat) : AgreeReaders n := by
  induction n with
  | zero =>
    exact ⟨fun _ _ => agree_zero _ _, fun _ _ => agree_zero _ _, fun _ _ _ => agree_zero _ _,
      fun _ _ => agree_zero _ _⟩
  | succ n ih =>
    have hconditions : ∀ {fuel fuel' : Nat}, 2 * (n + 1) ≤ fuel + 1 → 2 * (n + 1) ≤ fuel' + 1 →
        ∀ acc, Agree (n + 1) (conditions fuel acc) (conditions fuel' acc) := by
      intro fuel fuel' h h'
      obtain ⟨fuel, rfl, hless⟩ := exists_less_fuel h
      obtain ⟨fuel', rfl, hless'⟩ := exists_less_fuel h'
      exact agree_conditions_succ (ih.pseudo (by omega) (by omega))
        (ih.conditions (by omega) (by omega))
    constructor
    case pseudo =>
      intro fuel fuel' h h'
      obtain ⟨fuel, rfl, hless⟩ := exists_less_fuel h
      obtain ⟨fuel', rfl, hless'⟩ := exists_less_fuel h'
      exact agree_pseudo_succ
        (agree_negated (ih.compound hless hless') (ih.furtherCompounds (by omega) (by omega)))
    case furtherCompounds =>
      intro fuel fuel' h h'
      obtain ⟨fuel, rfl, hless⟩ := exists_less_fuel h
      obtain ⟨fuel', rfl, hless'⟩ := exists_less_fuel h'
      exact agree_furtherCompounds_succ (ih.compound hless hless')
        (ih.furtherCompounds (by omega) (by omega))
    case conditions => exact hconditions
    case compound =>
      -- the conditions of a compound stand in the same source, with one unit of fuel less for them
      intro fuel fuel' h h'
      obtain ⟨fuel, rfl, -⟩ := exists_less_fuel (Nat.le_succ_of_le h)
      obtain ⟨fuel', rfl, -⟩ := exists_less_fuel (Nat.le_succ_of_le h')
      exact agree_compound_succ (hconditions h h')

end Reader

end Inlay.Selector
