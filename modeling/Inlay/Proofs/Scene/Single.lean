import Inlay.Proofs.Scene.Beginning

/-!
# Templates that are one request

A list of options does not apply to a template that is a single placeholder, and a plain record does
not apply to a placeholder with a `ref`. So nothing applies to a single placeholder with a `ref`:
such a template compiles, but no instance is ever made of it (`instantiate_single_of_ref`). Every
other template of this kind takes each plain record with headers that can be sent, as long as the
clock can hold the deadline, and nothing else (`instantiate_single_iff`).
-/

namespace Inlay

namespace Template

variable {σ : Type} {t : Template} {source : String} {ds ds' : List Diagnostic} {i : Instance}
  {given : InstanceOptions} {error : TemplateError} {x : Placeholder} {observe : Observer σ}
  {host : Host} {memory : σ} {id : Nat}

/-! ### What is refused -/

/-- Options `.byId` are refused for a single placeholder. -/
theorem refusal?_byId (hsingle : t.single = true) (entries : List OptionsEntry) :
    t.refusal? (.byId entries) i = some (.idNotApplicable .singleTemplate) := by
  unfold refusal?
  rw [hsingle]
  rfl

theorem refusal?_plain (hx : t.placeholders = [x]) (o : RequestOptions) :
    t.refusal? (.plain o) i = i.obstacle? (.plain o) x := by
  unfold refusal?
  rw [hx, List.findSome?_singleton]
  rfl

/-- A plain record is refused for a placeholder with a `ref`. -/
theorem obstacle?_plain_of_ref (href : x.ref ≠ none) (o : RequestOptions) :
    i.obstacle? (.plain o) x = some (.idNotApplicable .plainRecord) := by
  obtain ⟨ref, href⟩ := Option.ne_none_iff_exists'.mp href
  have hresolve : Options.resolve (.plain o) x = .error (.idNotApplicable .plainRecord) := by
    unfold Options.resolve Options.choose
    rw [href]
    rfl
  unfold Instance.obstacle?
  rw [hresolve]

/-- A plain record is what is resolved for a placeholder without a `ref`. -/
theorem resolve_plain (href : x.ref = none) {o : RequestOptions}
    (hvalid : Options.validateHeaders o.headers = .ok ()) :
    Options.resolve (.plain o) x = .ok o := by
  unfold Options.resolve Options.choose
  rw [href]
  simp only [bind, Except.bind, hvalid]
  rfl

/-- For a placeholder without trigger or `ref` the headers are all that can be in the way. -/
theorem obstacle?_plain_eq_none_iff (htrigger : x.trigger = none) (href : x.ref = none)
    (o : RequestOptions) :
    i.obstacle? (.plain o) x = none ↔ Options.validateHeaders o.headers = .ok () := by
  have hresolve : Options.resolve (.plain o) x =
      Options.validateHeaders o.headers >>= fun _ => pure o := by
    unfold Options.resolve Options.choose
    rw [href]
    rfl
  unfold Instance.obstacle?
  rw [hresolve, htrigger]
  cases Options.validateHeaders o.headers with
  | ok _ => simp [pure, bind, Except.pure, Except.bind]
  | error e => simp [bind, Except.bind]

/-! ### Instances -/

/-- A template with `single = true` has one placeholder, without a trigger, for which there is
always a place. -/
theorem exists_single (hcompile : (compile source).run ds = .ok t ds') (hfit : t.arena.Fits)
    (hsingle : t.single = true) (id : Nat) : ∃ x i, t.placeholders = [x] ∧ x.trigger = none ∧
      Instance.ofTemplate t id = .ok i ∧ ∀ y ∈ t.placeholders, i.Accommodates y := by
  obtain ⟨x, hx, himmediate⟩ := (compiled_compile hcompile).single hsingle
  have htrigger : x.trigger = none := by simpa [Placeholder.isDeferred] using himmediate
  obtain ⟨i, -, hcopy, -⟩ := exists_copy hcompile hfit id
  refine ⟨x, i, hx, htrigger, hcopy, fun y hy => ?_⟩
  have hplace := exists_destination hcompile hfit hcopy y hy
  obtain rfl : y = x := List.mem_singleton.mp (hx ▸ hy)
  exact ⟨hplace, fun trigger h => absurd (htrigger.symm.trans h) (by simp)⟩

/-- An instance of a template that is a single placeholder is made if and only if the placeholder
has no `ref` and the options are a plain record with headers that can be sent and a deadline that
the clock can hold. -/
theorem instantiate_single_iff (hcompile : (compile source).run ds = .ok t ds')
    (hfit : t.arena.Fits) (hsingle : t.single = true) (given : InstanceOptions)
    (observe : Observer σ) (id : Nat)
    (host : Host) (memory : σ) : ∃ x, t.placeholders = [x] ∧
      ((∃ inst rest, (t.instantiate observe given id).run (host, memory) = .ok inst rest) ↔
        x.ref = none ∧ ∃ o, given = .plain o ∧ Options.validateHeaders o.headers = .ok () ∧
          host.signals.grants o = true) := by
  obtain ⟨x, i, hx, htrigger, hcopy, hplace⟩ := exists_single hcompile hfit hsingle id
  have hmem : x ∈ t.placeholders := hx ▸ List.mem_singleton_self x
  refine ⟨x, hx, ?_, ?_⟩
  · rintro ⟨inst, rest, hrun⟩
    -- whatever is refused makes no instance
    have hnone : t.refusal? given i = none := by
      cases hrefusal : t.refusal? given i with
      | none => rfl
      | some error =>
        rw [run_instantiate_of_refusal hcopy hplace hrefusal] at hrun
        exact nomatch hrun
    have hgrants : host.Grants given x := by
      obtain ⟨plans, hplan, -⟩ := exists_planInstance hcopy hplace hnone
      rcases Scene.instantiate_cases hplan observe host memory with ⟨hgrants, -⟩ |
        ⟨_, _, _, _, _, -, -, -, -, hrun'⟩
      · exact hgrants x hmem htrigger
      · rw [hrun] at hrun'
        exact nomatch hrun'
    cases given with
    | byId entries =>
      rw [refusal?_byId hsingle] at hnone
      exact nomatch hnone
    | plain o =>
      rw [refusal?_plain hx] at hnone
      have href : x.ref = none := by
        by_contra href
        rw [obstacle?_plain_of_ref href] at hnone
        exact nomatch hnone
      have hvalid := (obstacle?_plain_eq_none_iff htrigger href o).mp hnone
      exact ⟨href, o, rfl, hvalid, hgrants o (resolve_plain href hvalid)⟩
  · rintro ⟨href, o, rfl, hvalid, hgrants⟩
    have hnone : t.refusal? (.plain o) i = none := by
      rw [refusal?_plain hx]
      exact (obstacle?_plain_eq_none_iff htrigger href o).mpr hvalid
    have haffords : host.Affords (.plain o) t := by
      intro y hy _ o' ho'
      obtain rfl : y = x := List.mem_singleton.mp (hx ▸ hy)
      obtain rfl : o = o' := Except.ok.inj ((resolve_plain href hvalid).symm.trans ho')
      exact hgrants
    obtain ⟨s, hrun, -⟩ := exists_begun hcopy hplace hnone haffords observe memory
    exact ⟨_, _, hrun⟩

/-- With a `ref` the reason is always that ids do not apply, and the host stays as it is. -/
theorem instantiate_single_of_ref (hcompile : (compile source).run ds = .ok t ds')
    (hfit : t.arena.Fits) (hsingle : t.single = true) (href : ∀ x ∈ t.placeholders, x.ref ≠ none)
    (given : InstanceOptions) (observe : Observer σ) (id : Nat) (host : Host) (memory : σ) :
    ∃ why, (t.instantiate observe given id).run (host, memory) =
      .error (.template (.idNotApplicable why)) (host, memory) := by
  obtain ⟨x, i, hx, -, hcopy, hplace⟩ := exists_single hcompile hfit hsingle id
  cases given with
  | byId entries =>
    exact ⟨_, run_instantiate_of_refusal hcopy hplace (refusal?_byId hsingle entries) observe host
      memory⟩
  | plain o =>
    have hrefusal := obstacle?_plain_of_ref (i := i) (href x (hx ▸ List.mem_singleton_self x)) o
    rw [← refusal?_plain hx] at hrefusal
    exact ⟨_, run_instantiate_of_refusal hcopy hplace hrefusal observe host memory⟩

/-- A `ref` on the root: the template compiles without a diagnostic, and whatever the options, no
instance is made of it. -/
theorem compiled_never_instantiated : ∃ t : Template,
    (compile "<request src=\"/a\" ref=\"x\"></request>").run [] = .ok t [] ∧
      ∀ (given : InstanceOptions) (observe : Observer Unit) (id : Nat) (host : Host), ∃ why,
        (t.instantiate observe given id).run (host, ()) =
          .error (.template (.idNotApplicable why)) (host, ()) := by
  have hsilent : stateAfter (compile "<request src=\"/a\" ref=\"x\"></request>") [] = [] := by
    decide +kernel
  have hplayed : (outcome (compile "<request src=\"/a\" ref=\"x\"></request>") []).toOption.any
      (fun t => decide (t.arena.Fits ∧ t.single = true ∧
        ∀ x ∈ t.placeholders, x.ref ≠ none)) = true := by
    decide +kernel
  obtain ⟨t, ds, hcompile, hplayed⟩ := exists_of_any_outcome hplayed
  obtain rfl : ds = [] := (stateAfter_of_ok hcompile).symm.trans hsilent
  obtain ⟨hfit, hsingle, href⟩ := of_decide_eq_true hplayed
  exact ⟨t, hcompile, fun given observe id host =>
    instantiate_single_of_ref hcompile hfit hsingle href given observe id host ()⟩

end Template

end Inlay
