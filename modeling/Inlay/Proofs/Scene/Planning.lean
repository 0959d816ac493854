import Inlay.Proofs.Options.Headers
import Inlay.Proofs.Scene.Opening
import Inlay.Proofs.Selector.Matching
import Inlay.Proofs.Template.Pick

/-!
# What is planned for an instance

Before anything is started each placeholder is checked against the options and the copied tree. What
can stand against a placeholder is its options or that its trigger has no elements (`obstacle?`);
the first obstacle in document order is reported, and without any there is a plan for each
placeholder (`exists_planAll`). Nothing else can fail: a copy of a compiled template has an element
for every placeholder (`exists_destination`).
-/

namespace Inlay

variable {i : Instance} {given : InstanceOptions} {x : Placeholder} {error : TemplateError}

/-! ### Elements of a trigger -/

/-- The nodes below the root that the selector of a trigger matches, in document order. -/
def Instance.matching (i : Instance) (t : Trigger) : List NodeId :=
  (i.arena.descendants i.root).filter fun n => (t.selector.accepts i.arena n).toOption == some true

/-- Matching the selector of a trigger has no arithmetic fault at any node below the root. -/
def Instance.Decides (i : Instance) (t : Trigger) : Prop :=
  ∀ n ∈ i.arena.descendants i.root, ∃ b, t.selector.accepts i.arena n = .ok b

instance (i : Instance) (t : Trigger) : Decidable (i.Decides t) :=
  decidable_of_iff (∀ n ∈ i.arena.descendants i.root,
      (t.selector.accepts i.arena n).toOption.isSome = true) <|
    forall₂_congr fun n _ => by
      cases t.selector.accepts i.arena n <;> simp [Except.toOption]

/-- A selector that can be evaluated everywhere selects `i.matching t`. -/
theorem Instance.select_of_decides {t : Trigger} (h : i.Decides t) :
    i.arena.select i.root t.selector = .ok (i.matching t) :=
  Arena.select_of_decided h

theorem Instance.select_ok {t : Trigger} {nodes : List NodeId}
    (h : i.arena.select i.root t.selector = .ok nodes) : nodes = i.matching t := by
  rw [select_of_decides (Arena.decided_of_select h)] at h
  exact (Except.ok.inj h).symm

/-! ### One placeholder -/

/-- Why a placeholder does not fit, if it does not. -/
def Instance.obstacle? (i : Instance) (given : InstanceOptions) (x : Placeholder) :
    Option TemplateError :=
  match Options.resolve given x with
  | .error error => some error
  | .ok _ =>
    match x.trigger with
    | none => none
    | some t => if i.matching t = [] then some (.noTriggerElements x.position t.source) else none

/-- There is an `obstacle?` if the options cannot be resolved or the trigger has no elements. -/
theorem Instance.isSome_obstacle?_iff : (i.obstacle? given x).isSome = true ↔
    (∃ error, Options.resolve given x = .error error) ∨
      ∃ trigger, x.trigger = some trigger ∧ i.matching trigger = [] := by
  unfold obstacle?
  cases Options.resolve given x with
  | error e => simp
  | ok _ =>
    cases x.trigger with
    | none => simp
    | some t => by_cases hnone : i.matching t = [] <;> simp [hnone]

/-- The placeholder has a place in the instance, and its trigger can be looked up. -/
structure Instance.Accommodates (i : Instance) (x : Placeholder) : Prop where
  destination : ∃ d, i.destination x = .ok d
  decides : ∀ t, x.trigger = some t → i.Decides t

/-- The plan does for the placeholder what its job and its trigger say. -/
def Plan.Meets (i : Instance) (given : InstanceOptions) (x : Placeholder) : Plan → Prop
  | start job => x.trigger = none ∧ i.jobOf given x = .ok job
  | standBy job mode event nodes => ∃ t, x.trigger = some t ∧ i.jobOf given x = .ok job ∧
      mode = x.mode ∧ event = t.event ∧ nodes = i.matching t

/-- The job that a plan is about. -/
def Plan.job : Plan → Job
  | start job => job
  | standBy job _ _ _ => job

theorem Plan.Meets.jobOf {plan : Plan} (h : plan.Meets i given x) :
    i.jobOf given x = .ok plan.job := by
  cases plan with
  | start job => exact h.2
  | standBy job mode event nodes =>
    obtain ⟨t, -, hjob, -⟩ := h
    exact hjob

namespace Instance

/-- The options of a job are those that `resolve` gives for the placeholder. -/
theorem resolve_of_jobOf {job : Job} (h : i.jobOf given x = .ok job) :
    Options.resolve given x = .ok job.options := by
  unfold jobOf at h
  obtain ⟨options, hoptions, h⟩ := exists_of_bind_eq_ok h
  obtain ⟨d, -, h⟩ := exists_of_bind_eq_ok h
  obtain rfl := Except.ok.inj h
  exact hoptions

/-- A job that was made has headers that can be sent, `validateHeaders = .ok ()`. -/
theorem validateHeaders_of_jobOf {job : Job} (h : i.jobOf given x = .ok job) :
    Options.validateHeaders job.options.headers = .ok () :=
  Options.validateHeaders_of_resolve (resolve_of_jobOf h)

theorem jobOf_of_resolve_error (h : Options.resolve given x = .error error) :
    i.jobOf given x = .error error := by
  unfold jobOf
  rw [h]
  rfl

theorem exists_jobOf (hplace : i.Accommodates x) {options : RequestOptions}
    (h : Options.resolve given x = .ok options) : ∃ job, i.jobOf given x = .ok job := by
  obtain ⟨d, hd⟩ := hplace.destination
  unfold jobOf
  rw [h, hd]
  exact ⟨_, rfl⟩

/-- A trigger finds `i.matching t`, and it is an error if that is empty. -/
theorem triggerNodes_of_decides {t : Trigger} (h : i.Decides t) (p : Position) :
    i.triggerNodes p t = if i.matching t = [] then
      .error (.template (.noTriggerElements p t.source)) else .ok (i.matching t) := by
  rw [triggerNodes, select_of_decides h]
  cases i.matching t with
  | nil => rfl
  | cons n ns => rfl

/-- Planning reports `obstacle?`, -/
theorem plan_of_obstacle (hplace : i.Accommodates x) (h : i.obstacle? given x = some error) :
    i.plan given x = .error (.template error) := by
  unfold obstacle? at h
  unfold Instance.plan
  cases hresolve : Options.resolve given x with
  | error e =>
    rw [hresolve] at h
    rw [jobOf_of_resolve_error hresolve, Option.some.inj h]
  | ok options =>
    obtain ⟨job, hjob⟩ := exists_jobOf hplace hresolve
    rw [hresolve] at h
    rw [hjob]
    cases htrigger : x.trigger with
    | none =>
      rw [htrigger] at h
      exact absurd h (by simp)
    | some t =>
      simp only [htrigger] at h ⊢
      rw [triggerNodes_of_decides (hplace.decides t htrigger)]
      by_cases hnone : i.matching t = []
      · rw [if_pos hnone] at h ⊢
        rw [← Option.some.inj h]
        rfl
      · rw [if_neg hnone] at h
        exact absurd h (by simp)

/-- and if that is `none` there is a plan. -/
theorem exists_plan (hplace : i.Accommodates x) (h : i.obstacle? given x = none) :
    ∃ plan, i.plan given x = .ok plan ∧ plan.Meets i given x := by
  unfold obstacle? at h
  unfold Instance.plan
  cases hresolve : Options.resolve given x with
  | error e =>
    rw [hresolve] at h
    exact absurd h (by simp)
  | ok options =>
    obtain ⟨job, hjob⟩ := exists_jobOf hplace hresolve
    rw [hresolve] at h
    rw [hjob]
    cases htrigger : x.trigger with
    | none => exact ⟨.start job, rfl, htrigger, hjob⟩
    | some t =>
      simp only [htrigger] at h ⊢
      have hsome : i.matching t ≠ [] := by
        intro hnone
        rw [if_pos hnone] at h
        exact absurd h (by simp)
      rw [triggerNodes_of_decides (hplace.decides t htrigger), if_neg hsome]
      exact ⟨.standBy job x.mode t.event (i.matching t), rfl, t, htrigger, hjob, rfl, rfl, rfl⟩

/-- A plan `Meets` its placeholder under the options given. -/
theorem meets_of_plan {plan : Plan} (h : i.plan given x = .ok plan) : plan.Meets i given x := by
  unfold Instance.plan at h
  cases hjob : i.jobOf given x with
  | error e =>
    rw [hjob] at h
    exact absurd h (by simp)
  | ok job =>
    rw [hjob] at h
    cases htrigger : x.trigger with
    | none =>
      simp only [htrigger] at h
      obtain rfl := Except.ok.inj h
      exact ⟨htrigger, hjob⟩
    | some t =>
      simp only [htrigger] at h
      obtain ⟨nodes, hnodes, h⟩ := exists_of_bind_eq_ok h
      obtain rfl := Except.ok.inj h
      refine ⟨t, htrigger, hjob, rfl, rfl, ?_⟩
      unfold triggerNodes at hnodes
      split at hnodes
      · exact absurd hnodes (by simp)
      · exact absurd hnodes (by simp)
      · rename_i hselect
        rw [← Except.ok.inj hnodes]
        exact select_ok hselect

/-! ### All placeholders -/

theorem forall₂_meets : ∀ {xs : List Placeholder} {plans : List Plan},
    i.planAll given xs = .ok plans →
    List.Forall₂ (fun x (plan : Plan) => plan.Meets i given x) xs plans
  | [], plans, h => by
    obtain rfl := Except.ok.inj h
    exact .nil
  | x :: xs, plans, h => by
    unfold planAll at h
    obtain ⟨plan, hplan, h⟩ := exists_of_bind_eq_ok h
    obtain ⟨rest, hrest, h⟩ := exists_of_bind_eq_ok h
    obtain rfl := Except.ok.inj h
    exact .cons (meets_of_plan hplan) (forall₂_meets hrest)

/-- Of several obstacles `planAll` reports the first. -/
theorem planAll_of_obstacle : ∀ {xs : List Placeholder}, (∀ x ∈ xs, i.Accommodates x) →
    xs.findSome? (i.obstacle? given) = some error → i.planAll given xs = .error (.template error)
  | [], _, h => absurd h (by simp)
  | x :: xs, hplace, h => by
    have hx := hplace x List.mem_cons_self
    rw [List.findSome?_cons] at h
    unfold planAll
    cases hobstacle : i.obstacle? given x with
    | some e =>
      rw [hobstacle] at h
      rw [plan_of_obstacle hx hobstacle, ← Option.some.inj h]
      rfl
    | none =>
      rw [hobstacle] at h
      obtain ⟨plan, hplan, -⟩ := exists_plan hx hobstacle
      rw [hplan, planAll_of_obstacle (fun y hy => hplace y (List.mem_cons_of_mem x hy)) h]
      rfl

/-- Without obstacles `planAll` has a plan for each placeholder. -/
theorem exists_planAll : ∀ {xs : List Placeholder}, (∀ x ∈ xs, i.Accommodates x) →
    xs.findSome? (i.obstacle? given) = none → ∃ plans, i.planAll given xs = .ok plans ∧
      List.Forall₂ (fun x (plan : Plan) => plan.Meets i given x) xs plans
  | [], _, _ => ⟨[], rfl, .nil⟩
  | x :: xs, hplace, h => by
    rw [List.findSome?_cons] at h
    cases hobstacle : i.obstacle? given x with
    | some e =>
      rw [hobstacle] at h
      exact absurd h (by simp)
    | none =>
      rw [hobstacle] at h
      obtain ⟨plan, hplan, hmeets⟩ := exists_plan (hplace x List.mem_cons_self) hobstacle
      obtain ⟨plans, hplans, hall⟩ :=
        exists_planAll (fun y hy => hplace y (List.mem_cons_of_mem x hy)) h
      refine ⟨plan :: plans, ?_, .cons hmeets hall⟩
      unfold planAll
      rw [hplan, hplans]
      rfl

end Instance

/-! ### The copy -/

namespace Template

variable {t : Template} {source : String} {ds ds' : List Diagnostic}

/-- A compiled template has a copy, and the copy shows the same `tree`. -/
theorem exists_copy (hcompile : (compile source).run ds = .ok t ds') (hfit : t.arena.Fits)
    (id : Nat) : ∃ i tree, Instance.ofTemplate t id = .ok i ∧ t.arena.Sound ∧ i.arena.Sound ∧
      t.arena.Shows t.root tree ∧ i.arena.Shows i.root tree := by
  have hcompiled := compiled_compile hcompile
  have hsound := sound_canonicalRoot hcompiled.root_eq hfit
  have hcopyfit := Arena.fits_copyFrom hsound.forest hfit t.root
  obtain ⟨hdead, -⟩ | ⟨tree, copy, a, hshows, hrun, hplanted⟩ :=
    Arena.copyFrom_spec Arena.sound_empty hsound.forest t.root hcopyfit
  · have hlive := hcompiled.isLive_root
    rw [Arena.isLive, hdead] at hlive
    exact absurd hlive (by simp)
  · unfold Instance.ofTemplate
    rw [hrun]
    exact ⟨_, tree, rfl, hsound, hplanted.sound, hshows, hplanted.shows⟩

/-- In a copy of a compiled template every placeholder has a destination `d`. -/
theorem exists_destination (hcompile : (compile source).run ds = .ok t ds') (hfit : t.arena.Fits)
    {id : Nat} (hcopy : Instance.ofTemplate t id = .ok i) :
    ∀ x ∈ t.placeholders, ∃ d, i.destination x = .ok d := by
  intro x hx
  have hcompiled := compiled_compile hcompile
  have hsame := (Scene.copy_ofTemplate hcopy).single_eq
  unfold Instance.destination
  cases hsingle : t.single with
  | true =>
    -- the only placeholder has no trigger
    obtain ⟨y, hy, himmediate⟩ := hcompiled.single hsingle
    rw [hy] at hx
    obtain rfl := List.mem_singleton.mp hx
    rw [hsame, hsingle, himmediate]
    exact ⟨.whole, rfl⟩
  | false =>
    obtain ⟨i', tree, hcopy', hsound, hsound', hshows, hshows'⟩ := exists_copy hcompile hfit id
    obtain rfl : i' = i := Except.ok.inj (hcopy'.symm.trans hcopy)
    -- the copy has its placeholders at the positions of the template
    have hpositions : i'.elements.map (·.1) = t.placeholders.map (·.position) := by
      rw [Instance.elements, hsame, hsingle, if_neg (by simp), (hcompiled.positions hsingle).2,
        Arena.map_fst_placeholdersBelow hsound'.forest hshows',
        Arena.map_fst_placeholdersBelow hsound.forest hshows]
    have hmem : x.position ∈ i'.elements.map (·.1) := by
      rw [hpositions]
      exact List.mem_map.mpr ⟨x, hx, rfl⟩
    obtain ⟨⟨p, e⟩, he, hp⟩ := List.mem_map.mp hmem
    have hlookup : i'.elements.lookup x.position = some e := by
      refine Arena.lookup_eq_some_of_mem ?_ (hp ▸ he)
      rw [hpositions]
      exact hcompiled.nodup
    rw [hsame, hsingle, Bool.false_and, if_neg (by simp), hlookup]
    exact ⟨.element e, rfl⟩

/-! ### The instance -/

/-- Why no instance is made, if none is: something is wrong with the options as a whole, or else
some placeholder does not fit, the first in document order. -/
def refusal? (t : Template) (given : InstanceOptions) (i : Instance) : Option TemplateError :=
  match Options.validate t.single given with
  | .error error => some error
  | .ok () => t.placeholders.findSome? (i.obstacle? given)

/-- There is a `refusal?` if the options as a whole are refused, or those of a placeholder, or a
trigger has no elements. -/
theorem isSome_refusal?_iff : (t.refusal? given i).isSome = true ↔
    (∃ error, Options.validate t.single given = .error error) ∨ ∃ x ∈ t.placeholders,
      (∃ error, Options.resolve given x = .error error) ∨
        ∃ trigger, x.trigger = some trigger ∧ i.matching trigger = [] := by
  unfold refusal?
  cases hvalid : Options.validate t.single given with
  | error e => simp
  | ok _ =>
    rw [List.findSome?_isSome_iff]
    simp only [reduceCtorEq, exists_false, false_or]
    exact exists_congr fun x => and_congr_right fun _ => Instance.isSome_obstacle?_iff

variable {id : Nat}

/-- Planning an instance reports `refusal?`, -/
theorem planInstance_of_refusal (hcopy : Instance.ofTemplate t id = .ok i)
    (hplace : ∀ x ∈ t.placeholders, i.Accommodates x) (h : t.refusal? given i = some error) :
    t.planInstance given id = .error (.template error) := by
  unfold refusal? at h
  unfold planInstance
  cases hvalid : Options.validate t.single given with
  | error e =>
    rw [hvalid] at h
    rw [Option.some.inj h]
  | ok _ =>
    rw [hvalid] at h
    simp only [hcopy]
    rw [Instance.planAll_of_obstacle hplace h]
    rfl

/-- and if that is `none` there is a plan for each placeholder. -/
theorem exists_planInstance (hcopy : Instance.ofTemplate t id = .ok i)
    (hplace : ∀ x ∈ t.placeholders, i.Accommodates x) (h : t.refusal? given i = none) :
    ∃ plans, t.planInstance given id = .ok (i, plans) ∧
      List.Forall₂ (fun x (plan : Plan) => plan.Meets i given x) t.placeholders plans := by
  unfold refusal? at h
  unfold planInstance
  cases hvalid : Options.validate t.single given with
  | error e =>
    rw [hvalid] at h
    exact absurd h (by simp)
  | ok _ =>
    rw [hvalid] at h
    obtain ⟨plans, hplans, hall⟩ := Instance.exists_planAll hplace h
    simp only [hcopy]
    rw [hplans]
    exact ⟨plans, rfl, hall⟩

end Template

end Inlay
