import Inlay.Proofs.Options.Headers
import Inlay.Proofs.Scene.Beginning
import Inlay.Proofs.Scene.History

/-!
# What is handed to the transport

The job of a placeholder is made once, with the options that it has when the instance is made, and
every request of the placeholder is made for that job. `Booked` says so of all requests and of
everything that waits for events; whatever the responses contain, no step brings in another job
(`lasting_booked`). So all that is handed to the transport is what the placeholders ask for
(`commissioned_of_history`).
-/

namespace Inlay

/-- The request does what the options say. The signal is the given one, or else a new one if there
is a timeout. -/
structure Outgoing.Follows (r : Outgoing) (o : RequestOptions) : Prop where
  headers : r.headers = o.headers
  body : r.body = o.body
  credentials : r.credentials = o.credentials
  mode : r.mode = o.mode
  cache : r.cache = o.cache
  redirect : r.redirect = o.redirect
  referrerPolicy : r.referrerPolicy = o.referrerPolicy
  integrity : r.integrity = o.integrity
  referrer : r.referrer = o.referrer
  window : r.window = o.window
  signal : ∀ id, o.signal = some id → r.signal = some id
  timeout : o.signal = none →
    (r.signal.isSome = true ↔ ∃ time, o.timeout = some time ∧ time ≠ 0)

/-- The request is one that the placeholder asks for under the given options. -/
structure Placeholder.Asks (x : Placeholder) (given : InstanceOptions) (r : Outgoing) : Prop where
  url : r.url = x.source ∧ r.url ≠ ""
  method : r.method = x.method
  options : ∃ o, Options.resolve given x = .ok o ∧ r.Follows o
  headers : ∀ h ∈ r.headers, Options.IsToken h.1 ∧ Options.IsLineContent h.2

/-- The job is that of the placeholder under the given options. -/
structure Placeholder.Commissions (x : Placeholder) (given : InstanceOptions) (job : Job) :
    Prop where
  position : job.position = x.position
  source : job.source = x.source
  method : job.method = x.method
  options : Options.resolve given x = .ok job.options

variable {i : Instance} {given : InstanceOptions} {x : Placeholder} {job : Job} {r : Outgoing}

/-! ### Jobs and requests -/

/-- A request `r` that was made of a job follows `job.options`. -/
theorem Job.Makes.follows (h : job.Makes r) : r.Follows job.options := by
  obtain ⟨signals, rfl⟩ := h
  have hsignal : (job.outgoing (signals.forRequest job.options).1).signal =
      (signals.forRequest job.options).1 := rfl
  refine ⟨rfl, rfl, rfl, rfl, rfl, rfl, rfl, rfl, rfl, rfl, fun id hid => ?_, fun hnone => ?_⟩
  · rw [hsignal, Signals.forRequest, hid]
  · rw [hsignal, Signals.forRequest, hnone, RequestOptions.effectiveTimeout]
    cases job.options.timeout with
    | none => simp
    | some time => by_cases htime : time = 0 <;> simp [Option.filter, htime]

namespace Placeholder.Commissions

/-- What a job that `x` commissions makes is what `x` asks for. -/
theorem asks (h : x.Commissions given job) (hmakes : job.Makes r) (hne : x.source ≠ "") :
    x.Asks given r := by
  have hurl : r.url = job.source := by
    obtain ⟨signals, rfl⟩ := hmakes
    rfl
  have hmethod : r.method = job.method := by
    obtain ⟨signals, rfl⟩ := hmakes
    rfl
  refine ⟨⟨hurl.trans h.source, ?_⟩, hmethod.trans h.method, ⟨_, h.options, hmakes.follows⟩, ?_⟩
  · rw [hurl, h.source]
    exact hne
  · rw [hmakes.follows.headers]
    exact Options.validateHeaders_ok_iff.mp (Options.validateHeaders_of_resolve h.options)

/-- Requests of one placeholder are equal up to their `signal`. -/
theorem alike {job' : Job} {r' : Outgoing} (h : x.Commissions given job) (hmakes : job.Makes r)
    (h' : x.Commissions given job') (hmakes' : job'.Makes r') :
    { r with signal := none } = { r' with signal := none } := by
  obtain ⟨signals, rfl⟩ := hmakes
  obtain ⟨signals', rfl⟩ := hmakes'
  have hoptions : job'.options = job.options := Except.ok.inj (h'.options.symm.trans h.options)
  simp only [Job.outgoing, hoptions, h.source, h'.source, h.method, h'.method]

end Placeholder.Commissions

theorem Instance.commissions_of_jobOf (h : i.jobOf given x = .ok job) :
    x.Commissions given job := by
  have hoptions := resolve_of_jobOf h
  unfold jobOf at h
  obtain ⟨options, -, h⟩ := exists_of_bind_eq_ok h
  obtain ⟨d, -, h⟩ := exists_of_bind_eq_ok h
  obtain rfl := Except.ok.inj h
  exact ⟨rfl, rfl, rfl, hoptions⟩

/-- The address of a placeholder is not empty: `x.source ≠ ""`. -/
theorem Template.Compiled.source_ne {source : String} {t : Template} (h : t.Compiled source)
    (hx : x ∈ t.placeholders) : x.source ≠ "" := by
  obtain ⟨id, -, hexamined⟩ := h.exists_examined hx
  obtain ⟨e, -, he⟩ := hexamined.exists_element
  exact (Placeholder.ofElement_ok_iff.mp he).2.source.2

namespace Scene

variable {σ : Type} {t : Template} {s s' : Scene σ} {observe : Observer σ}

/-! ### Steps -/

/-- All requests, and all that could become requests, are those of placeholders. -/
structure Booked (t : Template) (given : InstanceOptions) (s : Scene σ) : Prop where
  requests : ∀ r ∈ s.requests, (∃ x ∈ t.placeholders, x.Commissions given r.2.job) ∧
    r.2.job.Makes r.2.request
  standbys : ∀ b ∈ s.inst.standbys, ∃ x ∈ t.placeholders, x.Commissions given b.job

theorem Booked.board (h : Booked t given s) (hjob : ∃ x ∈ t.placeholders, x.Commissions given job)
    (hmakes : job.Makes r) : Booked t given (s.board job r) where
  requests := by
    rw [requests_board]
    intro request hmem
    rcases List.mem_append.mp hmem with hmem | hmem
    · exact h.requests request hmem
    · obtain rfl := List.mem_singleton.mp hmem
      exact ⟨hjob, hmakes⟩
  standbys := by
    have hstandbys : (s.board job r).inst.standbys = s.inst.standbys :=
      (sameBooks_setRunning s job true).standbys_eq
    rw [hstandbys]
    exact h.standbys

/-- What is `Booked` stays so, whatever happens. -/
theorem lasting_booked : Lasting fun s s' : Scene σ => Booked t given s → Booked t given s' where
  refl _ h := h
  trans h h' hs := h' (h hs)
  inst s inst hinst h := by
    refine ⟨?_, fun b hb => ?_⟩
    · rw [requests, hinst.id_eq]
      exact h.requests
    · have hmem : b.job ∈ s.inst.standbys.map (·.job) := hinst.jobs_eq ▸ List.mem_map_of_mem hb
      obtain ⟨b', hb', hsame⟩ := List.mem_map.mp hmem
      rw [← hsame]
      exact h.standbys b' hb'
  phase s id phase h := by
    refine ⟨?_, h.standbys⟩
    rw [requests_setPhase]
    intro request hmem
    obtain ⟨request', hmem', rfl⟩ := List.mem_map.mp hmem
    have hkept := h.requests request' hmem'
    unfold withPhase
    split
    · exact hkept
    · exact hkept
  board b request hb hmakes hsame h := (hsame h).board (h.standbys b hb) hmakes
  elsewhere s host memory hhost h := ⟨by rw [requests, hhost]; exact h.requests, h.standbys⟩

/-- A plan with a job that some `x` commissions keeps things `Booked`. -/
theorem survives_booked {plan : Plan} (hplan : ∃ x ∈ t.placeholders, x.Commissions given plan.job) :
    Survives (Booked (σ := σ) t given) plan := by
  cases plan with
  | start job => exact fun s request hmakes h => h.board hplan hmakes
  | standBy job mode event nodes =>
    refine fun s h => ⟨h.requests, fun b hb => ?_⟩
    rcases List.mem_append.mp hb with hb | hb
    · exact h.standbys b hb
    · obtain rfl := List.mem_singleton.mp hb
      exact hplan

/-! ### What waits for events -/

/-- `positions`, those of what waits for events, stay the same. -/
theorem lasting_waiting (positions : List Position) : Lasting fun s s' : Scene σ =>
    s.inst.standbys.map (·.job.position) = positions →
    s'.inst.standbys.map (·.job.position) = positions where
  refl _ h := h
  trans h h' hs := h' (h hs)
  inst _ _ hinst h := (hinst.map_position.trans h)
  phase _ _ _ h := h
  board {_ s'} b request _ _ hsame h :=
    (becomes_board s' b.job request).map_position.trans (hsame h)
  elsewhere _ _ _ _ h := h

/-- Where the instance listens are elements that the triggers of its template matched in the copy
that it was in the beginning. -/
def ListensWithin (s : Scene σ) (t : Template) : Prop :=
  ∃ i, Instance.ofTemplate t s.inst.id = .ok i ∧
    ∀ e ∈ s.inst.listeners.entries, ∃ x ∈ t.placeholders, e ∈ i.vigils x

theorem ListensWithin.becomes {inst : Instance} (h : s.ListensWithin t)
    (hinst : s.inst.Becomes inst) (hsame : s'.inst = inst) : s'.ListensWithin t := by
  obtain ⟨i, hcopy, hentries⟩ := h
  subst hsame
  refine ⟨i, hinst.id_eq ▸ hcopy, fun e he => ?_⟩
  obtain ⟨l, hl, rfl⟩ := List.mem_map.mp he
  exact hentries _ (List.mem_map_of_mem (hinst.active.subset hl))

theorem lasting_listensWithin :
    Lasting fun s s' : Scene σ => s.ListensWithin t → s'.ListensWithin t where
  refl _ h := h
  trans h h' hs := h' (h hs)
  inst _ _ hinst h := h.becomes hinst rfl
  phase _ _ _ h := h
  board {_ s'} b request _ _ hsame h := (hsame h).becomes (becomes_board s' b.job request) rfl
  elsewhere _ _ _ _ h := h

/-- Carrying out plans adds the deferred ones of `xs` to what waits, in document order. -/
theorem waiting_carryOutAll (hobserve : Lawful observe) {home : Position → Destination}
    {xs : List Placeholder} {plans : List Plan}
    (hplans : List.Forall₂ (fun x plan => plan.For home x) xs plans)
    (hrun : (carryOutAll observe plans).run s = .ok () s') :
    s'.inst.standbys.map (·.job.position) =
      s.inst.standbys.map (·.job.position) ++ (xs.filter (·.isDeferred)).map (·.position) := by
  -- observers may fire what waits already, which changes no position
  induction hplans generalizing s with
  | nil =>
    injection hrun with _ he
    simp [← he]
  | @cons x plan xs plans hplan _ ih =>
    unfold Scene.carryOutAll at hrun
    obtain ⟨_, s₁, hfirst, hrest⟩ := exists_of_run_bind_eq_ok hrun
    rw [ih hrest]
    cases plan with
    | start job =>
      have hlasting := lasting_waiting (σ := σ) (s.inst.standbys.map (·.job.position))
      have hpersistent := hlasting.lawful hobserve
      obtain ⟨f, _, -, hfailed⟩ | ⟨request, host, -, -, hrun'⟩ := launch_cases observe job s
      · rw [Scene.carryOut, hfailed] at hfirst
        exact absurd hfirst (by simp)
      · rw [Scene.carryOut, hrun'] at hfirst
        injection hfirst with _ he
        have hstatus := hpersistent.changeStatus job 0 { s with host } rfl
        have hstandbys := (sameBooks_setRunning
          (changeStatus observe job 0 { s with host }) job true).standbys_eq
        rw [List.filter_cons, hplan.2, if_neg (by simp), ← he, ← hstatus]
        exact congrArg (fun bs : List Standby => bs.map (·.job.position) ++ _) hstandbys
    | standBy job mode event nodes =>
      injection hfirst with _ he
      rw [List.filter_cons, hplan.2.1, if_pos rfl, List.map_cons, ← hplan.1.position, ← he]
      simp [Scene.mapInst, Instance.standBy]

/-! ### Turns and events -/

/-- What the instance has started so far, apart from how far it has come. -/
def orders (s : Scene σ) : List (TaskId × Job × Outgoing) :=
  s.requests.map fun r => (r.1, r.2.job, r.2.request)

/-- A turn starts no request: `orders` are as before. -/
theorem orders_turn (hobserve : ∀ label n (s : Scene σ), (observe label n s).orders = s.orders)
    (id : TaskId) (task : Task) (s : Scene σ) : (s.turn observe id task).orders = s.orders := by
  have hpassive : Passive (fun s s' : Scene σ => s'.orders = s.orders) observe id := by
    refine ⟨⟨fun _ => rfl, fun h h' => h'.trans h, hobserve, fun s inst hinst => ?_⟩,
      fun s phase => ?_⟩
    · rw [orders, orders, requests, requests, hinst.id_eq]
    · rw [orders, orders, requests_setPhase, List.map_map]
      refine List.map_congr_left fun r _ => ?_
      rw [Function.comp_apply, withPhase]
      split <;> rfl
  obtain ⟨host, htasks, -, -, hturn⟩ := hpassive.turn task s
  rw [hturn, orders, orders, (sameBooks_of_tasks s htasks).requests_eq]

/-- The observer leaves the transport alone. -/
def TransportKeeping (observe : Observer σ) : Prop :=
  ∀ label n (s : Scene σ), (observe label n s).host.transport.calls = s.host.transport.calls

/-- The `calls` that the transport has recorded are not changed by observers or events. -/
theorem persistent_calls (hobserve : TransportKeeping observe) :
    Persistent (fun s s' : Scene σ => s'.host.transport.calls = s.host.transport.calls)
      observe where
  refl _ := rfl
  trans h h' := h'.trans h
  told := hobserve
  inst _ _ _ := rfl
  phase _ _ _ := rfl
  host _ _ hhost := congrArg (·.calls) hhost.transport_eq
  board _ _ _ _ h := h

/-- The transport records `s.handed? task` and nothing else. -/
theorem calls_turn (hobserve : TransportKeeping observe) (id : TaskId) (task : Task) (s : Scene σ) :
    (s.turn observe id task).host.transport.calls =
      s.host.transport.calls ++ (s.handed? task).toList := by
  obtain ⟨host, -, -, hhands, hturn⟩ := ((persistent_calls hobserve).passive id).turn task s
  exact hturn.trans hhands

/-! ### Histories -/

variable {M : σ → σ → Prop} {start : σ} {sent : List (Position × Outgoing)} {source : String}
  {ds ds' : List Diagnostic}

/-- After every history all is `Booked`, and the deferred placeholders wait in document order. -/
theorem booked_of_history (hobserve : Lawful observe) (h : History observe t given M start sent s) :
    Booked t given s ∧ s.ListensWithin t ∧ s.inst.standbys.map (·.job.position) =
      (t.placeholders.filter (·.isDeferred)).map (·.position) := by
  refine ⟨?_, ?_, ?_⟩
  · -- Nothing is booked in a fresh copy, and each plan books the job of its placeholder.
    refine h.of_lasting lasting_booked hobserve fun {id host inst host' memory} hfresh hmade => ?_
    obtain ⟨i, plans, htemplate, hplans, hcarry⟩ := exists_plans hmade
    have hcopy := copy_ofTemplate htemplate
    have hbegin : Booked t given (⟨i, host, start⟩ : Scene σ) := by
      refine ⟨fun r hr => ?_, fun b hb => ?_⟩
      · rw [hcopy.requests_eq_nil hfresh] at hr
        exact absurd hr List.not_mem_nil
      · rw [hcopy.standbys_eq] at hb
        exact absurd hb List.not_mem_nil
    refine lasting_booked.carryOutAll hobserve (fun plan hplan => survives_booked ?_) hbegin hcarry
    obtain ⟨x, hx, hmeets⟩ := Template.exists_of_mem_forall₂ (Instance.forall₂_meets hplans) hplan
    exact ⟨x, hx, Instance.commissions_of_jobOf hmeets.jobOf⟩
  · -- Each listener is a vigil of some placeholder, kept since the copy was made.
    refine h.of_lasting lasting_listensWithin hobserve fun _ hmade => ?_
    obtain ⟨i, htemplate, hbegun⟩ := begun_instantiate hmade
    refine ⟨i, ?_, fun e he => ?_⟩
    · rw [hbegun.tree.id_eq, (copy_ofTemplate htemplate).id_eq]
      exact htemplate
    · rw [hbegun.waiting] at he
      exact List.mem_flatMap.mp he
  · -- What waits is entered plan by plan, in the order of the placeholders.
    refine h.of_lasting (lasting_waiting _) hobserve fun _ hmade => ?_
    obtain ⟨i, plans, htemplate, hplans, hcarry⟩ := exists_plans hmade
    have hwaiting := waiting_carryOutAll hobserve (Instance.forall₂_planAll hplans).1 hcarry
    rwa [(copy_ofTemplate htemplate).standbys_eq, List.map_nil, List.nil_append] at hwaiting

/-- Everything in `sent` was made of a job that one of the placeholders commissions. -/
theorem exists_request_of_sent (hobserve : Lawful observe)
    (h : History observe t given M start sent s) : ∀ y ∈ sent, ∃ job : Job,
      (∃ x ∈ t.placeholders, x.Commissions given job) ∧ job.position = y.1 ∧ job.Makes y.2 := by
  induction h with
  | instantiate => exact fun y hy => absurd hy List.not_mem_nil
  | dispatch _ _ _ ih => exact ih
  | @turn _ s id task hbefore hmem ih =>
    intro y hy
    rcases List.mem_append.mp hy with hy | hy
    · exact ih y hy
    · obtain ⟨r, hr, rfl⟩ := List.mem_map.mp hy
      -- a turn hands over the request that was made when it was started
      have hrequest : r = task.request := by
        unfold handed? at hr
        split at hr
        · simpa using hr
        · simp at hr
      obtain ⟨hjob, hmakes⟩ := (booked_of_history hobserve hbefore).1.requests _ hmem
      exact ⟨task.job, hjob, rfl, hrequest ▸ hmakes⟩
  | collect _ ih => exact ih
  | elsewhere _ _ _ _ _ ih => exact ih

/-- What is promised about the requests of an instance, `sent` being what was handed to the
transport so far. -/
structure Commissioned (observe : Observer σ) (t : Template) (given : InstanceOptions)
    (sent : List (Position × Outgoing)) (s : Scene σ) : Prop where
  /-- Each request handed over is one that the only placeholder at its position asks for. -/
  asked : ∀ p r, (p, r) ∈ sent → ∃ x ∈ t.placeholders, x.position = p ∧ x.Asks given r ∧
    ∀ y ∈ t.placeholders, y.position = p → y = x
  /-- When a placeholder is fired again, it asks for the same but for the signal. -/
  alike : ∀ p r r', (p, r) ∈ sent → (p, r') ∈ sent →
    { r with signal := none } = { r' with signal := none }
  /-- So is everything that was started and may yet be handed over. -/
  started : ∀ id task, (id, task) ∈ s.requests → ∃ x ∈ t.placeholders,
    x.position = task.job.position ∧ x.Asks given task.request
  /-- What events can still start are the placeholders with a trigger. -/
  waiting : s.inst.standbys.map (·.job.position) =
    (t.placeholders.filter (·.isDeferred)).map (·.position)
  /-- They wait for events at elements that came from the template. -/
  listening : s.ListensWithin t
  /-- A turn, whatever response it uses, starts nothing by itself. -/
  unprompted : (∀ label n (s : Scene σ), (observe label n s).orders = s.orders) →
    ∀ id task, (id, task) ∈ s.requests → (s.turn observe id task).orders = s.orders
  /-- The transport is asked at turns only, and for nothing but what is handed over. -/
  calls : TransportKeeping observe →
    (∀ target event, (stateAfter (dispatch observe target event) s).host.transport.calls =
      s.host.transport.calls) ∧
    ∀ id task, (id, task) ∈ s.requests → (s.turn observe id task).host.transport.calls =
      s.host.transport.calls ++ (s.handed? task).toList

/-- **All that is handed to the transport is what the placeholders ask for**, under the options that
the instance was made with, whatever the responses contain. -/
theorem commissioned_of_history (hcompile : (Template.compile source).run ds = .ok t ds')
    (hobserve : Lawful observe) (h : History observe t given M start sent s) :
    s.Commissioned observe t given sent := by
  have hcompiled := Template.compiled_compile hcompile
  have hsent := exists_request_of_sent hobserve h
  obtain ⟨hbooked, hlistening, hwaiting⟩ := booked_of_history hobserve h
  have hunique : ∀ x ∈ t.placeholders, ∀ y ∈ t.placeholders, y.position = x.position → y = x :=
    fun x hx y hy he => List.inj_on_of_nodup_map hcompiled.nodup hy hx he
  constructor
  case asked =>
    intro p r hr
    obtain ⟨job, ⟨x, hx, hcommissions⟩, rfl, hmakes⟩ := hsent _ hr
    refine ⟨x, hx, hcommissions.position.symm,
      hcommissions.asks hmakes (hcompiled.source_ne hx), fun y hy he => ?_⟩
    exact hunique x hx y hy (he.trans hcommissions.position)
  case alike =>
    intro p r r' hr hr'
    obtain ⟨job, ⟨x, hx, hcommissions⟩, rfl, hmakes⟩ := hsent _ hr
    obtain ⟨job', ⟨x', hx', hcommissions'⟩, he, hmakes'⟩ := hsent _ hr'
    have hsame : x'.position = x.position :=
      hcommissions'.position.symm.trans (he.trans hcommissions.position)
    obtain rfl := hunique x hx x' hx' hsame
    exact hcommissions.alike hmakes hcommissions' hmakes'
  case started =>
    intro id task hmem
    obtain ⟨⟨x, hx, hcommissions⟩, hmakes⟩ := hbooked.requests _ hmem
    exact ⟨x, hx, hcommissions.position.symm, hcommissions.asks hmakes (hcompiled.source_ne hx)⟩
  case waiting => exact hwaiting
  case listening => exact hlistening
  case unprompted => exact fun hidle id task _ => orders_turn hidle id task s
  case calls =>
    exact fun hkeeping => ⟨fun target event => (persistent_calls hkeeping).dispatch target event s,
      fun id task _ => calls_turn hkeeping id task s⟩

/-- A placeholder that is fired twice and whose responses are placeholders of their own: what is
handed over is the same both times, but for the signal with the timeout. -/
theorem commissioned_once_refreshed : ∃ (t : Template) (ds : List Diagnostic)
    (given : InstanceOptions) (sent : List (Position × Outgoing)) (s : Scene Unit),
    (Template.compile "<i><b></b><request src=a after=click:b></request></i>").run [] = .ok t ds ∧
    History (fun _ _ s => s) t given (fun _ _ => True) () sent s ∧
    sent.map (fun y => (y.1, y.2.url, y.2.headers, y.2.signal)) =
      [(1, "a", [("x-token", "1")], some ⟨0⟩), (1, "a", [("x-token", "1")], some ⟨1⟩)] ∧
    s.inst.arena.html s.inst.root =
      "<i><b></b><request after=\"click:b\" src=\"z\"></request></i>" ∧
    s.Commissioned (fun _ _ s => s) t given sent := by
  let given : InstanceOptions := .plain { headers := [("x-token", "1")], timeout := some 5 }
  let response : Response := ⟨200, "<request src=z after=click:b></request>"⟩
  let transport : CannedTransport := ⟨[(⟨.get, "a"⟩, [⟨response, 0⟩])], []⟩
  let observe : Observer Unit := fun _ _ s => s
  let host : Host := { Host.empty with transport }
  have hplayed : (outcome (Template.compile
      "<i><b></b><request src=a after=click:b></request></i>") []).toOption.any (fun t =>
        (playTwice observe t given host ()).any fun played =>
          decide (played.1.map (fun y => (y.1, y.2.url, y.2.headers, y.2.signal)) =
              [(1, "a", [("x-token", "1")], some ⟨0⟩), (1, "a", [("x-token", "1")], some ⟨1⟩)] ∧
            played.2.inst.arena.html played.2.inst.root =
              "<i><b></b><request after=\"click:b\" src=\"z\"></request></i>")) = true := by
    decide +kernel
  obtain ⟨t, ds, hcompile, hplayed⟩ := exists_of_any_outcome hplayed
  obtain ⟨⟨sent, s⟩, hclicked, htold⟩ := (Option.any_eq_true ..).mp hplayed
  obtain ⟨hsent, hhtml⟩ := of_decide_eq_true htold
  have hrefreshed : History observe t given (fun _ _ => True) () sent s :=
    .of_playTwice rfl hclicked
  exact ⟨t, ds, given, sent, s, hcompile, hrefreshed, hsent, hhtml,
    commissioned_of_history hcompile (fun _ _ s => .refl s) hrefreshed⟩

end Scene

end Inlay
