import Inlay.Proofs.Arena.Slots
import Inlay.Proofs.Outcome
import Inlay.Proofs.Request.Reasons
import Inlay.Proofs.Scene.Requests
import Inlay.Scene.Turn
import Inlay.Session.Watch
import Inlay.Template.Instantiate

/-!
# Runs of an instance

`Scene.Run observe t responses s`: making an instance of `t` and then letting events, turns of its
requests and whatever else happens on its host come in any order leads to `s`, and `responses` are
the responses that were used on the way, with the positions that they were for.

What observers do when they are told something is up to them. `Lawful` ones act on the instance as a
program does (`Acts`), which includes dispatching events, with other lawful observers in turn;
`watching` is such an observer. `Recording` ones only remember.
-/

namespace Inlay

/-- Where the requests of an instance go on: the same requests of its own. -/
def Host.SameRequests (owner : Nat) (h h' : Host) : Prop :=
  h'.requestsOf owner = h.requestsOf owner

namespace Scene

variable {σ : Type}

/-- The requests that the instance has started so far, with their ids. -/
def requests (s : Scene σ) : List (TaskId × Task) :=
  s.host.requestsOf s.inst.id

/-- The requests of one placeholder so far. -/
def requestsAt (s : Scene σ) (p : Position) : List (TaskId × Task) :=
  s.requests.filter fun r => r.2.job.position = p

/-! ### Observers -/

/-- What can happen while an observer is told something: it remembers, it changes what does not
belong to the instance, takes requests, and dispatches events. -/
inductive Acts : Scene σ → Scene σ → Prop where
  | refl (s : Scene σ) : Acts s s
  | trans {s s' s'' : Scene σ} : Acts s s' → Acts s' s'' → Acts s s''
  | remember (s : Scene σ) (memory : σ) : Acts s { s with memory }
  | elsewhere (s : Scene σ) (host : Host) :
    s.host.SameRequests s.inst.id host → Acts s { s with host }
  | collect (s : Scene σ) : Acts s (s.mapInst fun i => i.collect.2)
  | dispatch (inner : Observer σ) (s : Scene σ) (target : NodeId) (event : String) :
    (∀ label n s, Acts s (inner label n s)) →
    Acts s (stateAfter (Scene.dispatch inner target event) s)

/-- The observer acts on the instance as a program does. -/
def Lawful (observe : Observer σ) : Prop :=
  ∀ label n s, Acts s (observe label n s)

/-- The observer only remembers. -/
def Recording (observe : Observer σ) : Prop :=
  ∀ label n s, ∃ memory, observe label n s = { s with memory }

theorem Recording.lawful {observe : Observer σ} (h : Recording observe) : Lawful observe := by
  intro label n s
  obtain ⟨memory, he⟩ := h label n s
  rw [he]
  exact .remember s memory

/-- Doing `f` for each element of a list acts if each time does. -/
theorem acts_foldl {α : Type} {f : Scene σ → α → Scene σ} (hf : ∀ s x, Acts s (f s x)) :
    ∀ (xs : List α) (s : Scene σ), Acts s (xs.foldl f s)
  | [], s => .refl s
  | x :: xs, s => (hf s x).trans (acts_foldl hf xs (f s x))

/-- Firing an event is dispatching it, if there is a `target`. What a dispatch that fails did before
stays. -/
theorem fireAt_cases (observe : Observer Watch) (aim : Aim) (event : String) (s : Scene Watch) :
    (s.fireAt observe aim event).2 = s ∨ ∃ target,
      (s.fireAt observe aim event).2 = stateAfter (dispatch observe target event) s := by
  unfold fireAt
  cases locate s.inst s.memory.marks aim with
  | error e => exact Or.inl rfl
  | ok target =>
    refine Or.inr ⟨target, ?_⟩
    unfold stateAfter
    cases hrun : (dispatch observe target event).run s with
    | ok n s' => simp only [hrun]
    | error f s' => simp only [hrun]

theorem acts_act {observe : Observer Watch} (hobserve : Lawful observe) (s : Scene Watch)
    (action : Action) : Acts s (s.act observe action).2 := by
  cases action with
  | abort signal => exact .elsewhere s _ (Host.requestsOf_of_tasks rfl s.inst.id)
  | fire aim event =>
    change Acts s (s.fireAt observe aim event).2
    rcases fireAt_cases observe aim event s with he | ⟨target, he⟩
    · rw [he]
      exact .refl s
    · rw [he]
      exact .dispatch observe s target event hobserve

theorem acts_react {observe : Observer Watch} (hobserve : Lawful observe) (label : String)
    (n : Notification) (s : Scene Watch) (index : Nat) :
    Acts s (s.react observe label n index) := by
  unfold react
  split
  · exact .refl s
  · rename_i r _
    split
    · exact ((Acts.remember s (s.memory.spend s.inst.id label index)).trans
        (acts_act hobserve _ r.action)).trans (.remember _ _)
    · exact .refl s

/-- The observer `watching depth` keeps a log and reacts. It is lawful, however deep reactions are
nested. -/
theorem lawful_watching : ∀ depth : Nat, Lawful (watching depth)
  | 0 => fun _ _ s => .remember s _
  | depth + 1 => fun label n s =>
    .trans (.remember s _) (acts_foldl (acts_react (lawful_watching depth) label n) _ _)

/-! ### Turns -/

/-- The response that a request uses at its turn, if it uses one. -/
def answer? (s : Scene σ) (t : Task) : Option Response :=
  if t.isEnded then none
  else
    match s.lookAtSignal t with
    | (some _, _) => none
    | (none, s) =>
      match t.phase with
      | .started =>
        match (s.host.transport.fetch t.request).1 with
        | .ok reply => if reply.delay = 0 then some reply.response else none
        | .error _ => none
      | .waiting due r => if due ≤ s.host.rung then some r else none
      | .ended _ => none

/-- What a request hands to the transport at its turn, if it does. -/
def handed? (s : Scene σ) (t : Task) : Option Outgoing :=
  match (s.lookAtSignal t).1, t.phase with
  | none, .started => some t.request
  | _, _ => none

/-- The request has been recorded by the transport, if it was handed over. -/
def Hands (s : Scene σ) (t : Task) (host : Host) : Prop :=
  host.transport.calls = s.host.transport.calls ++ (s.handed? t).toList

/-- What a turn comes to. The host is the same but for its signals, which go on, and its
transport. -/
inductive Turned (observe : Observer σ) (id : TaskId) (t : Task) (s : Scene σ) :
    Scene σ → Prop where
  /-- A response is used. -/
  | received (host : Host) (r : Response) : host.tasks = s.host.tasks → t.isEnded = false →
    s.answer? t = some r → s.host.signals.Onward host.signals → s.Hands t host →
    Turned observe id t s ({ s with host }.receive observe id t.job r)
  /-- The request ends without a response, so nothing has been put into the tree. -/
  | finished (host : Host) (error : RequestError) : host.tasks = s.host.tasks →
    t.isEnded = false → s.answer? t = none → s.host.signals.Onward host.signals → s.Hands t host →
    (∀ cause, error ≠ .insertion cause) →
    Turned observe id t s ({ s with host }.finish id t.job (.error error))
  /-- The transport will answer later. -/
  | asked (host : Host) (due : Nat) (r : Response) : host.tasks = s.host.tasks →
    t.isEnded = false → s.answer? t = none → s.host.signals.Onward host.signals → s.Hands t host →
    Turned observe id t s ({ s with host }.mapHost (·.setPhase id (.waiting due r)))
  /-- Nothing happens. -/
  | idle (host : Host) : host.tasks = s.host.tasks → s.answer? t = none →
    s.host.signals.Onward host.signals → s.Hands t host → Turned observe id t s { s with host }

/-- Looking at a signal changes nothing but `signals`, which go `Onward`. -/
theorem lookAtSignal_eq (t : Task) (s : Scene σ) :
    ∃ signals, s.host.signals.Onward signals ∧
      (s.lookAtSignal t).2 = { s with host := { s.host with signals } } := by
  unfold lookAtSignal
  cases t.request.signal with
  | none => exact ⟨s.host.signals, .refl _, rfl⟩
  | some id =>
    simp only
    split
    · exact ⟨s.host.signals, .refl _, rfl⟩
    · exact ⟨(s.host.signals.look id).2, .look id (.refl _), rfl⟩

/-- The transport records every request `r`, whether or not it has a reply. -/
theorem calls_fetch (transport : CannedTransport) (r : Outgoing) :
    (transport.fetch r).2.calls = transport.calls ++ [r] := by
  unfold CannedTransport.fetch
  simp only
  split <;> rfl

/-- A turn comes to one of the ends that `Turned` lists. -/
theorem turned_turn (observe : Observer σ) (id : TaskId) (t : Task) (s : Scene σ) :
    Turned observe id t s (s.turn observe id t) := by
  cases hended : t.isEnded with
  | true =>
    have hhanded : s.handed? t = none := by
      unfold handed?
      split
      · rename_i hphase
        exact absurd hended (by simp [Task.isEnded, Task.result?, hphase])
      · rfl
    rw [turn, if_pos hended]
    exact .idle s.host rfl (by rw [answer?, if_pos hended]) (.refl _) (by simp [Hands, hhanded])
  | false =>
    -- The signal is looked at first, and only a request that is not stopped is asked or answered.
    obtain ⟨signals, honward, hlook⟩ := lookAtSignal_eq t s
    rw [turn, if_neg (by simp [hended])]
    cases hsignal : s.lookAtSignal t with
    | mk reason s₁ =>
      rw [hsignal] at hlook
      obtain rfl : s₁ = _ := hlook
      cases reason with
      | some reason =>
        exact .finished { s.host with signals } reason.error rfl hended
          (by simp [answer?, hended, hsignal]) honward (by simp [Hands, handed?, hsignal])
          (by cases reason <;> simp [StopReason.error])
      | none =>
        cases hphase : t.phase with
        | ended result => exact absurd hended (by simp [Task.isEnded, Task.result?, hphase])
        | waiting due r =>
          simp only
          split
          · rename_i hdue
            exact .received { s.host with signals } r rfl hended
              (by simp [answer?, hended, hsignal, hphase, hdue]) honward
              (by simp [Hands, handed?, hphase])
          · rename_i hdue
            exact .idle { s.host with signals } rfl
              (by simp [answer?, hended, hsignal, hphase, hdue]) honward
              (by simp [Hands, handed?, hphase])
        | started =>
          simp only [ask]
          have hcalls := calls_fetch s.host.transport t.request
          have hhanded : s.handed? t = some t.request := by simp [handed?, hsignal, hphase]
          cases hfetch : s.host.transport.fetch t.request with
          | mk answer transport =>
            rw [hfetch] at hcalls
            have hhands : s.Hands t { s.host with signals, transport } := by
              rw [Hands, hhanded]
              exact hcalls
            cases answer with
            | error cause =>
              exact .finished { s.host with signals, transport } (.transport cause) rfl hended
                (by simp [answer?, hended, hsignal, hphase, hfetch]) honward hhands (by simp)
            | ok reply =>
              by_cases hdelay : reply.delay = 0
              · simp only [if_pos hdelay]
                exact .received { s.host with signals, transport } reply.response rfl hended
                  (by simp [answer?, hended, hsignal, hphase, hfetch, hdelay]) honward hhands
              · simp only [if_neg hdelay]
                exact .asked { s.host with signals, transport } (signals.now + reply.duration)
                  reply.response rfl hended
                  (by simp [answer?, hended, hsignal, hphase, hfetch, hdelay]) honward hhands

/-! ### Runs -/

/-- The states that an instance of a template can be in between steps, with the responses that were
used until then. -/
inductive Run (observe : Observer σ) (t : Template) : List (Position × Response) → Scene σ → Prop
    where
  /-- An instance is made, under an id that no request belongs to yet. -/
  | instantiate (given : InstanceOptions) (id : Nat) {host host' : Host} {memory memory' : σ}
      {inst : Instance} :
    host.requestsOf id = [] →
    (t.instantiate observe given id).run (host, memory) = .ok inst (host', memory') →
    Run observe t [] ⟨inst, host', memory'⟩
  | dispatch {responses : List (Position × Response)} {s : Scene σ} (target : NodeId)
      (event : String) :
    Run observe t responses s →
    Run observe t responses (stateAfter (Scene.dispatch observe target event) s)
  /-- A request gets a turn, whether or not it is the one that has waited longest. -/
  | turn {responses : List (Position × Response)} {s : Scene σ} (id : TaskId) (task : Task) :
    Run observe t responses s → (id, task) ∈ s.requests →
    Run observe t (responses ++ (s.answer? task).toList.map fun r => (task.job.position, r))
      (s.turn observe id task)
  | collect {responses : List (Position × Response)} {s : Scene σ} :
    Run observe t responses s → Run observe t responses (s.mapInst fun i => i.collect.2)
  /-- Time passes, signals are aborted, the transport learns other answers, other instances go
  on. -/
  | elsewhere {responses : List (Position × Response)} {s : Scene σ} (host : Host) (memory : σ) :
    Run observe t responses s → s.host.SameRequests s.inst.id host →
    Run observe t responses { s with host, memory }

/-! ### Plays -/

/-- Something that is let happen to an instance. -/
inductive Move where
  /-- An event, at the node that is reached from the root by the places among the children. -/
  | event (path : List Nat) (name : String)
  /-- A turn of the request with the number. -/
  | turn (number : Nat)
  | pass (now rung : Nat)
  | abort (signal : SignalId)

/-- The responses that a move uses, and the scene after it. -/
def move (observe : Observer σ) (s : Scene σ) :
    Move → Option (List (Position × Response) × Scene σ)
  | .event path name => do
    let target ← path.foldlM (fun id n => (s.inst.arena.children id)[n]?) s.inst.root
    some ([], stateAfter (Scene.dispatch observe target name) s)
  | .turn number => do
    let task ← s.host.task? ⟨number⟩
    if task.owner = s.inst.id then
      some ((s.answer? task).toList.map fun r => (task.job.position, r),
        s.turn observe ⟨number⟩ task)
    else none
  | .pass now rung => some ([], s.mapHost fun h => { h with signals := h.signals.pass now rung })
  | .abort signal => some ([], s.mapHost (·.abort signal))

/-- Several moves in turn. -/
def play (observe : Observer σ) (s : Scene σ) :
    List Move → Option (List (Position × Response) × Scene σ)
  | [] => some ([], s)
  | m :: ms => do
    let (responses, s) ← s.move observe m
    let (later, s) ← s.play observe ms
    some (responses ++ later, s)

/-- An instance is made of a template, and then moves are made. -/
def perform (observe : Observer σ) (source : String) (given : InstanceOptions) (host : Host)
    (memory : σ) (moves : List Move) : Option (Template × List (Position × Response) × Scene σ) :=
  match (Template.compile source).run [] with
  | .error _ _ => none
  | .ok t _ =>
    match (t.instantiate observe given 0).run (host, memory) with
    | .error _ _ => none
    | .ok inst (host, memory) => (play observe ⟨inst, host, memory⟩ moves).map fun r => (t, r)

section Plays

variable {observe : Observer σ} {t : Template} {responses responses' : List (Position × Response)}
  {s s' : Scene σ}

/-- A run goes on with one more move `m`, and with the response that it used, if any. -/
theorem Run.move (h : Run observe t responses s) {m : Move}
    (hm : s.move observe m = some (responses', s')) :
    Run observe t (responses ++ responses') s' := by
  cases m with
  | event path name =>
    obtain ⟨target, -, he⟩ := Option.bind_eq_some_iff.mp hm
    obtain ⟨rfl, rfl⟩ := Prod.mk.inj (Option.some.inj he)
    rw [List.append_nil]
    exact h.dispatch target name
  | turn number =>
    obtain ⟨task, htask, he⟩ := Option.bind_eq_some_iff.mp hm
    obtain ⟨howner, he⟩ := Option.ite_none_right_eq_some.mp he
    obtain ⟨rfl, rfl⟩ := Prod.mk.inj (Option.some.inj he)
    exact h.turn ⟨number⟩ task (Host.mem_requestsOf.mpr ⟨htask, howner⟩)
  | pass now rung =>
    obtain ⟨rfl, rfl⟩ := Prod.mk.inj (Option.some.inj hm)
    rw [List.append_nil]
    exact h.elsewhere _ s.memory rfl
  | abort signal =>
    obtain ⟨rfl, rfl⟩ := Prod.mk.inj (Option.some.inj hm)
    rw [List.append_nil]
    exact h.elsewhere _ s.memory rfl

/-- A run goes on with `moves`, and with the responses that they used. -/
theorem Run.play : ∀ {moves : List Move} {responses responses' : List (Position × Response)}
    {s s' : Scene σ}, Run observe t responses s → s.play observe moves = some (responses', s') →
    Run observe t (responses ++ responses') s'
  | [], responses, _, _, _, h, hplay => by
    obtain ⟨rfl, rfl⟩ := Prod.mk.inj (Option.some.inj hplay)
    rwa [List.append_nil]
  | m :: moves, responses, _, _, _, h, hplay => by
    obtain ⟨⟨used, s₁⟩, hmove, hrest⟩ := Option.bind_eq_some_iff.mp hplay
    obtain ⟨⟨later, s₂⟩, hlater, he⟩ := Option.bind_eq_some_iff.mp hrest
    obtain ⟨rfl, rfl⟩ := Prod.mk.inj (Option.some.inj he)
    rw [← List.append_assoc]
    exact (h.move hmove).play hlater

/-- What is performed is a run, so that whatever `p` decides of its end holds of a run. -/
theorem exists_run_of_perform (observe : Observer σ) (source : String) (given : InstanceOptions)
    (host : Host) (memory : σ) (moves : List Move)
    (p : Template × List (Position × Response) × Scene σ → Bool) (hfresh : host.requestsOf 0 = [])
    (h : (perform observe source given host memory moves).any p = true) :
    ∃ (t : Template) (ds : List Diagnostic) (responses : List (Position × Response)) (s : Scene σ),
      (Template.compile source).run [] = .ok t ds ∧ Run observe t responses s ∧
        p (t, responses, s) = true := by
  obtain ⟨⟨t, responses, s⟩, hperform, hp⟩ := (Option.any_eq_true ..).mp h
  unfold perform at hperform
  split at hperform
  · exact absurd hperform (by simp)
  · rename_i t' ds hcompile
    split at hperform
    · exact absurd hperform (by simp)
    · rename_i inst host' memory' hmade
      obtain ⟨⟨used, s'⟩, hplay, he⟩ := Option.map_eq_some_iff.mp hperform
      obtain ⟨rfl, hsame⟩ := Prod.mk.inj he
      obtain ⟨rfl, rfl⟩ := Prod.mk.inj hsame
      have hrun : Run observe t' ([] ++ used) s' :=
        (Run.instantiate given 0 hfresh hmade).play hplay
      exact ⟨t', ds, used, s', hcompile, hrun, hp⟩

end Plays

/-- A run in which the only placeholder of a template gets its response. -/
theorem exists_run_answered : ∃ (t : Template) (ds : List Diagnostic) (s : Scene Unit),
    (Template.compile "<i><request src=a></request></i>").run [] = .ok t ds ∧
    Run (fun _ _ s => s) t [(0, ⟨200, "b<script></script>"⟩)] s ∧ t.single = false ∧
    t.arena.Fits ∧ s.inst.arena.Fits ∧ s.inst.arena.html s.inst.root = "<i>b</i>" := by
  let response : Response := ⟨200, "b<script></script>"⟩
  let host : Host := { Host.empty with transport := ⟨[(⟨.get, "a"⟩, [⟨response, 0⟩])], []⟩ }
  obtain ⟨t, ds, responses, s, hcompile, hrun, hplayed⟩ := exists_run_of_perform
    (fun _ _ (s : Scene Unit) => s) "<i><request src=a></request></i>" (.plain {}) host ()
    [.turn 0]
    (fun (t, responses, s) => decide (responses = [(0, response)] ∧ t.single = false ∧
      t.arena.Fits ∧ s.inst.arena.Fits ∧ s.inst.arena.html s.inst.root = "<i>b</i>")) rfl
    (by decide +kernel)
  obtain ⟨rfl, hrest⟩ := of_decide_eq_true hplayed
  exact ⟨t, ds, s, hcompile, hrun, hrest⟩

/-- A run in which a tracked placeholder gets a response and then an empty one. -/
theorem exists_run_refreshed : ∃ (t : Template) (ds : List Diagnostic) (s : Scene Unit),
    (Template.compile "<i><b></b><request src=a after=click:b></request></i>").run [] = .ok t ds ∧
    Run (fun _ _ s => s) t [(1, ⟨200, "x<script></script>"⟩), (1, ⟨200, ""⟩)] s ∧
    t.single = false ∧ t.arena.Fits ∧ s.inst.arena.Fits ∧
    s.inst.arena.html s.inst.root = "<i><b></b><!----></i>" := by
  let responses : List Response := [⟨200, "x<script></script>"⟩, ⟨200, ""⟩]
  let transport : CannedTransport := ⟨[(⟨.get, "a"⟩, responses.map fun r => ⟨r, 0⟩)], []⟩
  obtain ⟨t, ds, used, s, hcompile, hrun, hplayed⟩ := exists_run_of_perform
    (fun _ _ (s : Scene Unit) => s) "<i><b></b><request src=a after=click:b></request></i>"
    (.plain {}) { Host.empty with transport } ()
    [.event [0] "click", .turn 0, .event [0] "click", .turn 1]
    (fun (t, used, s) => decide (used = responses.map (fun r => (1, r)) ∧ t.single = false ∧
      t.arena.Fits ∧ s.inst.arena.Fits ∧
      s.inst.arena.html s.inst.root = "<i><b></b><!----></i>")) rfl (by decide +kernel)
  obtain ⟨rfl, hrest⟩ := of_decide_eq_true hplayed
  exact ⟨t, ds, s, hcompile, hrun, hrest⟩

end Scene

end Inlay
