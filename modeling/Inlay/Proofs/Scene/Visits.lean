import Inlay.Proofs.Scene.Handles
import Inlay.Proofs.Scene.Registry

/-!
# The visits of an event

An event comes to the placeholders that it reaches in turn (`Delivers`): one with a request running
lets it pass, which is reported, and any other starts a request, after which it stops listening if
it fires only once. All of that ends at one whose timeout the clock cannot hold (`Balks`).

The one thing that observers are told meanwhile is that a status is zero again. Those that act upon
this can do more at each of these moments, among other things dispatch further events. `Visited` is
what is known of a delivery all the same: `n` is a number of placeholders, and what has happened to
a placeholder that observers leave alone (`Spares`) is known from the state before.
-/

namespace Inlay

/-! ### What is known before -/

namespace Instance

/-- Those of the placeholders that have no request running. -/
def idle (i : Instance) (ps : List Position) : List Position :=
  ps.filter fun p => !i.isRunning p

/-- The placeholder waits for one event only. -/
def firesOnce (i : Instance) (p : Position) : Bool :=
  (i.standby? p).any (·.mode = .one)

/-- What is reported when an event comes to the placeholder. -/
def remarks (i : Instance) (p : Position) : List Diagnostic :=
  if i.isRunning p then [.triggerDropped p]
  else ((i.standby? p).map (·.job.options.diagnostics)).getD []

/-- The task is a new request for what waits at the position. -/
structure Orders (i : Instance) (p : Position) (task : Task) : Prop where
  owner : task.owner = i.id
  job : ∃ b, i.standby? p = some b ∧ task.job = b.job
  request : task.job.Makes task.request
  phase : task.phase = .started

/-- `j` is `i` but for what the record of a placeholder says about its request. -/
structure Marks (i : Instance) (p : Position) (f : RequestRecord → RequestRecord) (j : Instance) :
    Prop where
  contents : Scene.SameContents i j
  standbys_eq : j.standbys = i.standbys
  listeners_eq : j.listeners = i.listeners
  pending_eq : j.pending = i.pending
  record : ∀ q, j.record? q = (i.record? q).map fun r => if q = p then f r else r

variable {i j k : Instance} {p q : Position} {f : RequestRecord → RequestRecord} {task : Task}

/-- A status `code` that was there already leaves the record as it is. -/
theorem marks_of_status {code : Nat} (h : ∀ r, i.record? p = some r → r.status = code) :
    i.Marks p ({ · with status := code }) i where
  contents := .refl i
  standbys_eq := rfl
  listeners_eq := rfl
  pending_eq := rfl
  record q := by
    cases hr : i.record? q with
    | none => rfl
    | some r =>
      rw [Option.map_some]
      by_cases hq : q = p
      · rw [if_pos hq, ← h r (hq ▸ hr)]
      · rw [if_neg hq]

theorem marks_updateRecord (hposition : ∀ r, (f r).position = r.position)
    (hresponse : ∀ r, (f r).response = r.response) (i : Instance) (p : Position) :
    i.Marks p f (i.updateRecord p f) :=
  ⟨⟨⟨rfl, rfl, rfl, rfl⟩, rfl, response?_updateRecord hposition hresponse i p⟩, rfl, rfl, rfl,
    record?_updateRecord hposition i p⟩

/-- Setting a status is a change of one record, `{ r with status := code }`. -/
theorem marks_setStatus {job : Job} {e : NodeId} (hjob : job.destination = .element e)
    (i : Instance) (code : Nat) :
    i.Marks job.position ({ · with status := code }) (i.setStatus job code) := by
  unfold setStatus
  rw [hjob]
  refine marks_updateRecord ?_ ?_ i job.position <;> exact fun _ => rfl

/-- Marking a request is a change of one record, `{ r with running := flag }`. -/
theorem marks_setRunning {job : Job} {e : NodeId} (hjob : job.destination = .element e)
    (i : Instance) (flag : Bool) :
    i.Marks job.position ({ · with running := flag }) (i.setRunning job flag) := by
  unfold setRunning
  rw [hjob]
  refine marks_updateRecord ?_ ?_ i job.position <;> exact fun _ => rfl

theorem idle_cons (i : Instance) (p : Position) (ps : List Position) :
    i.idle (p :: ps) = i.idle [p] ++ i.idle ps :=
  List.filter_append [p] ps

/-- Of `ps`, those are idle whose request is not running. -/
theorem mem_idle {ps : List Position} : p ∈ i.idle ps ↔ p ∈ ps ∧ i.isRunning p = false := by
  rw [idle, List.mem_filter, Bool.not_eq_true']

/-- Where more requests run, fewer of `ps` are idle. -/
theorem idle_sublist (h : ∀ p, i.isRunning p = true → j.isRunning p = true) (ps : List Position) :
    (j.idle ps).Sublist (i.idle ps) := by
  refine List.monotone_filter_right ps fun p hp => ?_
  rw [Bool.not_eq_true'] at hp ⊢
  exact Bool.eq_false_iff.mpr fun hrunning => by simp [h p hrunning] at hp

theorem Becomes.firesOnce_eq (h : i.Becomes j) (p : Position) : j.firesOnce p = i.firesOnce p := by
  have hmode : ∀ o : Option Standby, o.any (fun b => decide (b.mode = .one)) =
      (o.map fun b => (b.job, b.mode)).any fun x => decide (x.2 = .one) := by
    rintro (_ | b) <;> rfl
  rw [firesOnce, firesOnce, hmode, h.standby?_eq, ← hmode]

/-- What is ordered for `p` later is what waited there before. -/
theorem Orders.of_becomes (h : i.Becomes j) (horders : j.Orders p task) : i.Orders p task where
  owner := horders.owner.trans h.id_eq
  job := by
    obtain ⟨b, hb, hjob⟩ := horders.job
    obtain ⟨b', hb', hsame, -⟩ := h.exists_standby? hb
    exact ⟨b', hb', hjob.trans hsame.symm⟩
  request := horders.request
  phase := horders.phase

end Instance

namespace Scene

variable {σ : Type} {t : Template} {given : InstanceOptions} {home : Position → Destination}
  {s s' s'' : Scene σ} {observe : Observer σ} {p q : Position} {ps : List Position} {b : Standby}
  {n : Nat}

/-! ### Visits -/

/-- The request that is started for what waits. -/
def order (b : Standby) (s : Scene σ) : Task :=
  ⟨s.inst.id, b.job, b.job.outgoing (s.host.signals.forRequest b.job.options).1, .started⟩

/-- What fires only once stops listening. -/
def retire (b : Standby) (s : Scene σ) : Scene σ :=
  if b.mode = .one then s.mapInst (·.standDown b.job.position) else s

/-- The scene when what waits has been fired. -/
def started (observe : Observer σ) (b : Standby) (s : Scene σ) : Scene σ :=
  (((s.equipped b.job).changeStatus observe b.job 0).board b.job (s.order b).request).retire b

theorem orders_order (hb : s.inst.standby? p = some b) : s.inst.Orders p (s.order b) :=
  ⟨rfl, ⟨b, hb, rfl⟩, ⟨s.host.signals, rfl⟩, rfl⟩

/-- An event comes to the placeholders in turn, each of which waits for events, and `n` of them
start a request: those that have none running at that moment. -/
inductive Delivers (observe : Observer σ) : List Position → Nat → Scene σ → Scene σ → Prop where
  | done (s : Scene σ) : Delivers observe [] 0 s s
  | dropped {p : Position} {ps : List Position} {b : Standby} {n : Nat} {s s' : Scene σ} :
    s.inst.standby? p = some b → s.inst.isRunning p = true →
    Delivers observe ps n (s.mapHost (·.report [.triggerDropped p])) s' →
    Delivers observe (p :: ps) n s s'
  | started {p : Position} {ps : List Position} {b : Standby} {n : Nat} {s s' : Scene σ} :
    s.inst.standby? p = some b → s.inst.isRunning p = false →
    s.host.signals.grants b.job.options = true →
    Delivers observe ps n (s.started observe b) s' → Delivers observe (p :: ps) (n + 1) s s'

/-- An event comes to the first of the placeholders, and then to one that has no request running and
can start none, since the clock cannot hold its deadline. -/
inductive Balks (observe : Observer σ) (ps : List Position) (s : Scene σ) : Scene σ → Prop where
  | intro {done later : List Position} {p : Position} {b : Standby} {m : Nat} {s₁ : Scene σ} :
    ps = done ++ p :: later → Delivers observe done m s s₁ →
    s₁.inst.standby? p = some b → s₁.inst.isRunning p = false →
    s₁.host.signals.grants b.job.options = false →
    Balks observe ps s { s₁ with host := s₁.host.report b.job.options.diagnostics }

/-- A placeholder with `isRunning = true` starts none, and that is reported. -/
theorem run_fire_of_running (observe : Observer σ) (hb : s.inst.standby? p = some b)
    (hrunning : s.inst.isRunning p = true) :
    (fire observe p).run s = .ok false (s.mapHost (·.report [.triggerDropped p])) := by
  unfold fire
  rw [run_bind_of_ok (EStateM.run_get ..), hb]
  simp only
  rw [run_bind_of_ok (EStateM.run_get ..), if_pos hrunning]
  rfl

section Idle

variable (observe) (hb : s.inst.standby? p = some b) (hidle : s.inst.isRunning p = false)
  (hvalid : Options.validateHeaders b.job.options.headers = .ok ())

include hb hidle hvalid

/-- One with `isRunning = false` starts it, if the clock can hold the deadline. -/
theorem run_fire_of_idle (hgrants : s.host.signals.grants b.job.options = true) :
    (fire observe p).run s = .ok true (s.started observe b) := by
  unfold fire
  rw [run_bind_of_ok (EStateM.run_get ..), hb]
  simp only
  rw [run_bind_of_ok (EStateM.run_get ..), if_neg (by simp [hidle]),
    run_bind_of_ok (run_launch observe hvalid hgrants), started, retire,
    (Instance.standby?_mem hb).2]
  by_cases hmode : b.mode = .one
  · rw [if_pos hmode, if_pos hmode]
    rfl
  · rw [if_neg hmode, if_neg hmode]
    rfl

/-- One whose deadline the clock cannot hold fails with `momentOverflow`, after its diagnostics have
been reported. -/
theorem run_fire_of_overflow (hgrants : s.host.signals.grants b.job.options = false) :
    (fire observe p).run s = .error (.arithmetic .momentOverflow)
      { s with host := s.host.report b.job.options.diagnostics } := by
  unfold fire
  rw [run_bind_of_ok (EStateM.run_get ..), hb]
  simp only
  rw [run_bind_of_ok (EStateM.run_get ..), if_neg (by simp [hidle]),
    run_bind_of_error (run_launch_of_overflow observe hvalid hgrants)]

end Idle

/-! ### Placeholders that are left alone -/

/-- Nothing that is kept about the placeholder is different. -/
structure SameAt (p : Position) (s s' : Scene σ) : Prop where
  record : s'.inst.record? p = s.inst.record? p
  standby : s'.inst.standby? p = s.inst.standby? p
  listening : s'.inst.listeners.active.filter (·.listener = p) =
    s.inst.listeners.active.filter (·.listener = p)
  pending : s'.inst.pending.lookup p = s.inst.pending.lookup p
  requests : s'.requestsAt p = s.requestsAt p

namespace SameAt

theorem refl (p : Position) (s : Scene σ) : SameAt p s s :=
  ⟨rfl, rfl, rfl, rfl, rfl⟩

theorem trans (h : SameAt p s s') (h' : SameAt p s' s'') : SameAt p s s'' where
  record := h'.record.trans h.record
  standby := h'.standby.trans h.standby
  listening := h'.listening.trans h.listening
  pending := h'.pending.trans h.pending
  requests := h'.requests.trans h.requests

theorem isRunning_eq (h : SameAt p s s') : s'.inst.isRunning p = s.inst.isRunning p := by
  rw [Instance.isRunning, h.record, ← Instance.isRunning]

theorem firesOnce_eq (h : SameAt p s s') : s'.inst.firesOnce p = s.inst.firesOnce p := by
  rw [Instance.firesOnce, h.standby, ← Instance.firesOnce]

theorem remarks_eq (h : SameAt p s s') : s'.inst.remarks p = s.inst.remarks p := by
  rw [Instance.remarks, h.isRunning_eq, h.standby, ← Instance.remarks]

end SameAt

/-- A change on the host that leaves `tasks` alone is none for `p`. -/
theorem sameAt_of_tasks (p : Position) (s : Scene σ) {host : Host}
    (hhost : host.tasks = s.host.tasks) : SameAt p s { s with host } :=
  ⟨rfl, rfl, rfl, rfl, (sameBooks_of_tasks s hhost).requestsAt_eq p⟩

/-- One request is started for the placeholder, and nobody has taken it yet. The placeholder stops
listening if it fires only once. -/
structure Begins (p : Position) (s s' : Scene σ) : Prop where
  record : ∃ r, s.inst.record? p = some r ∧
    s'.inst.record? p = some { r with status := 0, running := true }
  request : ∃ id task, s.inst.Orders p task ∧ s'.requestsAt p = s.requestsAt p ++ [(id, task)] ∧
    s'.inst.pending.lookup p = some id
  listening : s'.inst.listeners.active.filter (·.listener = p) =
    if s.inst.firesOnce p then [] else s.inst.listeners.active.filter (·.listener = p)

/-- If nothing was different about `p` before, a request of `p` begins from there on. -/
theorem SameAt.begins (h : SameAt p s s') (hbegins : Begins p s' s'')
    (hbecomes : s.inst.Becomes s'.inst) : Begins p s s'' where
  record := by
    rw [← h.record]
    exact hbegins.record
  request := by
    obtain ⟨id, task, horders, hrequests, hpending⟩ := hbegins.request
    rw [h.requests] at hrequests
    exact ⟨id, task, horders.of_becomes hbecomes, hrequests, hpending⟩
  listening := by
    rw [hbegins.listening, h.listening, h.firesOnce_eq]

/-- If nothing is different about `p` afterwards, its request has begun. -/
theorem Begins.sameAt (h : Begins p s s') (hsame : SameAt p s' s'') : Begins p s s'' where
  record := by
    rw [hsame.record]
    exact h.record
  request := by
    rw [hsame.requests, hsame.pending]
    exact h.request
  listening := hsame.listening.trans h.listening

/-- Told that a status is zero again, observers leave the placeholder alone. -/
def Spares (observe : Observer σ) (q : Position) : Prop :=
  ∀ label p s, SameAt q s (observe label (.status 0 p) s)

/-- Told that a status is zero again, observers leave `f` as it is. -/
def Leaves {α : Type} (observe : Observer σ) (f : Scene σ → α) : Prop :=
  ∀ label p s, f (observe label (.status 0 p) s) = f s

/-! ### What comes of it -/

/-- What is known when an event has come to the placeholders `ps` and `n` of them have started a
request, whatever observers did meanwhile. -/
structure Visited (observe : Observer σ) (ps : List Position) (n : Nat) (s s' : Scene σ) :
    Prop where
  contents : SameContents s.inst s'.inst
  becomes : s.inst.Becomes s'.inst
  running : ∀ p, p ∈ ps ∨ s.inst.isRunning p = true → s'.inst.isRunning p = true
  /-- The `n` placeholders `qs` had no request running and start one, each in its turn, while
  observers may start others in between; those of `qs` that fire only once listen to nothing any
  more. -/
  started : ∃ qs new, qs.Sublist (s.inst.idle ps) ∧ n = qs.length ∧
    List.Forall₂ s.inst.Orders qs (new.map Prod.snd) ∧ (s.requests ++ new).Sublist s'.requests ∧
    (∀ q ∈ qs, s.inst.firesOnce q = true → s'.inst.Deaf q) ∧
    ∀ q ∈ s.inst.idle ps, Spares observe q → q ∈ qs
  begins : ∀ q ∈ s.inst.idle ps, Spares observe q → Begins q s s'
  others : ∀ q, q ∉ s.inst.idle ps → Spares observe q → SameAt q s s'
  reported : Leaves observe (·.host.diagnostics) → (∀ q ∈ ps, Spares observe q) →
    s'.host.diagnostics = s.host.diagnostics ++ ps.flatMap s.inst.remarks
  clock : Leaves observe (·.host.signals.now) → s'.host.signals.now = s.host.signals.now

theorem visited_nil (observe : Observer σ) (s : Scene σ) : Visited observe [] 0 s s where
  contents := .refl s.inst
  becomes := .refl s.inst
  running p hp := hp.resolve_left List.not_mem_nil
  started := ⟨[], [], .slnil, rfl, .nil, by rw [List.append_nil], by simp,
    fun q hq => absurd hq List.not_mem_nil⟩
  begins q hq := absurd hq List.not_mem_nil
  others q _ _ := .refl q s
  reported _ _ := (List.append_nil _).symm
  clock _ := rfl

/-- A visit of `p` and then one of `ps`, with `p ∉ ps`, is a visit of `p :: ps`. -/
theorem Visited.cons {m : Nat} (h : Visited observe [p] m s s') (h' : Visited observe ps n s' s'')
    (hp : p ∉ ps) : Visited observe (p :: ps) (n + m) s s'' := by
  have hrunning : ∀ q, s.inst.isRunning q = true → s'.inst.isRunning q = true := fun q hq =>
    h.running q (Or.inr hq)
  -- The first visit does not concern what comes later, nor the later ones what came first.
  have hfirst : ∀ q ∈ ps, Spares observe q → SameAt q s s' := fun q hq hspares =>
    h.others q (fun hmem => hp (List.mem_singleton.mp (Instance.mem_idle.mp hmem).1 ▸ hq)) hspares
  have hlater : Spares observe p → SameAt p s' s'' := fun hspares =>
    h'.others p (fun hmem => hp (Instance.mem_idle.mp hmem).1) hspares
  have hstill : ∀ q ∈ s.inst.idle ps, Spares observe q → q ∈ s'.inst.idle ps := by
    intro q hq hspares
    obtain ⟨hmem, hidle⟩ := Instance.mem_idle.mp hq
    exact Instance.mem_idle.mpr ⟨hmem, (hfirst q hmem hspares).isRunning_eq.trans hidle⟩
  constructor
  case contents => exact h.contents.trans h'.contents
  case becomes => exact h.becomes.trans h'.becomes
  case running =>
    rintro q (hq | hq)
    · rcases List.mem_cons.mp hq with rfl | hq
      · exact h'.running q (Or.inr (h.running q (Or.inl (List.mem_singleton_self q))))
      · exact h'.running q (Or.inl hq)
    · exact h'.running q (Or.inr (hrunning q hq))
  case started =>
    obtain ⟨qs, new, hsublist, hm, horders, hrequests, hdeaf, hall⟩ := h.started
    obtain ⟨qs', new', hsublist', hn, horders', hrequests', hdeaf', hall'⟩ := h'.started
    refine ⟨qs ++ qs', new ++ new', ?_, ?_, ?_, ?_, ?_, ?_⟩
    · rw [Instance.idle_cons]
      exact hsublist.append (hsublist'.trans (Instance.idle_sublist hrunning ps))
    · rw [List.length_append, hm, hn, Nat.add_comm]
    · rw [List.map_append]
      exact List.rel_append horders (horders'.imp fun _ _ ho => ho.of_becomes h.becomes)
    · rw [← List.append_assoc]
      exact (hrequests.append_right new').trans hrequests'
    · intro q hq honce
      rcases List.mem_append.mp hq with hq | hq
      · exact h'.becomes.deaf (hdeaf q hq honce)
      · exact hdeaf' q hq ((h.becomes.firesOnce_eq q).trans honce)
    · intro q hq hspares
      rw [Instance.idle_cons, List.mem_append] at hq
      exact List.mem_append.mpr (hq.imp (hall q · hspares) fun hq =>
        hall' q (hstill q hq hspares) hspares)
  case begins =>
    intro q hq hspares
    rw [Instance.idle_cons, List.mem_append] at hq
    rcases hq with hq | hq
    · obtain rfl := List.mem_singleton.mp (Instance.mem_idle.mp hq).1
      exact (h.begins q hq hspares).sameAt (hlater hspares)
    · exact (hfirst q (Instance.mem_idle.mp hq).1 hspares).begins
        (h'.begins q (hstill q hq hspares) hspares) h.becomes
  case others =>
    intro q hq hspares
    rw [Instance.idle_cons, List.mem_append, not_or] at hq
    exact (h.others q hq.1 hspares).trans
      (h'.others q (fun hmem => hq.2 ((Instance.idle_sublist hrunning ps).subset hmem)) hspares)
  case reported =>
    intro hleaves hspares
    have hremarks : ps.flatMap s'.inst.remarks = ps.flatMap s.inst.remarks :=
      List.flatMap_congr fun q hq =>
        (hfirst q hq (hspares q (List.mem_cons_of_mem p hq))).remarks_eq
    rw [h'.reported hleaves fun q hq => hspares q (List.mem_cons_of_mem p hq),
      h.reported hleaves fun q hq => hspares q (List.mem_singleton.mp hq ▸ List.mem_cons_self),
      hremarks, List.append_assoc, ← List.flatMap_append]
    rfl
  case clock => exact fun hleaves => (h'.clock hleaves).trans (h.clock hleaves)

/-- A placeholder whose request runs is visited without starting one, `n = 0`. -/
theorem visited_dropped (observe : Observer σ) (hrunning : s.inst.isRunning p = true) :
    Visited observe [p] 0 s (s.mapHost (·.report [.triggerDropped p])) := by
  have hidle : s.inst.idle [p] = [] := by simp [Instance.idle, hrunning]
  constructor
  case contents => exact .refl s.inst
  case becomes => exact .refl s.inst
  case running =>
    rintro q (hq | hq)
    · exact List.mem_singleton.mp hq ▸ hrunning
    · exact hq
  case started =>
    rw [hidle]
    refine ⟨[], [], .slnil, rfl, .nil, ?_, by simp, fun q hq => absurd hq List.not_mem_nil⟩
    rw [List.append_nil]
    exact .refl _
  case begins =>
    rw [hidle]
    exact fun q hq => absurd hq List.not_mem_nil
  case others => exact fun q _ _ => ⟨rfl, rfl, rfl, rfl, rfl⟩
  case reported =>
    intro _ _
    rw [List.flatMap_singleton, Instance.remarks, if_pos hrunning]
    rfl
  case clock => exact fun _ => rfl

/-! ### Starting a request -/

theorem sameAt_of_marks {f : RequestRecord → RequestRecord} {inst : Instance}
    (h : s.inst.Marks p f inst) (hq : q ≠ p) : SameAt q s { s with inst } where
  record := by
    rw [h.record]
    simp [hq]
  standby := congrArg (List.find? fun b : Standby => b.job.position == q) h.standbys_eq
  listening := congrArg (fun r : Listeners Position => r.active.filter _) h.listeners_eq
  pending := congrArg (List.lookup q) h.pending_eq
  requests := congrArg (fun id => (s.host.requestsOf id).filter fun r : TaskId × Task =>
    decide (r.2.job.position = q)) h.contents.id_eq

/-- A change to `0` sets the status of one record, and observers are told if it was another one. -/
theorem exists_marks_changeStatus (observe : Observer σ) {job : Job} {e : NodeId}
    (hjob : job.destination = .element e) (s : Scene σ) :
    ∃ inst, s.inst.Marks job.position ({ · with status := 0 }) inst ∧
      ∀ q, Spares observe q → SameAt q { s with inst } (s.changeStatus observe job 0) := by
  unfold changeStatus
  split
  · rename_i hzero
    refine ⟨s.inst, Instance.marks_of_status fun r hr => ?_, fun q _ => .refl q s⟩
    unfold Instance.statusOf at hzero
    rw [hjob, hr] at hzero
    exact hzero
  · refine ⟨s.inst.setStatus job 0, Instance.marks_setStatus hjob s.inst 0, fun q hspares => ?_⟩
    unfold notify
    split
    · exact hspares _ job.shownPosition _
    · exact .refl q _

/-- A change of status to `0` leaves `f` alone if observers do and `f` does not read the
instance. -/
theorem Leaves.changeStatus {α : Type} {f : Scene σ → α} (h : Leaves observe f)
    (hinst : ∀ s inst, f { s with inst } = f s) (job : Job) (s : Scene σ) :
    f (s.changeStatus observe job 0) = f s := by
  unfold Scene.changeStatus
  split
  · rfl
  · unfold notify
    split
    · exact (h _ job.shownPosition _).trans (hinst s _)
    · exact hinst s _

/-- Taking in a request sets `running` in one record. -/
theorem record?_board {job : Job} {e : NodeId} (hjob : job.destination = .element e) (s : Scene σ)
    (request : Outgoing) (q : Position) : (s.board job request).inst.record? q =
      (s.inst.record? q).map fun r => if q = job.position then { r with running := true } else r :=
  (Instance.marks_setRunning hjob s.inst true).record q

/-- Taking in a request is no change for any `q ≠ job.position`. -/
theorem sameAt_board_of_ne {job : Job} {e : NodeId} (hjob : job.destination = .element e)
    (s : Scene σ) (request : Outgoing) (hq : q ≠ job.position) :
    SameAt q s (s.board job request) := by
  have hmarks := sameAt_of_marks (Instance.marks_setRunning hjob s.inst true) hq
  constructor
  case record => exact hmarks.record
  case standby => exact hmarks.standby
  case listening => exact hmarks.listening
  case pending => rw [pending_board, Instance.lookup_putPending, if_neg hq]
  case requests => exact requestsAt_board_of_ne s request hq

section Retire

variable (b : Standby) (s : Scene σ)

theorem host_retire : (s.retire b).host = s.host := by
  unfold retire
  split <;> rfl

theorem requests_retire : (s.retire b).requests = s.requests := by
  unfold retire
  split <;> rfl

theorem record?_retire (q : Position) : (s.retire b).inst.record? q = s.inst.record? q := by
  unfold retire
  split <;> rfl

theorem pending_retire : (s.retire b).inst.pending = s.inst.pending := by
  unfold retire
  split <;> rfl

variable {b} {s}

/-- A placeholder with `mode = .one` takes its subscriptions along, and no others. -/
theorem active_retire (h : s.inst.Registered) (hattended : s.inst.Attended) :
    (s.retire b).inst.listeners.active =
      s.inst.listeners.active.filter fun l => ¬ (l.listener = b.job.position ∧ b.mode = .one) := by
  unfold retire
  split
  · rename_i hmode
    refine (h.active_standDown hattended b.job.position).trans (List.filter_congr fun l _ => ?_)
    exact decide_eq_decide.mpr (not_congr ⟨fun hl => ⟨hl, hmode⟩, And.left⟩)
  · rename_i hmode
    refine (List.filter_eq_self.mpr fun l _ => decide_eq_true ?_).symm
    exact fun hl => hmode hl.2

/-- That a placeholder stops listening is no change for any `q ≠ b.job.position`. -/
theorem sameAt_retire_of_ne (h : s.inst.Registered) (hattended : s.inst.Attended)
    (hq : q ≠ b.job.position) : SameAt q s (s.retire b) where
  record := record?_retire b s q
  standby := by
    unfold retire
    split
    · rw [mapInst, Instance.standby?_standDown]
      simp [hq]
    · rfl
  listening := by
    rw [active_retire h hattended, List.filter_filter]
    refine List.filter_congr fun l _ => ?_
    by_cases hl : l.listener = q
    · simp [hl, hq]
    · simp [hl]
  pending := by rw [pending_retire]
  requests := by rw [requestsAt, requests_retire, ← requestsAt]

end Retire

/-! ### Before an event -/

/-- What holds in a run when an event comes to the placeholders. -/
structure Poised (t : Template) (home : Position → Destination) (given : InstanceOptions)
    (ps : List Position) (s : Scene σ) : Prop where
  booked : Booked t given s
  flow : Flow t home s
  registered : s.inst.Registered
  /-- Those of them that fire only once have not fired, or their request is still running. -/
  fresh : ∀ p ∈ ps, ∀ x ∈ t.placeholders, x.mode = .one → x.position = p →
    s.requestsAt p = [] ∨ s.inst.isRunning p = true

namespace Poised

/-- What waits has a place `e` in the tree, and a record as long as `Flow` holds. -/
theorem exists_element (h : Poised t home given ps s) (ht : t.Housed home)
    (hb : b ∈ s.inst.standbys) : ∃ e, b.job.destination = .element e ∧
      ∀ {s' : Scene σ}, Flow t home s' → (s'.inst.flight? b.job.position).isSome := by
  obtain ⟨x, hx, hjob, hdeferred, -⟩ := h.flow.standbys b hb
  obtain ⟨e, he⟩ := ht.home_element x hx (Or.inr hdeferred)
  refine ⟨e, hjob.destination.trans he, fun hflow => ?_⟩
  rw [hjob.position]
  exact hflow.recorded x hx e he

theorem valid (h : Poised t home given ps s) (hb : b ∈ s.inst.standbys) :
    Options.validateHeaders b.job.options.headers = .ok () := by
  obtain ⟨x, -, hcommissions⟩ := h.booked.standbys b hb
  exact Options.validateHeaders_of_resolve hcommissions.options

theorem subset {qs : List Position} (h : Poised t home given ps s) (hqs : qs ⊆ ps) :
    Poised t home given qs s :=
  ⟨h.booked, h.flow, h.registered, fun q hq => h.fresh q (hqs hq)⟩

/-- If `p :: ps` are `Poised`, then `ps` are after `p` has been fired. -/
theorem fire (h : Poised t home given (p :: ps) s) (hobserve : Lawful observe) (ht : t.Housed home)
    {fired : Bool} (hrun : (Scene.fire observe p).run s = .ok fired s') :
    Poised t home given ps s' ∧ Quiet t s s' := by
  have hbooked := (lasting_booked.lawful hobserve).fire p s h.booked
  have hregistered := (lasting_registered.lawful hobserve).fire p s h.registered
  obtain ⟨hflow, hquiet⟩ :=
    flow_fire (hobserve.tame ht) h.flow ht (h.fresh p List.mem_cons_self)
  rw [stateAfter_of_ok hrun] at hbooked hregistered hflow hquiet
  refine ⟨⟨hbooked, hflow, hregistered, fun q hq x hx hone hxq => ?_⟩, hquiet⟩
  exact hquiet.fresh hx hone hxq (h.fresh q (List.mem_cons_of_mem p hq) x hx hone hxq)

end Poised

/-! ### One visit -/

/-- `Flow`, `Registered` and `Attended` hold when observers have been told of a status `0`, and when
the request has been taken in. -/
theorem Poised.told (h : Poised t home given ps s) (hobserve : Lawful observe) (ht : t.Housed home)
    (job : Job) (request : Outgoing) :
    Flow t home ((s.equipped job).changeStatus observe job 0) ∧
      (((s.equipped job).changeStatus observe job 0).board job request).inst.Registered ∧
      (((s.equipped job).changeStatus observe job 0).board job request).inst.Attended := by
  obtain ⟨hflow, -⟩ := flow_of_tasks h.flow (s.equips_equipped job).tasks_eq
  obtain ⟨htold, -⟩ := flow_changeStatus (hobserve.tame ht) hflow job 0 (Or.inr rfl)
  have hregistered := (lasting_registered.lawful hobserve).changeStatus job 0 (s.equipped job)
    h.registered
  have hbooks := sameBooks_setRunning ((s.equipped job).changeStatus observe job 0) job true
  exact ⟨htold, hregistered.becomes (becomes_board _ job request),
    htold.attended.congr hbooks.standbys_eq hbooks.listeners_eq⟩

section Started

variable (hobserve : Lawful observe) (ht : t.Housed home)
  (h : Poised t home given (b.job.position :: ps) s) (hmem : b ∈ s.inst.standbys)

include hobserve ht h hmem

/-- Whatever observers do before, `s.order b` is started and runs, and a placeholder that fires only
once is deaf then. -/
theorem Poised.exists_request : ∃ id,
    (s.started observe b).inst.isRunning b.job.position = true ∧
    (s.requests ++ [(id, s.order b)]).Sublist (s.started observe b).requests ∧
    (b.mode = .one → (s.started observe b).inst.Deaf b.job.position) := by
  obtain ⟨e, he, hrecorded⟩ := h.exists_element ht hmem
  obtain ⟨htold, -, hattended⟩ := h.told hobserve ht b.job (s.order b).request
  have hprefix := (enduring_requests.lawful hobserve).changeStatus b.job 0 (s.equipped b.job)
  have hid := ((enduring_becomes.lawful hobserve).changeStatus b.job 0 (s.equipped b.job)).id_eq
  unfold started
  generalize (s.equipped b.job).changeStatus observe b.job 0 = told at *
  refine ⟨⟨told.host.tasks.length⟩, ?_, ?_, fun hmode l hl => ?_⟩
  · rw [Instance.isRunning, record?_retire, ← Instance.isRunning]
    exact isRunning_board_self he told _ (hrecorded htold)
  · rw [requests_retire, requests_board, hid]
    exact hprefix.sublist.append_right _
  · rw [retire, if_pos hmode] at hl
    exact (Instance.mem_active_standDown hattended hl).2

/-- That a request is started is no change for a placeholder `q` that observers leave alone. -/
theorem Poised.sameAt_started (hspares : Spares observe q) (hq : q ≠ b.job.position) :
    SameAt q s (s.started observe b) := by
  obtain ⟨e, he, -⟩ := h.exists_element ht hmem
  obtain ⟨-, hregistered, hattended⟩ := h.told hobserve ht b.job (s.order b).request
  obtain ⟨inst, hmarks, htell⟩ := exists_marks_changeStatus observe he (s.equipped b.job)
  have hequipped := sameAt_of_tasks q s (s.equips_equipped b.job).tasks_eq
  have htold := (hequipped.trans (sameAt_of_marks hmarks hq)).trans (htell q hspares)
  exact (htold.trans (sameAt_board_of_ne he _ _ hq)).trans
    (sameAt_retire_of_ne hregistered hattended hq)

/-- If observers leave the placeholder alone, it `Begins` just this one request. -/
theorem Poised.begins_started (hb : s.inst.standby? b.job.position = some b)
    (hspares : Spares observe b.job.position) :
    Begins b.job.position s (s.started observe b) := by
  obtain ⟨e, he, hrecorded⟩ := h.exists_element ht hmem
  obtain ⟨-, hregistered, hattended⟩ := h.told hobserve ht b.job (s.order b).request
  obtain ⟨inst, hmarks, htell⟩ := exists_marks_changeStatus observe he (s.equipped b.job)
  have hsame := htell _ hspares
  have hrecord := hsame.record.trans (hmarks.record b.job.position)
  have hlistening := hsame.listening.trans
    (congrArg (fun r : Listeners Position => r.active.filter _) hmarks.listeners_eq)
  have hrequests := hsame.requests.trans (congrArg (fun id => (s.host.requestsOf id).filter
    fun r : TaskId × Task => decide (r.2.job.position = b.job.position)) hmarks.contents.id_eq)
  have hid := ((enduring_becomes.lawful hobserve).changeStatus b.job 0 (s.equipped b.job)).id_eq
  unfold started
  generalize (s.equipped b.job).changeStatus observe b.job 0 = told at *
  constructor
  case record =>
    have hsome := hrecorded h.flow
    rw [Instance.flight?, Option.isSome_map] at hsome
    obtain ⟨r, hr⟩ := Option.isSome_iff_exists.mp hsome
    refine ⟨r, hr, ?_⟩
    rw [record?_retire, record?_board he, hrecord]
    simp [equipped, hr]
  case request =>
    refine ⟨⟨told.host.tasks.length⟩, s.order b, orders_order hb, ?_, ?_⟩
    · rw [requestsAt, requests_retire, ← requestsAt, requestsAt_board_self, hrequests, hid]
      rfl
    · rw [pending_retire, pending_board, Instance.lookup_putPending, if_pos rfl]
  case listening =>
    have hboard : (told.board b.job (s.order b).request).inst.listeners.active =
        told.inst.listeners.active :=
      congrArg Listeners.active (sameBooks_setRunning told b.job true).listeners_eq
    rw [active_retire hregistered hattended, hboard, List.filter_filter, Instance.firesOnce, hb,
      Option.any_some]
    by_cases hmode : b.mode = .one
    · simp [hmode]
    · simp only [hmode, and_false, not_false_iff, decide_true, decide_false, Bool.and_true,
        Bool.false_eq_true, if_false]
      exact hlistening

/-- A placeholder whose request does not run is visited and starts one, `n = 1`. -/
theorem Poised.visited_started (hb : s.inst.standby? b.job.position = some b)
    (hrunning : s.inst.isRunning b.job.position = false)
    (hgrants : s.host.signals.grants b.job.options = true) :
    Visited observe [b.job.position] 1 s (s.started observe b) ∧
      Poised t home given ps (s.started observe b) := by
  have hfire := run_fire_of_idle observe hb hrunning (h.valid hmem) hgrants
  obtain ⟨hpoised, hquiet⟩ := h.fire hobserve ht hfire
  have hbecomes := (enduring_becomes.lawful hobserve).fire b.job.position s
  rw [stateAfter_of_ok hfire] at hbecomes
  obtain ⟨id, hruns, hrequests, hdeaf⟩ := h.exists_request hobserve ht hmem
  have hidle : s.inst.idle [b.job.position] = [b.job.position] := by
    simp [Instance.idle, hrunning]
  refine ⟨?_, hpoised⟩
  constructor
  case contents => exact hquiet.tree
  case becomes => exact hbecomes
  case running =>
    rintro q (hq | hq)
    · exact List.mem_singleton.mp hq ▸ hruns
    · exact hquiet.running q hq
  case started =>
    rw [hidle]
    refine ⟨[b.job.position], [(id, s.order b)], .refl _, rfl, .cons (orders_order hb) .nil,
      hrequests, fun q hq honce => ?_, fun q hq _ => hq⟩
    obtain rfl := List.mem_singleton.mp hq
    rw [Instance.firesOnce, hb, Option.any_some] at honce
    exact hdeaf (of_decide_eq_true honce)
  case begins =>
    rw [hidle]
    intro q hq hspares
    obtain rfl := List.mem_singleton.mp hq
    exact h.begins_started hobserve ht hmem hb hspares
  case others =>
    rw [hidle]
    exact fun q hq hspares =>
      h.sameAt_started hobserve ht hmem hspares fun he => hq (List.mem_singleton.mpr he)
  case reported =>
    intro hleaves _
    rw [List.flatMap_singleton, Instance.remarks, hrunning, if_neg (by simp), hb]
    unfold started
    rw [host_retire]
    exact hleaves.changeStatus (fun _ _ => rfl) b.job (s.equipped b.job)
  case clock =>
    intro hleaves
    unfold started
    rw [host_retire]
    exact (hleaves.changeStatus (fun _ _ => rfl) b.job (s.equipped b.job)).trans
      (Signals.now_forRequest s.host.signals b.job.options)

end Started

/-! ### All visits -/

/-- An event that has come to `ps`, each once, has visited them. -/
theorem Delivers.visited (h : Delivers observe ps n s s') (hobserve : Lawful observe)
    (ht : t.Housed home) (hpoised : Poised t home given ps s) (hnodup : ps.Nodup) :
    Visited observe ps n s s' := by
  induction h with
  | done s => exact visited_nil observe s
  | @dropped p ps b n s s' hb hrunning _ ih =>
    obtain ⟨hp, hrest⟩ := List.nodup_cons.mp hnodup
    obtain ⟨hafter, -⟩ := hpoised.fire hobserve ht (run_fire_of_running observe hb hrunning)
    exact (visited_dropped observe hrunning).cons (ih hafter hrest) hp
  | @started p ps b n s s' hb hrunning hgrants _ ih =>
    obtain ⟨hp, hrest⟩ := List.nodup_cons.mp hnodup
    obtain ⟨hmem, rfl⟩ := Instance.standby?_mem hb
    obtain ⟨hfirst, hafter⟩ := hpoised.visited_started hobserve ht hmem hb hrunning hgrants
    exact hfirst.cons (ih hafter hrest) hp

/-- An event that comes to `p` and balks at one of `ps` balks at one of `p :: ps`. -/
theorem Balks.cons {s₁ : Scene σ} (h : Balks observe ps s₁ s')
    (hfirst : ∀ {done m s₂}, Delivers observe done m s₁ s₂ →
      ∃ m', Delivers observe (p :: done) m' s s₂) : Balks observe (p :: ps) s s' := by
  obtain ⟨hps, hdone, hb, hrunning, hgrants⟩ := h
  obtain ⟨m, hdone'⟩ := hfirst hdone
  exact .intro (congrArg (p :: ·) hps) hdone' hb hrunning hgrants

/-- Firing `ps` delivers to all of them or balks at one that has a deadline which the clock cannot
hold. -/
theorem Poised.run_fireAll (hobserve : Lawful observe) (ht : t.Housed home) :
    ∀ {ps : List Position} {s : Scene σ}, Poised t home given ps s →
    (∀ p ∈ ps, (s.inst.standby? p).isSome) →
    (∃ n s', (fireAll observe ps).run s = .ok n s' ∧ Delivers observe ps n s s') ∨
      ∃ s', (fireAll observe ps).run s = .error (.arithmetic .momentOverflow) s' ∧
        Balks observe ps s s'
  | [], s, _, _ => Or.inl ⟨0, s, rfl, .done s⟩
  | p :: ps, s, h, hps => by
    obtain ⟨b, hb⟩ := Option.isSome_iff_exists.mp (hps p List.mem_cons_self)
    have hvalid := h.valid (Instance.standby?_mem hb).1
    -- Whether or not this one starts a request, the others are visited afterwards.
    have hrest : ∀ {fired : Bool} {s₁ : Scene σ}, (Scene.fire observe p).run s = .ok fired s₁ →
        (∀ {done m s₂}, Delivers observe done m s₁ s₂ →
          Delivers observe (p :: done) (m + if fired then 1 else 0) s s₂) →
        (∃ n s', (fireAll observe (p :: ps)).run s = .ok n s' ∧
          Delivers observe (p :: ps) n s s') ∨
        ∃ s', (fireAll observe (p :: ps)).run s = .error (.arithmetic .momentOverflow) s' ∧
          Balks observe (p :: ps) s s' := by
      intro fired s₁ hfirst hdelivers
      obtain ⟨hafter, -⟩ := h.fire hobserve ht hfirst
      have hbecomes := (enduring_becomes.lawful hobserve).fire p s
      rw [stateAfter_of_ok hfirst] at hbecomes
      have hwaiting : ∀ q ∈ ps, (s₁.inst.standby? q).isSome := fun q hq => by
        have hsame := congrArg Option.isSome (hbecomes.standby?_eq q)
        rw [Option.isSome_map, Option.isSome_map] at hsame
        exact hsame.trans (hps q (List.mem_cons_of_mem p hq))
      unfold fireAll
      rw [run_bind_of_ok hfirst]
      rcases hafter.run_fireAll hobserve ht hwaiting with ⟨n, s', hrun, hrest⟩ | ⟨s', hrun, hbalks⟩
      · rw [run_bind_of_ok hrun]
        exact Or.inl ⟨_, s', rfl, hdelivers hrest⟩
      · rw [run_bind_of_error hrun]
        exact Or.inr ⟨s', rfl, hbalks.cons fun hdone => ⟨_, hdelivers hdone⟩⟩
    cases hrunning : s.inst.isRunning p with
    | true =>
      exact hrest (run_fire_of_running observe hb hrunning) fun hdone => .dropped hb hrunning hdone
    | false =>
      cases hgrants : s.host.signals.grants b.job.options with
      | true =>
        exact hrest (run_fire_of_idle observe hb hrunning hvalid hgrants) fun hdone =>
          .started hb hrunning hgrants hdone
      | false =>
        have hfails := run_fire_of_overflow observe hb hrunning hvalid hgrants
        refine Or.inr ⟨_, ?_, .intro (List.nil_append _).symm (.done s) hb hrunning hgrants⟩
        unfold fireAll
        rw [run_bind_of_error hfails]

/-- If observers leave `now` alone and it grants the deadlines of all of `ps`, an event does not
balk. -/
theorem Balks.not_of_grants (hbalks : Balks observe ps s s') (hobserve : Lawful observe)
    (ht : t.Housed home) (hpoised : Poised t home given ps s) (hnodup : ps.Nodup)
    (hleaves : Leaves observe (·.host.signals.now))
    (hgrants : ∀ p ∈ ps, ∀ b, s.inst.standby? p = some b →
      s.host.signals.grants b.job.options = true) : False := by
  obtain ⟨hps, hdone, hb, -, hover⟩ := hbalks
  rename_i done later p b m s₁
  have hvisited := hdone.visited hobserve ht (hpoised.subset fun q hq => by simp [hps, hq])
    (hps ▸ hnodup).of_append_left
  obtain ⟨b', hb', hjob, -⟩ := hvisited.becomes.exists_standby? hb
  rw [Signals.grants_congr (hvisited.clock hleaves), ← hjob,
    hgrants p (by simp [hps]) b' hb'] at hover
  exact absurd hover (by simp)

end Scene

end Inlay
