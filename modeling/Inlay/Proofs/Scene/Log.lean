import Inlay.Proofs.Instance.Contents
import Inlay.Scene.Basic
import Mathlib.Data.List.Chain

/-!
# The log of an observer

`hear` is the observer that writes down all that it is told. `Log.Ordered` says in which order
notifications may stand in its log: what a success brought comes right after the status of the
success and right before the root. `Log.Agrees` says that what the log tells of a request is what
the instance shows of it. Both are kept when what a job tells its observer is put at the end of the
log.
-/

namespace Inlay

/-- What observers were told, each entry with the label of its observer. -/
abbrev Log := List (String × Notification)

/-- The observer that writes down all that it is told, and does nothing else. -/
def hear : Observer Log := fun label n s => { s with memory := s.memory ++ [(label, n)] }

def Notification.IsStatus (n : Notification) : Prop :=
  ∃ code p, n = status code p

/-- The entries for what the observer of a job is told, if it has one. -/
def Job.entries (job : Job) (ns : List Notification) : Log :=
  match job.options.observer with
  | some label => ns.map (label, ·)
  | none => []

variable {job : Job} {label : String} {root : NodeId} {log : Log} {q : Option Position} {code : Nat}

/-- With an observer `label` all that is told is written down under it. -/
theorem Job.entries_of_some (h : job.options.observer = some label) (ns : List Notification) :
    job.entries ns = ns.map (label, ·) := by
  rw [entries, h]

/-- With `observer = none` nothing is written down. -/
theorem Job.entries_of_none (h : job.options.observer = none) (ns : List Notification) :
    job.entries ns = [] := by
  rw [entries, h]

theorem Job.entries_append (job : Job) (ns ms : List Notification) :
    job.entries (ns ++ ms) = job.entries ns ++ job.entries ms := by
  unfold entries
  split
  · exact List.map_append
  · rfl

namespace Log

/-! ### The order of entries -/

/-- `b` may come right after `a`. -/
def Follows (root : NodeId) (a b : String × Notification) : Prop :=
  match b.2 with
  | .status _ _ => ∀ ids p, a.2 ≠ .nodes ids p
  | .nodes _ p => ∃ code, a = (b.1, .status code (some p)) ∧ isSuccess code = true
  | .fragment _ => ∃ code, a = (b.1, .status code none) ∧ isSuccess code = true
  | .root r => r = root ∧ ∃ ids p, a = (b.1, .nodes ids p)

/-- Each entry may come after the one before. The log begins with a status, and it does not end
between the nodes of a success and the root. -/
structure Ordered (root : NodeId) (log : Log) : Prop where
  chain : log.IsChain (Follows root)
  head : ∀ e ∈ log.head?, e.2.IsStatus
  last : ∀ e ∈ log.getLast?, ∀ ids p, e.2 ≠ .nodes ids p

theorem ordered_nil (root : NodeId) : Ordered root [] :=
  ⟨.nil, by simp, by simp⟩

/-- A `.status` may follow anything, so it can be put at the end of an ordered log. -/
theorem Ordered.status (h : Ordered root log) (label : String) (code : Nat) (q : Option Position) :
    Ordered root (log ++ [(label, .status code q)]) where
  chain := List.isChain_append.mpr ⟨h.chain, List.isChain_singleton _, fun a ha b hb => by
    obtain rfl := Option.some.inj hb
    exact h.last a ha⟩
  head := by
    cases log with
    | nil => simp [Notification.IsStatus]
    | cons e log => exact h.head
  last := by simp

/-- Entries in order can be put at the end if the first may follow `a` and the last is not about
nodes. -/
theorem Ordered.append {a b : String × Notification} {entries : Log}
    (h : Ordered root (log ++ [a])) (hfirst : Follows root a b)
    (hchain : (b :: entries).IsChain (Follows root))
    (hlast : ∀ e ∈ (b :: entries).getLast?, ∀ ids p, e.2 ≠ .nodes ids p) :
    Ordered root (log ++ [a] ++ b :: entries) where
  chain := List.isChain_append.mpr ⟨h.chain, hchain, fun x hx y hy => by
    rw [List.getLast?_concat] at hx
    obtain rfl := Option.some.inj hx
    obtain rfl := Option.some.inj hy
    exact hfirst⟩
  head := by
    rw [List.head?_append_of_ne_nil _ (by simp)]
    exact h.head
  last := by
    rw [List.getLast?_append_of_ne_nil _ (by simp)]
    exact hlast

/-- What a success brought can be put at the end after the status `code` of the success. -/
theorem Ordered.report {i : Instance} {nodes : List NodeId}
    (h : Ordered i.root (log ++ [(label, .status code job.shownPosition)]))
    (hsuccess : isSuccess code = true)
    (hwhole : job.shownPosition = none → ∃ fragment, nodes = [fragment]) :
    Ordered i.root (log ++ [(label, .status code job.shownPosition)] ++
      (i.report job nodes).map (label, ·)) := by
  cases hjob : job.destination with
  | whole =>
    have hshown : job.shownPosition = none := by rw [Job.shownPosition, hjob]
    obtain ⟨fragment, rfl⟩ := hwhole hshown
    rw [hshown] at h ⊢
    rw [Instance.report, hjob]
    exact h.append ⟨code, rfl, hsuccess⟩ (List.isChain_singleton _) (by simp)
  | element id =>
    have hshown : job.shownPosition = some job.position := by rw [Job.shownPosition, hjob]
    rw [hshown] at h ⊢
    rw [Instance.report, hjob]
    -- the nodes follow the status, the root follows the nodes, and the log ends with the root
    have hroot : Follows i.root (label, .nodes nodes job.position) (label, .root i.root) :=
      ⟨rfl, nodes, job.position, rfl⟩
    exact h.append ⟨code, rfl, hsuccess⟩
      (List.isChain_cons_cons.mpr ⟨hroot, List.isChain_singleton _⟩) (by simp)

/-- Of two entries in a row the second `Follows` the first. -/
theorem Ordered.follows {a b : String × Notification} {before after : Log}
    (h : Ordered root (before ++ a :: b :: after)) : Follows root a b :=
  (List.isChain_append_cons_cons.mp h.chain).2.1

/-- An entry that is no status is not the first one: it follows some `a`. -/
theorem Ordered.exists_before {b : String × Notification} {before after : Log}
    (h : Ordered root (before ++ b :: after)) (hb : ¬ b.2.IsStatus) :
    ∃ before' a, before = before' ++ [a] ∧ Follows root a b := by
  rcases List.eq_nil_or_concat' before with rfl | ⟨before', a, rfl⟩
  · exact absurd (h.head b rfl) hb
  · refine ⟨before', a, rfl, ?_⟩
    rw [List.append_assoc, List.singleton_append] at h
    exact h.follows

/-- Before `.nodes ids p` stands the status of a success, and after it the root. -/
theorem Ordered.around_nodes {before after : Log} {ids : List NodeId} {p : Position}
    (h : Ordered root (before ++ (label, .nodes ids p) :: after)) :
    (∃ before' code, before = before' ++ [(label, .status code (some p))] ∧
      isSuccess code = true) ∧ ∃ after', after = (label, .root root) :: after' := by
  constructor
  · obtain ⟨before', a, rfl, code, rfl, hsuccess⟩ :=
      h.exists_before (by simp [Notification.IsStatus])
    exact ⟨before', code, rfl, hsuccess⟩
  · cases after with
    | nil => exact absurd rfl (h.last (label, .nodes ids p) (by simp) ids p)
    | cons b after =>
      obtain ⟨l, n⟩ := b
      have hfollows := h.follows
      -- nothing but the root may come right after nodes
      cases n with
      | status code q => exact absurd rfl (hfollows ids p)
      | nodes ids' p' =>
        obtain ⟨code, he, -⟩ := hfollows
        exact absurd he (by simp)
      | fragment id =>
        obtain ⟨code, he, -⟩ := hfollows
        exact absurd he (by simp)
      | root r =>
        obtain ⟨rfl, ids', p', he⟩ := hfollows
        obtain ⟨rfl, -⟩ := Prod.mk.inj he
        exact ⟨after, rfl⟩

/-! ### What the log tells of a request -/

/-- The statuses of a request in the order in which an observer was told them. -/
def codes (label : String) (q : Option Position) (log : Log) : List Nat :=
  log.filterMap fun
    | (l, .status code p) => if l = label ∧ p = q then some code else none
    | _ => none

/-- What the successes of a request brought, in the order in which an observer was told. -/
def contents (label : String) (q : Option Position) (log : Log) : List (List NodeId) :=
  log.filterMap fun
    | (l, .nodes ids p) => if l = label ∧ some p = q then some ids else none
    | (l, .fragment id) => if l = label ∧ none = q then some [id] else none
    | _ => none

theorem codes_append (label : String) (q : Option Position) (log entries : Log) :
    codes label q (log ++ entries) = codes label q log ++ codes label q entries :=
  List.filterMap_append

theorem contents_append (label : String) (q : Option Position) (log entries : Log) :
    contents label q (log ++ entries) = contents label q log ++ contents label q entries :=
  List.filterMap_append

/-- The statuses told of `p` are not among `codes label q`, for `p ≠ q`. -/
theorem codes_status_of_ne {p : Option Position} (h : p ≠ q) (job : Job) (code : Nat) :
    codes label q (job.entries [.status code p]) = [] := by
  unfold Job.entries
  split
  · simp [codes, h]
  · rfl

theorem contents_status (job : Job) (code : Nat) (p : Option Position) :
    contents label q (job.entries [.status code p]) = [] := by
  unfold Job.entries
  split <;> rfl

theorem codes_report (i : Instance) (job : Job) (nodes : List NodeId) :
    codes label q (job.entries (i.report job nodes)) = [] := by
  unfold Job.entries Instance.report
  split
  · rename_i l _
    split
    · rw [codes, List.filterMap_map, List.filterMap_map, List.filterMap_eq_nil_iff]
      exact fun _ _ => rfl
    · rfl
  · rfl

theorem contents_report_of_ne (h : job.shownPosition ≠ q) (i : Instance) (nodes : List NodeId) :
    contents label q (job.entries (i.report job nodes)) = [] := by
  unfold Job.shownPosition at h
  unfold Job.entries Instance.report
  cases job.options.observer with
  | none => rfl
  | some l =>
    cases hjob : job.destination with
    | whole =>
      rw [hjob] at h
      simp only
      rw [contents, List.filterMap_map, List.filterMap_map, List.filterMap_eq_nil_iff]
      exact fun _ _ => if_neg fun hc => h hc.2
    | element id =>
      rw [hjob] at h
      simp [contents, h]

/-- What a success brought is one entry of the contents, `[nodes]`. -/
theorem contents_report (h : job.options.observer = some label) (i : Instance) {nodes : List NodeId}
    (hwhole : job.shownPosition = none → ∃ fragment, nodes = [fragment]) :
    contents label job.shownPosition (job.entries (i.report job nodes)) = [nodes] := by
  unfold Job.shownPosition at hwhole ⊢
  rw [job.entries_of_some h]
  unfold Instance.report
  cases hjob : job.destination with
  | whole =>
    rw [hjob] at hwhole
    obtain ⟨fragment, rfl⟩ := hwhole rfl
    simp [contents]
  | element id => simp [contents]

/-- What an observer was told of a request is what the instance shows of it. -/
structure Agrees (label : String) (q : Option Position) (i : Instance) (log : Log) : Prop where
  /-- It begins with zero, which is not told. -/
  changes : (0 :: codes label q log).IsChain (· ≠ ·)
  /-- It is zero as long as nothing was told. -/
  status : i.statusAt q = (codes label q log).getLast?.getD 0
  contents : i.contentsAt q = (contents label q log).getLast?
  /-- A single placeholder has one success at most. -/
  once : q = none → (Log.contents label q log).length ≤ 1

namespace Agrees

variable {i j : Instance} {entries : Log} {nodes : List NodeId}

theorem congr (h : Agrees label q i log) (hstatus : j.statusAt q = i.statusAt q)
    (hcontents : j.contentsAt q = i.contentsAt q) : Agrees label q j log :=
  ⟨h.changes, hstatus.trans h.status, hcontents.trans h.contents, h.once⟩

/-- Entries without statuses or contents of `q` change nothing. -/
theorem append (h : Agrees label q i log) (hcodes : codes label q entries = [])
    (hcontents : Log.contents label q entries = []) : Agrees label q i (log ++ entries) := by
  have hcodes' := codes_append label q log entries
  have hcontents' := contents_append label q log entries
  rw [hcodes, List.append_nil] at hcodes'
  rw [hcontents, List.append_nil] at hcontents'
  constructor
  · rw [hcodes']
    exact h.changes
  · rw [hcodes']
    exact h.status
  · rw [hcontents']
    exact h.contents
  · rw [hcontents']
    exact h.once

/-- Another status `code` and its entry at the end agree. -/
theorem append_status (h : Agrees label q i log) (hlabel : job.options.observer = some label)
    (hne : i.statusAt q ≠ code) (hstatus : j.statusAt q = code)
    (hcontents : j.contentsAt q = i.contentsAt q) :
    Agrees label q j (log ++ job.entries [.status code q]) := by
  have hcodes : codes label q (log ++ job.entries [.status code q]) =
      codes label q log ++ [code] := by
    rw [codes_append, job.entries_of_some hlabel]
    simp [codes]
  have hsame : Log.contents label q (log ++ job.entries [.status code q]) =
      Log.contents label q log := by
    rw [contents_append, contents_status, List.append_nil]
  constructor
  case changes =>
    rw [hcodes, ← List.cons_append]
    refine List.isChain_append.mpr ⟨h.changes, List.isChain_singleton code, fun a ha b hb => ?_⟩
    -- the last status that was told, or zero, is the one that there was
    obtain rfl := Option.some.inj hb
    rw [h.status] at hne
    rw [List.getLast?_cons] at ha
    rwa [← Option.some.inj ha]
  case status =>
    rw [hcodes, List.getLast?_concat, hstatus]
    rfl
  case contents => rw [hsame, hcontents, h.contents]
  case once =>
    rw [hsame]
    exact h.once

/-- The `nodes` of a success and their entries at the end agree. -/
theorem append_report (h : Agrees label job.shownPosition i log)
    (hlabel : job.options.observer = some label)
    (hwhole : job.shownPosition = none → i.contentsAt none = none ∧ ∃ fragment, nodes = [fragment])
    (hstatus : j.statusAt job.shownPosition = i.statusAt job.shownPosition)
    (hcontents : j.contentsAt job.shownPosition = some nodes) :
    Agrees label job.shownPosition j (log ++ job.entries (i.report job nodes)) := by
  have hcodes := codes_append label job.shownPosition log (job.entries (i.report job nodes))
  rw [codes_report, List.append_nil] at hcodes
  have happended := contents_append label job.shownPosition log (job.entries (i.report job nodes))
  rw [contents_report hlabel i fun hnone => (hwhole hnone).2] at happended
  constructor
  case changes =>
    rw [hcodes]
    exact h.changes
  case status =>
    rw [hcodes, hstatus]
    exact h.status
  case contents => rw [happended, List.getLast?_concat, hcontents]
  case once =>
    intro hnone
    -- nothing was brought before
    have hempty := h.contents
    rw [hnone, (hwhole hnone).1] at hempty
    rw [happended, hnone, List.getLast?_eq_none_iff.mp hempty.symm]
    exact Nat.le_refl 1

end Agrees

end Log

end Inlay
