import Inlay.Proofs.Arena.Reachable
import Inlay.Proofs.Steps

/-!
# Registries of listeners

A registry is all that is left of the calls that were made on it: subscriptions, and cancellations
of any subscription, also of one that another registry gave out. `Listeners.History` is a registry
with the log of these calls and of what they returned.

* `Listeners.accounts_of_history`: what the calls returned and what is active, said about the log
  alone; and what an event reaches in any reachable arena, in what order.

The order is that of the way up from the target (`Listeners.pairwise_reached`), and at one node that
in which the subscriptions were made. Numbers do not run out: they are natural numbers.
-/

namespace Inlay

/-- An event that reaches both comes to `l` before `m`. -/
def Nearer {α : Type} (a : Arena) (l m : Listening α) : Prop :=
  a.Below m.node l.node ∨ l.node = m.node ∧ l.subscription.number < m.subscription.number

/-- Of two subscriptions only one can be `Nearer`: that of the node below, or at one node the one
with the lower number. -/
theorem Nearer.asymm {α : Type} {a : Arena} (hf : a.Forest) {l m : Listening α}
    (h : Nearer a l m) : ¬ Nearer a m l := by
  rcases h with habove | ⟨hnode, hlt⟩
  · rintro (hbelow | ⟨hnode, -⟩)
    · exact hf.acyclic _ (Relation.TransGen.trans habove hbelow)
    · rw [hnode] at habove
      exact hf.acyclic _ habove
  · rintro (hbelow | ⟨-, hgt⟩)
    · rw [hnode] at hbelow
      exact hf.acyclic _ hbelow
    · exact Nat.lt_asymm hlt hgt

namespace Listeners

variable {α : Type} {r r' : Listeners α} {l m : Listening α} {s : Subscription}

/-! ### Numbers -/

/-- The subscriptions are in the order in which they were made. -/
def Ordered (r : Listeners α) : Prop :=
  r.active.Pairwise fun l m => l.subscription.number < m.subscription.number

/-- Subscriptions are in order, and new ones get numbers that come after theirs. -/
structure Numbered (r : Listeners α) : Prop where
  ordered : r.Ordered
  made : ∀ l ∈ r.active, l.subscription.number < r.next

theorem Numbered.subscribe (h : r.Numbered) (node : NodeId) (event : String) (listener : α) :
    (r.subscribe node event listener).2.Numbered where
  ordered := by
    refine List.pairwise_append.mpr ⟨h.ordered, List.pairwise_singleton _ _, fun l hl m hm => ?_⟩
    obtain rfl := List.mem_singleton.mp hm
    exact h.made l hl
  made l hl := by
    rcases List.mem_append.mp hl with hl | hl
    · exact Nat.lt_succ_of_lt (h.made l hl)
    · obtain rfl := List.mem_singleton.mp hl
      exact Nat.lt_succ_self r.next

theorem Ordered.nodup (h : r.Ordered) : (r.active.map (·.subscription)).Nodup := by
  rw [List.Nodup, List.pairwise_map]
  refine h.imp ?_
  intro l m hlt he
  rw [he] at hlt
  exact Nat.lt_irrefl _ hlt

theorem isActive_iff : r.isActive s = true ↔ ∃ l ∈ r.active, l.subscription = s := by
  simp [isActive]

/-- Who cancels a subscription that is active takes just one out: the count goes down by `1`, and by
`0` if there was none. -/
theorem count_cancel (h : r.Ordered) (s : Subscription) :
    (r.cancel s).2.count + (if (r.cancel s).1 then 1 else 0) = r.count := by
  show (r.active.filter (·.subscription ≠ s)).length + (if r.isActive s then 1 else 0)
    = r.active.length
  have hsplit := List.length_eq_countP_add_countP (fun l => decide (l.subscription = s))
    (l := r.active)
  have hcount : r.active.countP (fun l => decide (l.subscription = s))
      = (r.active.map (·.subscription)).count s := by
    rw [List.count, List.countP_map]
    rfl
  have hrest : r.active.countP (fun l => !decide (l.subscription = s))
      = (r.active.filter (·.subscription ≠ s)).length := by
    rw [List.countP_eq_length_filter]
    simp
  have hself : (r.active.map (·.subscription)).count s = if r.isActive s then 1 else 0 := by
    by_cases hs : s ∈ r.active.map (·.subscription)
    · rw [List.count_eq_one_of_mem h.nodup hs, if_pos]
      exact isActive_iff.mpr (List.mem_map.mp hs)
    · rw [List.count_eq_zero_of_not_mem hs, if_neg]
      intro hactive
      exact hs (List.mem_map.mpr (isActive_iff.mp hactive))
  simp only [Bool.not_eq_true, Bool.decide_eq_false] at hsplit
  omega

/-! ### The way of an event -/

variable {a : Arena} {target : NodeId} {event : String}

/-- An event reaches at a node the subscriptions `l ∈ r.active` with `l.node = node` and
`l.event = event`. -/
theorem mem_hearing {node : NodeId} :
    l ∈ r.hearing event node ↔ l ∈ r.active ∧ l.node = node ∧ l.event = event := by
  rw [hearing, List.mem_filter, decide_eq_true_iff]

/-- An event reaches what is subscribed to it at its target and above: `l ∈ r.active` with
`l.event = event` and `l.node` above `target`. -/
theorem mem_reached (hf : a.Forest) :
    l ∈ r.reached a target event ↔ l ∈ r.active ∧ l.event = event ∧ a.Under l.node target := by
  rw [reached, List.mem_flatMap]
  constructor
  · rintro ⟨n, hn, hl⟩
    obtain ⟨hactive, rfl, hevent⟩ := mem_hearing.mp hl
    exact ⟨hactive, hevent, hf.mem_pathToRoot.mp hn⟩
  · rintro ⟨hactive, hevent, hunder⟩
    exact ⟨l.node, hf.mem_pathToRoot.mpr hunder, mem_hearing.mpr ⟨hactive, rfl, hevent⟩⟩

/-- The event comes to what is nearer first, and at one node in the order `R` of the registry. -/
theorem pairwise_reached (hf : a.Forest) {R : Listening α → Listening α → Prop}
    (hR : r.active.Pairwise R) : (r.reached a target event).Pairwise fun l m =>
      a.Below m.node l.node ∨ l.node = m.node ∧ R l m := by
  rw [reached, List.pairwise_flatMap]
  constructor
  · intro n _
    refine (hR.filter _).imp_of_mem fun {l m} hl hm hlm => Or.inr ⟨?_, hlm⟩
    rw [(mem_hearing.mp hl).2.1, (mem_hearing.mp hm).2.1]
  · refine (hf.climbs_pathToRoot target).pairwise.imp fun {n k} habove l hl m hm => Or.inl ?_
    rwa [(mem_hearing.mp hl).2.1, (mem_hearing.mp hm).2.1]

/-! ### Calls -/

/-- A call on a registry, with what it returned. -/
inductive Call (α : Type) where
  | made (l : Listening α)
  | cancelled (s : Subscription) (wasActive : Bool)

/-- Whether it is a cancellation that found the subscription active. -/
def Call.ends : Call α → Bool
  | made _ => false
  | cancelled _ wasActive => wasActive

/-- A call on `r` that returns this leads to that registry. -/
inductive Returns (r : Listeners α) : Call α → Listeners α → Prop where
  | subscribe (node : NodeId) (event : String) (listener : α) :
    Returns r (.made ⟨(r.subscribe node event listener).1, node, event, listener⟩)
      (r.subscribe node event listener).2
  | cancel (s : Subscription) : Returns r (.cancelled s (r.cancel s).1) (r.cancel s).2

/-- Calls lead from a new registry to `r`. -/
abbrev History (log : List (Call α)) (r : Listeners α) : Prop :=
  Steps Returns empty log r

theorem history_empty : History [] (empty : Listeners α) :=
  .refl

theorem History.subscribe {log : List (Call α)} (h : History log r) (node : NodeId) (event : String)
    (listener : α) : History (log ++ [.made ⟨⟨r.next⟩, node, event, listener⟩])
      (r.subscribe node event listener).2 :=
  h.next (.subscribe node event listener)

theorem History.cancel {log : List (Call α)} (h : History log r) (s : Subscription) :
    History (log ++ [.cancelled s (r.cancel s).1]) (r.cancel s).2 :=
  h.next (.cancel s)

/-- The subscriptions that were made, in order. -/
def made (log : List (Call α)) : List (Listening α) :=
  log.filterMap fun
    | .made l => some l
    | .cancelled _ _ => none

/-- The subscription was made, and nobody tried to cancel it since. -/
def Stands (log : List (Call α)) (l : Listening α) : Prop :=
  ∃ pre post, log = pre ++ .made l :: post ∧ ∀ b, .cancelled l.subscription b ∉ post

/-- Of two subscriptions `l` was made first. -/
def Earlier (log : List (Call α)) (l m : Listening α) : Prop :=
  [l, m].Sublist (made log)

/-- What the calls have returned, and what is active after them. -/
structure Accounts (log : List (Call α)) (r : Listeners α) : Prop where
  /-- Every subscription is new. -/
  fresh : ((made log).map (·.subscription)).Nodup
  /-- A subscription is found active by the first cancellation that comes after it, and by no
  other. -/
  found_iff : ∀ {pre post : List (Call α)} {s : Subscription} {b : Bool},
    log = pre ++ .cancelled s b :: post → (b = true ↔ ∃ l, l.subscription = s ∧ Stands pre l)
  isActive_iff : ∀ s, r.isActive s = true ↔ ∃ l, l.subscription = s ∧ Stands log l
  count_add : r.count + log.countP Call.ends = (made log).length

/-- What an event reaches in `a`: all that stands for it at its target and above, each once, nearest
first, and at one node in the order in which it was made. -/
structure Heard (log : List (Call α)) (a : Arena) (target : NodeId) (event : String)
    (reached : List (Listening α)) : Prop where
  nodup : (reached.map (·.subscription)).Nodup
  mem_iff : ∀ l, l ∈ reached ↔ Stands log l ∧ l.event = event ∧ a.Under l.node target
  ordered : reached.Pairwise fun l m =>
    a.Below m.node l.node ∨ l.node = m.node ∧ Earlier log l m

variable {log : List (Call α)} {b : Bool}

theorem made_append (log log' : List (Call α)) : made (log ++ log') = made log ++ made log' :=
  List.filterMap_append

theorem not_stands_nil : ¬ Stands [] l := by
  rintro ⟨pre, post, hlog, -⟩
  simp at hlog

/-- A new subscription `m` stands, and nothing that was there falls. -/
theorem stands_made_iff : Stands (log ++ [.made m]) l ↔ Stands log l ∨ l = m := by
  constructor
  · rintro ⟨pre, post, hlog, hpost⟩
    rcases concat_eq_append_cons hlog with ⟨-, hm, -⟩ | ⟨post, rfl, rfl⟩
    · injection hm with hm
      exact Or.inr hm.symm
    · exact Or.inl ⟨pre, post, rfl, fun b hb => hpost b (List.mem_append_left _ hb)⟩
  · rintro (⟨pre, post, rfl, hpost⟩ | rfl)
    · refine ⟨pre, post ++ [.made m], by simp, fun b hb => ?_⟩
      rcases List.mem_append.mp hb with hb | hb
      · exact hpost b hb
      · simp at hb
    · exact ⟨log, [], rfl, by simp⟩

/-- What is cancelled, with the number `s`, falls, and nothing else. -/
theorem stands_cancelled_iff :
    Stands (log ++ [.cancelled s b]) l ↔ Stands log l ∧ l.subscription ≠ s := by
  constructor
  · rintro ⟨pre, post, hlog, hpost⟩
    rcases concat_eq_append_cons hlog with ⟨-, hl, -⟩ | ⟨post, rfl, rfl⟩
    · simp at hl
    · refine ⟨⟨pre, post, rfl, fun b hb => hpost b (List.mem_append_left _ hb)⟩, ?_⟩
      rintro rfl
      apply hpost b
      simp
  · rintro ⟨⟨pre, post, rfl, hpost⟩, hne⟩
    refine ⟨pre, post ++ [.cancelled s b], by simp, fun b' hb => ?_⟩
    rcases List.mem_append.mp hb with hb | hb
    · exact hpost b' hb
    · simp only [List.mem_singleton, Call.cancelled.injEq] at hb
      exact hne hb.1

/-! ### Histories -/

/-- What is active is what stands, and all that was made has its own number. -/
structure Kept (log : List (Call α)) (r : Listeners α) : Prop where
  ascending : (made log).Pairwise fun l m => l.subscription.number < m.subscription.number
  bounded : ∀ l ∈ made log, l.subscription.number < r.next
  sublist : r.active.Sublist (made log)
  mem_iff : ∀ l, l ∈ r.active ↔ Stands log l
  count_add : r.count + log.countP Call.ends = (made log).length

theorem Kept.ordered (h : Kept log r) : r.Ordered :=
  h.ascending.sublist h.sublist

/-- A subscription `s` is active if it was made and not cancelled since: `Stands log l`. -/
theorem Kept.isActive_iff (h : Kept log r) (s : Subscription) :
    r.isActive s = true ↔ ∃ l, l.subscription = s ∧ Stands log l := by
  rw [Listeners.isActive_iff]
  constructor
  · rintro ⟨l, hl, hs⟩
    exact ⟨l, hs, (h.mem_iff l).mp hl⟩
  · rintro ⟨l, hs, hl⟩
    exact ⟨l, (h.mem_iff l).mpr hl, hs⟩

theorem kept_empty : Kept [] (empty : Listeners α) where
  ascending := .nil
  bounded _ hl := absurd hl List.not_mem_nil
  sublist := .slnil
  mem_iff _ := ⟨fun hl => absurd hl List.not_mem_nil, fun hl => absurd hl not_stands_nil⟩
  count_add := rfl

/-- A new subscription gets the number `r.next`, which is higher than those given out before. -/
theorem Kept.subscribe (h : Kept log r) (node : NodeId) (event : String) (listener : α) :
    Kept (log ++ [.made ⟨⟨r.next⟩, node, event, listener⟩])
      (r.subscribe node event listener).2 := by
  have hmade := made_append log [.made ⟨⟨r.next⟩, node, event, listener⟩]
  constructor
  case ascending =>
    rw [hmade, List.pairwise_append]
    refine ⟨h.ascending, List.pairwise_singleton _ _, fun l hl m hm => ?_⟩
    obtain rfl := List.mem_singleton.mp hm
    exact h.bounded l hl
  case bounded =>
    intro l hl
    show l.subscription.number < r.next + 1
    rw [hmade, List.mem_append] at hl
    rcases hl with hl | hl
    · have := h.bounded l hl
      omega
    · obtain rfl := List.mem_singleton.mp hl
      show r.next < r.next + 1
      omega
  case sublist =>
    rw [hmade]
    exact h.sublist.append (.refl _)
  case mem_iff =>
    intro l
    rw [stands_made_iff, ← h.mem_iff]
    show l ∈ r.active ++ [_] ↔ _
    rw [List.mem_append, List.mem_singleton]
  case count_add =>
    -- one more is active, one more was made, and as many have ended as before
    have hcount := h.count_add
    show (r.active ++ [_]).length + _ = _
    rw [hmade, List.length_append, List.length_append, List.countP_append]
    show r.active.length + 1 + (log.countP Call.ends + 0) = (made log).length + 1
    rw [count] at hcount
    omega

/-- A cancellation takes out what has the number of `s`, and what it returns says whether that was
there. -/
theorem Kept.cancel (h : Kept log r) (s : Subscription) :
    Kept (log ++ [.cancelled s (r.cancel s).1]) (r.cancel s).2 := by
  have hmade : made (log ++ [.cancelled s (r.cancel s).1]) = made log := by
    rw [made_append]
    exact List.append_nil _
  constructor
  case ascending =>
    rw [hmade]
    exact h.ascending
  case bounded =>
    rw [hmade]
    exact h.bounded
  case sublist =>
    rw [hmade]
    exact List.filter_sublist.trans h.sublist
  case mem_iff =>
    intro l
    rw [stands_cancelled_iff, ← h.mem_iff]
    show l ∈ r.active.filter _ ↔ _
    rw [List.mem_filter, decide_eq_true_iff]
  case count_add =>
    have hcount := h.count_add
    -- a subscription ends just if it was active, and then there is one fewer
    have hone := count_cancel h.ordered s
    rw [hmade, List.countP_append, List.countP_singleton]
    show (r.cancel s).2.count + (log.countP Call.ends + if (r.cancel s).1 = true then 1 else 0) = _
    omega

theorem Kept.returns {c : Call α} (h : Kept log r) (hc : Returns r c r') :
    Kept (log ++ [c]) r' := by
  cases hc with
  | subscribe node event listener => exact h.subscribe node event listener
  | cancel s => exact h.cancel s

/-- **The registry is what its log makes of it**, by induction on the calls. -/
theorem kept_of_history (h : History log r) : Kept log r :=
  h.invariant kept_empty Kept.returns

theorem accounts (h : History log r) : Accounts log r := by
  have hkept := kept_of_history h
  constructor
  case fresh =>
    rw [List.Nodup, List.pairwise_map]
    apply hkept.ascending.imp
    intro l m hlt he
    rw [he] at hlt
    omega
  case found_iff =>
    intro pre post s b hlog
    -- the registry that was asked had all that stood at that moment
    obtain ⟨t, t', ht, hcall, -⟩ := h.split hlog
    cases hcall with
    | cancel => exact (kept_of_history ht).isActive_iff s
  case isActive_iff => exact hkept.isActive_iff
  case count_add => exact hkept.count_add

theorem heard (h : History log r) (hf : a.Forest) (target : NodeId) (event : String) :
    Heard log a target event (r.reached a target event) := by
  have hkept := kept_of_history h
  have hordered := hkept.ordered
  constructor
  case nodup =>
    rw [List.Nodup, List.pairwise_map]
    apply (pairwise_reached hf hordered).imp_of_mem
    intro l m hl hm hnearer he
    -- equal subscriptions would be one, and no node is above itself
    obtain rfl : l = m := List.inj_on_of_nodup_map hordered.nodup
      ((mem_reached hf).mp hl).1 ((mem_reached hf).mp hm).1 he
    rcases hnearer with hbelow | ⟨-, hlt⟩
    · exact hf.acyclic _ hbelow
    · exact Nat.lt_irrefl _ hlt
  case mem_iff =>
    intro l
    rw [mem_reached hf, hkept.mem_iff]
  case ordered =>
    apply pairwise_reached hf
    rw [List.pairwise_iff_forall_sublist]
    exact fun hsub => hsub.trans hkept.sublist

/-- **What a registry gives out is what was subscribed and not cancelled.** Every subscription is
new, and its first cancellation is the one that finds it active; active are those made and not
cancelled; and an event reaches the active ones at its target and above, each once and in order. -/
theorem accounts_of_history (h : History log r) (ha : Arena.Reachable a) (target : NodeId)
    (event : String) : Accounts log r ∧ Heard log a target event (r.reached a target event) :=
  ⟨accounts h, heard h ha.sound.forest target event⟩

/-- Two listeners at a button and one at the element around it; one of the former is cancelled,
twice. -/
theorem accounts_once_cancelled :
    let a := [Arena.Op.newElement "div" [], .newElement "button" [],
      .appendChild ⟨0, 0⟩ ⟨1, 0⟩].foldl
      Arena.Op.after .empty
    ∃ (log : List (Call String)) (r : Listeners String), History log r ∧ Arena.Reachable a ∧
      Accounts log r ∧ Heard log a ⟨1, 0⟩ "click" (r.reached a ⟨1, 0⟩ "click") ∧
      log.countP Call.ends = 1 ∧ r.count = 2 ∧
      (r.reached a ⟨1, 0⟩ "click").map (·.listener) = ["inner", "outer"] := by
  intro a
  have ha : Arena.Reachable a := Arena.Reachable.empty.foldl _ (by decide +kernel)
  have hmade := ((history_empty.subscribe ⟨1, 0⟩ "click" "brief").subscribe ⟨0, 0⟩ "click"
    "outer").subscribe ⟨1, 0⟩ "click" "inner"
  have hcancelled := (hmade.cancel ⟨0⟩).cancel ⟨0⟩
  obtain ⟨haccounts, hheard⟩ := accounts_of_history hcancelled ha ⟨1, 0⟩ "click"
  exact ⟨_, _, hcancelled, ha, haccounts, hheard, by decide +kernel, by decide +kernel,
    by decide +kernel⟩

end Listeners

end Inlay
