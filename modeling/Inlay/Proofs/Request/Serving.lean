import Inlay.Request.Transport
import Inlay.Proofs.Steps
import Mathlib.Data.List.Forall2
import Mathlib.Data.List.Range

/-!
# Serving prepared replies

What a transport answers, said about the calls on it alone. `CannedTransport.History` is a transport
with the log of all calls, in any order, and of what they returned. For an endpoint only some of
these calls matter, its errands. They lead to an account: all replies that were prepared for it so
far, and a place among them. A fetch serves the reply at this place, and then the place moves on if
there already is a reply behind it. The queues of the transport hold what stands from the place on
(`CannedTransport.mirrors_of_history`).

* `CannedTransport.served_of_history`: which replies the fetches of an endpoint get, which of them
  fail, that no other endpoint has a part in it, and that all requests are recorded.
-/

namespace Inlay.CannedTransport

/-! ### Calls -/

/-- A call on a transport, with what it returned. -/
inductive Call where
  | prepared (e : Endpoint) (reply : Reply)
  | fetched (r : Outgoing) (answer : Except NoRoute Reply)

/-- One call. -/
inductive Called (t : CannedTransport) : Call → CannedTransport → Prop where
  | route (e : Endpoint) (reply : Reply) : Called t (.prepared e reply) (t.route e reply)
  | fetch (r : Outgoing) : Called t (.fetched r (t.fetch r).1) (t.fetch r).2

/-- A transport that nothing else was done with than what is in the log. -/
abbrev History (log : List Call) (t : CannedTransport) : Prop :=
  Steps Called empty log t

/-- What a call wants of an endpoint. -/
inductive Errand where
  /-- That it has one more reply. -/
  | take (reply : Reply)
  /-- That it gives a reply. -/
  | serve

namespace Call

def request? : Call → Option Outgoing
  | prepared _ _ => none
  | fetched r _ => some r

def errand? (e : Endpoint) : Call → Option Errand
  | prepared e' reply => if e' = e then some (.take reply) else none
  | fetched r _ => if r.endpoint = e then some .serve else none

def reply? (e : Endpoint) : Call → Option Reply
  | prepared e' reply => if e' = e then some reply else none
  | fetched _ _ => none

/-- What a fetch got from an endpoint. Why it got nothing is left out, as that names other
endpoints. -/
def answer? (e : Endpoint) : Call → Option (Option Reply)
  | prepared _ _ => none
  | fetched r answer => if r.endpoint = e then some answer.toOption else none

end Call

/-- The requests of all fetches. -/
def requests (log : List Call) : List Outgoing :=
  log.filterMap Call.request?

/-- The calls for an endpoint, without what they returned. -/
def errands (e : Endpoint) (log : List Call) : List Errand :=
  log.filterMap (·.errand? e)

/-- All replies that were prepared for an endpoint. -/
def replies (e : Endpoint) (log : List Call) : List Reply :=
  log.filterMap (·.reply? e)

/-- What the fetches of an endpoint got. -/
def answers (e : Endpoint) (log : List Call) : List (Option Reply) :=
  log.filterMap (·.answer? e)

/-! ### The account of an endpoint -/

/-- How an endpoint stands after some errands. -/
structure Account where
  /-- All replies that it was ever given. -/
  replies : List Reply
  /-- The place of the reply that comes next. -/
  place : Nat
  /-- The places of the replies that it has given. -/
  served : List Nat
  answers : List (Option Reply)

namespace Account

def start : Account := ⟨[], 0, [], []⟩

/-- What an errand does. The place moves on if there is a reply behind it by then. -/
def after (a : Account) : Errand → Account
  | .take reply => { a with replies := a.replies ++ [reply] }
  | .serve =>
    match a.replies[a.place]? with
    | none => { a with answers := a.answers ++ [none] }
    | some reply =>
      { a with
        place := if a.place + 1 < a.replies.length then a.place + 1 else a.place
        served := a.served ++ [a.place]
        answers := a.answers ++ [some reply] }

/-- The account after all of the errands. -/
def of (xs : List Errand) : Account :=
  xs.foldl after start

variable {a : Account} {reply : Reply}

/-- The account of `xs ++ [x]` is that of `xs` after the errand `x`. -/
theorem of_concat (xs : List Errand) (x : Errand) : of (xs ++ [x]) = (of xs).after x := by
  rw [of, List.foldl_append]
  rfl

theorem after_serve_of_none (h : a.replies[a.place]? = none) :
    a.after .serve = { a with answers := a.answers ++ [none] } := by
  simp only [after, h]

/-- A fetch that is served moves the place on, unless it is the last one: to `a.place + 1` while
`a.place + 1 < a.replies.length`. -/
theorem after_serve_of_some (h : a.replies[a.place]? = some reply) :
    a.after .serve =
      { a with
        place := if a.place + 1 < a.replies.length then a.place + 1 else a.place
        served := a.served ++ [a.place]
        answers := a.answers ++ [some reply] } := by
  simp only [after, h]

theorem replies_serve (a : Account) : (a.after .serve).replies = a.replies := by
  cases h : a.replies[a.place]? <;> simp [after, h]

theorem answers_serve (a : Account) :
    (a.after .serve).answers = a.answers ++ [a.replies[a.place]?] := by
  cases h : a.replies[a.place]? <;> simp [after, h]

/-- The laws of accounts. The next place counts as one more of those that were served. -/
structure Orderly (a : Account) : Prop where
  place : a.place < a.replies.length ∨ a.replies = [] ∧ a.place = 0
  first : (a.served ++ [a.place]).head? = some 0
  steady : (a.served ++ [a.place]).IsChain fun i j => j = i ∨ j = i + 1
  answers : List.Forall₂ (fun i reply => a.replies[i]? = some reply) a.served
    (a.answers.filterMap fun answer => answer)

theorem orderly_start : start.Orderly where
  place := .inr ⟨rfl, rfl⟩
  first := rfl
  steady := .singleton 0
  answers := .nil

/-- There is a reply at the place unless there are none at all:
`a.replies[a.place]? = none ↔ a.replies = []`. -/
theorem Orderly.next_eq_none_iff (h : a.Orderly) : a.replies[a.place]? = none ↔ a.replies = [] := by
  rw [List.getElem?_eq_none_iff]
  rcases h.place with hplace | ⟨hnil, -⟩
  · refine iff_of_false (Nat.not_le.mpr hplace) fun hnil => ?_
    rw [hnil] at hplace
    exact Nat.not_lt_zero _ hplace
  · simp [hnil]

theorem Orderly.take (h : a.Orderly) (reply : Reply) : (a.after (.take reply)).Orderly where
  place := by
    left
    show a.place < (a.replies ++ [reply]).length
    rw [List.length_append, List.length_singleton]
    rcases h.place with hplace | ⟨-, hzero⟩ <;> omega
  first := h.first
  steady := h.steady
  answers := by
    -- what was served before stands where it stood
    refine h.answers.imp fun i served hi => ?_
    have hlt := (List.getElem?_eq_some_iff.mp hi).1
    show (a.replies ++ [reply])[i]? = some served
    rw [List.getElem?_append_left hlt, hi]

/-- Serving keeps an account `Orderly`: its place is one of its replies, and its answers went from
each to the same one or the next. -/
theorem Orderly.serve (h : a.Orderly) : (a.after .serve).Orderly := by
  cases hnext : a.replies[a.place]? with
  | none =>
    rw [after_serve_of_none hnext]
    refine ⟨h.place, h.first, h.steady, ?_⟩
    simpa using h.answers
  | some reply =>
    rw [after_serve_of_some hnext]
    have hplace := (List.getElem?_eq_some_iff.mp hnext).1
    refine ⟨.inl ?_, ?_, ?_, ?_⟩
    · show (if _ then _ else _) < a.replies.length
      split <;> omega
    · rw [List.head?_append, h.first]
      rfl
    · rw [List.isChain_append]
      refine ⟨h.steady, .singleton _, fun i hi j hj => ?_⟩
      obtain rfl : a.place = i := by simpa using hi
      obtain rfl : (if a.place + 1 < a.replies.length then a.place + 1 else a.place) = j := by
        simpa using hj
      split
      · exact .inr rfl
      · exact .inl rfl
    · rw [List.filterMap_append]
      exact List.rel_append h.answers (.cons hnext .nil)

/-- Every account is `Orderly`, whatever errands it was made of. -/
theorem orderly_of (xs : List Errand) : (of xs).Orderly := by
  induction xs using List.reverseRecOn with
  | nil => exact orderly_start
  | append_singleton xs x ih =>
    rw [of_concat]
    cases x with
    | take reply => exact ih.take reply
    | serve => exact ih.serve

/-! ### All replies first -/

theorem of_takes (rs : List Reply) : of (rs.map .take) = ⟨rs, 0, [], []⟩ := by
  induction rs using List.reverseRecOn with
  | nil => rfl
  | append_singleton rs r ih =>
    rw [List.map_append, List.map_singleton, of_concat, ih]
    rfl

/-- Replies that are all there before the first fetch are given one by one, the last one again and
again: fetch `j`, counted from one, gets reply `min j rs.length`. -/
theorem of_takes_serves {rs : List Reply} (hrs : rs ≠ []) (k : Nat) :
    of (rs.map .take ++ List.replicate k .serve) =
      ⟨rs, min k (rs.length - 1), (List.range k).map (min · (rs.length - 1)),
        (List.range k).map fun j => rs[min (j + 1) rs.length - 1]?⟩ := by
  have hpos := List.length_pos_iff.mpr hrs
  induction k with
  | zero =>
    rw [List.replicate_zero, List.append_nil, of_takes, Nat.zero_min]
    rfl
  | succ k ih =>
    have hsame : min k (rs.length - 1) = min (k + 1) rs.length - 1 := by omega
    have hlt : min k (rs.length - 1) < rs.length := by omega
    rw [List.replicate_succ', ← List.append_assoc, of_concat, ih,
      after_serve_of_some (List.getElem?_eq_getElem hlt), List.range_succ, List.map_append,
      List.map_append]
    congr 1
    · show (if min k (rs.length - 1) + 1 < rs.length then min k (rs.length - 1) + 1
        else min k (rs.length - 1)) = min (k + 1) (rs.length - 1)
      split <;> omega
    · rw [List.map_singleton, ← hsame, List.getElem?_eq_getElem hlt]

end Account

/-! ### The queues -/

variable {t : CannedTransport} {log : List Call}

/-- The replies that an endpoint has left. -/
def queue (e : Endpoint) : List (Endpoint × List Reply) → List Reply
  | [] => []
  | (e', rs) :: rest => if e' = e then rs else queue e rest

/-- A prepared reply is put behind those of its own endpoint `e`, and the other queues stay. -/
theorem queue_addReply (e e' : Endpoint) (reply : Reply) : ∀ routes,
    queue e (addReply e' reply routes) =
      if e' = e then queue e routes ++ [reply] else queue e routes
  | [] => by simp [addReply, queue]
  | (other, rs) :: rest => by
    have ih := queue_addReply e e' reply rest
    by_cases hother : other = e'
    · subst hother
      simp only [addReply, queue, if_pos]
      split <;> rfl
    · simp only [addReply, if_neg hother, queue, ih]
      by_cases he : other = e
      · subst he
        simp [Ne.symm hother]
      · simp [he]

/-- What is taken is `(queue e routes).head?`. The queue of `e` becomes `afterServing` of what it
was, and the other endpoints keep theirs. -/
theorem takeReply_spec (e : Endpoint) : ∀ routes,
    (takeReply e routes = none ∧ queue e routes = []) ∨
      ∃ reply routes', takeReply e routes = some (reply, routes') ∧
        (queue e routes).head? = some reply ∧
        ∀ e', queue e' routes' = if e = e' then afterServing (queue e' routes) else queue e' routes
  | [] => .inl ⟨rfl, rfl⟩
  | (other, rs) :: rest => by
    by_cases hother : other = e
    · subst hother
      cases rs with
      | nil => exact .inl ⟨by simp [takeReply], by simp [queue]⟩
      | cons reply rs =>
        refine .inr ⟨reply, (other, afterServing (reply :: rs)) :: rest, by simp [takeReply],
          by simp [queue], fun e' => ?_⟩
        by_cases he : other = e' <;> simp [queue, he]
    · rcases takeReply_spec e rest with ⟨htake, hqueue⟩ | ⟨reply, rest', htake, hhead, hqueue⟩
      · exact .inl ⟨by simp [takeReply, hother, htake], by simp [queue, hother, hqueue]⟩
      · refine .inr ⟨reply, (other, rs) :: rest', by simp [takeReply, hother, htake], ?_,
          fun e' => ?_⟩
        · rwa [queue, if_neg hother]
        · simp only [queue, hqueue]
          by_cases he : other = e'
          · subst he
            simp [Ne.symm hother]
          · simp [he]

/-- A fetch of `r` answers with `(queue r.endpoint t.routes).head?`, and adds `r` to `t.calls`. The
queue of its endpoint becomes `afterServing` of what it was; the queues of the others stay. -/
theorem fetch_spec (t : CannedTransport) (r : Outgoing) :
    ∃ answer routes, t.fetch r = (answer, ⟨routes, t.calls ++ [r]⟩) ∧
      answer.toOption = (queue r.endpoint t.routes).head? ∧
      ∀ e, queue e routes =
        if r.endpoint = e then afterServing (queue e t.routes) else queue e t.routes := by
  rcases takeReply_spec r.endpoint t.routes with
    ⟨htake, hnil⟩ | ⟨reply, routes, htake, hhead, hqueue⟩
  · refine ⟨_, t.routes, by simp only [fetch, htake]; rfl, by rw [hnil]; rfl, fun e => ?_⟩
    split
    · rename_i he
      rw [← he, hnil]
      rfl
    · rfl
  · exact ⟨.ok reply, routes, by simp only [fetch, htake], hhead.symm, hqueue⟩

/-- Of the replies `rs.drop i` from a place on, the one at the place is served: `rs.drop (i + 1)` is
left, or `rs.drop i` again if it was the last. -/
theorem afterServing_drop {rs : List Reply} {i : Nat} (hi : i < rs.length) :
    afterServing (rs.drop i) = rs.drop (if i + 1 < rs.length then i + 1 else i) := by
  rw [List.drop_eq_getElem_cons hi]
  by_cases hnext : i + 1 < rs.length
  · rw [if_pos hnext, List.drop_eq_getElem_cons hnext]
    rfl
  · rw [if_neg hnext, List.drop_eq_nil_of_le (Nat.not_lt.mp hnext), List.drop_eq_getElem_cons hi,
      List.drop_eq_nil_of_le (Nat.not_lt.mp hnext)]
    rfl

/-- What an account has left. -/
def Account.left (a : Account) : List Reply :=
  a.replies.drop a.place

theorem Account.Orderly.left_take {a : Account} (h : a.Orderly) (reply : Reply) :
    (a.after (.take reply)).left = a.left ++ [reply] := by
  have hle : a.place ≤ a.replies.length := by
    rcases h.place with hlt | ⟨-, hzero⟩ <;> omega
  exact List.drop_append_of_le_length hle

/-- What is left of an account after a fetch is `afterServing` of what was left before. -/
theorem Account.Orderly.left_serve {a : Account} (h : a.Orderly) :
    (a.after .serve).left = afterServing a.left := by
  cases hnext : a.replies[a.place]? with
  | none =>
    have hnil := h.next_eq_none_iff.mp hnext
    rw [after_serve_of_none hnext, left, left, hnil, List.drop_nil]
    rfl
  | some reply =>
    rw [after_serve_of_some hnext]
    exact (afterServing_drop (List.getElem?_eq_some_iff.mp hnext).1).symm

/-! ### The transport and the accounts -/

theorem filterMap_concat {α β : Type} (f : α → Option β) (xs : List α) (x : α) :
    (xs ++ [x]).filterMap f = xs.filterMap f ++ (f x).toList := by
  rw [List.filterMap_append, List.filterMap_cons]
  cases f x <;> rfl

theorem requests_concat (log : List Call) (call : Call) :
    requests (log ++ [call]) = requests log ++ call.request?.toList :=
  filterMap_concat _ _ _

theorem answers_concat (e : Endpoint) (log : List Call) (call : Call) :
    answers e (log ++ [call]) = answers e log ++ (call.answer? e).toList :=
  filterMap_concat _ _ _

/-- The account of an endpoint after the calls of a log. -/
def account (e : Endpoint) (log : List Call) : Account :=
  .of (errands e log)

/-- A call adds its errand to the account of the endpoint `e` it is for, and nothing to the
others. -/
theorem account_concat (e : Endpoint) (log : List Call) (call : Call) :
    account e (log ++ [call]) = match call.errand? e with
      | none => account e log
      | some errand => (account e log).after errand := by
  rw [account, errands, filterMap_concat, ← errands]
  cases call.errand? e with
  | none => rw [Option.toList_none, List.append_nil, account]
  | some errand => rw [Option.toList_some, Account.of_concat, account]

/-- The replies in the account of `e` are those that were prepared for `e`, in order. -/
theorem replies_account (e : Endpoint) (log : List Call) :
    (account e log).replies = replies e log := by
  induction log using List.reverseRecOn with
  | nil => rfl
  | append_singleton log call ih =>
    rw [replies, filterMap_concat, ← replies, ← ih, account_concat]
    cases call with
    | prepared e' reply =>
      by_cases he : e' = e <;> simp [Call.errand?, Call.reply?, he, Account.after]
    | fetched r answer =>
      by_cases he : r.endpoint = e <;> simp [Call.errand?, Call.reply?, he, Account.replies_serve]

theorem orderly_account (e : Endpoint) (log : List Call) : (account e log).Orderly :=
  Account.orderly_of _

/-- A transport holds what is left on the accounts, has answered as they say, and keeps the
requests. -/
structure Mirrors (log : List Call) (t : CannedTransport) : Prop where
  calls : t.calls = requests log
  queue : ∀ e, queue e t.routes = (account e log).left
  answers : ∀ e, answers e log = (account e log).answers

theorem mirrors_empty : Mirrors [] empty where
  calls := rfl
  queue _ := rfl
  answers _ := rfl

theorem Mirrors.route (h : Mirrors log t) (e' : Endpoint) (reply : Reply) :
    Mirrors (log ++ [.prepared e' reply]) (t.route e' reply) where
  calls := by
    rw [requests_concat]
    exact h.calls.trans (List.append_nil _).symm
  queue e := by
    rw [CannedTransport.route, queue_addReply, h.queue e, account_concat]
    by_cases he : e' = e
    · simp only [Call.errand?, if_pos he, (orderly_account e log).left_take]
    · simp only [Call.errand?, if_neg he]
  answers e := by
    rw [answers_concat, h.answers e, account_concat]
    by_cases he : e' = e <;> simp [Call.errand?, Call.answer?, he, Account.after]

/-- A fetch keeps the transport and the log in step, when its answer is put at the end of `log`. -/
theorem Mirrors.fetch (h : Mirrors log t) (r : Outgoing) :
    Mirrors (log ++ [.fetched r (t.fetch r).1]) (t.fetch r).2 := by
  obtain ⟨answer, routes, hfetch, hanswer, hqueue⟩ := fetch_spec t r
  rw [hfetch]
  refine ⟨?_, fun e => ?_, fun e => ?_⟩
  · rw [requests_concat, ← h.calls]
    rfl
  · rw [hqueue, h.queue e, account_concat]
    by_cases he : r.endpoint = e
    · simp only [Call.errand?, if_pos he, (orderly_account e log).left_serve]
    · simp only [Call.errand?, if_neg he]
  · rw [answers_concat, h.answers e, account_concat]
    by_cases he : r.endpoint = e
    · subst he
      simp only [Call.errand?, Call.answer?, if_pos, Account.answers_serve, hanswer, h.queue,
        Account.left, List.head?_drop]
      rfl
    · simp [Call.errand?, Call.answer?, he]

/-- **A transport is what its calls make of it.** Its requests are `requests log`, and the queue of
each endpoint is what is `left` of its account. -/
theorem mirrors_of_history (h : History log t) : Mirrors log t := by
  refine Steps.invariant h mirrors_empty fun hlog hcall => ?_
  cases hcall with
  | route e reply => exact hlog.route e reply
  | fetch r => exact hlog.fetch r

/-- A fetch fails where nothing was prepared: `replies r.endpoint log = []`. -/
theorem fetch_fails_iff (h : History log t) (r : Outgoing) :
    (t.fetch r).1.toOption = none ↔ replies r.endpoint log = [] := by
  obtain ⟨answer, routes, hfetch, hanswer, -⟩ := fetch_spec t r
  rw [hfetch, hanswer, (mirrors_of_history h).queue, Account.left, List.head?_drop,
    (orderly_account _ log).next_eq_none_iff, replies_account]

theorem toOption_eq_none_iff {ε α : Type} {x : Except ε α} :
    x.toOption = none ↔ ∃ e, x = .error e := by
  cases x with
  | ok y => exact ⟨nofun, nofun⟩
  | error e => exact ⟨fun _ => ⟨e, rfl⟩, fun _ => rfl⟩

/-- **Prepared replies.** All requests are recorded, in order, those without a reply too. For each
endpoint, whatever calls there were and in whatever order:

* the replies that its fetches get are ones that were prepared for it, the first one first, and
  after each of them that one again or the next;
* a fetch fails exactly if nothing was prepared for it by then;
* if all `n` replies are there before the first fetch, fetch `k` gets reply `min k n`, counted from
  one;
* the calls for other endpoints change nothing about what it answers. -/
theorem served_of_history (h : History log t) :
    t.calls = requests log ∧
      ∀ e,
        (∃ places, List.Forall₂ (fun i reply => (replies e log)[i]? = some reply) places
            ((answers e log).filterMap fun answer => answer) ∧
          (∀ i ∈ places.head?, i = 0) ∧ places.IsChain fun i j => j = i ∨ j = i + 1) ∧
        (∀ pre r answer post, log = pre ++ .fetched r answer :: post → r.endpoint = e →
          ((∃ why, answer = .error why) ↔ replies e pre = [])) ∧
        (∀ rs k, rs ≠ [] → errands e log = rs.map .take ++ List.replicate k .serve →
          answers e log = (List.range k).map fun j => rs[min (j + 1) rs.length - 1]?) ∧
        ∀ log' t', History log' t' → errands e log' = errands e log →
          answers e log' = answers e log := by
  have hmirrors := mirrors_of_history h
  refine ⟨hmirrors.calls, fun e => ⟨⟨(account e log).served, ?_, ?_, ?_⟩, ?_, ?_, ?_⟩⟩
  · rw [hmirrors.answers e, ← replies_account]
    exact (orderly_account e log).answers
  · intro i hi
    have hfirst := (orderly_account e log).first
    rw [List.head?_append, Option.mem_def.mp hi] at hfirst
    exact Option.some.inj hfirst
  · exact (List.isChain_append.mp (orderly_account e log).steady).1
  · rintro pre r answer post hlog rfl
    obtain ⟨s, s', hpre, hcall, -⟩ := h.split hlog
    cases hcall
    rw [← toOption_eq_none_iff, fetch_fails_iff hpre]
  · intro rs k hrs herrands
    rw [hmirrors.answers e, account, herrands, Account.of_takes_serves hrs]
  · intro log' t' h' herrands
    rw [hmirrors.answers e, (mirrors_of_history h').answers e, account, account, herrands]

/-- Two replies for one address, and none for the address that is asked for in between. -/
theorem served_beside_unknown :
    let a : Endpoint := ⟨.get, "/a"⟩
    let b : Endpoint := ⟨.get, "/b"⟩
    let get (e : Endpoint) : Outgoing := { method := e.method, url := e.url }
    let one : Reply := ⟨⟨200, "one"⟩, 0⟩
    let two : Reply := ⟨⟨500, "two"⟩, 0⟩
    let before : List Call := [.prepared a one, .prepared a two, .fetched (get a) (.ok one)]
    let log := before ++ [.fetched (get b) (.error ⟨b, [a]⟩), .fetched (get a) (.ok two),
      .fetched (get a) (.ok two)]
    ∃ t, History log t ∧ t.calls = [get a, get b, get a, get a] ∧
      answers a log = [some one, some two, some two] ∧ replies b before = [] := by
  intro a b get one two before log
  have h : History log _ := .next (.next (.next (.next (.next (.next .refl (.route a one))
    (.route a two)) (.fetch (get a))) (.fetch (get b))) (.fetch (get a))) (.fetch (get a))
  obtain ⟨hcalls, hserved⟩ := served_of_history h
  obtain ⟨-, -, hturns, -⟩ := hserved a
  obtain ⟨-, hfails, -, -⟩ := hserved b
  exact ⟨_, h, hcalls, hturns [one, two] 3 (List.cons_ne_nil _ _) rfl,
    (hfails before (get b) _ _ rfl rfl).mp ⟨_, rfl⟩⟩

/-- A reply that comes after the first fetch is not served before the old one was served again. -/
example :
    let get : Outgoing := { method := .get, url := "/a" }
    let one : Reply := ⟨⟨200, "one"⟩, 0⟩
    let two : Reply := ⟨⟨500, "two"⟩, 0⟩
    let t := ((empty.route ⟨.get, "/a"⟩ one).fetch get).2.route ⟨.get, "/a"⟩ two
    (t.fetch get).1 = .ok one ∧ ((t.fetch get).2.fetch get).1 = .ok two :=
  ⟨rfl, rfl⟩

end Inlay.CannedTransport
