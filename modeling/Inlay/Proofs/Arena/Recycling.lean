import Inlay.Proofs.Arena.Reachable

/-!
# Slots used again

A slot is used by one node after the other, and an id tells them apart by the generation of the
slot. `Trace` follows an arena through its primitive steps and logs which ids are handed out and
which are freed; every operation is such a trace (`exists_trace`), and `Course` strings operations
together, with any ids.

The generation of a slot counts how often it is freed (`Trace.generationAt`), as far as 32 bits can
count, and the log misses no node (`Trace.live_or_freed`, `Trace.live_or_made`). Hence

* `Trace.get?_of_freed`: the id of a freed node names nothing ever after, whatever took its slot
  since, as long as the slot was not freed `2 ^ 32` times;
* `Trace.ne_of_made`: under the same bound, the ids of different nodes are different.
-/

namespace Inlay.Arena

/-- What happens to ids: one is handed out with a new node, or its node is freed. -/
inductive Event where
  | made (id : NodeId)
  | freed (id : NodeId)
deriving DecidableEq

/-- Whether a node of that slot is freed. -/
def Event.frees (i : UInt32) : Event → Bool
  | made _ => false
  | freed id => id.index = i

/-- How often a slot is freed. -/
def frees (i : UInt32) (log : List Event) : Nat :=
  log.countP (Event.frees i)

/-- The steps that show in the log. -/
inductive Logged (a : Arena) : Event → Arena → Prop where
  | make (kind : NodeKind) : Logged a (.made (a.alloc kind).1) (a.alloc kind).2
  | release {id : NodeId} (h : a.isLive id) : Logged a (.freed id) (a.release id.index)

/-- Steps from one arena to another, with what they log. -/
inductive Trace (a : Arena) : List Event → Arena → Prop where
  | refl : Trace a [] a
  | change {log b id node} (f : Node → Node) : Trace a log b → b.get? id = some node →
    Trace a log (b.modifySlot id.index f)
  | step {log b e c} : Trace a log b → Logged b e c → Trace a (log ++ [e]) c

variable {a b c : Arena} {log log' : List Event} {e : Event} {id : NodeId}

/-! ### Counting -/

@[simp] theorem frees_nil (i : UInt32) : frees i [] = 0 :=
  rfl

/-- The times that slot `i` is freed are counted log by log. -/
theorem frees_append (i : UInt32) (log log' : List Event) :
    frees i (log ++ log') = frees i log + frees i log' :=
  List.countP_append

theorem frees_cons (i : UInt32) (e : Event) (log : List Event) :
    frees i (e :: log) = frees i log + if e.frees i then 1 else 0 :=
  List.countP_cons

@[simp] theorem frees_made (i : UInt32) (id : NodeId) (log : List Event) :
    frees i (.made id :: log) = frees i log := by
  simp [frees_cons, Event.frees]

/-- An id that the log frees has its slot counted: `0 < frees id.index log`. -/
theorem frees_pos (h : .freed id ∈ log) : 0 < frees id.index log :=
  List.countP_pos_iff.mpr ⟨_, h, by simp [Event.frees]⟩

/-! ### Slots along a trace -/

theorem Logged.accounted (h : Logged a e b) (ha : a.Accounted) : b.Accounted := by
  cases h with
  | make kind => exact ha.alloc kind
  | release hlive =>
    obtain ⟨node, hnode⟩ := isLive_iff.mp hlive
    exact ha.release hnode

theorem Trace.accounted (h : Trace a log b) (ha : a.Accounted) : b.Accounted := by
  induction h with
  | refl => exact ha
  | change f _ hget ih => exact ih.modifySlot hget f
  | step _ hstep ih => exact hstep.accounted ih

theorem Logged.size_le (h : Logged a e b) : a.slots.size ≤ b.slots.size := by
  cases h with
  | make kind => exact size_le_size_alloc a kind
  | release _ => exact Nat.le_of_eq (size_release a _).symm

theorem Trace.size_le (h : Trace a log b) : a.slots.size ≤ b.slots.size := by
  induction h with
  | refl => exact Nat.le_refl _
  | change f _ _ ih => exact Nat.le_trans ih (Nat.le_of_eq (size_modifySlot _ _ f).symm)
  | step _ hstep ih => exact Nat.le_trans ih hstep.size_le

/-- Traces are put together, with the logs `log ++ log'`. -/
theorem Trace.trans (h : Trace a log b) (h' : Trace b log' c) : Trace a (log ++ log') c := by
  induction h' with
  | refl => rwa [List.append_nil]
  | change f _ hget ih => exact ih.change f hget
  | step _ hstep ih =>
    rw [← List.append_assoc]
    exact ih.step hstep

/-- A log `pre ++ e :: post` can be cut open at `e`. -/
theorem Trace.split (h : Trace a log c) : ∀ {pre post : List Event}, log = pre ++ e :: post →
    ∃ b b', Trace a pre b ∧ Logged b e b' ∧ Trace b' post c := by
  induction h with
  | refl => exact fun h => absurd h (by simp)
  | change f _ hget ih =>
    intro pre post hlog
    obtain ⟨b, b', hpre, hstep, hpost⟩ := ih hlog
    exact ⟨b, b', hpre, hstep, hpost.change f hget⟩
  | @step log b last c hb hlast ih =>
    intro pre post hlog
    rcases List.eq_nil_or_concat post with rfl | ⟨post, e', rfl⟩
    · obtain ⟨rfl, he⟩ := List.append_inj' hlog rfl
      obtain rfl := List.head_eq_of_cons_eq he
      exact ⟨b, c, hb, hlast, .refl⟩
    · rw [List.concat_eq_append, ← List.cons_append, ← List.append_assoc] at hlog
      obtain ⟨rfl, he⟩ := List.append_inj' hlog rfl
      obtain rfl := List.head_eq_of_cons_eq he
      obtain ⟨b, b', hpre, hstep, hpost⟩ := ih rfl
      rw [List.concat_eq_append]
      exact ⟨b, b', hpre, hstep, hpost.step hlast⟩

/-! ### Generations -/

/-- The generation that the next node in a slot gets or the one there has. -/
def generationAt (a : Arena) (i : UInt32) : UInt32 :=
  ((a.slots[i.toNat]?).map (·.generation)).getD 0

/-- An id that names a node has the generation of its slot:
`generationAt id.index = id.generation`. -/
theorem generationAt_of_get? {node : Node} (h : a.get? id = some node) :
    a.generationAt id.index = id.generation := by
  rw [generationAt, get?_eq_some_iff.mp h]
  rfl

theorem generationAt_modifySlot (a : Arena) (index : UInt32) (f : Node → Node) (i : UInt32) :
    (a.modifySlot index f).generationAt i = a.generationAt i := by
  unfold generationAt modifySlot
  simp only [Array.getElem?_modify]
  split
  · cases a.slots[i.toNat]? <;> rfl
  · rfl

/-- Vacating a slot raises its own generation by `1`, and no other. -/
theorem generationAt_release (hid : a.isLive id) (i : UInt32) :
    (a.release id.index).generationAt i
      = if id.index = i then a.generationAt i + 1 else a.generationAt i := by
  obtain ⟨node, hnode⟩ := isLive_iff.mp hid
  unfold generationAt release
  simp only [Array.getElem?_modify]
  by_cases hi : id.index = i
  · subst hi
    simp [get?_eq_some_iff.mp hnode]
  · rw [if_neg hi, if_neg fun he => hi (UInt32.toNat_inj.mp he)]

theorem generationAt_alloc (a : Arena) (kind : NodeKind) (i : UInt32) :
    (a.alloc kind).2.generationAt i = a.generationAt i := by
  unfold generationAt alloc
  split
  · simp only [Array.getElem?_modify]
    split
    · cases a.slots[i.toNat]? <;> rfl
    · rfl
  · -- a new slot starts where counting starts
    simp only [Array.getElem?_push]
    split
    · rename_i hi
      rw [hi, Array.getElem?_size]
      rfl
    · rfl

/-- A new id gets the generation that its slot has at the moment, `generationAt`. -/
theorem generation_alloc (kind : NodeKind) (hfit : (a.alloc kind).2.Fits) :
    (a.alloc kind).1.generation = a.generationAt (a.alloc kind).1.index := by
  unfold generationAt alloc at *
  split
  · rfl
  · rename_i hv
    have hindex : a.slots.size.toUInt32.toNat = a.slots.size := by
      rw [hv] at hfit
      simp only [Fits, Array.size_push] at hfit
      exact UInt32.toNat_ofNat_of_lt' hfit
    simp only [hindex, Array.getElem?_size]
    rfl

/-- One step raises the generation of slot `i` by as much as it frees that slot, modulo `2 ^ 32`. -/
theorem Logged.generationAt (h : Logged a e b) (i : UInt32) :
    b.generationAt i = a.generationAt i + UInt32.ofNat (frees i [e]) := by
  cases h with
  | make kind =>
    rw [generationAt_alloc, frees_made]
    exact (UInt32.add_zero _).symm
  | @release id hid =>
    rw [generationAt_release hid]
    by_cases hi : id.index = i
    · rw [if_pos hi]
      simp [frees_cons, Event.frees, hi]
    · rw [if_neg hi]
      simp [frees_cons, Event.frees, hi]

/-- The generation of a slot counts how often it is freed, modulo `2 ^ 32`: it goes up by
`frees i log`. -/
theorem Trace.generationAt (h : Trace a log b) (i : UInt32) :
    b.generationAt i = a.generationAt i + UInt32.ofNat (frees i log) := by
  induction h with
  | refl => exact (UInt32.add_zero _).symm
  | change f _ _ ih => rw [generationAt_modifySlot, ih]
  | step _ hstep ih =>
    rw [hstep.generationAt, ih, frees_append, UInt32.ofNat_add, UInt32.add_assoc]

/-! ### Ids along a trace -/

/-- A live node stays live in a step, or the event is `.freed id`. -/
theorem Logged.live_or_freed (h : Logged a e b) (ha : a.Accounted) (hfit : b.Fits)
    (hid : a.isLive id) : b.isLive id ∨ e = .freed id := by
  obtain ⟨node, hnode⟩ := isLive_iff.mp hid
  cases h with
  | make kind =>
    obtain ⟨hfresh, hview⟩ := get?_alloc ha kind hfit
    refine Or.inl (isLive_iff.mpr ⟨node, ?_⟩)
    rw [hview, if_neg (ne_of_dead hnode hfresh), hnode]
  | @release other hother =>
    obtain ⟨onode, honode⟩ := isLive_iff.mp hother
    by_cases he : id = other
    · exact Or.inr (by rw [he])
    · refine Or.inl (isLive_iff.mpr ⟨node, ?_⟩)
      rw [get?_release honode, if_neg he, hnode]

/-- A node that is live after a step was live before, or the event is `.made id`. -/
theorem Logged.live_or_made (h : Logged a e b) (ha : a.Accounted) (hfit : b.Fits)
    (hid : b.isLive id) : a.isLive id ∨ e = .made id := by
  obtain ⟨node, hnode⟩ := isLive_iff.mp hid
  cases h with
  | make kind =>
    obtain ⟨hfresh, hview⟩ := get?_alloc ha kind hfit
    rw [hview] at hnode
    split at hnode
    · rename_i he
      exact Or.inr (by rw [he])
    · exact Or.inl (isLive_iff.mpr ⟨node, hnode⟩)
  | @release other hother =>
    obtain ⟨onode, honode⟩ := isLive_iff.mp hother
    rw [get?_release honode] at hnode
    split at hnode
    · exact absurd hnode (by simp)
    · exact Or.inl (isLive_iff.mpr ⟨node, hnode⟩)

theorem isLive_modifySlot {node : Node} (h : a.get? id = some node) (f : Node → Node) (n : NodeId) :
    (a.modifySlot id.index f).isLive n = a.isLive n := by
  rw [isLive, get?_modifySlot h, isLive]
  split
  · rename_i hn
    rw [hn, h]
    rfl
  · rfl

/-- For a node that is gone there is `.freed id` in the log. -/
theorem Trace.live_or_freed (h : Trace a log b) (ha : a.Accounted) (hfit : b.Fits)
    (hid : a.isLive id) : b.isLive id ∨ .freed id ∈ log := by
  induction h with
  | refl => exact Or.inl hid
  | change f _ hget ih =>
    rw [isLive_modifySlot hget]
    exact ih (hfit.mono (Nat.le_of_eq (size_modifySlot _ _ f).symm))
  | step hb hstep ih =>
    rcases ih (hfit.mono hstep.size_le) with hlive | hmem
    · rcases hstep.live_or_freed (hb.accounted ha) hfit hlive with hlive | rfl
      · exact Or.inl hlive
      · exact Or.inr (List.mem_append_right _ List.mem_cons_self)
    · exact Or.inr (List.mem_append_left _ hmem)

/-- For a node that was not there before there is `.made id` in the log. -/
theorem Trace.live_or_made (h : Trace a log b) (ha : a.Accounted) (hfit : b.Fits)
    (hid : b.isLive id) : a.isLive id ∨ .made id ∈ log := by
  induction h with
  | refl => exact Or.inl hid
  | change f _ hget ih =>
    rw [isLive_modifySlot hget] at hid
    exact ih (hfit.mono (Nat.le_of_eq (size_modifySlot _ _ f).symm)) hid
  | step hb hstep ih =>
    rcases hstep.live_or_made (hb.accounted ha) hfit hid with hlive | rfl
    · refine (ih (hfit.mono hstep.size_le) hlive).imp_right fun hmem => ?_
      exact List.mem_append_left _ hmem
    · exact Or.inr (List.mem_append_right _ List.mem_cons_self)

/-- An id is handed out with the generation that its slot has:
`id.generation = a.generationAt id.index`. -/
theorem Logged.generation_made (h : Logged a (.made id) b) (hfit : b.Fits) :
    id.generation = a.generationAt id.index := by
  cases h with
  | make kind => exact generation_alloc kind hfit

/-- An id that is handed out named nothing in `a` and names a node in `b`. -/
theorem Logged.made (h : Logged a (.made id) b) (ha : a.Accounted) (hfit : b.Fits) :
    a.get? id = none ∧ b.isLive id := by
  cases h with
  | make kind =>
    obtain ⟨hfresh, hview⟩ := get?_alloc ha kind hfit
    exact ⟨hfresh, isLive_iff.mpr ⟨_, by rw [hview, if_pos rfl]⟩⟩

/-! ### Every operation is a trace -/

/-- The arena changes by steps of a trace. -/
def Traced (a b : Arena) : Prop :=
  a.Accounted → ∃ log, Trace a log b

/-- Every edit is `Traced`, by the steps that it is made of. -/
theorem editing_traced : Editing Traced where
  refl a _ := ⟨[], .refl⟩
  trans h h' ha := by
    obtain ⟨log, htrace⟩ := h ha
    obtain ⟨log', htrace'⟩ := h' (htrace.accounted ha)
    exact ⟨log ++ log', htrace.trans htrace'⟩
  alloc _ kind _ := ⟨_, Trace.refl.step (.make kind)⟩
  modify f hget _ := ⟨[], Trace.refl.change f hget⟩

/-- Freeing different live nodes one after the other has the log `ids.map .freed`. -/
theorem trace_releaseAll (ha : a.Accounted) : ∀ {ids : List NodeId}, ids.Nodup →
    (∀ id ∈ ids, a.isLive id) →
    Trace a (ids.map .freed) (ids.foldl (fun a n => a.release n.index) a) := by
  intro ids
  induction ids generalizing a with
  | nil => exact fun _ _ => .refl
  | cons id ids ih =>
    intro hnd hlive
    obtain ⟨hnot, hnd⟩ := List.nodup_cons.mp hnd
    have hfirst := Logged.release (hlive id List.mem_cons_self)
    obtain ⟨node, hnode⟩ := isLive_iff.mp (hlive id List.mem_cons_self)
    have hrest := ih (ha.release hnode) hnd fun m hm => by
      obtain ⟨mnode, hmnode⟩ := isLive_iff.mp (hlive m (List.mem_cons_of_mem _ hm))
      refine isLive_iff.mpr ⟨mnode, ?_⟩
      rw [get?_release hnode, if_neg, hmnode]
      rintro rfl
      exact hnot hm
    exact (Trace.refl.step hfirst).trans hrest

/-- In a forest, also freeing is made of such steps. -/
def SoundlyTraced (a b : Arena) : Prop :=
  a.Sound → b.Sound ∧ ∃ log, Trace a log b

/-- If both parts of `m >>= f` have traces between sound arenas, so has the whole. -/
theorem SoundlyTraced.bind {α β : Type} {m : TreeM α} {f : α → TreeM β}
    (hm : Keeps SoundlyTraced m) (hf : ∀ x, Keeps SoundlyTraced (f x)) :
    Keeps SoundlyTraced (m >>= f) := by
  refine Keeps.bind (R := SoundlyTraced) (fun h h' ha => ?_) hm hf
  obtain ⟨hb, log, htrace⟩ := h ha
  obtain ⟨hc, log', htrace'⟩ := h' hb
  exact ⟨hc, log ++ log', htrace.trans htrace'⟩

theorem soundlyTraced_refl (a : Arena) : SoundlyTraced a a :=
  fun ha => ⟨ha, [], .refl⟩

theorem soundlyTraced_get : Keeps SoundlyTraced (get : TreeM Arena) :=
  soundlyTraced_refl

/-- Freeing has a trace: that of the walk below the node, and `.freed id` at the end. -/
theorem soundlyTraced_free (id : NodeId) : Keeps SoundlyTraced (free id) := by
  intro a ha
  refine ⟨sound_free ha id, ?_⟩
  rcases free_spec ha id with ⟨-, hrun⟩ | ⟨hlive, -⟩
  · rw [stateAfter_of_error hrun]
    exact ⟨[], .refl⟩
  · obtain ⟨b, hdetached, hd, hall, hrun⟩ := exists_free_run ha hlive
    obtain ⟨log, hdetach⟩ := editing_traced.detach id a ha.accounted
    rw [stateAfter_of_ok hdetached] at hdetach
    rw [stateAfter_of_ok hrun]
    have hrest := trace_releaseAll hd.sound.accounted (ha.forest.nodup_concat_descendants id) hall
    exact ⟨_, hdetach.trans hrest⟩

theorem soundlyTraced_freeAll : ∀ ids : List NodeId, Keeps SoundlyTraced (Markup.freeAll ids)
  | [] => soundlyTraced_refl
  | id :: ids => SoundlyTraced.bind (soundlyTraced_free id) fun _ => soundlyTraced_freeAll ids

theorem soundlyTraced_freeLive : ∀ ids : List NodeId, Keeps SoundlyTraced (freeLive ids)
  | [] => soundlyTraced_refl
  | id :: ids => by
    refine SoundlyTraced.bind soundlyTraced_get fun a => ?_
    split
    · exact SoundlyTraced.bind (soundlyTraced_free id) fun _ =>
        SoundlyTraced.bind (soundlyTraced_freeLive ids) fun _ => soundlyTraced_refl
    · exact soundlyTraced_freeLive ids

/-- Every operation `op` on a sound arena has a trace. -/
theorem exists_trace (ha : a.Sound) (op : Op) : ∃ log, Trace a log (op.after a) := by
  have h := editing_traced
  cases op with
  | newElement tag attrs => exact h.create _ a ha.accounted
  | newText s => exact h.create _ a ha.accounted
  | newComment s => exact h.create _ a ha.accounted
  | newFragment => exact h.create _ a ha.accounted
  | appendChild parent child => exact h.appendChild parent child a ha.accounted
  | insertBefore parent child reference =>
    exact h.insertBefore parent child reference a ha.accounted
  | removeChild parent child => exact h.removeChild parent child a ha.accounted
  | detach id => exact h.detach id a ha.accounted
  | free id => exact (soundlyTraced_free id a ha).2
  | parse markup => exact h.buildFragment _ a ha.accounted
  | stripBlankTexts root =>
    exact (SoundlyTraced.bind soundlyTraced_get (fun _ => soundlyTraced_freeAll _) a ha).2
  | removeByTag root tag =>
    exact (SoundlyTraced.bind soundlyTraced_get (fun _ => soundlyTraced_freeLive _) a ha).2

/-! ### Runs of operations -/

/-- An arena after operations with any ids, and the ids that they handed out and freed. -/
inductive Course : List Event → Arena → Prop where
  | start : Course [] empty
  | step {log events a} (op : Op) : Course log a → Trace a events (op.after a) →
    Course (log ++ events) (op.after a)
  | copy {log events a source} (id : NodeId) : Course log a → Reachable source →
    Trace a events (stateAfter (copyFrom source id) a) →
    Course (log ++ events) (stateAfter (copyFrom source id) a)

/-- A course of operations has a trace from the `empty` arena, with the log of the course. -/
theorem Course.trace (h : Course log a) : Trace empty log a := by
  induction h with
  | start => exact .refl
  | step op _ hstep ih => exact ih.trans hstep
  | copy id _ _ hstep ih => exact ih.trans hstep

theorem Course.reachable (h : Course log a) (hfit : a.Fits) : Reachable a := by
  induction h with
  | start => exact .empty
  | step op _ hstep ih => exact .step op (ih (hfit.mono hstep.size_le)) hfit
  | copy id _ hsource hstep ih => exact .copy id (ih (hfit.mono hstep.size_le)) hsource hfit

/-- Any operation `op` can come next, with `events` at the end of the log. -/
theorem Course.exists_step (h : Course log a) (hfit : a.Fits) (op : Op) :
    ∃ events, Course (log ++ events) (op.after a) := by
  obtain ⟨events, hstep⟩ := exists_trace (h.reachable hfit).sound op
  exact ⟨events, h.step op hstep⟩

/-- So can a copy out of another arena. -/
theorem Course.exists_copy {source : Arena} (h : Course log a) (hsource : Reachable source)
    (id : NodeId) : ∃ events, Course (log ++ events) (stateAfter (copyFrom source id) a) := by
  obtain ⟨events, hstep⟩ := editing_traced.copyFrom source id a (h.trace.accounted accounted_empty)
  exact ⟨events, h.copy id hsource hstep⟩

/-- The log is complete: a live node's id was handed out, `.made id ∈ log`. -/
theorem Course.made_of_live (h : Course log a) (hfit : a.Fits) (hid : a.isLive id) :
    .made id ∈ log := by
  refine (h.trace.live_or_made accounted_empty hfit hid).resolve_left fun hnone => ?_
  rw [isLive, get?_empty] at hnone
  exact absurd hnone (by simp)

/-! ### Ids and slots -/

/-- A count that is back where it started did not move, or went all the way round: less than
`2 ^ 32` steps are none. -/
theorem eq_zero_of_add_ofNat {g : UInt32} {n : Nat} (h : g + UInt32.ofNat n = g)
    (hn : n < 2 ^ 32) : n = 0 := by
  have hzero : UInt32.ofNat n = 0 := by
    rw [← UInt32.add_zero g] at h
    simpa using h
  rw [← UInt32.toNat_inj, UInt32.toNat_ofNat_of_lt' hn] at hzero
  exact hzero

/-- Right after `.made id` in a log, the generation of `id` is that of its slot. -/
theorem Trace.generation_made (h : Trace a (log ++ .made id :: log') c) (hfit : c.Fits) :
    ∃ b b', Trace a log b ∧ Logged b (.made id) b' ∧ Trace b' log' c ∧ b'.Fits ∧
      b'.generationAt id.index = id.generation := by
  obtain ⟨b, b', hpre, hmade, hpost⟩ := h.split rfl
  have hfit := hfit.mono hpost.size_le
  refine ⟨b, b', hpre, hmade, hpost, hfit, ?_⟩
  rw [hmade.generation_made hfit, hmade.generationAt]
  exact UInt32.add_zero _

/-- An id that was handed out and freed since names nothing, while its slot was freed less than
`2 ^ 32` times. -/
theorem Trace.get?_of_freed (h : Trace a (log ++ .made id :: log') c) (hfit : c.Fits)
    (hfreed : .freed id ∈ log') (hbound : frees id.index log' < 2 ^ 32) : c.get? id = none := by
  obtain ⟨b, b', -, -, hpost, -, hgeneration⟩ := h.generation_made hfit
  cases hget : c.get? id with
  | none => rfl
  | some node =>
    -- the slot has the id's generation again, though it was freed
    have hcount := hpost.generationAt id.index
    rw [generationAt_of_get? hget, hgeneration] at hcount
    have hpos := frees_pos hfreed
    have hzero := eq_zero_of_add_ofNat hcount.symm hbound
    omega

/-- Ids handed out one after the other are different, while the slot of the first one was freed less
than `2 ^ 32` times in between. -/
theorem Trace.ne_of_made {id' : NodeId} {between : List Event}
    (h : Trace a (log ++ .made id :: (between ++ .made id' :: log')) c) (ha : a.Accounted)
    (hfit : c.Fits) (hbound : frees id.index between < 2 ^ 32) : id ≠ id' := by
  rintro rfl
  obtain ⟨b, b₁, hpre, hfirst, hrest, -, hgeneration⟩ := h.generation_made hfit
  obtain ⟨b₂, b₃, hbetween, hsecond, -, hfit₃, hgeneration'⟩ := hrest.generation_made hfit
  have hfit₂ : b₂.Fits := hfit₃.mono hsecond.size_le
  have hacc₁ : b₁.Accounted := hfirst.accounted (hpre.accounted ha)
  have hlive₁ := (hfirst.made (hpre.accounted ha) (hfit₂.mono hbetween.size_le)).2
  have hdead₂ := (hsecond.made (hbetween.accounted hacc₁) hfit₃).1
  -- the node that had the id first is gone, so its slot was freed
  have hfreed : .freed id ∈ between := by
    refine (hbetween.live_or_freed hacc₁ hfit₂ hlive₁).resolve_left ?_
    exact not_live_of_dead hdead₂
  have hcount := hbetween.generationAt id.index
  rw [hgeneration, ← hsecond.generation_made hfit₃] at hcount
  have hpos := frees_pos hfreed
  have hzero := eq_zero_of_add_ofNat hcount.symm hbound
  omega

/-- **Stale ids name nothing.** After any operations with any ids: an id that was handed out and
whose node was freed resolves to nothing, however often its slot was used again, and ids handed out
with different nodes are different, as long as the slot was freed less than `2 ^ 32` times since. -/
theorem stale_ids_of_course (h : Course log a) (hfit : a.Fits) :
    (∀ before id after, log = before ++ .made id :: after → .freed id ∈ after →
      frees id.index after < 2 ^ 32 →
      a.isLive id = false ∧ a.kind? id = none ∧ a.parent? id = none ∧ a.children id = []) ∧
    ∀ before id between id' after, log = before ++ .made id :: (between ++ .made id' :: after) →
      frees id.index between < 2 ^ 32 → id ≠ id' := by
  constructor
  · rintro before id after rfl hfreed hbound
    have hdead := h.trace.get?_of_freed hfit hfreed hbound
    refine ⟨by rw [isLive, hdead]; rfl, by rw [kind?, hdead]; rfl, parent?_of_dead hdead,
      children_of_dead hdead⟩
  · rintro before id between id' after rfl hbound
    exact h.trace.ne_of_made accounted_empty hfit hbound

/-- A text is made, freed and followed by a comment in its slot: the id of the text is stale, and it
is not that of the comment. -/
theorem stale_ids_once_reused :
    ((Op.newComment "y").after (release ((Op.newText "x").after empty) 0)).isLive ⟨0, 0⟩ = false ∧
    (⟨0, 0⟩ : NodeId) ≠ ⟨0, 1⟩ := by
  have hmade : Course [.made ⟨0, 0⟩] ((Op.newText "x").after empty) :=
    Course.start.step (.newText "x") (Trace.refl.step (.make _))
  have hfreed : Course [.made ⟨0, 0⟩, .freed ⟨0, 0⟩] (release ((Op.newText "x").after empty) 0) :=
    hmade.step (.free ⟨0, 0⟩) (Trace.refl.step (@Logged.release _ ⟨0, 0⟩ (by decide)))
  have hreused : Course [.made ⟨0, 0⟩, .freed ⟨0, 0⟩, .made ⟨0, 1⟩]
      ((Op.newComment "y").after (release ((Op.newText "x").after empty) 0)) :=
    hfreed.step (.newComment "y") (Trace.refl.step (.make _))
  obtain ⟨hstale, hne⟩ := stale_ids_of_course hreused (by decide)
  exact ⟨(hstale [] ⟨0, 0⟩ _ rfl (by decide) (by decide)).1,
    hne [] ⟨0, 0⟩ [.freed ⟨0, 0⟩] ⟨0, 1⟩ [] rfl (by decide)⟩

end Inlay.Arena
