import Inlay.Proofs.Template.Attributes
import Inlay.Proofs.Template.Root
import Mathlib.Data.List.Forall2
import Mathlib.Data.List.Nodup

/-!
# Compiled templates

What holds of every template that `compile` gives: its placeholders have ascending positions, those
that fire once only have a trigger, and one that is the whole template has none.
-/

namespace Inlay

/-! ### One placeholder -/

/-- Reading an element as a placeholder keeps to these rules. -/
structure Placeholder.Read (position : Position) (single : Bool) (x : Placeholder) : Prop where
  position_eq : x.position = position
  deferred_of_one : x.mode = .one → x.isDeferred = true
  immediate : single = true → x.isDeferred = false

namespace Placeholder

theorem read_ofElement {e : Element} {position : Position} {single : Bool} {x : Placeholder}
    (h : ofElement e position single = .ok x) : x.Read position single := by
  obtain ⟨hposition, hread⟩ := ofElement_ok_iff.mp h
  rcases hread.trigger with ⟨htrigger, -, hattribute⟩ | ⟨hsingle, t, value, htrigger, -⟩
  · have hall : x.mode = .all := by
      have hmode := hread.mode
      rwa [hattribute] at hmode
    refine ⟨hposition, fun hone => ?_, fun _ => ?_⟩
    · rw [hall] at hone
      exact absurd hone (by simp)
    · rw [isDeferred, htrigger, Option.isSome_none]
  · refine ⟨hposition, fun _ => ?_, fun htrue => ?_⟩
    · rw [isDeferred, htrigger, Option.isSome_some]
    · rw [hsingle] at htrue
      exact absurd htrue (by simp)

end Placeholder

namespace Template

variable {a : Arena} {ds ds' : List Diagnostic}

theorem ok_of_check {α : Type} {m : Except TemplateError α} {x : α}
    (h : (check m).run ds = .ok x ds') : m = .ok x := by
  cases m with
  | error e => exact absurd h (run_throw_ne_ok _ _ _ _)
  | ok y =>
    injection h with he
    rw [he]

/-- An element passes as a placeholder: no other one lies in it, and its attributes are read as
`x`. -/
structure Examined (a : Arena) (single : Bool) (position : Position) (id : NodeId)
    (x : Placeholder) : Prop where
  unnested : (a.descendants id).any (isPlaceholder a) = false
  exists_element : ∃ e, a.element? id = some e ∧ Placeholder.ofElement e position single = .ok x

theorem Examined.read {single : Bool} {position : Position} {id : NodeId} {x : Placeholder}
    (h : Examined a single position id x) : x.Read position single := by
  obtain ⟨e, -, he⟩ := h.exists_element
  exact Placeholder.read_ofElement he

/-- Whatever `ds` have been reported before, an element passes as the placeholder that it is read
as. -/
theorem examineAt_ok_iff (ds : List Diagnostic) {single : Bool} {position : Position} {id : NodeId}
    {x : Placeholder} : (∃ ds', (examineAt a single position id).run ds = .ok x ds') ↔
      Examined a single position id x := by
  unfold examineAt
  constructor
  · rintro ⟨ds', h⟩
    by_cases hnested : (a.descendants id).any (isPlaceholder a) = true
    · simp only [if_pos hnested] at h
      obtain ⟨_, _, hthrow, -⟩ := exists_of_run_bind_eq_ok h
      exact absurd hthrow (run_throw_ne_ok _ _ _ _)
    · simp only [if_neg hnested] at h
      cases he : a.element? id with
      | none =>
        rw [he] at h
        exact absurd h (run_throw_ne_ok _ _ _ _)
      | some e =>
        rw [he] at h
        obtain ⟨_, _, -, h⟩ := exists_of_run_bind_eq_ok h
        exact ⟨Bool.eq_false_iff.mpr hnested, e, he, ok_of_check h⟩
  · rintro ⟨hnested, e, he, hread⟩
    rw [if_neg (by rw [hnested]; simp), he]
    refine ⟨ds ++ Placeholder.unknownAttributes e, ?_⟩
    simp only [Placeholder.examine, hread]
    rfl

/-- The elements `found` pass if each of them does, and `xs` come of them in the same order. -/
theorem examineAll_ok_iff : ∀ (ds : List Diagnostic) {found : List (Position × NodeId)}
    {xs : List Placeholder}, (∃ ds', (examineAll a found).run ds = .ok xs ds') ↔
      List.Forall₂ (fun y x => Examined a false y.1 y.2 x) found xs
  | ds, [], xs => by
    rw [List.forall₂_nil_left_iff]
    constructor
    · rintro ⟨ds', h⟩
      injection h with he
      exact he.symm
    · rintro rfl
      exact ⟨ds, rfl⟩
  | ds, (position, id) :: found, xs => by
    unfold examineAll
    rw [List.forall₂_cons_left_iff]
    constructor
    · rintro ⟨ds', h⟩
      obtain ⟨x, ds₁, hfirst, h⟩ := exists_of_run_bind_eq_ok h
      obtain ⟨rest, ds₂, hrest, h⟩ := exists_of_run_bind_eq_ok h
      injection h with he
      exact ⟨x, rest, (examineAt_ok_iff _).mp ⟨ds₁, hfirst⟩, (examineAll_ok_iff _).mp ⟨ds₂, hrest⟩,
        he.symm⟩
    · rintro ⟨x, rest, hfirst, hrest, rfl⟩
      obtain ⟨ds₁, hfirst⟩ := (examineAt_ok_iff ds).mpr hfirst
      obtain ⟨ds₂, hrest⟩ := (examineAll_ok_iff ds₁).mpr hrest
      exact ⟨ds₂, by rw [run_bind_of_ok hfirst, run_bind_of_ok hrest]; rfl⟩

/-! ### The root -/

/-- The root of a template stands in an arena that is `Sound`. -/
theorem sound_canonicalRoot {source : String} {root : NodeId}
    (h : canonicalRoot source = .ok (root, a)) (hfit : a.Fits) : a.Sound := by
  obtain ⟨r, -, hplanted⟩ := planted_canonicalRoot h hfit
  exact hplanted.sound

/-! ### Positions -/

/-- Elements are numbered one after the other, from `next` on. -/
theorem pairwise_pickPlaceholders (a : Arena) : ∀ (fuel next : Nat) (agenda : List NodeId),
    ((pickPlaceholders a fuel next agenda).map (·.1)).Pairwise (· < ·) ∧
      ∀ x ∈ pickPlaceholders a fuel next agenda, next ≤ x.1
  | 0, _, _ => ⟨List.Pairwise.nil, fun _ hx => absurd hx List.not_mem_nil⟩
  | _ + 1, _, [] => ⟨List.Pairwise.nil, fun _ hx => absurd hx List.not_mem_nil⟩
  | fuel + 1, next, id :: agenda => by
    unfold pickPlaceholders
    split
    · obtain ⟨hpairwise, hbound⟩ := pairwise_pickPlaceholders a fuel (next + 1) agenda
      refine ⟨List.pairwise_cons.mpr ⟨fun p hp => ?_, hpairwise⟩, fun x hx => ?_⟩
      · obtain ⟨x, hx, rfl⟩ := List.mem_map.mp hp
        exact hbound x hx
      · rcases List.mem_cons.mp hx with rfl | hx
        · exact Nat.le_refl next
        · exact Nat.le_of_succ_le (hbound x hx)
    · obtain ⟨hpairwise, hbound⟩ :=
        pairwise_pickPlaceholders a fuel (next + 1) (a.elementChildren id ++ agenda)
      exact ⟨hpairwise, fun x hx => Nat.le_of_succ_le (hbound x hx)⟩

/-! ### The template -/

/-- The placeholder elements of a tree with their positions: its root, or those below. -/
def elements (a : Arena) (root : NodeId) : List (Position × NodeId) :=
  if isPlaceholder a root then [(0, root)] else placeholdersBelow a root

/-- A template is what `compile` makes of a source. -/
structure Compiled (source : String) (t : Template) : Prop where
  nonempty : source.isEmpty = false
  root_eq : canonicalRoot source = .ok (t.root, t.arena)
  single_eq : t.single = isPlaceholder t.arena t.root
  elements_ne : elements t.arena t.root ≠ []
  examined : List.Forall₂ (fun y x => Examined t.arena t.single y.1 y.2 x)
    (elements t.arena t.root) t.placeholders

theorem compiled_compile {source : String} {t : Template}
    (h : (compile source).run ds = .ok t ds') : Compiled source t := by
  unfold compile at h
  by_cases hempty : source.isEmpty = true
  · simp only [if_pos hempty] at h
    obtain ⟨_, _, hthrow, -⟩ := exists_of_run_bind_eq_ok h
    exact absurd hthrow (run_throw_ne_ok _ _ _ _)
  · simp only [if_neg hempty] at h
    rw [Bool.not_eq_true] at hempty
    obtain ⟨⟨root, a⟩, ds₁, hroot, h⟩ := exists_of_run_bind_eq_ok h
    have hcanonical := ok_of_check hroot
    simp only at h
    split at h
    · -- The root is the one placeholder.
      rename_i hplaceholder
      have helements : elements a root = [(0, root)] := if_pos hplaceholder
      obtain ⟨x, ds₂, hx, h⟩ := exists_of_run_bind_eq_ok h
      injection h with he
      subst he
      refine ⟨hempty, hcanonical, hplaceholder.symm, ?_, ?_⟩
      · simp [helements]
      · rw [helements]
        exact .cons ((examineAt_ok_iff _).mp ⟨ds₂, hx⟩) .nil
    · -- The placeholders are looked for below the root, and there must be one.
      rename_i hplaceholder
      have helements : elements a root = placeholdersBelow a root := if_neg hplaceholder
      rw [Bool.not_eq_true] at hplaceholder
      split at h
      · exact absurd h (run_throw_ne_ok _ _ _ _)
      · rename_i hfound
        obtain ⟨xs, ds₂, hxs, h⟩ := exists_of_run_bind_eq_ok h
        injection h with he
        subst he
        refine ⟨hempty, hcanonical, hplaceholder.symm, ?_, ?_⟩
        · rwa [helements]
        · rw [helements]
          exact (examineAll_ok_iff _).mp ⟨ds₂, hxs⟩

/-- Whatever has been reported before, `compile` gives just these templates. -/
theorem compile_ok_iff {source : String} {t : Template} :
    (∃ ds', (compile source).run ds = .ok t ds') ↔ Compiled source t := by
  refine ⟨fun ⟨ds', h⟩ => compiled_compile h, fun h => ?_⟩
  obtain ⟨a, root, single, placeholders⟩ := t
  obtain ⟨hempty, hcanonical, hsingle, hne, hexamined⟩ := h
  simp only [elements] at hempty hcanonical hsingle hne hexamined
  unfold compile
  rw [if_neg (by rw [hempty]; simp), hcanonical]
  -- The elements listed are those that `compile` examines in either case.
  cases hplaceholder : isPlaceholder a root with
  | true =>
    rw [hplaceholder] at hsingle hexamined
    subst hsingle
    obtain ⟨x, rest, hx, hrest, rfl⟩ := List.forall₂_cons_left_iff.mp hexamined
    obtain rfl := List.forall₂_nil_left_iff.mp hrest
    obtain ⟨ds₁, hrun⟩ := (examineAt_ok_iff ds).mpr hx
    refine ⟨ds₁, ?_⟩
    simp only [check, pure_bind, if_pos hplaceholder]
    rw [run_bind_of_ok hrun]
    rfl
  | false =>
    rw [hplaceholder] at hsingle hexamined hne
    subst hsingle
    rw [if_neg (by simp)] at hne hexamined
    obtain ⟨ds₁, hrun⟩ := (examineAll_ok_iff ds).mpr hexamined
    refine ⟨ds₁, ?_⟩
    simp only [check, pure_bind, hplaceholder]
    rw [if_neg (by simp), run_bind_of_ok hrun]
    rfl

/-- Where `xs` and `ys` agree one by one, each element of `ys` has its partner in `xs`. -/
theorem exists_of_mem_forall₂ {α β : Type} {R : α → β → Prop} {xs : List α} {ys : List β}
    (h : List.Forall₂ R xs ys) {y : β} (hy : y ∈ ys) : ∃ x ∈ xs, R x y := by
  induction h with
  | nil => exact absurd hy List.not_mem_nil
  | @cons x z xs ys hxz _ ih =>
    rcases List.mem_cons.mp hy with rfl | hy
    · exact ⟨x, List.mem_cons_self, hxz⟩
    · obtain ⟨x', hx', hR⟩ := ih hy
      exact ⟨x', List.mem_cons_of_mem x hx', hR⟩

namespace Compiled

variable {source : String} {t : Template}

/-- Each placeholder is read off its element, which stands at `x.position`. -/
theorem exists_examined (h : Compiled source t) {x : Placeholder} (hx : x ∈ t.placeholders) :
    ∃ id, (x.position, id) ∈ elements t.arena t.root ∧
      Examined t.arena t.single x.position id x := by
  obtain ⟨⟨position, id⟩, hmem, hexamined⟩ := exists_of_mem_forall₂ h.examined hx
  obtain rfl : x.position = position := hexamined.read.position_eq
  exact ⟨id, hmem, hexamined⟩

theorem read (h : Compiled source t) {x : Placeholder} (hx : x ∈ t.placeholders) :
    x.Read x.position t.single := by
  obtain ⟨id, -, hexamined⟩ := h.exists_examined hx
  exact hexamined.read

theorem map_position (h : Compiled source t) :
    t.placeholders.map (·.position) = (elements t.arena t.root).map (·.1) := by
  have hsame : List.Forall₂ (fun y x => y.1 = x.position)
      (elements t.arena t.root) t.placeholders :=
    h.examined.imp fun y x hx => hx.read.position_eq.symm
  rw [← List.forall₂_map_right_iff, ← List.forall₂_map_left_iff, List.forall₂_eq_eq_eq] at hsame
  exact hsame.symm

/-- A placeholder with `mode = .one` has a trigger. -/
theorem deferred_of_one (h : Compiled source t) :
    ∀ x ∈ t.placeholders, x.mode = .one → x.isDeferred = true :=
  fun _ hx => (h.read hx).deferred_of_one

/-- With `single = false` the root is no placeholder, and the positions are those found below it. -/
theorem positions (h : Compiled source t) (hsingle : t.single = false) :
    isPlaceholder t.arena t.root = false ∧
      t.placeholders.map (·.position) = (placeholdersBelow t.arena t.root).map (·.1) := by
  have hnot := h.single_eq.symm.trans hsingle
  refine ⟨hnot, ?_⟩
  rw [h.map_position, elements, hnot, if_neg (by simp)]

/-- With `single = true` there is one placeholder, which is not deferred. -/
theorem single (h : Compiled source t) (hsingle : t.single = true) :
    ∃ x, t.placeholders = [x] ∧ x.isDeferred = false := by
  have hpositions := h.map_position
  rw [elements, if_pos (h.single_eq.symm.trans hsingle), List.map_singleton,
    List.map_eq_singleton_iff] at hpositions
  obtain ⟨x, hx, -⟩ := hpositions
  exact ⟨x, hx, (h.read (hx ▸ List.mem_singleton_self x)).immediate hsingle⟩

/-- The positions of the placeholders ascend, `(· < ·)`. -/
theorem ascending (h : Compiled source t) :
    (t.placeholders.map (·.position)).Pairwise (· < ·) := by
  rw [h.map_position, elements]
  split
  · exact List.pairwise_singleton _ 0
  · exact (pairwise_pickPlaceholders _ _ _ _).1

theorem nodup (h : Compiled source t) : (t.placeholders.map (·.position)).Nodup :=
  h.ascending.imp Nat.ne_of_lt

/-- A template has placeholders, so `t.root` is a node with a tag or with children. -/
theorem isLive_root (h : Compiled source t) : t.arena.isLive t.root := by
  by_contra hdead
  rw [Arena.isLive, Bool.not_eq_true, Option.isSome_eq_false_iff,
    Option.isNone_iff_eq_none] at hdead
  have hnot : isPlaceholder t.arena t.root = false := by
    rw [isPlaceholder, Arena.tag?, Arena.element?, Arena.kind?, hdead]
    rfl
  -- without children there is nothing to find
  refine h.elements_ne ?_
  rw [elements, hnot, if_neg (by simp), placeholdersBelow, Arena.elementChildren, Arena.children,
    hdead]
  cases t.arena.slots.size <;> rfl

end Compiled

end Template

end Inlay
