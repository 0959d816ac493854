import Inlay.Text.Ascii

/-!
# Words

A word of a text is a run of characters without white space that the run cannot be extended in
either direction (`IsWord`). `wordsOf` finds all of them and nothing else: `mem_wordsOf_iff`.
-/

namespace Inlay.Text

/-- `w` stands somewhere in the text, has no white space inside, and has white space or nothing on
both sides. -/
structure IsWord (text w : List Char) : Prop where
  ne_nil : w ≠ []
  solid : ∀ c ∈ w, isAsciiSpace c = false
  delimited : ∃ pre post, text = pre ++ (w ++ post) ∧
    (∀ c ∈ pre.getLast?, isAsciiSpace c = true) ∧ ∀ c ∈ post.head?, isAsciiSpace c = true

variable {w run text : List Char}

/-- A `run` without spaces that a space follows, or nothing, is what is taken up to the next
space. -/
theorem takeWhile_solid (hsolid : ∀ c ∈ run, isAsciiSpace c = false) {post : List Char}
    (hpost : ∀ c ∈ post.head?, isAsciiSpace c = true) :
    (run ++ post).takeWhile (!isAsciiSpace ·) = run := by
  rw [List.takeWhile_append_of_pos fun c hc => by rw [hsolid c hc, Bool.not_false]]
  cases post with
  | nil => rw [List.takeWhile_nil, List.append_nil]
  | cons c post =>
    rw [List.takeWhile_cons_of_neg, List.append_nil]
    rw [hpost c rfl]
    exact Bool.false_ne_true

theorem isWord_cons_of_space {c : Char} (hc : isAsciiSpace c = true) :
    IsWord (c :: text) w ↔ IsWord text w := by
  constructor
  · rintro ⟨hne, hsolid, pre, post, htext, hpre, hpost⟩
    cases pre with
    | nil =>
      -- the word would begin with the white space
      obtain ⟨d, w, rfl⟩ := List.exists_cons_of_ne_nil hne
      obtain ⟨rfl, -⟩ := List.cons.inj htext
      rw [hsolid c List.mem_cons_self] at hc
      exact absurd hc Bool.false_ne_true
    | cons d pre =>
      refine ⟨hne, hsolid, pre, post, (List.cons.inj htext).2, fun x hx => hpre x ?_, hpost⟩
      rw [List.getLast?_cons, hx]
      rfl
  · rintro ⟨hne, hsolid, pre, post, rfl, hpre, hpost⟩
    refine ⟨hne, hsolid, c :: pre, post, rfl, fun x hx => ?_, hpost⟩
    rw [List.getLast?_cons] at hx
    cases hlast : pre.getLast? with
    | none =>
      rw [hlast] at hx
      obtain rfl : c = x := by simpa using hx
      exact hc
    | some y =>
      rw [hlast] at hx
      obtain rfl : y = x := by simpa using hx
      exact hpre y hlast

/-- A `run` without spaces at the front is a word, and all others come behind it. -/
theorem isWord_append_iff (hrun : run ≠ []) (hsolid : ∀ c ∈ run, isAsciiSpace c = false)
    (htext : ∀ c ∈ text.head?, isAsciiSpace c = true) :
    IsWord (run ++ text) w ↔ w = run ∨ IsWord text w := by
  constructor
  · rintro ⟨hne, hw, pre, post, heq, hpre, hpost⟩
    rcases List.eq_nil_or_concat pre with rfl | ⟨pre, x, rfl⟩
    · left
      rw [List.nil_append] at heq
      rw [← takeWhile_solid hw hpost, ← heq, takeWhile_solid hsolid htext]
    · right
      rw [List.concat_eq_append] at heq hpre
      have hx : isAsciiSpace x = true := hpre x List.getLast?_concat
      have hnot : x ∉ run := fun hmem => by
        rw [hsolid x hmem] at hx
        exact Bool.false_ne_true hx
      rcases List.append_eq_append_iff.mp heq with ⟨mid, hmid, rfl⟩ | ⟨mid, rfl, -⟩
      · refine ⟨hne, hw, mid, post, rfl, fun c hc => hpre c ?_, hpost⟩
        rw [hmid, List.getLast?_append, hc]
        rfl
      · exact absurd (by simp) hnot
  · rintro (rfl | ⟨hne, hw, pre, post, rfl, hpre, hpost⟩)
    · exact ⟨hrun, hsolid, [], text, rfl, by simp, htext⟩
    · refine ⟨hne, hw, run ++ pre, post, (List.append_assoc ..).symm, fun c hc => ?_, hpost⟩
      cases pre with
      | nil =>
        -- what follows the run begins with white space, so the word does not
        obtain ⟨d, w, rfl⟩ := List.exists_cons_of_ne_nil hne
        have hd : isAsciiSpace d = true := htext d rfl
        rw [hw d List.mem_cons_self] at hd
        exact absurd hd Bool.false_ne_true
      | cons d pre =>
        refine hpre c ?_
        rw [List.getLast?_append] at hc
        cases hlast : (d :: pre).getLast? with
        | none => exact absurd hlast (by simp)
        | some y =>
          rw [hlast] at hc
          exact hc

theorem head?_dropWhile_space (cs : List Char) :
    ∀ c ∈ (cs.dropWhile (!isAsciiSpace ·)).head?, isAsciiSpace c = true := by
  intro c hc
  have h := List.head?_dropWhile_not (!isAsciiSpace ·) cs
  rw [Option.mem_def.mp hc] at h
  simpa using h

/-- Cutting a text at its spaces gives all `w` with `IsWord text w`, its longest runs without
spaces. -/
theorem mem_wordsOf_iff : w ∈ wordsOf text ↔ IsWord text w := by
  induction text using wordsOf.induct with
  | case1 =>
    rw [wordsOf]
    refine iff_of_false List.not_mem_nil ?_
    rintro ⟨hne, -, pre, post, heq, -⟩
    rw [List.nil_eq_append_iff, List.append_eq_nil_iff] at heq
    exact hne heq.2.1
  | case2 c cs hc ih => rw [wordsOf, if_pos hc, ih, isWord_cons_of_space hc]
  | case3 c cs hc ih =>
    have hsolid : ∀ d ∈ c :: cs.takeWhile (!isAsciiSpace ·), isAsciiSpace d = false := by
      rw [List.forall_mem_cons]
      refine ⟨by simpa using hc, fun d hd => ?_⟩
      have hall := List.all_eq_true.mp (List.all_takeWhile (p := fun c => !isAsciiSpace c)) d hd
      simpa using hall
    rw [wordsOf, if_neg hc, List.mem_cons, ih,
      ← isWord_append_iff (List.cons_ne_nil c _) hsolid (head?_dropWhile_space cs),
      List.cons_append, List.takeWhile_append_dropWhile]

/-- The test for a class finds a `word` of the attribute's value, and no parts of words. -/
theorem hasWord_iff {text word : String} :
    hasWord text word = true ↔ IsWord text.toList word.toList := by
  rw [hasWord, List.contains_iff_mem, mem_wordsOf_iff]

end Inlay.Text
