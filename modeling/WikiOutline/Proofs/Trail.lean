/-
# Paragraphs behind stray exits

A build takes a paragraph into the heading before it when it comes right behind that
heading, or behind nothing but stray exits.  Which paragraphs these are can be told from
left to right (`Trail`), and so can the page in which each of them comes before those
exits (`Trail.folded`).  It is the page itself just when no paragraph is taken behind a
stray exit (`Trail.folded_eq`, `Trail.folded_ne`).

Key definitions: `Outline.isStray`, `Outline.Trail`, `Trail.folded`, `Trail.Folds`.
Key theorems: `Trail.coming_cases`, `Trail.perm_folded`, `Trail.folded_eq`,
`Trail.folded_ne`.
-/
import WikiOutline.Proofs.Growth

namespace WikiOutline

namespace Outline

open Builder Reading

/-! ### Reading a page up to a paragraph -/

/-- A heading of the outline that begins nothing: outside of headings it is stray. -/
def isStray (c : Call) : Bool :=
  isOutlineHeading c && !(c.state == .enter || c.state == .special)

theorem isOutlineHeading_of_isStray {c : Call} (h : isStray c = true) :
    isOutlineHeading c = true := by
  rw [isStray, Bool.and_eq_true] at h
  exact h.1

theorem isStray_of_isParagraph {c : Call} (h : c.tag.isParagraph = true) : isStray c = false := by
  rw [isStray, isOutlineHeading_of_isParagraph h, Bool.false_and]

theorem starts_of_isStray (r : Reading) {c : Call} (h : isStray c = true) : r.starts c = false := by
  rw [isStray, Bool.and_eq_true, Bool.not_eq_true'] at h
  rw [Reading.starts, h.2, Bool.and_false]

/-- How far a page has been read, and whether a paragraph that comes now is taken into
the heading before. -/
structure Trail where
  reading : Reading := {}
  /-- The heading begun last is not of block syntax. -/
  inline : Bool := false
  /-- Such a heading was closed, and only stray exits came behind it. -/
  absorbing : Bool := false

namespace Trail

/-- Reads one call. -/
def after (t : Trail) (c : Call) : Trail :=
  if t.reading.starts c then
    let inline := !(c.headingSyntax?.getD .block).isBlock
    { reading := t.reading.after c, inline, absorbing := c.state == .special && inline }
  else if t.reading.depth = 0 then { t with absorbing := t.absorbing && isStray c }
  else
    { t with
      reading := t.reading.after c
      absorbing := (t.reading.after c).depth == 0 && t.inline }

/-- The page behind some stray exits that are pending, with every paragraph that is taken
into a heading before the exits behind that heading. -/
def folded : Trail → List Call → List Call → List Call
  | _, strays, [] => strays
  | t, strays, c :: cs =>
    if t.absorbing && isStray c then folded (t.after c) (strays ++ [c]) cs
    else if t.absorbing && absorbs c cs.head? then
      match c.isEnter, cs with
      | true, n :: rest => c :: n :: (strays ++ folded ((t.after c).after n) [] rest)
      | _, cs => c :: (strays ++ folded (t.after c) [] cs)
    else strays ++ c :: folded (t.after c) [] cs

/-- Only outside of headings a paragraph is taken. -/
def Outside (t : Trail) : Prop := t.absorbing = true → t.reading.depth = 0

variable {t : Trail} {c n : Call} {strays cs rest : List Call}

theorem reading_after (t : Trail) (c : Call) : (t.after c).reading = t.reading.after c := by
  unfold after
  by_cases hs : t.reading.starts c = true
  · rw [if_pos hs]
  · rw [if_neg hs]
    have hs : t.reading.starts c = false := by simpa using hs
    by_cases hd : t.reading.depth = 0
    · rw [if_pos hd, after_of_outside hs hd]
    · rw [if_neg hd]

theorem reading_foldl (t : Trail) (cs : List Call) :
    (cs.foldl after t).reading = cs.foldl Reading.after t.reading := by
  induction cs generalizing t with
  | nil => rfl
  | cons c cs ih => rw [List.foldl_cons, List.foldl_cons, ih, reading_after]

theorem outside_after (t : Trail) (c : Call) : (t.after c).Outside := by
  intro ha
  rw [reading_after]
  unfold Trail.after at ha
  by_cases hs : t.reading.starts c = true
  · rw [if_pos hs] at ha
    simp only [Bool.and_eq_true, beq_iff_eq] at ha
    rw [Reading.after, if_pos hs, ha.1]
    rfl
  · rw [if_neg hs] at ha
    have hs : t.reading.starts c = false := by simpa using hs
    by_cases hd : t.reading.depth = 0
    · rw [after_of_outside hs hd, hd]
    · rw [if_neg hd] at ha
      simp only [Bool.and_eq_true, beq_iff_eq] at ha
      exact ha.1

/-- Outside of headings, a call that begins nothing changes at most what is taken. -/
theorem after_outside (hs : t.reading.starts c = false) (hd : t.reading.depth = 0) :
    t.after c = { t with absorbing := t.absorbing && isStray c } := by
  unfold after
  rw [hs, if_neg Bool.false_ne_true, if_pos hd]

theorem after_stray (ht : t.Outside) (ha : t.absorbing = true) (hc : isStray c = true) :
    t.after c = t := by
  rw [after_outside (starts_of_isStray _ hc) (ht ha), hc, Bool.and_true]

theorem after_start (hs : t.reading.starts c = true) :
    t.after c = ⟨t.reading.after c, !(c.headingSyntax?.getD .block).isBlock,
      c.state == .special && !(c.headingSyntax?.getD .block).isBlock⟩ := if_pos hs

theorem after_inside (hd : t.reading.depth ≠ 0) :
    t.after c = { t with
      reading := t.reading.after c
      absorbing := (t.reading.after c).depth == 0 && t.inline } := by
  unfold after
  rw [starts_of_depth hd, if_neg Bool.false_ne_true, if_neg hd]

theorem after_paragraph (hd : t.reading.depth = 0) (hp : c.tag.isParagraph = true) :
    t.after c = { t with absorbing := false } := by
  rw [after_outside (starts_of_not_heading _ (isOutlineHeading_of_isParagraph hp)) hd,
    isStray_of_isParagraph hp, Bool.and_false]

/-! ### What is moved -/

theorem folded_stray (ha : t.absorbing = true) (hc : isStray c = true) :
    folded t strays (c :: cs) = folded (t.after c) (strays ++ [c]) cs := by
  conv_lhs => unfold folded
  rw [ha, hc]
  rfl

theorem folded_keep (hc : (t.absorbing && isStray c) = false)
    (ha : (t.absorbing && absorbs c cs.head?) = false) :
    folded t strays (c :: cs) = strays ++ c :: folded (t.after c) [] cs := by
  conv_lhs => unfold folded
  rw [hc, ha]
  rfl

theorem folded_exit (ha : t.absorbing = true) (hp : c.tag.isParagraph = true)
    (hx : c.isExit = true) :
    folded t strays (c :: cs) = c :: (strays ++ folded (t.after c) [] cs) := by
  have hne : c.isEnter = false := by
    rw [Call.isEnter, eq_of_beq (show (c.state == .exit) = true from hx)]
    rfl
  have habsorbs : absorbs c cs.head? = true := by simp [absorbs, hp, hx]
  conv_lhs => unfold folded
  rw [ha, isStray_of_isParagraph hp, habsorbs, hne]
  rfl

theorem folded_pair (ha : t.absorbing = true) (hp : c.tag.isParagraph = true)
    (he : c.isEnter = true) (hnp : n.tag.isParagraph = true) (hnx : n.isExit = true) :
    folded t strays (c :: n :: rest) =
      c :: n :: (strays ++ folded ((t.after c).after n) [] rest) := by
  have habsorbs : absorbs c (n :: rest).head? = true := by simp [absorbs, hp, he, hnp, hnx]
  conv_lhs => unfold folded
  rw [ha, isStray_of_isParagraph hp, habsorbs, he]
  rfl

/-- What can come behind a trail: a stray exit that is pending, a paragraph that is taken,
alone or in a pair, or a call that is kept in its place. -/
theorem coming_cases (t : Trail) (c : Call) (cs : List Call) :
    (t.absorbing = true ∧ isStray c = true) ∨
      (t.absorbing = true ∧ c.tag.isParagraph = true ∧ c.isExit = true) ∨
      (t.absorbing = true ∧ c.tag.isParagraph = true ∧ c.isEnter = true ∧
        ∃ n rest, cs = n :: rest ∧ n.tag.isParagraph = true ∧ n.isExit = true) ∨
      ((t.absorbing && isStray c) = false ∧ (t.absorbing && absorbs c cs.head?) = false) := by
  by_cases hstray : (t.absorbing && isStray c) = true
  · rw [Bool.and_eq_true] at hstray
    exact .inl hstray
  · by_cases habsorbs : (t.absorbing && absorbs c cs.head?) = true
    · rw [Bool.and_eq_true] at habsorbs
      obtain ⟨hp, hx | ⟨he, n, hn, hnp, hnx⟩⟩ := absorbs_cases habsorbs.2
      · exact .inr (.inl ⟨habsorbs.1, hp, hx⟩)
      · obtain ⟨rest, hcs⟩ := List.head?_eq_some_iff.mp hn
        exact .inr (.inr (.inl ⟨habsorbs.1, hp, he, n, rest, hcs, hnp, hnx⟩))
    · exact .inr (.inr (.inr ⟨by simpa using hstray, by simpa using habsorbs⟩))

/-- Nothing is lost. -/
theorem perm_folded : ∀ (cs : List Call) (t : Trail) (strays : List Call),
    (folded t strays cs).Perm (strays ++ cs)
  | [], _, strays => by rw [folded, List.append_nil]
  | c :: cs, t, strays => by
    -- a pair takes two calls, so the recursion is on the number of calls
    rcases coming_cases t c cs with
      ⟨ha, hc⟩ | ⟨ha, hp, hx⟩ | ⟨ha, hp, he, n, rest, rfl, hnp, hnx⟩ | ⟨hc, ha⟩
    · rw [folded_stray ha hc]
      have hrest := perm_folded cs (t.after c) (strays ++ [c])
      rwa [List.append_assoc] at hrest
    · rw [folded_exit ha hp hx]
      have hrest := perm_folded cs (t.after c) []
      exact ((hrest.append_left strays).cons c).trans List.perm_middle.symm
    · rw [folded_pair ha hp he hnp hnx]
      have hrest := perm_folded rest ((t.after c).after n) []
      calc (c :: n :: (strays ++ folded ((t.after c).after n) [] rest)).Perm
            (c :: n :: (strays ++ rest)) := ((hrest.append_left strays).cons n).cons c
        _ |>.Perm (c :: (strays ++ n :: rest)) := List.perm_middle.symm.cons c
        _ |>.Perm (strays ++ c :: n :: rest) := List.perm_middle.symm
    · rw [folded_keep hc ha]
      exact ((perm_folded cs (t.after c) []).cons c).append_left strays
  termination_by cs => cs.length

/-! ### What that does to the order -/

/-- Right behind a stray exit comes a paragraph that is taken into the heading before. -/
def Folds (t : Trail) (cs : List Call) : Prop :=
  ∃ (before : List Call) (stray paragraph : Call) (behind : List Call),
    cs = before ++ stray :: paragraph :: behind ∧ (before.foldl after t).absorbing = true ∧
      isStray stray = true ∧ absorbs paragraph behind.head? = true

/-- The next call is a paragraph that is taken. -/
def Takes (t : Trail) (cs : List Call) : Prop :=
  t.absorbing = true ∧ ∃ paragraph behind, cs = paragraph :: behind ∧
    absorbs paragraph behind.head? = true

/-- Such a paragraph comes next but one, or later. -/
theorem folds_cons :
    Folds t (c :: cs) ↔ (isStray c = true ∧ Takes t cs) ∨ Folds (t.after c) cs := by
  constructor
  · rintro ⟨before, stray, paragraph, behind, hcs, ha, hs, hp⟩
    cases before with
    | nil =>
      obtain ⟨rfl, rfl⟩ := List.cons.inj hcs
      exact .inl ⟨hs, ha, paragraph, behind, rfl, hp⟩
    | cons d before =>
      obtain ⟨rfl, rfl⟩ := List.cons.inj hcs
      exact .inr ⟨before, stray, paragraph, behind, rfl, ha, hs, hp⟩
  · rintro (⟨hs, ha, paragraph, behind, rfl, hp⟩ | ⟨before, stray, paragraph, behind, rfl, ha, hs, hp⟩)
    · exact ⟨[], c, paragraph, behind, rfl, ha, hs, hp⟩
    · exact ⟨c :: before, stray, paragraph, behind, rfl, ha, hs, hp⟩

/-- Behind a call that is no stray exit it comes later. -/
theorem Folds.later (h : Folds t (c :: cs)) (hc : isStray c = false) : Folds (t.after c) cs := by
  rcases folds_cons.mp h with ⟨hs, -⟩ | h
  · rw [hc] at hs
    cases hs
  · exact h

theorem not_folds_nil : ¬ Folds t [] := by
  rintro ⟨before, stray, paragraph, behind, hcs, -⟩
  exact List.append_ne_nil_of_right_ne_nil _ (List.cons_ne_nil _ _) hcs.symm

/-- **Where no paragraph comes behind stray exits**, the page is left in its order. -/
theorem folded_eq : ∀ (cs : List Call) {t : Trail} {strays : List Call}, t.Outside →
    ¬ Folds t cs → (strays ≠ [] → ¬ Takes t cs) → folded t strays cs = strays ++ cs
  | [], _, strays, _, _, _ => by rw [folded, List.append_nil]
  | c :: cs, t, strays, ht, hfolds, hstrays => by
    rw [folds_cons, not_or] at hfolds
    obtain ⟨hnext, hlater⟩ := hfolds
    rcases coming_cases t c cs with
      ⟨ha, hc⟩ | ⟨ha, hp, hx⟩ | ⟨ha, hp, he, n, rest, rfl, hnp, hnx⟩ | ⟨hc, ha⟩
    · have htakes : ¬ Takes (t.after c) cs := by
        rw [after_stray ht ha hc]
        exact fun h => hnext ⟨hc, h⟩
      rw [folded_stray ha hc, folded_eq cs (outside_after t c) hlater fun _ => htakes,
        List.append_assoc]
      rfl
    · obtain rfl : strays = [] := by
        by_contra hne
        exact hstrays hne ⟨ha, c, cs, rfl, by simp [absorbs, hp, hx]⟩
      rw [folded_exit ha hp hx, folded_eq cs (outside_after t c) hlater fun h => absurd rfl h]
      rfl
    · obtain rfl : strays = [] := by
        by_contra hne
        exact hstrays hne ⟨ha, c, n :: rest, rfl, by simp [absorbs, hp, he, hnp, hnx]⟩
      rw [folds_cons, not_or] at hlater
      rw [folded_pair ha hp he hnp hnx,
        folded_eq rest (outside_after _ n) hlater.2 fun h => absurd rfl h]
      rfl
    · rw [folded_keep hc ha, folded_eq cs (outside_after t c) hlater fun h => absurd rfl h]
      rfl
  termination_by cs => cs.length

/-- A paragraph is no heading. -/
theorem tags_ne_of_stray {ls ms : List Call} (hne : strays ≠ [])
    (hstrays : ∀ c ∈ strays, isStray c = true) (hp : c.tag.isParagraph = true) :
    (c :: ls).map Call.tag ≠ (strays ++ ms).map Call.tag := by
  obtain ⟨s, more, rfl⟩ := List.exists_cons_of_ne_nil hne
  intro h
  have htag : c.tag = s.tag := (List.cons.inj h).1
  have hs : isOutlineHeading s = true := isOutlineHeading_of_isStray (hstrays s List.mem_cons_self)
  rw [isOutlineHeading_of_isParagraph (htag ▸ hp)] at hs
  cases hs

/-- **A paragraph behind stray exits** comes to stand before a heading call. -/
theorem folded_ne : ∀ (cs : List Call) {t : Trail} {strays : List Call}, t.Outside →
    (∀ c ∈ strays, isStray c = true) → Folds t cs ∨ strays ≠ [] ∧ Takes t cs →
    (folded t strays cs).map Call.tag ≠ (strays ++ cs).map Call.tag
  | [], _, _, _, _, h => by
    rcases h with h | ⟨-, -, _, _, h, -⟩
    · exact absurd h not_folds_nil
    · cases h
  | c :: cs, t, strays, ht, hstrays, h => by
    rcases coming_cases t c cs with
      ⟨ha, hc⟩ | ⟨ha, hp, hx⟩ | ⟨ha, hp, he, n, rest, rfl, hnp, hnx⟩ | ⟨hc, ha⟩
    · have hrest : Folds (t.after c) cs ∨ strays ++ [c] ≠ [] ∧ Takes (t.after c) cs := by
        rcases h with h | ⟨-, -, paragraph, behind, hcs, hp⟩
        · rcases folds_cons.mp h with ⟨-, htakes⟩ | hlater
          · rw [after_stray ht ha hc]
            exact .inr ⟨List.append_ne_nil_of_right_ne_nil _ (List.cons_ne_nil _ _), htakes⟩
          · exact .inl hlater
        · obtain ⟨rfl, rfl⟩ := List.cons.inj hcs
          rw [isStray_of_isParagraph (absorbs_cases hp).1] at hc
          cases hc
      have hstrays' : ∀ d ∈ strays ++ [c], isStray d = true := by
        intro d hd
        rcases List.mem_append.mp hd with hd | hd
        · exact hstrays d hd
        · rw [List.mem_singleton.mp hd, hc]
      have hne := folded_ne cs (outside_after t c) hstrays' hrest
      rw [folded_stray ha hc, List.append_cons strays c cs]
      exact hne
    · rw [folded_exit ha hp hx]
      by_cases hnone : strays = []
      · subst hnone
        have hfolds : Folds t (c :: cs) := h.resolve_right fun h => h.1 rfl
        have hne := folded_ne cs (outside_after t c) (fun _ hd => absurd hd List.not_mem_nil)
          (.inl (hfolds.later (isStray_of_isParagraph hp)))
        exact fun heq => hne (List.cons.inj heq).2
      · exact tags_ne_of_stray hnone hstrays hp
    · rw [folded_pair ha hp he hnp hnx]
      by_cases hnone : strays = []
      · subst hnone
        have hfolds : Folds t (c :: n :: rest) := h.resolve_right fun h => h.1 rfl
        have hlater := (hfolds.later (isStray_of_isParagraph hp)).later (isStray_of_isParagraph hnp)
        have hne := folded_ne rest (outside_after _ n) (fun _ hd => absurd hd List.not_mem_nil)
          (.inl hlater)
        exact fun heq => hne (List.cons.inj (List.cons.inj heq).2).2
      · exact tags_ne_of_stray hnone hstrays hp
    · rw [folded_keep hc ha]
      have hlater : Folds (t.after c) cs := by
        rcases h with h | ⟨-, habsorbing, paragraph, behind, hcs, hp⟩
        · rcases folds_cons.mp h with ⟨hs, habsorbing, -⟩ | hlater
          · rw [hs, habsorbing] at hc
            cases hc
          · exact hlater
        · obtain ⟨rfl, rfl⟩ := List.cons.inj hcs
          rw [hp, habsorbing] at ha
          cases ha
      have hne := folded_ne cs (outside_after t c) (fun _ hd => absurd hd List.not_mem_nil)
        (.inl hlater)
      rw [List.map_append, List.map_append]
      exact fun heq => hne (List.cons.inj (List.append_cancel_left heq)).2
  termination_by cs => cs.length

end Trail

end Outline

end WikiOutline
