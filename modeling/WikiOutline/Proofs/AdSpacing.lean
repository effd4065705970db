/-
# The interval policy keeps its distance

What the interval policy promises of one slot becomes a promise about the page, because the
slots say what they should (`events_asks`).  A section with an advertisement is not the root,
so it gives nothing but itself to the page (`Asks.ids_of_marker`), and the sections shown
since the last advertisement are those that come behind the section with it
(`Asks.lines_since`).

Key definitions: `Rendering.placed`, `Rendering.firstBehind`, `Rendering.Spaced`,
`Rendering.Lays`, `Rendering.Asks`.
Key theorems: `Rendering.Asks.exists_wanted`, `Rendering.Asks.lines_since`,
`Rendering.Asks.spaced`, `Rendering.ads_spaced`.
-/
import WikiOutline.Proofs.AdSlots

namespace WikiOutline

namespace Rendering

open Outline

variable {π σ τ : Type}

/-- The sections with an advertisement, in the order they are opened in. -/
def marked (os : List Opening) : List Opening := os.filter fun op => op.marker.isSome

/-- The numbers of the sections with an advertisement. -/
def placed (os : List Opening) : List Nat := (marked os).map fun op => op.own.id

/-- The section behind the last one of some; the root if there is none. -/
def firstBehind (sections : List Nat) : Nat := sections.getLast?.elim 0 (· + 1)

/-- What the interval policy promises of the sections with an advertisement. -/
structure Spaced (q : IntervalAdPolicy) (o : Outline) (sections : List Nat) : Prop where
  most : sections.length ≤ q.maxAds
  ascending : sections.Pairwise (· < ·)
  filled : ∀ i ∈ sections, 0 < i ∧ i < o.size ∧ q.minSectionLines ≤ (o.get i).filledLines
  last : q.skipLastSection = true → ∀ i ∈ sections, o.preOrder.getLast? ≠ some i
  /-- Behind the section with the last advertisement, or from the beginning of the page, there
  are lines enough. -/
  apart : ∀ before i behind, sections = before ++ i :: behind →
    q.minCumulativeLines ≤
      linesOf o (List.range' (firstBehind before) (i + 1 - firstBehind before))

/-! ### Where sections are opened -/

/-- Some sections are opened one behind the other: together they give all sections to the
page, and only the root gives more than itself. -/
structure Lays (o : Outline) (os : List Opening) : Prop where
  ids : os.flatMap Opening.ids = List.range' 0 o.size
  alone : ∀ op ∈ os, op.own.id ≠ 0 → op.ids = [op.own.id]

/-- The sections of a rendition are so opened. -/
theorem lays_openings {heads : List Call} {setup : Setup π σ}
    (h : Tree heads setup.outline.nodes) (target : Target) (p : π) (t : σ) :
    Lays setup.outline (openings (events setup target p t).1) := by
  refine ⟨by rw [ids_openings h, List.range_eq_range'], fun op hop h0 => ?_⟩
  obtain ⟨i, hi, hopens⟩ := (events_headings h target p t).2 op hop
  obtain ⟨s, id, rfl⟩ := (events_performs h target p t).exists_opened hop
  obtain rfl : id = i := congrArg Portion.id hopens.own
  have hroot : (setup.outline.get id).isRoot = false := by
    rw [h.isRoot hi]
    exact beq_false_of_ne h0
  obtain ⟨s₀, -, hportions, -⟩ : ∃ s₀ : State π σ, _ ∧
      (openSection setup target s id).1.portions = _ ∧ _ :=
    openSection_alone (flattenedChild?_of_not_root hroot)
  rw [Opening.ids, hportions]
  rfl

variable {o : Outline} {os far behind : List Opening} {op : Opening}

/-- A section comes behind all that are opened before it. -/
theorem Lays.ids_before (h : Lays o os) (hos : os = far ++ op :: behind) :
    far.flatMap Opening.ids = List.range' 0 op.own.id ∧ op.own.id < o.size := by
  have hids := h.ids
  rw [hos, List.flatMap_append, eq_comm, List.range'_eq_append_iff] at hids
  obtain ⟨k, hk, hfar, hrest⟩ := hids
  rw [List.flatMap_cons, Opening.ids, Opening.portions, List.map_cons, List.cons_append, eq_comm,
    List.range'_eq_cons_iff] at hrest
  obtain ⟨hid, hpos, -⟩ := hrest
  rw [Nat.zero_add, Nat.mul_one] at hid
  rw [← hid]
  exact ⟨hfar, by omega⟩

/-- Where sections were opened before, it is not the root. -/
theorem Lays.pos (h : Lays o os) (hos : os = far ++ op :: behind) (hfar : far ≠ []) :
    0 < op.own.id := by
  obtain ⟨first, rest, rfl⟩ := List.exists_cons_of_ne_nil hfar
  have hids := congrArg List.length (h.ids_before hos).1
  rw [List.flatMap_cons, Opening.ids, Opening.portions, List.length_range'] at hids
  simp only [List.map_cons, List.cons_append, List.length_cons] at hids
  omega

/-! ### What the policy was asked there -/

/-- When the interval policy wants an advertisement. -/
theorem wants_iff (q : IntervalAdPolicy) (slot : AdSlot) :
    q.wants slot = true ↔ slot.sectionOrdinal ≠ 0 ∧ slot.adsInserted < q.maxAds ∧
      (q.skipLastSection = true → slot.isLastSection = false) ∧
      q.minSectionLines ≤ slot.sectionLines ∧ q.minCumulativeLines ≤ slot.cumulativeLines := by
  simp only [IntervalAdPolicy.wants, Bool.and_eq_true, bne_iff_ne, decide_eq_true_eq,
    Bool.not_eq_true', Bool.and_eq_false_imp, and_assoc, ne_eq]

/-- The slots before that of a section, that of the section, and those behind. -/
theorem split_asked {policy : AdPolicy π} {asked : List Asked}
    (h : List.Forall₂ (AskedAt o policy) os asked) (hos : os = far ++ op :: behind) :
    ∃ before a after, asked = before ++ a :: after ∧ List.Forall₂ (AskedAt o policy) far before ∧
      AskedAt o policy op a ∧ List.Forall₂ (AskedAt o policy) behind after := by
  have hasked := h.flip
  rw [hos] at hasked
  have hbefore := List.forall₂_take_append _ _ _ hasked
  obtain ⟨a, after, ha, hafter, hdrop⟩ :=
    List.forall₂_cons_right_iff.mp (List.forall₂_drop_append _ _ _ hasked)
  refine ⟨asked.take far.length, a, after, ?_, hbefore.flip, ha, hafter.flip⟩
  rw [← hdrop, List.take_append_drop]

/-- An interval policy was asked at sections that are so opened. -/
structure Asks (q : IntervalAdPolicy) (o : Outline) (os : List Opening) (asked : List Asked) :
    Prop where
  lays : Lays o os
  slots : List.Forall₂ (AskedAt o q.policy) os asked
  law : SlotLaw asked

variable {q : IntervalAdPolicy} {asked : List Asked}

/-- **Where an advertisement is**, the policy wanted it. -/
theorem Asks.exists_wanted (h : Asks q o os asked) (hos : os = far ++ op :: behind)
    (hop : op.marker.isSome = true) :
    ∃ before a, List.Forall₂ (AskedAt o q.policy) far before ∧ AskedAt o q.policy op a ∧
      ShownAfter before a.slot ∧ q.wants a.slot = true := by
  obtain ⟨before, a, after, hsplit, hbefore, ha, -⟩ := split_asked h.slots hos
  refine ⟨before, a, hbefore, ha, h.law before a after hsplit, ?_⟩
  obtain ⟨p, hanswer⟩ := ha.answer
  have hgranted : a.granted = q.wants a.slot := by
    rw [Asked.granted, hanswer]
    rfl
  rw [← hgranted, ← ha.marker, hop]

/-- The root has no advertisement, so the section gives nothing but itself to the page. -/
theorem Asks.ids_of_marker (h : Asks q o os asked) (hos : os = far ++ op :: behind)
    (hop : op.marker.isSome = true) : 0 < op.own.id ∧ op.ids = [op.own.id] := by
  obtain ⟨before, a, hbefore, -, hshown, hwants⟩ := h.exists_wanted hos hop
  have hordinal := ((wants_iff q a.slot).mp hwants).1
  have hfar : far ≠ [] := by
    rintro rfl
    rw [hshown.ordinal, ← hbefore.length_eq] at hordinal
    exact hordinal rfl
  have hpos := h.lays.pos hos hfar
  exact ⟨hpos, h.lays.alone op (by rw [hos]; exact List.mem_append_right _ List.mem_cons_self)
    (Nat.ne_of_gt hpos)⟩

/-- As many slots were granted as there are advertisements. -/
theorem countP_granted {policy : AdPolicy π} (h : List.Forall₂ (AskedAt o policy) os asked) :
    asked.countP Asked.granted = (placed os).length := by
  rw [placed, marked, List.length_map, ← List.countP_eq_length_filter]
  induction h with
  | nil => rfl
  | cons ha _ ih => rw [List.countP_cons, List.countP_cons, ih, ha.marker]

/-- Where no section has an advertisement, no slot was granted. -/
theorem refused_of_placed_nil {policy : AdPolicy π}
    (h : List.Forall₂ (AskedAt o policy) os asked) (hnone : placed os = []) :
    ∀ a ∈ asked, a.granted = false := fun a ha => by
  have hcount := countP_granted h
  rw [hnone, List.length_nil, List.countP_eq_zero] at hcount
  simpa using hcount a ha

/-- A section with an advertisement is opened behind those with one before it. -/
theorem exists_of_placed {before after : List Nat} {i : Nat}
    (h : placed os = before ++ i :: after) :
    ∃ far op behind, os = far ++ op :: behind ∧ op.marker.isSome = true ∧ op.own.id = i ∧
      placed far = before ∧ placed behind = after := by
  obtain ⟨marked₁, marked₂, hmarked, hbefore, hrest⟩ := List.map_eq_append_iff.mp h
  obtain ⟨op, marked₃, rfl, hid, hafter⟩ := List.map_eq_cons_iff.mp hrest
  obtain ⟨far, rest, rfl, hfar, hrest⟩ := List.filter_eq_append_iff.mp hmarked
  obtain ⟨between, behind, rfl, hbetween, hop, hbehind⟩ := List.filter_eq_cons_iff.mp hrest
  refine ⟨far ++ between, op, behind, by rw [List.append_assoc], hop, hid, ?_, ?_⟩
  · rw [placed, marked, List.filter_append, hfar, List.filter_eq_nil_iff.mpr hbetween,
      List.append_nil, hbefore]
  · rw [placed, marked, hbehind, hafter]

/-- Since the last advertisement those sections were shown that come behind the section with
it. -/
theorem Asks.lines_since (h : Asks q o os asked) (hos : os = far ++ op :: behind)
    {before : List Asked} (hbefore : List.Forall₂ (AskedAt o q.policy) far before) :
    firstBehind (placed far) ≤ op.own.id ∧ linesSince before =
      linesOf o (List.range' (firstBehind (placed far))
        (op.own.id - firstBehind (placed far))) := by
  have hids := (h.lays.ids_before hos).1
  rcases List.eq_nil_or_concat (placed far) with hnone | ⟨sections, k, hlast⟩
  · have hsince := linesSince_eq [] before (fun a ha => by cases ha)
      (refused_of_placed_nil hbefore hnone)
    rw [List.nil_append, sum_sectionLines hbefore, hids] at hsince
    rw [hnone]
    exact ⟨Nat.zero_le _, hsince⟩
  · rw [List.concat_eq_append] at hlast
    obtain ⟨farther, prev, near, rfl, hprev, rfl, -, hnear⟩ := exists_of_placed hlast
    have hos' : os = farther ++ prev :: (near ++ op :: behind) := by
      rw [hos, List.append_assoc, List.cons_append]
    obtain ⟨-, hself⟩ := h.ids_of_marker hos' hprev
    -- up to the section with the last advertisement, and behind it
    have hupto : farther.flatMap Opening.ids ++ prev.ids = List.range' 0 (prev.own.id + 1) := by
      rw [(h.lays.ids_before hos').1, hself, List.range'_1_concat, Nat.zero_add]
    rw [List.flatMap_append, List.flatMap_cons, ← List.append_assoc, hupto, eq_comm,
      List.range'_eq_append_iff] at hids
    obtain ⟨m, hm, hfirst, hrest⟩ := hids
    obtain rfl : prev.own.id + 1 = m := by
      simpa only [List.length_range'] using congrArg List.length hfirst
    obtain ⟨before₁, a, before₂, rfl, -, ha, hrefused⟩ := split_asked hbefore rfl
    have hsince := linesSince_eq (before₁ ++ [a]) before₂
      (fun b hb => by
        rw [List.getLast?_concat, Option.mem_some_iff] at hb
        rw [← hb, ← ha.marker, hprev])
      (refused_of_placed_nil hrefused hnear)
    rw [List.append_assoc, List.singleton_append, sum_sectionLines hrefused, hrest] at hsince
    have hbehind : firstBehind (placed (farther ++ prev :: near)) = prev.own.id + 1 := by
      rw [hlast, firstBehind, List.getLast?_concat]
      rfl
    rw [hbehind]
    refine ⟨hm, ?_⟩
    rw [hsince, Nat.mul_one, Nat.zero_add]

/-! ### What the page keeps -/

/-- The sections are opened in ascending order. -/
theorem Lays.ascending (h : Lays o os) : (placed os).Pairwise (· < ·) := by
  have hall : (os.map fun op => op.own.id).Sublist (os.flatMap Opening.ids) := by
    clear h
    induction os with
    | nil => exact List.Sublist.slnil
    | cons op os ih =>
      rw [List.map_cons, List.flatMap_cons, Opening.ids, Opening.portions, List.map_cons,
        List.cons_append]
      exact (ih.trans (List.sublist_append_right _ _)).cons_cons _
  have hmarked : (placed os).Sublist (os.map fun op => op.own.id) :=
    List.filter_sublist.map _
  have hsorted : (os.flatMap Opening.ids).Pairwise (· < ·) := by
    rw [h.ids]
    exact List.pairwise_lt_range'
  exact hsorted.sublist (hmarked.trans hall)

/-- **A section with an advertisement**, and those with one before it: not too many, and not
too near. -/
theorem Asks.of_placed (h : Asks q o os asked) {before after : List Nat} {i : Nat}
    (hplaced : placed os = before ++ i :: after) :
    before.length < q.maxAds ∧ (0 < i ∧ i < o.size ∧ q.minSectionLines ≤ (o.get i).filledLines) ∧
      (q.skipLastSection = true → i ≠ o.lastSection) ∧
      q.minCumulativeLines ≤
        linesOf o (List.range' (firstBehind before) (i + 1 - firstBehind before)) := by
  obtain ⟨far, op, behind, hos, hop, rfl, rfl, -⟩ := exists_of_placed hplaced
  obtain ⟨asked₁, a, hbefore, ha, hshown, hwants⟩ := h.exists_wanted hos hop
  obtain ⟨-, hmost, hlast, hsection, hcumulative⟩ := (wants_iff q a.slot).mp hwants
  obtain ⟨hpos, hself⟩ := h.ids_of_marker hos hop
  obtain ⟨hle, hsince⟩ := h.lines_since hos hbefore
  have hlines : a.slot.sectionLines = linesOf o [op.own.id] := by rw [ha.lines, hself]
  refine ⟨?_, ⟨hpos, (h.lays.ids_before hos).2, ?_⟩, fun hskip hid => ?_, ?_⟩
  · rw [hshown.inserted, countP_granted hbefore] at hmost
    exact hmost
  · rw [hlines] at hsection
    exact hsection
  · have hfalse := hlast hskip
    rw [ha.last, hid, beq_self_eq_true] at hfalse
    cases hfalse
  · have hupto : op.own.id + 1 - firstBehind (placed far) =
        op.own.id - firstBehind (placed far) + 1 := by omega
    rw [hupto, List.range'_1_concat, linesOf_append, ← hsince, Nat.add_sub_cancel' hle, ← hlines,
      ← hshown.lines]
    exact hcumulative

/-- **The promises of the interval policy** are kept wherever it was asked. -/
theorem Asks.spaced {heads : List Call} (ht : Tree heads o.nodes) (h : Asks q o os asked) :
    Spaced q o (placed os) := by
  refine ⟨?_, h.lays.ascending, fun i hi => ?_, fun hskip i hi hlast => ?_,
    fun before i after hsplit => (h.of_placed hsplit).2.2.2⟩
  · -- before the last advertisement there are fewer
    rcases List.eq_nil_or_concat (placed os) with hnone | ⟨before, i, hsplit⟩
    · rw [hnone]
      exact Nat.zero_le _
    · rw [List.concat_eq_append] at hsplit
      have hfewer := (h.of_placed hsplit).1
      rw [hsplit, List.length_append, List.length_singleton]
      exact hfewer
  · obtain ⟨before, after, hsplit⟩ := List.append_of_mem hi
    exact (h.of_placed hsplit).2.1
  · obtain ⟨before, after, hsplit⟩ := List.append_of_mem hi
    refine (h.of_placed hsplit).2.2.1 hskip ?_
    rw [preOrder_eq ht, List.getLast?_range, if_neg (Nat.ne_of_gt ht.size_pos)] at hlast
    rw [ht.lastSection_eq]
    exact (Option.some.inj hlast).symm

/-- **The interval policy keeps its distance.**  Each advertisement of a page is written where
a section is opened, and the sections with one are as the policy promises. -/
theorem ads_spaced {strictness : Strictness} {titled : Option (MetadataSink τ)}
    {calls : List Call} {u u' : τ} {o : Outline}
    (hb : buildWith strictness titled calls u = .ok (o, u'))
    (hcalls : ∀ c ∈ calls, c.tag.isAdMarker = false) (options : Options) (q : IntervalAdPolicy)
    (sink : Option (MetadataSink σ)) (t : σ) :
    let es := (events ⟨o, options, some q.policy, sink⟩ .full () t).1
    let full := (run ⟨o, options, some q.policy, sink⟩ .full () t).1.calls
    full = es.flatMap (Event.calls .full) ∧
      (∀ op ∈ openings es,
        (op.calls .full).filter (fun c => c.tag.isAdMarker) = op.marker.toList) ∧
      (full.filter fun c => c.tag.isAdMarker).length = (placed (openings es)).length ∧
      (full.filter fun c => c.tag.isAdMarker).length ≤ q.maxAds ∧
      Spaced q o (placed (openings es)) := by
  intro es full
  set setup : Setup Unit σ := ⟨o, options, some q.policy, sink⟩
  have ht : Tree _ setup.outline.nodes := (buildWith_sound hb).1
  have hlacks : Lacks Tag.isAdMarker setup.outline := lacks_of_build hb hcalls
  obtain ⟨hlaw, hasked, hmarkers⟩ := events_asks o options q.policy sink ht () t
  have hasks : Asks q o (openings es) _ := ⟨lays_openings ht .full () t, hasked, hlaw⟩
  have hspaced := hasks.spaced ht
  have hcount : (full.filter fun c => c.tag.isAdMarker).length = (placed (openings es)).length := by
    rw [show full.filter _ = _ from markers_of_run ht hlacks .full () t, hmarkers, List.length_map,
      List.length_range', countP_granted hasked]
  refine ⟨rfl, fun op hop => ?_, hcount, hcount ▸ hspaced.most, hspaced⟩
  obtain ⟨s, id, rfl⟩ := (events_performs ht .full () t).exists_opened hop
  exact markers_of_opened ht hlacks s id

/-- A policy that wants an advertisement every two lines. -/
def everyTwoLines : IntervalAdPolicy where
  minCumulativeLines := 2
  minSectionLines := 1

theorem ads_spaced_stories :
    ∃ o, buildWith .strict (none : Option (MetadataSink Unit)) stories () = .ok (o, ()) ∧
      (∀ c ∈ stories, c.tag.isAdMarker = false) ∧ Spaced everyTwoLines o [2, 3] ∧
      placed
        (openings (events (σ := Unit) ⟨o, {}, some everyTwoLines.policy, none⟩ .full () ()).1) =
        [2, 3] := by
  have hb : buildWith .strict (none : Option (MetadataSink Unit)) stories () = .ok (_, ()) := rfl
  have hcalls : ∀ c ∈ stories, c.tag.isAdMarker = false := by decide
  obtain ⟨-, -, -, -, hspaced⟩ := ads_spaced hb hcalls {} everyTwoLines
    (none : Option (MetadataSink Unit)) ()
  exact ⟨_, hb, hcalls, hspaced, by decide⟩

end Rendering

end WikiOutline
