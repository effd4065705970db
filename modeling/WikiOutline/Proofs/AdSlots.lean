/-
# The slots that a policy is shown

A policy is shown one slot for each section that is opened, and what the slot says is known
from the slots and the answers before it (`ShownAfter`): how many there were, how many of
them were granted, and the lines since the last one that was granted.  Who records the slots
sees the same rendition.  Opening a section shows one slot more (`openSection_asks`), so the
law holds of all slots of a rendition (`openAll_asks`, `events_asks`).

Key definitions: `AdPolicy.recording`, `Asked.granted`, `linesSince`, `ShownAfter`, `SlotLaw`,
`Rendering.Accounted`, `Rendering.AskedAt`.
Key theorems: `SlotLaw.append`, `Rendering.openSection_asks`, `Rendering.events_asks`,
`Rendering.slots_exact`.
-/
import WikiOutline.Proofs.Containment

namespace WikiOutline

/-- A slot that a policy was asked about, and its answer. -/
structure Asked where
  slot : AdSlot
  answer : Except String Bool

/-- The policy wanted an advertisement; a failing one did not. -/
def Asked.granted (a : Asked) : Bool :=
  match a.answer with
  | .ok wants => wants
  | .error _ => false

/-- A policy that also keeps what it was asked. -/
def AdPolicy.recording {π : Type} (policy : AdPolicy π) : AdPolicy (π × List Asked) where
  decide slot p :=
    let (answer, q) := policy.decide slot p.1
    (answer, q, p.2 ++ [⟨slot, answer⟩])

/-- The lines of the slots behind the last one that was granted. -/
def linesSince (asked : List Asked) : Nat :=
  ((asked.rtakeWhile fun a => !a.granted).map fun a => a.slot.sectionLines).sum

/-- What a slot says, when some others were shown before. -/
structure ShownAfter (asked : List Asked) (slot : AdSlot) : Prop where
  ordinal : slot.sectionOrdinal = asked.length
  inserted : slot.adsInserted = asked.countP Asked.granted
  lines : slot.cumulativeLines = linesSince asked + slot.sectionLines

/-- Each slot says what it should behind those before it. -/
def SlotLaw (asked : List Asked) : Prop :=
  ∀ before a behind, asked = before ++ a :: behind → ShownAfter before a.slot

/-! ### One slot more -/

theorem linesSince_append (asked : List Asked) (a : Asked) :
    linesSince (asked ++ [a]) =
      if a.granted then 0 else linesSince asked + a.slot.sectionLines := by
  unfold linesSince
  rw [List.rtakeWhile_concat]
  cases a.granted with
  | true => rfl
  | false =>
    simp only [Bool.not_false, ↓reduceIte, List.map_append, List.sum_append, Bool.false_eq_true]
    rfl

/-- Behind a slot that was granted, or from the beginning, the lines of all that were refused
add up. -/
theorem linesSince_eq (far near : List Asked)
    (hfar : ∀ a ∈ far.getLast?, a.granted = true) (hnear : ∀ a ∈ near, a.granted = false) :
    linesSince (far ++ near) = (near.map fun a => a.slot.sectionLines).sum := by
  induction near using List.reverseRecOn with
  | nil =>
    rw [List.append_nil]
    rcases List.eq_nil_or_concat far with rfl | ⟨before, a, rfl⟩
    · rfl
    · rw [List.concat_eq_append, linesSince_append,
        hfar a (by rw [List.concat_eq_append, List.getLast?_concat]; rfl)]
      rfl
  | append_singleton near a ih =>
    have ha := hnear a (List.mem_append_right _ (List.mem_singleton_self a))
    have hbefore := ih fun b hb => hnear b (List.mem_append_left _ hb)
    rw [← List.append_assoc, linesSince_append, ha, hbefore, List.map_append, List.sum_append]
    rfl

theorem SlotLaw.append {asked : List Asked} (h : SlotLaw asked) {a : Asked}
    (ha : ShownAfter asked a.slot) : SlotLaw (asked ++ [a]) := by
  intro before b behind heq
  rcases List.eq_nil_or_concat behind with rfl | ⟨behind, c, rfl⟩
  · obtain ⟨rfl, hab⟩ := List.append_inj' heq rfl
    obtain rfl := List.singleton_inj.mp hab
    exact ha
  · rw [List.concat_eq_append, ← List.cons_append, ← List.append_assoc] at heq
    exact h before b behind (List.append_inj' heq rfl).1

namespace Rendering

open Outline

variable {π σ τ : Type} (o : Outline) (options : Options) (policy : AdPolicy π)
  (sink : Option (MetadataSink σ))

/-- The sections that give their heading and their text to the page where one is opened. -/
def Opening.ids (opening : Opening) : List Nat := opening.portions.map Portion.id

/-- The filled lines of some sections. -/
def linesOf (ids : List Nat) : Nat := (ids.map fun i => (o.get i).filledLines).sum

theorem linesOf_append (ids ids' : List Nat) :
    linesOf o (ids ++ ids') = linesOf o ids + linesOf o ids' := by
  rw [linesOf, List.map_append, List.sum_append]
  rfl

theorem linesOf_range :
    linesOf o (List.range o.size) = (o.sections.map Section.filledLines).sum := by
  refine congrArg List.sum (List.ext_getElem (by simp [Outline.size]) fun i h1 h2 => ?_)
  have hi : i < o.sections.length := by simpa using h2
  simp [Outline.get, hi]

/-- The advertisement with a number. -/
def adCall (n : Nat) : Call :=
  (Call.special .adMarker).withAttribute "name" (.string ("ad-" ++ toString n))

/-! ### Opening sections -/

/-- The tallies agree with what the policy was asked. -/
structure Accounted (s : Tallies (π × List Asked)) : Prop where
  law : SlotLaw s.policyState.2
  opened : s.sectionOrdinal = s.policyState.2.length
  inserted : s.adsInserted = s.policyState.2.countP Asked.granted
  lines : s.cumulativeLines = linesSince s.policyState.2

/-- One more section is opened, and one slot more is shown. -/
theorem Accounted.next {s s' : Tallies (π × List Asked)} (h : Accounted s) {a : Asked}
    (hshown : ShownAfter s.policyState.2 a.slot)
    (hpolicy : s'.policyState.2 = s.policyState.2 ++ [a])
    (hopened : s'.sectionOrdinal = s.sectionOrdinal + 1)
    (hinserted : s'.adsInserted = if a.granted then s.adsInserted + 1 else s.adsInserted)
    (hlines : s'.cumulativeLines =
      if a.granted then 0 else s.cumulativeLines + a.slot.sectionLines) : Accounted s' where
  law := hpolicy ▸ h.law.append hshown
  opened := by rw [hopened, hpolicy, h.opened, List.length_append, List.length_singleton]
  inserted := by
    rw [hinserted, hpolicy, h.inserted, List.countP_append, List.countP_singleton]
    cases a.granted <;> rfl
  lines := by rw [hlines, hpolicy, linesSince_append, h.lines]

/-- What a policy was asked where a section was opened, and what came of it. -/
structure AskedAt (opening : Opening) (a : Asked) : Prop where
  answer : ∃ p, a.answer = (policy.decide a.slot p).1
  lines : a.slot.sectionLines = linesOf o opening.ids
  last : a.slot.isLastSection = (opening.own.id == o.lastSection)
  marker : opening.marker.isSome = a.granted

/-- Asked about a slot, a policy that records notes the slot and its answer. -/
theorem consult_recording (slot : AdSlot)
    (aside : (π × List Asked) × σ × List String) :
    ∃ a : Asked, a.slot = slot ∧ (∃ p, a.answer = (policy.decide slot p).1) ∧
      (consult policy.recording slot aside).1 = a.granted ∧
      (consult policy.recording slot aside).2.1.2 = aside.1.2 ++ [a] := by
  refine ⟨⟨slot, (policy.decide slot aside.1.1).1⟩, rfl, ⟨_, rfl⟩, ?_⟩
  unfold consult AdPolicy.recording Asked.granted
  simp only
  cases (policy.decide slot aside.1.1).1 <;> exact ⟨rfl, rfl⟩

/-- What becomes of the tallies when it is asked about the slot of a section. -/
theorem adMarker_recording {s : State (π × List Asked) σ}
    {tallies : Tallies (π × List Asked)} (hs : s.tallies = tallies) (id ordinal lines : Nat) :
    ∃ a : Asked, a.slot = ⟨lines, tallies.cumulativeLines + lines, ordinal, tallies.adsInserted,
        id == o.lastSection⟩ ∧
      (∃ p, a.answer = (policy.decide a.slot p).1) ∧
      (adMarker ⟨o, options, some policy.recording, sink⟩ .full s id ordinal lines).1 =
        (if a.granted then some (adCall (tallies.adsInserted + 1)) else none) ∧
      ∃ q, (adMarker ⟨o, options, some policy.recording, sink⟩ .full s id ordinal lines).2.tallies =
        ⟨(q, tallies.policyState.2 ++ [a]),
          if a.granted then 0 else tallies.cumulativeLines + lines, tallies.sectionOrdinal,
          if a.granted then tallies.adsInserted + 1 else tallies.adsInserted,
          tallies.editSequence⟩ := by
  subst hs
  rw [adMarker_eq]
  obtain ⟨a, hslot, hanswer, hwants, hnoted⟩ := consult_recording policy
    ⟨lines, s.cumulativeLines + lines, ordinal, s.adsInserted, id == o.lastSection⟩ s.aside
  refine ⟨a, hslot, hslot ▸ hanswer, ?_⟩
  simp only
  rw [hwants]
  generalize consult policy.recording _ s.aside = asked at *
  have hstate : asked.2.1 = (asked.2.1.1, s.tallies.policyState.2 ++ [a]) := Prod.ext rfl hnoted
  refine ⟨?_, asked.2.1.1, ?_⟩
  · cases a.granted <;> rfl
  · rw [← hstate]
    cases a.granted <;> rfl

/-- The lines of a section, and of the one merged into it. -/
theorem mergeChild_lines (setup : Setup π σ) (target : Target) (s : State π σ) (sec : Section) :
    (mergeChild setup target s sec).2.1 = sec.filledLines +
      linesOf setup.outline ((mergeChild setup target s sec).1.toList.map Portion.id) := by
  cases hf : flattenedChild? setup target sec with
  | none =>
    rw [mergeChild_of_none hf]
    rfl
  | some only =>
    simp only [mergeChild, hf, Option.toList_some, List.map_cons, List.map_nil, linesOf,
      List.sum_singleton]

/-- **A section that is opened** shows one slot more, and the tallies agree again. -/
theorem openSection_asks {s : State (π × List Asked) σ} (h : Accounted s.tallies) (id : Nat) :
    let opened := openSection ⟨o, options, some policy.recording, sink⟩ .full s id
    ∃ a, opened.2.policyState.2 = s.policyState.2 ++ [a] ∧ Accounted opened.2.tallies ∧
      AskedAt o policy opened.1 a ∧
      opened.1.marker = (if a.granted then some (adCall (s.adsInserted + 1)) else none) ∧
      opened.2.adsInserted = if a.granted then s.adsInserted + 1 else s.adsInserted := by
  intro opened
  set setup : Setup (π × List Asked) σ := ⟨o, options, some policy.recording, sink⟩
  have hopened : opened = _ := openSection_eq setup .full s id
  simp only at hopened
  set own := ownHeading { s with sectionOrdinal := s.sectionOrdinal + 1 } (setup.outline.get id)
  set merge := mergeChild setup .full own.2.2 (setup.outline.get id)
  have hmerge : merge.2.2.2.tallies = ⟨s.policyState, s.cumulativeLines, s.sectionOrdinal + 1,
      s.adsInserted, s.editSequence⟩ :=
    (mergeChild_tallies setup .full _ _).trans (ownHeading_tallies _ _)
  obtain ⟨a, hslot, hanswer, hmarker, q, hasked⟩ := adMarker_recording o options policy sink
    hmerge id s.sectionOrdinal merge.2.1
  set ad := adMarker setup .full merge.2.2.2 id s.sectionOrdinal merge.2.1
  have hend : opened.2.tallies = ⟨(q, s.policyState.2 ++ [a]),
      if a.granted then 0 else s.cumulativeLines + merge.2.1, s.sectionOrdinal + 1,
      if a.granted then s.adsInserted + 1 else s.adsInserted, opened.2.editSequence⟩ := by
    rw [hopened]
    refine (editButton_tallies setup .full ad.2 _ _).trans ?_
    rw [hasked]
  have hshown : ShownAfter s.policyState.2 a.slot := by
    rw [hslot]
    exact ⟨h.opened, h.inserted, congrArg (· + merge.2.1) h.lines⟩
  have hlines : a.slot.sectionLines = merge.2.1 := congrArg AdSlot.sectionLines hslot
  have hpolicy := congrArg (fun t => t.policyState.2) hend
  have hinserted := congrArg Tallies.adsInserted hend
  refine ⟨a, hpolicy, h.next hshown hpolicy (congrArg Tallies.sectionOrdinal hend) hinserted ?_,
    ⟨hanswer, ?_, ?_, ?_⟩, ?_, hinserted⟩
  · rw [hlines, hend]
    rfl
  · rw [hlines, hopened]
    exact mergeChild_lines setup .full own.2.2 (setup.outline.get id)
  · rw [hslot, hopened]
  · rw [hopened]
    simp only [hmarker]
    cases a.granted <;> rfl
  · rw [hopened]
    exact hmarker

/-- **Sections that are opened** one behind the other show one slot each. -/
theorem openAll_asks : ∀ (ids : List Nat) {s : State (π × List Asked) σ}, Accounted s.tallies →
    let opened := openAll ⟨o, options, some policy.recording, sink⟩ .full ids s
    ∃ asked, opened.2.policyState.2 = s.policyState.2 ++ asked ∧ Accounted opened.2.tallies ∧
      List.Forall₂ (AskedAt o policy) opened.1 asked ∧
      opened.1.filterMap Opening.marker =
        (List.range' (s.adsInserted + 1) (asked.countP Asked.granted)).map adCall
  | [], s, h => ⟨[], (List.append_nil _).symm, h, .nil, rfl⟩
  | id :: ids, s, h => by
    set setup : Setup (π × List Asked) σ := ⟨o, options, some policy.recording, sink⟩
    obtain ⟨a, hlog, haccounted, hasked, hmarker, hinserted⟩ :=
      openSection_asks o options policy sink h id
    obtain ⟨asked, hlog', haccounted', hasked', hmarkers⟩ := openAll_asks ids haccounted
    simp only [openAll]
    refine ⟨a :: asked, ?_, haccounted', .cons hasked hasked', ?_⟩
    · rw [hlog', hlog, List.append_assoc]
      rfl
    · rw [List.filterMap_cons, hmarkers, hmarker, hinserted, List.countP_cons]
      cases a.granted with
      | true => simp only [↓reduceIte, List.range'_succ, List.map_cons]
      | false => simp only [Bool.false_eq_true, ↓reduceIte, Nat.add_zero]

/-! ### Whole renditions -/

/-- What a policy is asked in a full rendition. -/
def slotsAsked (p : π) (t : σ) : List Asked :=
  (run ⟨o, options, some policy.recording, sink⟩ .full (p, []) t).2.1.2

variable {heads : List Call}

theorem recording_agrees :
    PoliciesAgree (fun p (p' : π × List Asked) => p = p'.1) (some policy)
      (some policy.recording) := by
  rintro slot p ⟨q, asked⟩ rfl
  exact ⟨rfl, rfl⟩

/-- **The slots of a full rendition**: one for each section that is opened, by the law. -/
theorem events_asks (h : Tree heads o.nodes) (p : π) (t : σ) :
    let os := openings (events ⟨o, options, some policy, sink⟩ .full p t).1
    let asked := slotsAsked o options policy sink p t
    SlotLaw asked ∧ List.Forall₂ (AskedAt o policy) os asked ∧
      os.filterMap Opening.marker =
        (List.range' 1 (asked.countP Asked.granted)).map adCall := by
  intro os asked
  set setup : Setup (π × List Asked) σ := ⟨o, options, some policy.recording, sink⟩
  have ht : Tree heads setup.outline.nodes := h
  set start : State (π × List Asked) σ := { policyState := (p, []), sinkState := t }
  have hstart : Accounted start.tallies := by
    refine ⟨fun before a behind hsplit => ?_, rfl, rfl, rfl⟩
    cases (List.append_eq_nil_iff.mp hsplit.symm).2
  obtain ⟨shown, hlog, haccounted, hshown, hmarkers⟩ := openAll_asks o options policy sink
    (visits setup .full) hstart
  obtain ⟨hopenings, hend, -⟩ := events_openAll ht .full (p, []) t
  have hasked : asked = shown := by
    have hrun : asked = (events setup .full (p, []) t).2.policyState.2 := rfl
    rw [hrun, hend, hlog]
    rfl
  have hos : os = (openAll setup .full (visits setup .full) start).1 := by
    rw [← hopenings]
    exact congrArg openings (events_alike h options .full (recording_agrees policy)
      (sinksAgree_refl sink) p (p, []) rfl t t rfl).1
  have hlaw := haccounted.law
  rw [show (openAll setup .full (visits setup .full) start).2.tallies.policyState.2 = _ from hlog]
    at hlaw
  rw [hasked, hos]
  exact ⟨hlaw, hshown, hmarkers⟩

/-- All sections give something to the page, in order. -/
theorem ids_openings {setup : Setup π σ} (h : Tree heads setup.outline.nodes) (target : Target)
    (p : π) (t : σ) :
    (openings (events setup target p t).1).flatMap Opening.ids = List.range setup.outline.size := by
  have hheadings := congrArg (List.map Prod.fst) (events_headings h target p t).1
  simp only [portions, List.map_map, List.map_flatMap, Function.comp_def, List.map_id'] at hheadings
  exact hheadings

/-- The lines that a policy is shown are those of all that is written. -/
theorem sum_sectionLines {o : Outline} {policy : AdPolicy π} {openings : List Opening}
    {asked : List Asked} (h : List.Forall₂ (AskedAt o policy) openings asked) :
    (asked.map fun a => a.slot.sectionLines).sum = linesOf o (openings.flatMap Opening.ids) := by
  induction h with
  | nil => rfl
  | cons ha _ ih =>
    rw [List.map_cons, List.sum_cons, ih, ha.lines, List.flatMap_cons, linesOf_append]

/-- **The slots that a policy is shown** are one for each section that is opened, and say what
they should.  All lines of the page are shown.  One advertisement is written for each slot
that was granted, and they are numbered in order. -/
theorem slots_exact {strictness : Strictness} {titled : Option (MetadataSink τ)}
    {calls : List Call} {u u' : τ} {o : Outline}
    (hb : buildWith strictness titled calls u = .ok (o, u'))
    (hcalls : ∀ c ∈ calls, c.tag.isAdMarker = false) (options : Options) (policy : AdPolicy π)
    (sink : Option (MetadataSink σ)) (p : π) (t : σ) :
    let plain := run ⟨o, options, some policy, sink⟩ .full p t
    let recorded := run ⟨o, options, some policy.recording, sink⟩ .full (p, []) t
    let es := (events ⟨o, options, some policy, sink⟩ .full p t).1
    let asked := slotsAsked o options policy sink p t
    -- who records the slots sees the same rendition
    (plain.1 = recorded.1 ∧ plain.2.1 = recorded.2.1.1 ∧ plain.2.2 = recorded.2.2) ∧
      plain.1.calls = es.flatMap (fun e => e.wrapper :: e.inner .full) ∧
      es.length = 2 * asked.length ∧ List.Forall₂ (AskedAt o policy) (openings es) asked ∧
      SlotLaw asked ∧
      (asked.map fun a => a.slot.sectionLines).sum = (o.sections.map Section.filledLines).sum ∧
      plain.1.calls.filter (fun c => c.tag.isAdMarker) =
        (List.range' 1 (asked.countP Asked.granted)).map adCall := by
  intro plain recorded es asked
  set setup : Setup π σ := ⟨o, options, some policy, sink⟩
  have ht : Tree _ setup.outline.nodes := (buildWith_sound hb).1
  obtain ⟨hlaw, hasked, hmarkers⟩ := events_asks o options policy sink ht p t
  obtain ⟨hopenings, -, hlength⟩ := events_openAll ht .full p t
  have hcount : (openings es).length = (visits setup .full).length :=
    (congrArg List.length hopenings).trans (length_openAll setup .full _ _)
  refine ⟨run_alike ht options .full (recording_agrees policy) (sinksAgree_refl sink) p (p, [])
    rfl t t rfl, ?_, ?_, hasked, hlaw, ?_, ?_⟩
  · show List.flatMap _ _ = List.flatMap _ _
    exact List.flatMap_congr fun e _ => Event.calls_eq .full e
  · rw [show es.length = _ from hlength, ← hcount, hasked.length_eq]
  · have hids : (openings es).flatMap Opening.ids = List.range o.size := ids_openings ht .full p t
    rw [sum_sectionLines hasked, hids]
    exact linesOf_range o
  · rw [← hmarkers]
    exact markers_of_run ht (lacks_of_build hb hcalls) .full p t

/-- A page of four sections with some lines of text each; the first one is merged into the
root. -/
def stories : List Call :=
  let heading (level : Int64) (label : String) : Call :=
    (((Call.special (.heading .atx)).withContext Call.outlineContext).withAttribute
      levelAttribute (.int level)).withPayload label
  [Call.text "Welcome", heading 1 "Home", Call.text "One\nTwo", heading 2 "News", Call.text "Three",
    heading 2 "Sports", Call.text "Four\n\nFive", heading 2 "Weather", Call.text "Six"]

/-- A policy that fails at the second slot and grants the others. -/
def failsOnce : AdPolicy Nat where
  decide _ n := (if n = 1 then .error "busy" else .ok true, n + 1)

theorem slots_exact_stories :
    ∃ o, buildWith .strict (none : Option (MetadataSink Unit)) stories () = .ok (o, ()) ∧
      (∀ c ∈ stories, c.tag.isAdMarker = false) ∧
      (slotsAsked o {} failsOnce (none : Option (MetadataSink Unit)) 0 ()).map Asked.slot =
        [⟨3, 3, 0, 0, false⟩, ⟨1, 1, 1, 1, false⟩, ⟨2, 3, 2, 1, false⟩, ⟨1, 1, 3, 2, true⟩] ∧
      (run (σ := Unit) ⟨o, {}, some failsOnce, none⟩ .full 0 ()).1.calls.filter
        (fun c => c.tag.isAdMarker) = [adCall 1, adCall 2, adCall 3] := by
  have hb : buildWith .strict (none : Option (MetadataSink Unit)) stories () = .ok (_, ()) := rfl
  have hcalls : ∀ c ∈ stories, c.tag.isAdMarker = false := by decide
  obtain ⟨-, -, -, -, -, -, hmarkers⟩ := slots_exact hb hcalls {} failsOnce
    (none : Option (MetadataSink Unit)) 0 ()
  exact ⟨_, hb, hcalls, by decide, hmarkers⟩

end Rendering

end WikiOutline
