/-
# The dynamic rendition keeps every call

Of a page that can be built strictly, the dynamic rendition wraps every section in a
division, two calls for each, and between them writes the page itself: every call in
its place, the heading calls with their levels and ids, the media inside headings
without links.  The sections hold the page in the order of their numbers
(`buildSections_filed`), and in that order they are opened (`events_openAll`).

Key definitions: `Rendering.Event.wrapper`, `Rendering.Event.inner`,
`Rendering.identified`.
Key theorem: `Rendering.dynamic_keeps_calls`.
-/
import WikiOutline.Proofs.Filing
import WikiOutline.Proofs.Headings
import WikiOutline.Proofs.TreeLaw

namespace WikiOutline

namespace Rendering

open Outline

variable {π σ τ : Type}

/-- The call that a rendition adds where a section is opened or closed. -/
def Event.wrapper : Event → Call
  | .opened o => (Call.enter .division).withAttribute levelAttribute (.ofNat o.level)
  | .closed => Call.exit .division

/-- All that is written with it. -/
def Event.inner (target : Target) (e : Event) : List Call := (e.calls target).tail

/-- The heading call of a section, given the id of the section. -/
def identified (o : Outline) (i : Nat) (c : Call) : Call :=
  c.giving "id" (.string (o.anchors.getD (i - 1) ""))

theorem identified_eq (o : Outline) (i : Nat) :
    identified o i = fun c => c.withAttribute "id" (.string (o.anchors.getD (i - 1) "")) :=
  funext fun c => (c.withAttribute_eq_giving _ _).symm

theorem Event.calls_eq (target : Target) :
    ∀ e : Event, e.calls target = e.wrapper :: e.inner target
  | .opened _ => rfl
  | .closed => rfl

/-! ### What the sections hold -/

/-- The sections with their numbers. -/
theorem zipIdx_sections (o : Outline) :
    o.sections.zipIdx = (List.range o.size).map fun i => (o.get i, i) := by
  refine List.ext_getElem (by simp [Outline.size]) fun i h1 h2 => ?_
  have hi : i < o.sections.length := by simpa using h1
  simp [Outline.get, hi]

theorem identified_heading {heads : List Call} {o : Outline} (h : Tree heads o.nodes) {i : Nat}
    (hi : i < o.size) : (o.get i).headingCalls.modifyHead (identified o i) = o.headed i := by
  rcases Nat.eq_zero_or_pos i with rfl | h0
  · rw [headed, (h.headingCalls_eq_nil hi).mpr rfl]
    rfl
  · rw [headed, identified_eq, h.anchors_getD h0 hi]

/-- The calls filed in the sections, section by section. -/
theorem filed_eq {heads : List Call} {o : Outline} (h : Tree heads o.nodes) :
    filed (identified o) o.sections =
      (List.range o.size).flatMap fun i => o.headed i ++ (o.get i).contentCalls := by
  rw [filed, zipIdx_sections, List.flatMap_map]
  refine List.flatMap_congr fun i hi => ?_
  rw [Section.calls, identified_heading h (List.mem_range.mp hi)]

/-! ### What is written -/

theorem arrange_dynamic (hasChildren : Bool) (heading content : List Call) :
    arrange .dynamic hasChildren heading content none none = heading ++ content := by
  have hd : (Target.dynamic == Target.full) = false := rfl
  cases hasChildren <;> simp [arrange, hd]

/-- In the dynamic rendition a section is opened with its heading and its text. -/
theorem Opens.inner_dynamic {setup : Setup π σ} {most i : Nat} {o : Opening}
    (h : Opens setup .dynamic most i o) (hm : o.merged = none) :
    (Event.opened o).inner .dynamic =
      setup.outline.headed i ++ (setup.outline.get i).contentCalls := by
  obtain ⟨hmarker, hbutton⟩ := h.added rfl
  show arrange .dynamic _ _ _ _ _ = _
  rw [hmarker, hbutton, h.portions hm, arrange_dynamic, List.flatMap_singleton,
    List.flatMap_singleton]

/-- Closing a section writes nothing else. -/
theorem inner_events (target : Target) : ∀ es : List Event,
    es.flatMap (Event.inner target) =
      (openings es).flatMap fun o => (Event.opened o).inner target
  | [] => rfl
  | .opened o :: es => by
    rw [List.flatMap_cons, inner_events target es]
    rfl
  | .closed :: es => by
    rw [List.flatMap_cons, inner_events target es]
    rfl

theorem inner_of_opens {setup : Setup π σ} {most : Nat} {ids : List Nat} {os : List Opening}
    (h : List.Forall₂ (fun j o => Opens setup .dynamic most j o ∧ o.merged = none) ids os) :
    os.map (fun o => o.own.id) = ids ∧
      os.flatMap (fun o => (Event.opened o).inner .dynamic) =
        ids.flatMap fun i => setup.outline.headed i ++ (setup.outline.get i).contentCalls := by
  induction h with
  | nil => exact ⟨rfl, rfl⟩
  | @cons i o ids os ho _ ih =>
    constructor
    · rw [List.map_cons, ih.1, ho.1.own]
    · rw [List.flatMap_cons, List.flatMap_cons, ih.2, ho.1.inner_dynamic ho.2]

/-- **The dynamic rendition of a page** opens and closes every section once, and
between these calls writes what becomes of the page, every call in its place and none
besides. -/
theorem dynamic_keeps_calls {sink : Option (MetadataSink τ)} {calls : List Call} {t t' : τ}
    {o : Outline} (h : buildWith .strict sink calls t = .ok (o, t')) (options : Options)
    (policy : Option (AdPolicy π)) (sink' : Option (MetadataSink σ)) (p : π) (s : σ) :
    let es := (events ⟨o, options, policy, sink'⟩ .dynamic p s).1
    (run ⟨o, options, policy, sink'⟩ .dynamic p s).1.calls =
        es.flatMap (fun e => e.wrapper :: e.inner .dynamic) ∧
      es.length = 2 * o.size ∧
      (openings es).map (fun op => op.own.id) = List.range o.size ∧
      es.flatMap (Event.inner .dynamic) = Reading.kept (identified o) {} calls ∧
      (Reading.kept (identified o) {} calls).length = calls.length := by
  obtain ⟨ht, -⟩ := buildWith_sound h
  obtain ⟨b, hb, hsections, -⟩ := Builder.buildWith_ok h
  set setup : Setup π σ := ⟨o, options, policy, sink'⟩
  have ht' : Tree _ setup.outline.nodes := ht
  obtain ⟨hopenings, -, hlength⟩ := events_openAll ht' .dynamic p s
  have hvisits : visits setup .dynamic = List.range' 0 o.size := rfl
  rw [hvisits] at hopenings hlength
  have hall := openAll_opens ht' .dynamic o.size 0 { policyState := p, sinkState := s }
    (Nat.zero_add _).le rfl (unmerged_all ht' rfl)
  rw [← hopenings] at hall
  obtain ⟨hids, hinner⟩ := inner_of_opens hall
  refine ⟨?_, ?_, ?_, ?_, Reading.length_kept _ _ _⟩
  · show List.flatMap _ _ = List.flatMap _ _
    exact List.flatMap_congr fun e _ => Event.calls_eq .dynamic e
  · rw [hlength, List.length_range']
  · rw [List.range_eq_range']
    exact hids
  · calc (events setup .dynamic p s).1.flatMap (Event.inner .dynamic)
        = (List.range o.size).flatMap fun i => o.headed i ++ (o.get i).contentCalls := by
          rw [inner_events, List.range_eq_range']
          exact hinner
      _ = filed (identified o) b.sections := by rw [← hsections, filed_eq ht]
      _ = Reading.kept (identified o) {} calls := buildSections_filed hb (identified o)

/-- A page with an image in its heading, which is given a level that skips some. -/
def imageInHeading : List Call :=
  [((Call.enter (.heading .atx)).withContext Call.outlineContext).withAttribute
      levelAttribute (.int 3),
    Call.special .media, Call.text "News", Call.exit (.heading .atx), Call.text "Today"]

theorem dynamic_keeps_image_in_heading :
    ∃ o, buildWith .strict (none : Option (MetadataSink Unit)) imageInHeading () = .ok (o, ()) ∧
      (events (π := Unit) (σ := Unit) ⟨o, {}, none, none⟩ .dynamic () ()).1.flatMap
          (Event.inner .dynamic) =
        [((((Call.enter (.heading .atx)).withContext Call.outlineContext).withAttribute
            levelAttribute (.int 1)).withAttribute
            declaredLevelAttribute (.int 3)).withAttribute "id" (.string "news"),
          (Call.special .media).withAttribute "linking" (.string "nolink"), Call.text "News",
          Call.exit (.heading .atx), Call.text "Today"] := by
  refine ⟨_, rfl, ?_⟩
  have hb : buildWith .strict (none : Option (MetadataSink Unit)) imageInHeading () =
      .ok (_, ()) := rfl
  obtain ⟨-, -, -, h, -⟩ := dynamic_keeps_calls hb {} (none : Option (AdPolicy Unit))
    (none : Option (MetadataSink Unit)) () ()
  exact h

end Rendering

end WikiOutline
