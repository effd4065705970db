/-
# Links and their targets

The table of contents links to the ids that the renditions write: all of them write
the same sections in the same order, each heading once and with the same id, whatever
else they add, and an edit button carries the id of its own section.  The ids of a page
are distinct just when no base reads like another one with a number; then all links lead
to their own headings.

Key definitions: `Rendering.Portion.anchor?`, `Rendering.anchorsWritten`.
Key theorems: `Rendering.links_agree`, `Rendering.anchors_distinct_iff`.
-/
import WikiOutline.Proofs.Origins

namespace WikiOutline

namespace Rendering

open Outline HeadingIds

variable {π σ τ : Type}

/-- The id written on the first call of a heading. -/
def Portion.anchor? (q : Portion) : Option String :=
  q.heading.head?.bind fun c => c.attributes.getString? "id"

/-- The ids written in a rendition, each with the section it is written for. -/
def anchorsWritten (es : List Event) : List (Nat × String) :=
  (portions es).filterMap fun q => q.anchor?.map (q.id, ·)

/-! ### The table of contents -/

theorem contentsFrom_eq (o : Outline) : ∀ (ids : HeadingIds) (sections : List Nat),
    contentsFrom o ids sections =
      let headed := sections.filter fun i => !(o.get i).isRoot
      (headed.zip (ids.assignAll (headed.map o.request))).map fun ia =>
        ⟨"#" ++ ia.2, (o.get ia.1).label, (o.get ia.1).level⟩
  | _, [] => rfl
  | ids, i :: rest => by
    cases hr : (o.get i).isRoot with
    | true =>
      simp only [contentsFrom, hr, List.filter_cons, Bool.not_true, Bool.false_eq_true, ↓reduceIte]
      exact contentsFrom_eq o ids rest
    | false =>
      simp only [contentsFrom, hr, List.filter_cons, Bool.not_false, Bool.false_eq_true,
        ↓reduceIte, List.map_cons, assignAll, List.zip_cons_cons]
      exact congrArg _ (contentsFrom_eq o _ rest)

/-- The table of contents has a line for every section but the root, with its id. -/
theorem contents_eq (o : Outline) :
    contents o = (o.headedSections.zip o.anchors).map fun ia =>
      ⟨"#" ++ ia.2, (o.get ia.1).label, (o.get ia.1).level⟩ :=
  contentsFrom_eq o {} o.preOrder

theorem length_assignAll : ∀ (ids : HeadingIds) (requests : List (Option String × String)),
    (ids.assignAll requests).length = requests.length
  | _, [] => rfl
  | ids, r :: rs => congrArg (· + 1) (length_assignAll (ids.assign r.1 r.2).2 rs)

theorem length_anchors (o : Outline) : o.anchors.length = o.headedSections.length := by
  rw [Outline.anchors, length_assignAll, List.length_map]

/-- Different ids have different links. -/
theorem link_injective : Function.Injective ("#" ++ · : String → String) := fun a b hab => by
  have h := congrArg String.toList hab
  simp only [String.toList_append, List.append_cancel_left_eq] at h
  exact String.toList_injective h

theorem contents_links (o : Outline) :
    (contents o).map ContentsEntry.link = o.anchors.map ("#" ++ ·) := by
  calc (contents o).map ContentsEntry.link
      = ((o.headedSections.zip o.anchors).map Prod.snd).map ("#" ++ ·) := by
        rw [contents_eq, List.map_map, List.map_map]
        rfl
    _ = o.anchors.map ("#" ++ ·) := by
        rw [List.map_snd_zip (le_of_eq (length_anchors o))]

/-! ### What a rendition writes -/

/-- A heading with its id has it written on its first call. -/
theorem anchor?_of_headed {heads : List Call} {o : Outline} (h : Tree heads o.nodes) {i : Nat}
    (hi : i < o.size) (content : List Call) :
    (Portion.mk i (o.headed i) content).anchor? = if i = 0 then none else some (o.anchor i) := by
  have hnil := h.headingCalls_eq_nil hi
  unfold Portion.anchor? headed
  cases hc : (o.get i).headingCalls with
  | nil => simp [hnil.mp hc]
  | cons c cs =>
    have hne : i ≠ 0 := fun h0 => by
      rw [hnil.mpr h0] at hc
      cases hc
    rw [if_neg hne, List.modifyHead_cons]
    exact Attributes.getString?_set_string _ _ _

/-- The ids written in a rendition are those of all sections but the root, in order. -/
theorem anchorsWritten_events {heads : List Call} {setup : Setup π σ}
    (h : Tree heads setup.outline.nodes) (target : Target) (p : π) (s : σ) :
    anchorsWritten (events setup target p s).1 =
      setup.outline.headedSections.zip setup.outline.anchors := by
  set o := setup.outline
  have hsize : o.size = heads.length + 1 := h.size
  have hwritten : ∀ i ∈ List.range' 1 (o.size - 1),
      ((Portion.mk i (o.headed i) []).anchor?).map (i, ·) = some (i, o.anchor i) := fun i hi => by
    have hi := List.mem_range'_1.mp hi
    rw [anchor?_of_headed h (by omega), if_neg (by omega)]
    rfl
  calc anchorsWritten (events setup target p s).1
      = ((portions (events setup target p s).1).map fun q => (q.id, q.heading)).filterMap
          fun ih => ((Portion.mk ih.1 ih.2 []).anchor?).map (ih.1, ·) := by
        rw [List.filterMap_map]
        rfl
    _ = (List.range o.size).filterMap
          fun i => ((Portion.mk i (o.headed i) []).anchor?).map (i, ·) := by
        rw [(events_headings h target p s).1, List.filterMap_map]
        rfl
    _ = (List.range' 1 (o.size - 1)).filterMap
          fun i => ((Portion.mk i (o.headed i) []).anchor?).map (i, ·) := by
        rw [List.range_eq_range', hsize, List.range'_succ, List.filterMap_cons_none]
        · rfl
        · rw [anchor?_of_headed h (by omega), if_pos rfl]
          rfl
    _ = (List.range' 1 (o.size - 1)).map fun i => (i, o.anchor i) := by
        rw [List.filterMap_congr hwritten, List.filterMap_eq_map']
    _ = o.headedSections.zip o.anchors := by
        rw [h.headedSections_eq, h.anchors_eq, List.map_prod_left_eq_zip]

/-- **Links agree with their targets.**  The table of contents has a line for each
section but the root, in the order of the page; and among the calls of any rendition the
heading of each of these sections stands once, in the same order, with the id that its line
links to on the first call, and every edit button that the rendition adds carries the id of
the section behind whose heading it stands. -/
theorem links_agree {strictness : Strictness} {sink : Option (MetadataSink τ)} {calls : List Call}
    {t t' : τ} {o : Outline} (h : buildWith strictness sink calls t = .ok (o, t')) :
    ∃ ids : Nat → String,
      o.headedSections = List.range' 1 (o.size - 1) ∧
      contents o = o.headedSections.map (fun i =>
        ⟨"#" ++ ids i, (o.get i).label, (o.get i).level⟩) ∧
      ∀ (options : Options) (policy : Option (AdPolicy π)) (sink' : Option (MetadataSink σ))
        (target : Target) (p : π) (s : σ),
        Composes o options ids o.headedSections (List.range o.size)
          (run ⟨o, options, policy, sink'⟩ target p s).1.calls := by
  obtain ⟨ht, -⟩ := buildWith_sound h
  have hanchors : o.anchors = o.headedSections.map o.anchor := by
    rw [ht.anchors_eq, ht.headedSections_eq]
  refine ⟨o.anchor, ht.headedSections_eq, ?_, fun options policy sink' target p s => ?_⟩
  · calc contents o
        = (o.headedSections.zip o.anchors).map fun ia =>
            ⟨"#" ++ ia.2, (o.get ia.1).label, (o.get ia.1).level⟩ := contents_eq o
      _ = (o.headedSections.map fun i => (i, o.anchor i)).map fun ia =>
            ⟨"#" ++ ia.2, (o.get ia.1).label, (o.get ia.1).level⟩ := by
          rw [hanchors, List.map_prod_left_eq_zip]
      _ = o.headedSections.map fun i => ⟨"#" ++ o.anchor i, (o.get i).label, (o.get i).level⟩ :=
          List.map_map
  · have ht' : Tree _ (Setup.mk o options policy sink').outline.nodes := ht
    exact composes_run ht' target p s

/-- A page with two headings of the same label, one below the other. -/
def twoHeadings : List Call :=
  [(((Call.special (.heading .atx)).withContext Call.outlineContext).withAttribute
      levelAttribute (.int 1)).withPayload "News",
    Call.text "Today",
    ((((Call.special (.heading .atx)).withContext Call.outlineContext).withAttribute
      levelAttribute (.int 2)).withPayload "News").withSpan 9 14]

theorem links_agree_two_headings :
    ∃ o, buildWith .strict (none : Option (MetadataSink Unit)) twoHeadings () = .ok (o, ()) ∧
      contents o = [⟨"#news", "News", 1⟩, ⟨"#news-1", "News", 2⟩] ∧
      ∃ ids : Nat → String, ids 1 = "news" ∧ ids 2 = "news-1" ∧ ∀ target,
        Composes o {} ids [1, 2] [0, 1, 2]
          (run (π := Unit) (σ := Unit) ⟨o, {}, none, none⟩ target () ()).1.calls := by
  have hb : buildWith .strict (none : Option (MetadataSink Unit)) twoHeadings () = .ok (_, ()) :=
    rfl
  obtain ⟨ids, -, hcontents, hall⟩ := links_agree (π := Unit) (σ := Unit) hb
  refine ⟨_, hb, by rfl, ids, ?_, ?_, fun target => hall {} none none target () ()⟩
  · have hlink := congrArg (fun lines => (lines.map ContentsEntry.link)[0]?) hcontents
    exact link_injective (Option.some.inj hlink).symm
  · have hlink := congrArg (fun lines => (lines.map ContentsEntry.link)[1]?) hcontents
    exact link_injective (Option.some.inj hlink).symm

/-! ### Distinct ids -/

/-- **When the ids of a page are distinct**: just when no base reads like another one
with a number, be it in a sequence of headings, in a table of contents or in a
rendition. -/
theorem anchors_distinct_iff (strictness : Strictness) (sink : Option (MetadataSink τ))
    (calls : List Call) (t : τ) :
    (∀ requests : List (Option String × String),
      (assignAll {} requests).Nodup ↔ Anchor.Apart (basesOf requests)) ∧
    (∀ o : Outline, ((contents o).map ContentsEntry.link).Nodup ↔
      Anchor.Apart (basesOf (o.headedSections.map o.request))) ∧
    match buildWith strictness sink calls t with
    | .ok (o, _) => ∀ (options : Options) (policy : Option (AdPolicy π))
        (sink' : Option (MetadataSink σ)) (target : Target) (p : π) (s : σ),
        ((anchorsWritten (events ⟨o, options, policy, sink'⟩ target p s).1).map Prod.snd).Nodup ↔
          Anchor.Apart (basesOf (o.headedSections.map o.request))
    | .error _ => True := by
  refine ⟨assignAll_nodup_iff, fun o => ?_, ?_⟩
  · rw [contents_links, List.nodup_map_iff link_injective]
    exact assignAll_nodup_iff _
  · split
    · rename_i o t' hb
      obtain ⟨ht, -⟩ := buildWith_sound hb
      intro options policy sink' target p s
      have hw : anchorsWritten (events ⟨o, options, policy, sink'⟩ target p s).1 =
          o.headedSections.zip o.anchors := anchorsWritten_events ht target p s
      rw [hw, List.map_snd_zip (le_of_eq (length_anchors o))]
      exact assignAll_nodup_iff _
    · trivial

/-- The third label reads like the second one's id. -/
theorem anchors_clash :
    ¬ ∀ requests : List (Option String × String), (assignAll {} requests).Nodup := by
  intro h
  have hids : assignAll {} [(none, "Usage"), (none, "Usage"), (none, "Usage 1")] =
      ["usage", "usage-1", "usage-1"] := by decide
  have hn := h [(none, "Usage"), (none, "Usage"), (none, "Usage 1")]
  rw [hids] at hn
  revert hn
  decide

end Rendering

end WikiOutline
