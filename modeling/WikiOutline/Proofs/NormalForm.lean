/-
# A page in normal form

The dynamic rendition of a page, without its divisions, is the page again with the levels
and ids written out.  If no two ids are equal, it is in normal form: built and rendered
once more it gives the same sections and the same calls (`Rendering.dynamic_again`).  For
what the first pass has written the second one reads: a level that skips some is read as
the level it was corrected to, and an id that was given out is an explicit one.

Key definitions: `Outline.rewriting`, `Outline.SameSections`.
Key theorems: `Outline.rewriting_lawful`, `Outline.buildSections_again`,
`Rendering.dynamic_congr`, `Rendering.dynamic_again`.
-/
import WikiOutline.Proofs.Completion
import WikiOutline.Proofs.Copies
import WikiOutline.Proofs.Shape

namespace WikiOutline

/-- The tag is a division. -/
def Tag.isDivision : Tag → Bool
  | .division => true
  | _ => false

namespace Outline

open Builder Reading Rendering

/-- How the build of a page in normal form is a copy of the one that it comes from. -/
def rewriting (o : Outline) : Copying where
  front root := [root]
  shift := 0
  declared := fun _ level => level
  mark := identified o
  write := written (identified o)
  notes := fun _ => []
  maxEndPos := none

/-! ### What is written is read again -/

/-- The level that a heading is given is written into its first call. -/
theorem get?_written_level (o : Outline) {r : Reading} {c : Call} (hs : r.starts c = true) :
    (r.written (identified o) c).attributes.get? levelAttribute =
      some (.ofNat (effectiveLevel r.level c)) := by
  have hkey : levelAttribute ≠ "id" := by decide
  rw [written_of_starts _ hs, identified_eq, Call.get?_withAttribute_ne _ _ hkey]
  exact Call.get?_withAttribute_self _ _ _

theorem getInt?_written_level (o : Outline) {r : Reading} {c : Call} (hs : r.starts c = true)
    (hc : c.attributes.getInt? levelAttribute ≠ none) :
    (r.written (identified o) c).attributes.getInt? levelAttribute =
      some (effectiveLevel r.level c : Int) := by
  have hle : (effectiveLevel r.level c : Int) ≤ Word.maxInt := by
    have hread := levelRead_le 0 c
    have hmax : (0 : Int) ≤ Word.maxInt := by decide
    rw [effectiveLevel, levelRead_congr hc r.level 0]
    omega
  obtain ⟨w, hw, hint⟩ := AttributeValue.ofNat_eq_int hle
  rw [Attributes.getInt?, get?_written_level o hs, hw]
  exact congrArg some hint

/-- **A heading is read at the level that was written into it.** -/
theorem levelRead_written (o : Outline) {r : Reading} {c : Call} (hs : r.starts c = true)
    (hc : c.attributes.getInt? levelAttribute ≠ none) :
    levelRead r.level (r.written (identified o) c) = effectiveLevel r.level c := by
  unfold levelRead
  rw [getInt?_written_level o hs hc]
  simp only
  rw [if_pos (by exact_mod_cast one_le_effectiveLevel r.level c), Int.toNat_natCast]

theorem effectiveLevel_written (o : Outline) {r : Reading} {c : Call} (hs : r.starts c = true)
    (hc : c.attributes.getInt? levelAttribute ≠ none) :
    effectiveLevel r.level (r.written (identified o) c) = effectiveLevel r.level c := by
  rw [effectiveLevel, levelRead_written o hs hc]
  exact min_eq_left (min_le_right _ _)

theorem leveled_self (c : Call) (level : Nat) :
    leveled c level level = c.withAttribute levelAttribute (.ofNat level) := by
  unfold leveled
  rw [if_pos rfl]

/-- Nothing is noted about a level that was written. -/
theorem findings_written (o : Outline) {r : Reading} {c : Call} (hs : r.starts c = true)
    (hc : c.attributes.getInt? levelAttribute ≠ none) :
    levelFindings r.level (r.written (identified o) c) = [] := by
  unfold levelFindings
  rw [getInt?_written_level o hs hc]
  simp only
  rw [if_pos (by exact_mod_cast one_le_effectiveLevel r.level c)]

theorem rewriting_place (o : Outline) (i : Nat) : (rewriting o).place i = i := by
  show further 0 i = i
  unfold further
  split <;> omega

/-- **A page in normal form** is built as the page that it comes from. -/
theorem rewriting_lawful (o : Outline) : (rewriting o).Lawful where
  front_length _ := rfl
  front_child r i := by
    rw [rewriting_place]
    rfl
  mark_text _ _ := rfl
  write_eq r c := by
    have hmark : ∀ i c, ({ identified o i c with attributes := {} } : Call) =
        { c with attributes := {} } := fun _ _ => rfl
    have hview := view_written (f := fun c => { c with attributes := {} }) (fun _ _ _ => rfl)
      hmark r c
    show r.written (identified o) c =
      { c with attributes := (r.written (identified o) c).attributes }
    rcases hd : r.written (identified o) c with ⟨tag, state, attributes, _, _, _, _⟩
    rw [hd] at hview
    exact congrArg (fun e : Call => { e with attributes := attributes }) hview
  outside r c hd hs := written_of_outside (identified o) hs hd
  inside r c hd := by
    have hst : r.starts c = false := starts_of_depth hd c
    show Copying.unlinked (r.written (identified o) c) = Copying.unlinked c
    rw [written_eq, hst]
    cases hmedia : c.tag.isMedia with
    | false => simp
    | true =>
      have hmedia' : (c.withAttribute "linking" (.string "nolink")).tag.isMedia = true := hmedia
      simp [hd, hmedia, hmedia', Copying.unlinked]
  starts r c hs hc := by
    have hlevel := getInt?_written_level o hs hc
    have hread := levelRead_written o hs hc
    constructor
    · exact hlevel ▸ Option.some_ne_none _
    · exact effectiveLevel_written o hs hc
    · exact hread
    · show leveled (r.written (identified o) c) (levelRead r.level (r.written (identified o) c))
        (effectiveLevel r.level c) = identified o (r.number + 1) _
      rw [hread, leveled_self, Call.withAttribute_eq_self (get?_written_level o hs),
        written_of_starts _ hs]
    · intro ds
      show [] = [] ++ levelFindings r.level (r.written (identified o) c) ++
        (skip? r.level (r.written (identified o) c)).toList
      have hle : effectiveLevel r.level c ≤ r.level + 1 := min_le_right _ _
      rw [findings_written o hs hc, skip?, hread, if_neg (Nat.not_lt.mpr hle)]
      rfl

theorem rewriting_page (o : Outline) : ∀ (r : Reading) (calls : List Call),
    (rewriting o).page r calls = kept (identified o) r calls
  | _, [] => rfl
  | r, c :: calls => by
    rw [Copying.page, rewriting_page o (r.after c) calls]
    rfl

theorem rewriting_plain (o : Outline) : (rewriting o).Plain := ⟨rfl, fun _ => rfl⟩

/-- What becomes of a section: its heading is rewritten, and the level that it has is the
one that it is given. -/
theorem rewriting_image (o : Outline) (i : Nat) (s : Section) :
    (rewriting o).image i s = { s with
      declaredLevel := s.level
      headingCalls := s.headingCalls.modifyHead (identified o i) } := by
  have hplace : (rewriting o).place = id := funext (rewriting_place o)
  unfold Copying.image
  rw [hplace, List.map_id, Option.map_id]
  rfl

/-- **A page in normal form is built again.** -/
theorem buildSections_again {calls : List Call} {b : Builder}
    (h : buildSections .strict calls = .ok b) (o : Outline) :
    ∃ b', buildSections .strict (kept (identified o) {} calls) = .ok b' ∧
      Copies (rewriting o) b b' := by
  obtain ⟨hr, ho⟩ := buildSections_strict_iff.mp h
  have hinit : Copies (rewriting o) { strictness := .strict } { strictness := .strict } :=
    ⟨rfl, rfl, rfl, fun _ => rfl, ⟨rfl, rfl⟩, rfl, rfl⟩
  obtain ⟨b', hr', hcopies⟩ := hr.copies (rewriting_lawful o) hinit (sound_init .strict)
    (sound_init .strict) (.inr (rewriting_plain o))
  rw [rewriting_page] at hr'
  exact ⟨b', buildSections_strict_iff.mpr ⟨hr', hcopies.openHeading.trans ho⟩, hcopies⟩

/-! ### The sections of both builds -/

/-- The second outline has the sections of the first one, whatever their headings. -/
structure SameSections (o o' : Outline) : Prop where
  size : o'.size = o.size
  level : ∀ i, (o'.get i).level = (o.get i).level
  parent : ∀ i, (o'.get i).parent = (o.get i).parent
  children : ∀ i, (o'.get i).children = (o.get i).children
  label : ∀ i, (o'.get i).label = (o.get i).label
  startPos : ∀ i, (o'.get i).startPos = (o.get i).startPos
  endPos : ∀ i, (o'.get i).endPos = (o.get i).endPos
  contentCalls : ∀ i, (o'.get i).contentCalls = (o.get i).contentCalls

section Sections

variable {o o₁ o₂ : Outline}

theorem get_again (h : o₂.sections = (rewriting o).sections o₁.sections) {i : Nat} (hi : 0 < i)
    (hlt : i < o₁.size) : o₂.get i = { o₁.get i with
      declaredLevel := (o₁.get i).level
      headingCalls := (o₁.get i).headingCalls.modifyHead (identified o i) } := by
  have hget : o₂.sections[i]? = o₁.sections[i]?.map ((rewriting o).image i) := by
    rw [h]
    exact Copying.getElem?_sections (rewriting_lawful o) o₁.sections hi
  rw [List.getElem?_eq_getElem (show i < o₁.sections.length from hlt), Option.map_some,
    rewriting_image] at hget
  rw [Outline.get, Outline.get, List.getD_eq_getElem?_getD, hget, List.getD_eq_getElem _ _ hlt]
  rfl

theorem get_again_root (h : o₂.sections = (rewriting o).sections o₁.sections) :
    o₂.get 0 = o₁.get 0 := by
  rw [Outline.get, Outline.get, h]
  unfold Copying.sections
  cases o₁.sections <;> rfl

theorem size_again (h : o₂.sections = (rewriting o).sections o₁.sections) (hpos : 0 < o₁.size) :
    o₂.size = o₁.size := by
  have hne : o₁.sections ≠ [] := List.ne_nil_of_length_pos hpos
  rw [Outline.size, h, Copying.length_sections (rewriting_lawful o) hne]
  rfl

/-- A view that sees neither the headings nor the levels given sees the same sections. -/
theorem view_again (h : o₂.sections = (rewriting o).sections o₁.sections) (hpos : 0 < o₁.size)
    {β : Type} (g : Section → β)
    (hg : ∀ s declaredLevel headingCalls, g { s with declaredLevel, headingCalls } = g s)
    (i : Nat) : g (o₂.get i) = g (o₁.get i) := by
  rcases Nat.eq_zero_or_pos i with rfl | hi
  · rw [get_again_root h]
  · rcases Nat.lt_or_ge i o₁.size with hlt | hge
    · rw [get_again h hi hlt]
      exact hg _ _ _
    · rw [get_eq_root hge, get_eq_root (by rwa [size_again h hpos])]

theorem sameSections_again (h : o₂.sections = (rewriting o).sections o₁.sections)
    (hpos : 0 < o₁.size) : SameSections o₁ o₂ where
  size := size_again h hpos
  level := view_again h hpos Section.level fun _ _ _ => rfl
  parent := view_again h hpos Section.parent fun _ _ _ => rfl
  children := view_again h hpos Section.children fun _ _ _ => rfl
  label := view_again h hpos Section.label fun _ _ _ => rfl
  startPos := view_again h hpos Section.startPos fun _ _ _ => rfl
  endPos := view_again h hpos Section.endPos fun _ _ _ => rfl
  contentCalls := view_again h hpos Section.contentCalls fun _ _ _ => rfl

end Sections

/-! ### The ids of both builds -/

theorem anchor_ne_empty (o : Outline) (i : Nat) : o.anchor i ≠ "" := by
  have hexplicit : (o.get i).explicitId? ≠ some "" := by
    unfold Section.explicitId?
    split
    · exact Option.some_ne_none _ ∘ Eq.symm
    · intro he
      have hfilled := (Option.filter_eq_some_iff.mp he).2
      cases hfilled
  exact Anchor.numbered_ne_empty (Anchor.base_ne_empty hexplicit _) _

section Ids

variable {heads heads' : List Call} {o o' : Outline}

/-- An id that was given out is an explicit one. -/
theorem explicitId?_again (ht : Tree heads o.nodes)
    (h : o'.sections = (rewriting o).sections o.sections) {i : Nat} (hi : 0 < i)
    (hlt : i < o.size) : (o'.get i).explicitId? = some (o.anchor i) := by
  have hne : (o.get i).headingCalls ≠ [] := fun hnil =>
    Nat.ne_of_gt hi ((ht.headingCalls_eq_nil hlt).mp hnil)
  obtain ⟨c, cs, hcalls⟩ := List.exists_cons_of_ne_nil hne
  have hid : (identified o i c).attributes.getString? "id" = some (o.anchor i) := by
    rw [← ht.anchors_getD hi hlt, identified_eq]
    exact Attributes.getString?_set_string _ _ _
  rw [get_again h hi hlt, Section.explicitId?]
  simp only [hcalls, List.modifyHead_cons, hid]
  exact Option.filter_eq_some_iff.mpr ⟨rfl, by simpa using anchor_ne_empty o i⟩

/-- **The ids are given out again**, as they are explicit now. -/
theorem anchors_again (ht : Tree heads o.nodes) (ht' : Tree heads' o'.nodes)
    (h : o'.sections = (rewriting o).sections o.sections) (hnodup : o.anchors.Nodup) :
    o'.anchors = o.anchors := by
  have hsize : o'.size = o.size := size_again h ht.size_pos
  have hbases : HeadingIds.basesOf (o'.headedSections.map o'.request) = o.anchors := by
    rw [ht'.headedSections_eq, ht.anchors_eq, HeadingIds.basesOf, List.map_map, hsize]
    refine List.map_congr_left fun i hi => ?_
    obtain ⟨h1, h2⟩ := List.mem_range'_1.mp hi
    show Anchor.base (o'.get i).explicitId? _ = _
    rw [explicitId?_again ht h (by omega) (by omega)]
    rfl
  rw [anchors, HeadingIds.assignAll_of_nodup (hbases ▸ hnodup), hbases]

theorem headed_again (ht : Tree heads o.nodes) (ht' : Tree heads' o'.nodes)
    (h : o'.sections = (rewriting o).sections o.sections) (hnodup : o.anchors.Nodup) {i : Nat}
    (hlt : i < o.size) : o'.headed i = o.headed i := by
  have hlt' : i < o'.size := by rwa [size_again h ht.size_pos]
  rcases Nat.eq_zero_or_pos i with rfl | hi
  · rw [headed, headed, (ht.headingCalls_eq_nil hlt).mpr rfl,
      (ht'.headingCalls_eq_nil hlt').mpr rfl]
    rfl
  · have hanchor : o'.anchor i = o.anchor i := by
      rw [← ht'.anchors_getD hi hlt', anchors_again ht ht' h hnodup, ht.anchors_getD hi hlt]
    have hmark : identified o i = fun c => c.withAttribute "id" (.string (o.anchor i)) := by
      rw [identified_eq, ht.anchors_getD hi hlt]
    rw [headed, headed, hanchor, get_again h hi hlt, hmark]
    cases (o.get i).headingCalls with
    | nil => rfl
    | cons c cs =>
      simp only [List.modifyHead_cons, Call.withAttribute_twice]

end Ids

end Outline

namespace Rendering

open Outline

variable {π σ π' σ' : Type}

/-! ### The calls of both renditions -/

/-- The event opens a section. -/
def Event.isOpening : Event → Bool
  | .opened _ => true
  | .closed => false

/-- When sections are opened and closed depends on the subsections alone. -/
theorem performs_shape {setup : Setup π σ} {setup' : Setup π' σ'}
    (hchildren : ∀ i, (setup'.outline.get i).children = (setup.outline.get i).children)
    {todo : List Step} {s s₁ : State π σ} {es : List Event}
    (h : Performs setup .dynamic todo s es s₁) :
    ∀ {s' s₁' : State π' σ'} {es' : List Event}, Performs setup' .dynamic todo s' es' s₁' →
      es'.map Event.isOpening = es.map Event.isOpening := by
  induction h with
  | done =>
    intro s' s₁' es' h'
    rw [h'.of_nil.1]
  | @opening id todo s s₁ es _ ih =>
    intro s' s₁' es' h'
    obtain ⟨rest, rfl, hrest⟩ := h'.of_opening
    have hsame : (openSection setup' .dynamic s' id).1.children =
        (openSection setup .dynamic s id).1.children := by
      rw [openSection_children rfl, openSection_children rfl, hchildren]
    rw [hsame] at hrest
    rw [List.map_cons, List.map_cons, ih hrest]
    rfl
  | @closing todo s s₁ es _ ih =>
    intro s' s₁' es' h'
    obtain ⟨rest, rfl, hrest⟩ := h'.of_closing
    rw [List.map_cons, List.map_cons, ih hrest]

/-- What is written is known from when sections are opened and what is written there. -/
theorem calls_of_shape (target : Target) : ∀ {es es' : List Event},
    es'.map Event.isOpening = es.map Event.isOpening →
    (openings es').map (Opening.calls target) = (openings es).map (Opening.calls target) →
    es'.flatMap (Event.calls target) = es.flatMap (Event.calls target)
  | [], [], _, _ => rfl
  | .opened o :: es, .opened o' :: es', hshape, hcalls => by
    obtain ⟨hfirst, hrest⟩ := List.cons.inj hcalls
    rw [List.flatMap_cons, List.flatMap_cons,
      calls_of_shape target (List.cons.inj hshape).2 hrest]
    exact congrArg (· ++ _) hfirst
  | .closed :: es, .closed :: es', hshape, hcalls => by
    rw [List.flatMap_cons, List.flatMap_cons,
      calls_of_shape target (List.cons.inj hshape).2 hcalls]
  | .opened _ :: _, .closed :: _, hshape, _ => by cases (List.cons.inj hshape).1
  | .closed :: _, .opened _ :: _, hshape, _ => by cases (List.cons.inj hshape).1
  | [], _ :: _, hshape, _ => by cases hshape
  | _ :: _, [], hshape, _ => by cases hshape

theorem Opens.calls_dynamic {setup : Setup π σ} {most i : Nat} {o : Opening}
    (h : Opens setup .dynamic most i o) (hm : o.merged = none) :
    o.calls .dynamic = divisionOf setup.outline i ::
      (setup.outline.headed i ++ (setup.outline.get i).contentCalls) := by
  rw [← h.inner_dynamic hm, divisionOf, ← h.level]
  rfl

theorem calls_of_opens {setup : Setup π σ} {most : Nat} {ids : List Nat} {os : List Opening}
    (h : List.Forall₂ (fun j o => Opens setup .dynamic most j o ∧ o.merged = none) ids os) :
    os.map (Opening.calls .dynamic) = ids.map fun i => divisionOf setup.outline i ::
      (setup.outline.headed i ++ (setup.outline.get i).contentCalls) := by
  induction h with
  | nil => rfl
  | cons ho _ ih => rw [List.map_cons, List.map_cons, ih, ho.1.calls_dynamic ho.2]

/-- Where a section is opened, the dynamic rendition writes its division, its heading and
its text. -/
theorem openings_dynamic {heads : List Call} {setup : Setup π σ}
    (h : Tree heads setup.outline.nodes) (p : π) (s : σ) :
    (openings (events setup .dynamic p s).1).map (Opening.calls .dynamic) =
      (List.range' 0 setup.outline.size).map fun i => divisionOf setup.outline i ::
        (setup.outline.headed i ++ (setup.outline.get i).contentCalls) := by
  rw [openings, (events_openAll h .dynamic p s).1]
  exact calls_of_opens (openAll_opens h .dynamic setup.outline.size 0 _ (Nat.zero_add _).le rfl
    (unmerged_all h rfl))

/-- **The dynamic rendition** is known from the sections and their headings with ids: it
depends on nothing else of an outline, and not on who helps to render it. -/
theorem dynamic_congr {heads heads' : List Call} {o o' : Outline} (ht : Tree heads o.nodes)
    (ht' : Tree heads' o'.nodes) (hsame : SameSections o o')
    (hheaded : ∀ i < o.size, o'.headed i = o.headed i) (options options' : Options)
    (policy : Option (AdPolicy π)) (policy' : Option (AdPolicy π'))
    (sink : Option (MetadataSink σ)) (sink' : Option (MetadataSink σ')) (p : π) (p' : π') (s : σ)
    (s' : σ') :
    (run ⟨o', options', policy', sink'⟩ .dynamic p' s').1.calls =
      (run ⟨o, options, policy, sink⟩ .dynamic p s).1.calls := by
  set setup : Setup π σ := ⟨o, options, policy, sink⟩
  set setup' : Setup π' σ' := ⟨o', options', policy', sink'⟩
  have ht : Tree _ setup.outline.nodes := ht
  have ht' : Tree _ setup'.outline.nodes := ht'
  have hshape := performs_shape hsame.children
    (events_performs ht .dynamic p s) (events_performs ht' .dynamic p' s')
  show (events setup' .dynamic p' s').1.flatMap _ = (events setup .dynamic p s).1.flatMap _
  refine calls_of_shape .dynamic hshape ?_
  rw [openings_dynamic ht p s, openings_dynamic ht' p' s']
  show (List.range' 0 o'.size).map _ = (List.range' 0 o.size).map _
  rw [hsame.size]
  refine List.map_congr_left fun i hi => ?_
  have hi : i < o.size := by
    have := List.mem_range'_1.mp hi
    omega
  show divisionOf o' i :: (o'.headed i ++ (o'.get i).contentCalls) =
    divisionOf o i :: (o.headed i ++ (o.get i).contentCalls)
  rw [hheaded i hi, hsame.contentCalls, divisionOf, divisionOf, hsame.level]

/-! ### The page in normal form -/

/-- The calls without the divisions among them. -/
def withoutDivisions (cs : List Call) : List Call := cs.filter fun c => !c.tag.isDivision

/-- **Without its divisions** the dynamic rendition of a page is what becomes of the page. -/
theorem withoutDivisions_dynamic {τ : Type} {sink : Option (MetadataSink τ)} {calls : List Call}
    {t t' : τ} {o : Outline} (h : buildWith .strict sink calls t = .ok (o, t'))
    (hplain : ∀ c ∈ calls, c.tag.isDivision = false) (options : Options)
    (policy : Option (AdPolicy π)) (sink' : Option (MetadataSink σ)) (p : π) (s : σ) :
    withoutDivisions (run ⟨o, options, policy, sink'⟩ .dynamic p s).1.calls =
      Reading.kept (identified o) {} calls := by
  obtain ⟨hcalls, -, -, hinner, -⟩ := dynamic_keeps_calls h options policy sink' p s
  set es := (events ⟨o, options, policy, sink'⟩ .dynamic p s).1
  have hmark : ∀ i c, (identified o i c).tag.isDivision = c.tag.isDivision := fun _ _ => rfl
  have hkept : ∀ c ∈ Reading.kept (identified o) {} calls, c.tag.isDivision = false := by
    intro c hc
    have hview := Reading.map_kept (f := fun c => c.tag.isDivision) (fun _ _ _ => rfl) hmark {}
      calls
    obtain ⟨d, hd, heq⟩ := List.mem_map.mp (hview ▸ List.mem_map_of_mem hc)
    exact heq.symm.trans (hplain d hd)
  rw [hcalls, ← hinner, withoutDivisions, List.filter_flatMap]
  refine List.flatMap_congr fun e he => ?_
  have hwrapper : e.wrapper.tag.isDivision = true := by cases e <;> rfl
  rw [List.filter_cons_of_neg (by rw [hwrapper]; decide), List.filter_eq_self]
  intro c hc
  rw [hkept c (hinner ▸ List.mem_flatMap.mpr ⟨e, he, hc⟩)]
  rfl

/-- **To bring a page into normal form twice** is to do it once. -/
theorem dynamic_again {τ ρ : Type} {sink : Option (MetadataSink τ)} {calls : List Call} {t t' : τ}
    {o : Outline} (h : buildWith .strict sink calls t = .ok (o, t'))
    (hplain : ∀ c ∈ calls, c.tag.isDivision = false) (hids : o.anchors.Nodup) (options : Options)
    (policy : Option (AdPolicy π)) (sink' : Option (MetadataSink σ)) (p : π) (s : σ)
    (sink₂ : Option (MetadataSink ρ)) (u : ρ) :
    ∃ o' u', buildWith .strict sink₂
        (withoutDivisions (run ⟨o, options, policy, sink'⟩ .dynamic p s).1.calls) u =
          .ok (o', u') ∧
      (∀ d ∈ o'.diagnostics, d.finding.isSkip = false) ∧ SameSections o o' ∧
      ∀ {π' σ' : Type} (options' : Options) (policy' : Option (AdPolicy π'))
        (sink₃ : Option (MetadataSink σ')) (p' : π') (s' : σ'),
        (run ⟨o', options', policy', sink₃⟩ .dynamic p' s').1.calls =
          (run ⟨o, options, policy, sink'⟩ .dynamic p s).1.calls := by
  obtain ⟨ht, -⟩ := buildWith_sound h
  obtain ⟨b, hb, hsections, -⟩ := Builder.buildWith_ok h
  obtain ⟨b', hb', hcopies⟩ := buildSections_again hb o
  rw [withoutDivisions_dynamic h hplain]
  obtain ⟨o', u', h', hsections', hdiagnostics⟩ := Builder.exists_buildWith hb' sink₂ u
  have hagain : o'.sections = (rewriting o).sections o.sections := by
    rw [hsections', hsections]
    exact hcopies.sections
  obtain ⟨ht', -⟩ := buildWith_sound h'
  have hsame := sameSections_again hagain ht.size_pos
  refine ⟨o', u', h', fun d hd => ?_, hsame, fun options' policy' sink₃ p' s' =>
    dynamic_congr ht ht' hsame (fun i hi => headed_again ht ht' hagain hids hi) _ _ _ _ _ _ _ _ _ _⟩
  have hnone : b'.diagnostics = [] := hcopies.diagnostics
  rw [hnone] at hdiagnostics
  rcases hdiagnostics with hd' | ⟨reason, hd'⟩
  · rw [hd'] at hd
    cases hd
  · rw [hd', List.nil_append, List.mem_singleton] at hd
    rw [hd]
    rfl

/-- A page with two sections of one label, the first with an image in its heading, which
takes a paragraph, the second at a level that skips one. -/
def newsTwice : List Call :=
  let heading (level : Int64) (start : Nat) : Call := ((((Call.enter (.heading .wiki)).withContext
    Call.outlineContext).withAttribute levelAttribute (.int level)).withSpan start (start + 9))
  [Call.enter .paragraph, heading 1 0, Call.special .media, Call.text "News",
    Call.exit (.heading .wiki), Call.exit .paragraph, heading 3 50, Call.text "News",
    Call.exit (.heading .wiki), Call.text "Today"]

theorem dynamic_again_newsTwice :
    ∃ o, buildWith .strict (none : Option (MetadataSink Unit)) newsTwice () = .ok (o, ()) ∧
      (∀ c ∈ newsTwice, c.tag.isDivision = false) ∧ o.anchors = ["news", "news-1"] ∧
      o.anchors.Nodup ∧
      ∃ o' u', buildWith .strict (some PageMetadata.sink) (withoutDivisions
          (run (π := Unit) (σ := Unit) ⟨o, {}, none, none⟩ .dynamic () ()).1.calls) {} =
            .ok (o', u') ∧
        (∀ d ∈ o'.diagnostics, d.finding.isSkip = false) ∧ SameSections o o' ∧
        (run (π := Unit) (σ := Unit) ⟨o', {}, none, none⟩ .dynamic () ()).1.calls =
          (run (π := Unit) (σ := Unit) ⟨o, {}, none, none⟩ .dynamic () ()).1.calls := by
  have hplain : ∀ c ∈ newsTwice, c.tag.isDivision = false := by decide
  have hids : HeadingIds.assignAll {} [(none, "News"), (none, "News")] = ["news", "news-1"] := by
    decide
  obtain ⟨o, hb, hrequests⟩ : ∃ o,
      buildWith .strict (none : Option (MetadataSink Unit)) newsTwice () = .ok (o, ()) ∧
        o.headedSections.map o.request = [(none, "News"), (none, "News")] := ⟨_, rfl, rfl⟩
  have hanchors : o.anchors = ["news", "news-1"] := by rw [Outline.anchors, hrequests, hids]
  have hnodup : o.anchors.Nodup := by
    rw [hanchors]
    decide
  obtain ⟨o', u', h, hskip, hsame, hcalls⟩ := dynamic_again (π := Unit) (σ := Unit) hb hplain
    hnodup {} none none () () (some PageMetadata.sink) {}
  exact ⟨o, hb, hplain, hanchors, hnodup, o', u', h, hskip, hsame, hcalls {} none none () ()⟩

end Rendering

end WikiOutline
