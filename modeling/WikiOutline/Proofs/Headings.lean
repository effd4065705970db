/-
# The headings of a rendition

The ids of the headings are given out in the order of the sections: opening a
section finds the ids of the sections before it given out, and leaves its own given
out too (`openSection_opens`).  So whatever the target, a rendition writes the
heading of every section once, in order, with the id that follows from the sections
before it (`events_headings`).

Its advertisement and its edit button depend on some tallies of the state, which the heading
and the text merged into the section leave alone (`mergeChild_tallies`); a button has the
number behind that of the last button (`editButton_eq`).

Key definitions: `Outline.anchor`, `Outline.headed`, `Rendering.Tallies`, `Rendering.Opens`,
`Rendering.openings`.
Key theorems: `Outline.anchors_eq`, `Rendering.openSection_opens`,
`Rendering.openAll_opens`, `Rendering.events_headings`.
-/
import WikiOutline.Proofs.Anchors
import WikiOutline.Proofs.Attributes
import WikiOutline.Proofs.Openings

namespace WikiOutline

namespace Outline

open HeadingIds

/-! ### The ids of the sections -/

/-- What the id of a section's heading is made from. -/
def request (o : Outline) (i : Nat) : Option String × String :=
  ((o.get i).explicitId?, (o.get i).label)

/-- The sections but the root, in the order they are visited in. -/
def headedSections (o : Outline) : List Nat := o.preOrder.filter fun i => !(o.get i).isRoot

/-- The ids of their headings. -/
def anchors (o : Outline) : List String := assignAll {} (o.headedSections.map o.request)

/-- The ids given out before a section. -/
def idsBefore (o : Outline) (i : Nat) : HeadingIds :=
  ⟨(basesOf ((List.range' 1 (i - 1)).map o.request)).reverse⟩

/-- The id of the heading of a section. -/
def anchor (o : Outline) (i : Nat) : String :=
  ((o.idsBefore i).assign (o.request i).1 (o.request i).2).1

/-- The heading of a section with its id. -/
def headed (o : Outline) (i : Nat) : List Call :=
  (o.get i).headingCalls.modifyHead fun c => c.withAttribute "id" (.string (o.anchor i))

theorem idsBefore_succ (o : Outline) {i : Nat} (h : 1 ≤ i) :
    ((o.idsBefore i).assign (o.request i).1 (o.request i).2).2 = o.idsBefore (i + 1) := by
  obtain ⟨k, rfl⟩ : ∃ k, i = k + 1 := ⟨i - 1, by omega⟩
  rw [assign_eq]
  simp only [idsBefore, Nat.add_sub_cancel, List.range'_1_concat, List.map_append, basesOf,
    List.map_cons, List.map_nil, List.reverse_append, List.reverse_cons, List.reverse_nil,
    List.nil_append, List.singleton_append, Nat.add_comm 1 k]

theorem assignAll_range' (o : Outline) : ∀ k i, 1 ≤ i →
    (o.idsBefore i).assignAll ((List.range' i k).map o.request) = (List.range' i k).map o.anchor
  | 0, _, _ => rfl
  | k + 1, i, h => by
    rw [List.range'_succ, List.map_cons, assignAll, idsBefore_succ o h,
      assignAll_range' o k (i + 1) (by omega)]
    rfl

theorem Tree.headedSections_eq {heads : List Call} {o : Outline} (h : Tree heads o.nodes) :
    o.headedSections = List.range' 1 (o.size - 1) := by
  have hsize : o.size = heads.length + 1 := h.size
  have hroot : o.headedSections = (List.range o.size).filter fun i => !(i == 0) := by
    rw [headedSections, preOrder_eq h]
    exact List.filter_congr fun i hi => by rw [h.isRoot (List.mem_range.mp hi)]
  rw [hroot, hsize, List.range_eq_range', List.range'_succ, List.filter_cons_of_neg (by simp),
    List.filter_eq_self.mpr, Nat.add_sub_cancel]
  intro i hi
  have := (List.mem_range'_1.mp hi).1
  simp [Nat.ne_of_gt this]

/-- The ids are given out by number. -/
theorem Tree.anchors_eq {heads : List Call} {o : Outline} (h : Tree heads o.nodes) :
    o.anchors = (List.range' 1 (o.size - 1)).map o.anchor := by
  rw [anchors, h.headedSections_eq]
  exact assignAll_range' o _ 1 le_rfl

theorem Tree.anchors_getD {heads : List Call} {o : Outline} (h : Tree heads o.nodes) {i : Nat}
    (hi : 0 < i) (hlt : i < o.size) : o.anchors.getD (i - 1) "" = o.anchor i := by
  rw [h.anchors_eq, List.getD_eq_getElem _ _ (by simp; omega), List.getElem_map,
    List.getElem_range', Nat.one_mul, Nat.add_sub_cancel' hi]

/-- A section but the root has a heading, the root has none. -/
theorem Tree.headingCalls_eq_nil {heads : List Call} {o : Outline} (h : Tree heads o.nodes)
    {i : Nat} (hi : i < o.size) : (o.get i).headingCalls = [] ↔ i = 0 := by
  have hsize : o.size = heads.length + 1 := h.size
  have hlead : (o.get i).headingCalls.head? = (nodeAt o.nodes i).lead := by
    rw [nodeAt_nodes]
    rfl
  rw [← List.head?_eq_none_iff, hlead]
  rcases Nat.eq_zero_or_pos i with rfl | h0
  · simp [h.rootLead]
  · obtain ⟨j, rfl⟩ : ∃ j, i = j + 1 := ⟨i - 1, by omega⟩
    have hc := List.getElem?_eq_getElem (l := heads) (i := j) (by omega)
    rw [(h.isFrom j _ hc).2.2.2]
    simp

/-- What has no parent has no heading. -/
theorem Tree.headingCalls_of_isRoot {heads : List Call} {o : Outline} (h : Tree heads o.nodes)
    {i : Nat} (hroot : (o.get i).isRoot = true) : (o.get i).headingCalls = [] := by
  rcases Nat.lt_or_ge i o.size with hi | hi
  · rw [h.isRoot hi, beq_iff_eq] at hroot
    exact (h.headingCalls_eq_nil hi).mpr hroot
  · rw [get_eq_root hi]
    rfl

end Outline

namespace Rendering

open Outline

variable {π σ : Type}

/-! ### What opening a section does with the ids -/

/-- Where the ids before a section are given out, it gets its own. -/
theorem State.heading_eq {s : State π σ} {o : Outline} {i : Nat} (hs : s.headingIds = o.idsBefore i)
    (hi : 1 ≤ i) :
    s.heading (o.get i) =
      (o.headed i, o.anchor i, { s with headingIds := o.idsBefore (i + 1) }) := by
  rw [← o.idsBefore_succ hi]
  unfold State.heading headed
  rw [hs]
  cases (o.get i).headingCalls <;> rfl

theorem captureFeaturedImage_headingIds (setup : Setup π σ) (s : State π σ) (sec : Section) :
    (captureFeaturedImage setup s sec).2.headingIds = s.headingIds := by
  unfold captureFeaturedImage
  split
  · split
    · rfl
    · split <;> rfl
  · rfl

theorem adMarker_headingIds (setup : Setup π σ) (target : Target) (s : State π σ)
    (id ordinal lines : Nat) :
    (adMarker setup target s id ordinal lines).2.headingIds = s.headingIds := by
  unfold adMarker
  split
  · simp only
    split <;> rfl
  · rfl

theorem editButton_headingIds (setup : Setup π σ) (target : Target) (s : State π σ) (sec : Section)
    (headingId : Option String) :
    (editButton setup target s sec headingId).2.headingIds = s.headingIds := by
  unfold editButton
  split <;> rfl

theorem adMarker_call {setup : Setup π σ} {target : Target} {s : State π σ} {id ordinal lines : Nat}
    {c : Call} (h : (adMarker setup target s id ordinal lines).1 = some c) :
    c.tag = .adMarker ∧ c.state = .special := by
  unfold adMarker at h
  split at h
  · simp only at h
    split at h
    · obtain rfl := Option.some.inj h
      exact ⟨rfl, rfl⟩
    · cases h
    · cases h
  · cases h

/-- A button is for a section with a start, carries the id that it is given, and has the next
number. -/
theorem editButton_eq {setup : Setup π σ} {target : Target} {s : State π σ} {sec : Section}
    {headingId : Option String} {c : Call}
    (h : (editButton setup target s sec headingId).1 = some c) :
    ∃ id start, headingId = some id ∧ sec.startPos = some start ∧
      c = ((Call.special .editButton).withAttribute "secid"
        (.ofNat (s.editSequence + 1))).withPayload
        ((EditButton.forSection setup.options.wikiId (s.editSequence + 1) sec.label start
          sec.endPos).withHeadingId id).toJson := by
  unfold editButton at h
  split at h
  · rename_i id start _ hstart
    exact ⟨id, start, rfl, hstart, (Option.some.inj h).symm⟩
  · cases h

theorem editButton_editSequence_le (setup : Setup π σ) (target : Target) (s : State π σ)
    (sec : Section) (headingId : Option String) :
    (editButton setup target s sec headingId).2.editSequence ≤ s.editSequence + 1 := by
  unfold editButton
  split
  · exact le_rfl
  · exact Nat.le_succ _

/-! ### What opening a section does with the tallies -/

/-- What an advertisement and an edit button depend on, and the state of the policy. -/
structure Tallies (π : Type) where
  policyState : π
  cumulativeLines : Nat
  sectionOrdinal : Nat
  adsInserted : Nat
  editSequence : Nat

/-- The tallies of a state. -/
def State.tallies (s : State π σ) : Tallies π :=
  ⟨s.policyState, s.cumulativeLines, s.sectionOrdinal, s.adsInserted, s.editSequence⟩

theorem ownHeading_tallies (s : State π σ) (sec : Section) :
    (ownHeading s sec).2.2.tallies = s.tallies := by
  unfold ownHeading
  cases sec.isRoot <;> rfl

theorem captureFeaturedImage_tallies (setup : Setup π σ) (s : State π σ) (sec : Section) :
    (captureFeaturedImage setup s sec).2.tallies = s.tallies := by
  unfold captureFeaturedImage
  split
  · split
    · rfl
    · split <;> rfl
  · rfl

theorem mergeChild_tallies (setup : Setup π σ) (target : Target) (s : State π σ) (sec : Section) :
    (mergeChild setup target s sec).2.2.2.tallies = s.tallies := by
  cases hf : flattenedChild? setup target sec with
  | none => rw [mergeChild_of_none hf]
  | some only =>
    simp only [mergeChild, hf]
    exact captureFeaturedImage_tallies setup _ _

theorem editButton_tallies (setup : Setup π σ) (target : Target) (s : State π σ) (sec : Section)
    (headingId : Option String) :
    (editButton setup target s sec headingId).2.tallies =
      { s.tallies with
        editSequence := (editButton setup target s sec headingId).2.editSequence } := by
  unfold editButton
  split <;> rfl

theorem adMarker_editSequence (setup : Setup π σ) (target : Target) (s : State π σ)
    (id ordinal lines : Nat) :
    (adMarker setup target s id ordinal lines).2.editSequence = s.editSequence := by
  unfold adMarker
  split
  · simp only
    split <;> rfl
  · rfl

/-! ### What a section is opened with -/

theorem openSection_eq (setup : Setup π σ) (target : Target) (s : State π σ) (id : Nat) :
    openSection setup target s id =
      let sec := setup.outline.get id
      let own := ownHeading { s with sectionOrdinal := s.sectionOrdinal + 1 } sec
      let merge := mergeChild setup target own.2.2 sec
      let ad := adMarker setup target merge.2.2.2 id s.sectionOrdinal merge.2.1
      let edit := editButton setup target ad.2 sec own.2.1
      ({ level := sec.level, own := ⟨id, own.1, sec.contentCalls⟩, merged := merge.1
         marker := ad.1, button := edit.1, children := merge.2.2.1 }, edit.2) := rfl

/-- The button of a section, the `k`-th one. -/
def sectionButton (o : Outline) (options : Options) (i k : Nat) : EditButton where
  target := "section"
  wikiId := options.wikiId
  formId := "edit-section-" ++ toString k
  message := (o.get i).label
  range := formatRange ((o.get i).startPos.getD 0) (o.get i).endPos
  headingId := some (o.anchor i)
  sectionId := k

/-- The call of the button of a section. -/
def buttonCall (o : Outline) (options : Options) (i k : Nat) : Call :=
  ((Call.special .editButton).withAttribute "secid" (.ofNat k)).withPayload
    (sectionButton o options i k).toJson

/-- What a section is opened with: its own heading, what the first section gives if it is
merged into the root, and a button for its own heading with a number up to `most`. -/
structure Opens (setup : Setup π σ) (target : Target) (most i : Nat) (o : Opening) : Prop where
  level : o.level = (setup.outline.get i).level
  own : o.own = ⟨i, setup.outline.headed i, (setup.outline.get i).contentCalls⟩
  merged : o.merged = none ∨ i = 0 ∧ 1 < setup.outline.size ∧ ∃ s₀ : State π σ,
    o.merged = some ⟨1, setup.outline.headed 1,
      (captureFeaturedImage setup s₀ (setup.outline.get 1)).1⟩
  marker : ∀ c, o.marker = some c → c.tag = .adMarker
  button : ∀ c, o.button = some c → i ≠ 0 ∧ ∃ start k, k ≤ most ∧
    (setup.outline.get i).startPos = some start ∧ c = buttonCall setup.outline setup.options i k
  added : target = .dynamic → o.marker = none ∧ o.button = none

/-- A section into which nothing is merged gives its heading and its text. -/
theorem Opens.portions {setup : Setup π σ} {target : Target} {most i : Nat} {o : Opening}
    (h : Opens setup target most i o) (hm : o.merged = none) :
    o.portions = [⟨i, setup.outline.headed i, (setup.outline.get i).contentCalls⟩] := by
  rw [Opening.portions, hm, h.own]
  rfl

theorem Opens.mono {setup : Setup π σ} {target : Target} {most most' i : Nat} {o : Opening}
    (h : Opens setup target most i o) (hle : most ≤ most') : Opens setup target most' i o :=
  { h with
    button := fun c hc => by
      obtain ⟨hne, start, k, hk, hbutton⟩ := h.button c hc
      exact ⟨hne, start, k, hk.trans hle, hbutton⟩ }

theorem ownHeading_eq {heads : List Call} {o : Outline} (h : Tree heads o.nodes) {i : Nat}
    (hi : i < o.size) {s : State π σ} (hs : s.headingIds = o.idsBefore i) :
    ownHeading s (o.get i) =
      (o.headed i, if i = 0 then none else some (o.anchor i),
        { s with headingIds := o.idsBefore (i + 1) }) := by
  unfold ownHeading
  rw [h.isRoot hi]
  rcases Nat.eq_zero_or_pos i with rfl | h0
  · have hheading := (h.headingCalls_eq_nil hi).mpr rfl
    -- before the root and before the first heading no id is given out
    have hids : s.headingIds = o.idsBefore (0 + 1) := hs
    simp only [beq_self_eq_true, ↓reduceIte, headed, hheading, List.modifyHead_nil, ← hids]
  · have hne : i ≠ 0 := Nat.ne_of_gt h0
    simp only [beq_iff_eq, hne, ↓reduceIte, State.heading_eq hs h0]

/-- Where nothing is merged into a section, its id is the next to be given out. -/
theorem openSection_unmerged {heads : List Call} {setup : Setup π σ}
    (h : Tree heads setup.outline.nodes) {target : Target} {i : Nat} (hi : i < setup.outline.size)
    {s : State π σ} (hs : s.headingIds = setup.outline.idsBefore i)
    (hf : flattenedChild? setup target (setup.outline.get i) = none) :
    (openSection setup target s i).1.merged = none ∧
      (openSection setup target s i).2.headingIds = setup.outline.idsBefore (i + 1) := by
  have hown := ownHeading_eq h hi
    (s := { s with sectionOrdinal := s.sectionOrdinal + 1 }) hs
  rw [openSection_eq]
  simp only [hown, mergeChild_of_none hf, editButton_headingIds, adMarker_headingIds, and_self]

/-- Where the first section is merged into the root, its text is searched for an image,
and its id is given out with the root. -/
theorem openSection_merged {heads : List Call} {setup : Setup π σ}
    (h : Tree heads setup.outline.nodes) {target : Target} {s : State π σ}
    (hs : s.headingIds = setup.outline.idsBefore 0)
    (hf : flattenedChild? setup target (setup.outline.get 0) = some 1) :
    (∃ s₀ : State π σ, (openSection setup target s 0).1.merged = some ⟨1, setup.outline.headed 1,
        (captureFeaturedImage setup s₀ (setup.outline.get 1)).1⟩) ∧
      (openSection setup target s 0).2.headingIds = setup.outline.idsBefore 2 := by
  have h0 : 0 < setup.outline.size := h.size_pos
  have hown := ownHeading_eq h h0
    (s := { s with sectionOrdinal := s.sectionOrdinal + 1 }) hs
  rw [openSection_eq]
  simp only [hown]
  have hheading := State.heading_eq (o := setup.outline) (i := 1)
    (s := { s with sectionOrdinal := s.sectionOrdinal + 1,
                   headingIds := setup.outline.idsBefore (0 + 1) }) rfl le_rfl
  simp only [editButton_headingIds, adMarker_headingIds, mergeChild, hf, hheading,
    captureFeaturedImage_headingIds]
  exact ⟨⟨_, rfl⟩, trivial⟩

/-- Before the button of a section, the buttons are as many as before the section. -/
theorem adMarker_editSequence_eq (setup : Setup π σ) (target : Target) (s : State π σ) (id : Nat) :
    let own := ownHeading { s with sectionOrdinal := s.sectionOrdinal + 1 } (setup.outline.get id)
    let merge := mergeChild setup target own.2.2 (setup.outline.get id)
    (adMarker setup target merge.2.2.2 id s.sectionOrdinal merge.2.1).2.editSequence =
      s.editSequence := by
  intro own merge
  rw [adMarker_editSequence]
  exact congrArg Tallies.editSequence
    ((mergeChild_tallies setup target _ _).trans (ownHeading_tallies _ _))

theorem openSection_editSequence_le (setup : Setup π σ) (target : Target) (s : State π σ)
    (id : Nat) : (openSection setup target s id).2.editSequence ≤ s.editSequence + 1 := by
  have hbutton := editButton_editSequence_le setup target
  rw [openSection_eq]
  exact (hbutton _ _ _).trans (congrArg (· + 1) (adMarker_editSequence_eq setup target s id)).le

/-- **A section is opened with its own heading**, where the ids before it are given
out. -/
theorem openSection_opens {heads : List Call} {setup : Setup π σ}
    (h : Tree heads setup.outline.nodes) (target : Target) {i : Nat} (hi : i < setup.outline.size)
    {s : State π σ} (hs : s.headingIds = setup.outline.idsBefore i) :
    Opens setup target (s.editSequence + 1) i (openSection setup target s i).1 := by
  have hown := ownHeading_eq h hi
    (s := { s with sectionOrdinal := s.sectionOrdinal + 1 }) hs
  have hmerged : (openSection setup target s i).1.merged = none ∨ i = 0 ∧ 1 < setup.outline.size ∧
      ∃ s₀ : State π σ, (openSection setup target s i).1.merged = some ⟨1, setup.outline.headed 1,
        (captureFeaturedImage setup s₀ (setup.outline.get 1)).1⟩ := by
    cases hf : flattenedChild? setup target (setup.outline.get i) with
    | none => exact .inl (openSection_unmerged h hi hs hf).1
    | some k =>
      have hroot := isRoot_of_flattenedChild? hf
      rw [h.isRoot hi, beq_iff_eq] at hroot
      subst hroot
      obtain ⟨rfl, hlt, -⟩ := h.frontier_of_only_child (flattenedChild?_eq_some hf)
      exact .inr ⟨rfl, hlt, (openSection_merged h hs hf).1⟩
  have hsequence := adMarker_editSequence_eq setup target s i
  rw [openSection_eq] at hmerged ⊢
  simp only [hown] at hmerged hsequence ⊢
  constructor
  · rfl
  · rfl
  · exact hmerged
  · exact fun c hc => (adMarker_call hc).1
  · intro c hc
    obtain ⟨id, start, hid, hstart, rfl⟩ := editButton_eq hc
    have hne : i ≠ 0 := by
      rintro rfl
      cases hid
    rw [if_neg hne] at hid
    obtain rfl := Option.some.inj hid
    refine ⟨hne, start, s.editSequence + 1, le_rfl, hstart, ?_⟩
    rw [hsequence, buttonCall, sectionButton, hstart]
    rfl
  · rintro rfl
    exact ⟨rfl, rfl⟩

/-! ### Whole renditions -/

/-- What was opened, in order. -/
def openings (es : List Event) : List Opening := es.filterMap Event.opening?

/-- What the sections gave to the page, in order. -/
def portions (es : List Event) : List Portion := (openings es).flatMap Opening.portions

theorem openAll_opens {heads : List Call} {setup : Setup π σ}
    (h : Tree heads setup.outline.nodes) (target : Target) : ∀ k i (s : State π σ),
      i + k ≤ setup.outline.size → s.headingIds = setup.outline.idsBefore i →
      Unmerged setup target (List.range' i k) →
      List.Forall₂ (fun j o => Opens setup target (s.editSequence + k) j o ∧ o.merged = none)
        (List.range' i k) (openAll setup target (List.range' i k) s).1
  | 0, _, _, _, _, _ => .nil
  | k + 1, i, s, hi, hs, hu => by
    rw [List.range'_succ] at hu ⊢
    obtain ⟨hm, hids⟩ := openSection_unmerged h (by omega) hs (hu i List.mem_cons_self)
    have hsequence := openSection_editSequence_le setup target s i
    have hrest := openAll_opens h target k (i + 1) _ (by omega) hids fun j hj =>
      hu j (List.mem_cons_of_mem _ hj)
    refine .cons ⟨(openSection_opens h target (by omega) hs).mono (by omega), hm⟩ ?_
    exact hrest.imp fun _ _ ho => ⟨ho.1.mono (by omega), ho.2⟩

/-- Where nothing is merged, every opening gives its own heading. -/
theorem headings_of_opens {setup : Setup π σ} {target : Target} {most : Nat} {ids : List Nat}
    {os : List Opening}
    (h : List.Forall₂ (fun j o => Opens setup target most j o ∧ o.merged = none) ids os) :
    (os.flatMap Opening.portions).map (fun p => (p.id, p.heading)) =
      ids.map fun j => (j, setup.outline.headed j) := by
  induction h with
  | nil => rfl
  | @cons i o ids os ho _ ih =>
    rw [List.flatMap_cons, ho.1.portions ho.2, List.map_append, ih]
    rfl

/-- Whatever is opened is a section. -/
theorem exists_opens_of_mem {setup : Setup π σ} {target : Target} {most : Nat} {ids : List Nat}
    {os : List Opening}
    (h : List.Forall₂ (fun j o => Opens setup target most j o ∧ o.merged = none) ids os)
    {o : Opening} (ho : o ∈ os) : ∃ i ∈ ids, Opens setup target most i o := by
  induction h with
  | nil => cases ho
  | @cons i o' ids os hio _ ih =>
    rcases List.mem_cons.mp ho with rfl | ho
    · exact ⟨i, List.mem_cons_self, hio.1⟩
    · obtain ⟨j, hj, hopens⟩ := ih ho
      exact ⟨j, List.mem_cons_of_mem _ hj, hopens⟩

/-- **The headings of a rendition** are those of all sections in order, each with its
id; every opening is of a section. -/
theorem events_headings {heads : List Call} {setup : Setup π σ}
    (h : Tree heads setup.outline.nodes) (target : Target) (p : π) (s : σ) :
    (portions (events setup target p s).1).map (fun q => (q.id, q.heading)) =
        (List.range setup.outline.size).map (fun j => (j, setup.outline.headed j)) ∧
      ∀ o ∈ openings (events setup target p s).1, ∃ i < setup.outline.size,
        Opens setup target setup.outline.size i o := by
  have h0 : 0 < setup.outline.size := h.size_pos
  have hids : ({ policyState := p, sinkState := s } : State π σ).headingIds =
      setup.outline.idsBefore 0 := rfl
  have hnone : ({ policyState := p, sinkState := s } : State π σ).editSequence = 0 := rfl
  have hopenings := (events_openAll h target p s).1
  rw [portions, openings, hopenings]
  unfold visits
  cases hf : flattenedChild? setup target (setup.outline.get 0) with
  | none =>
    have hall := openAll_opens h target setup.outline.size 0 _ (by omega) hids
      (unmerged_all h hf)
    refine ⟨?_, fun o ho => ?_⟩
    · rw [List.range_eq_range']
      exact headings_of_opens hall
    · obtain ⟨i, hi, hopens⟩ := exists_opens_of_mem hall ho
      have := List.mem_range'_1.mp hi
      exact ⟨i, by omega, hopens.mono (by omega)⟩
  | some k =>
    obtain ⟨rfl, hlt, -⟩ := h.frontier_of_only_child (flattenedChild?_eq_some hf)
    obtain ⟨⟨s₀, hm⟩, hnext⟩ := openSection_merged h hids hf
    have hroot := openSection_opens h target h0 hids
    have hsequence := openSection_editSequence_le setup target { policyState := p, sinkState := s } 0
    have hall := openAll_opens h target (setup.outline.size - 2) 2 _ (by omega) hnext
      (unmerged_range' h target (by omega))
    simp only [openAll]
    constructor
    · rw [List.flatMap_cons, List.map_append, headings_of_opens hall, Opening.portions, hm,
        hroot.own, List.range_eq_range',
        show setup.outline.size = setup.outline.size - 2 + 1 + 1 by omega, List.range'_succ,
        List.range'_succ]
      rfl
    · intro o ho
      rcases List.mem_cons.mp ho with rfl | ho
      · exact ⟨0, h0, hroot.mono (by omega)⟩
      · obtain ⟨i, hi, hopens⟩ := exists_opens_of_mem hall ho
        have := List.mem_range'_1.mp hi
        exact ⟨i, by omega, hopens.mono (by omega)⟩

end Rendering

end WikiOutline
