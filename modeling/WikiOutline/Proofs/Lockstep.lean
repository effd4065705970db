/-
# Two renditions in step

Two renditions of one outline with other policies and other sinks count alike as long
as the policies give the same markers.  Two states are in step when they count the
same and what they say about policy, sink and warnings is related (`InStep`); opening
a section keeps them in step (`openSection_inStep`), and so does all that comes behind
the root, where nothing is told to a sink any more (`events_inStep`).

Key definitions: `Rendering.Counters`, `Rendering.State.aside`, `Rendering.InStep`,
`Rendering.AdsInStep`.
Key theorems: `Rendering.openSection_inStep`, `Rendering.perform_inStep`,
`Rendering.events_inStep`.
-/
import WikiOutline.Proofs.Headings

namespace WikiOutline

namespace Rendering

open Outline

variable {π σ π' σ' : Type}

/-- What a rendition counts. -/
structure Counters where
  headingIds : HeadingIds
  cumulativeLines : Nat
  sectionOrdinal : Nat
  adsInserted : Nat
  editSequence : Nat

namespace State

/-- The counters of a state. -/
def counters (s : State π σ) : Counters :=
  ⟨s.headingIds, s.cumulativeLines, s.sectionOrdinal, s.adsInserted, s.editSequence⟩

/-- The state behind the opening of one more section. -/
def counted (s : State π σ) : State π σ := { s with sectionOrdinal := s.sectionOrdinal + 1 }

/-- What is beside the counters: the states of policy and sink, and the warnings. -/
def aside (s : State π σ) : π × σ × List String := (s.policyState, s.sinkState, s.warnings)

end State

/-- Two states count the same, and what is beside the counters is related. -/
structure InStep (Q : π × σ × List String → π' × σ' × List String → Prop) (s : State π σ)
    (s' : State π' σ') : Prop where
  counters : s.counters = s'.counters
  aside : Q s.aside s'.aside

section

variable {Q R : π × σ × List String → π' × σ' × List String → Prop} {s : State π σ}
  {s' : State π' σ'}

theorem InStep.imp (h : InStep Q s s') (hr : Q s.aside s'.aside → R s.aside s'.aside) :
    InStep R s s' := ⟨h.counters, hr h.aside⟩

/-! ### What the counters decide -/

theorem InStep.heading (h : InStep Q s s') (sec : Section) :
    (s.heading sec).1 = (s'.heading sec).1 ∧ (s.heading sec).2.1 = (s'.heading sec).2.1 ∧
      InStep Q (s.heading sec).2.2 (s'.heading sec).2.2 := by
  obtain ⟨hc, ha⟩ := h
  rcases s with ⟨p, t, ids, lines, ordinal, ads, edits, warnings⟩
  rcases s' with ⟨p', t', ids', lines', ordinal', ads', edits', warnings'⟩
  cases hc
  exact ⟨rfl, rfl, rfl, ha⟩

theorem InStep.ownHeading (h : InStep Q s s') (sec : Section) :
    (ownHeading s sec).1 = (Rendering.ownHeading s' sec).1 ∧
      (Rendering.ownHeading s sec).2.1 = (Rendering.ownHeading s' sec).2.1 ∧
      InStep Q (Rendering.ownHeading s sec).2.2 (Rendering.ownHeading s' sec).2.2 := by
  unfold Rendering.ownHeading
  cases sec.isRoot with
  | true => exact ⟨rfl, rfl, h⟩
  | false =>
    obtain ⟨hcalls, hid, hnext⟩ := h.heading sec
    exact ⟨hcalls, congrArg some hid, hnext⟩

theorem InStep.counted (h : InStep Q s s') : InStep Q s.counted s'.counted := by
  obtain ⟨hc, ha⟩ := h
  rcases s with ⟨p, t, ids, lines, ordinal, ads, edits, warnings⟩
  rcases s' with ⟨p', t', ids', lines', ordinal', ads', edits', warnings'⟩
  cases hc
  exact ⟨rfl, ha⟩

variable {o : Outline} {options : Options} {policy : Option (AdPolicy π)}
  {sink : Option (MetadataSink σ)} {policy' : Option (AdPolicy π')}
  {sink' : Option (MetadataSink σ')} {target : Target}

theorem InStep.editButton (h : InStep Q s s') (sec : Section) (headingId : Option String) :
    (editButton ⟨o, options, policy, sink⟩ target s sec headingId).1 =
        (Rendering.editButton ⟨o, options, policy', sink'⟩ target s' sec headingId).1 ∧
      InStep Q (Rendering.editButton ⟨o, options, policy, sink⟩ target s sec headingId).2
        (Rendering.editButton ⟨o, options, policy', sink'⟩ target s' sec headingId).2 := by
  obtain ⟨hc, ha⟩ := h
  rcases s with ⟨p, t, ids, lines, ordinal, ads, edits, warnings⟩
  rcases s' with ⟨p', t', ids', lines', ordinal', ads', edits', warnings'⟩
  cases hc
  rcases options with ⟨editButtons, capture, wikiId⟩
  unfold Rendering.editButton
  cases target <;> cases editButtons <;> cases headingId <;> cases sec.startPos <;>
    exact ⟨rfl, rfl, ha⟩

/-- The policies give the same markers, and lead from states related by `Q` to states
related by `R`. -/
def AdsInStep (Q R : π × σ × List String → π' × σ' × List String → Prop)
    (setup : Setup π σ) (setup' : Setup π' σ') (target : Target) : Prop :=
  ∀ (s : State π σ) (s' : State π' σ'), InStep Q s s' → ∀ id ordinal lines,
    (adMarker setup target s id ordinal lines).1 =
        (adMarker setup' target s' id ordinal lines).1 ∧
      InStep R (adMarker setup target s id ordinal lines).2
        (adMarker setup' target s' id ordinal lines).2

/-! ### Opening a section -/

variable {id : Nat}

/-- The marker and the button of a section are the same from states in step. -/
theorem InStep.added (h : InStep Q s s')
    (had : AdsInStep Q R ⟨o, options, policy, sink⟩ ⟨o, options, policy', sink'⟩ target)
    (id ordinal lines : Nat) (sec : Section) (headingId : Option String) :
    let ad := adMarker ⟨o, options, policy, sink⟩ target s id ordinal lines
    let ad' := adMarker ⟨o, options, policy', sink'⟩ target s' id ordinal lines
    let edit := Rendering.editButton ⟨o, options, policy, sink⟩ target ad.2 sec headingId
    let edit' := Rendering.editButton ⟨o, options, policy', sink'⟩ target ad'.2 sec headingId
    ad.1 = ad'.1 ∧ edit.1 = edit'.1 ∧ InStep R edit.2 edit'.2 := by
  obtain ⟨hmarker, hmarked⟩ := had _ _ h id ordinal lines
  exact ⟨hmarker, hmarked.editButton sec headingId⟩

/-- **A section into which nothing is merged** is opened alike, and the states stay in
step. -/
theorem openSection_inStep (h : InStep Q s s')
    (had : AdsInStep Q R ⟨o, options, policy, sink⟩ ⟨o, options, policy', sink'⟩ target)
    (hf : flattenedChild? ⟨o, options, policy, sink⟩ target (o.get id) = none) :
    (openSection ⟨o, options, policy, sink⟩ target s id).1 =
        (openSection ⟨o, options, policy', sink'⟩ target s' id).1 ∧
      InStep R (openSection ⟨o, options, policy, sink⟩ target s id).2
        (openSection ⟨o, options, policy', sink'⟩ target s' id).2 := by
  have hf' : flattenedChild? ⟨o, options, policy', sink'⟩ target (o.get id) = none := hf
  have hordinal : s'.sectionOrdinal = s.sectionOrdinal :=
    (congrArg Counters.sectionOrdinal h.counters).symm
  obtain ⟨hheading, hid, hown⟩ := h.counted.ownHeading (o.get id)
  have hopened := openSection_eq ⟨o, options, policy, sink⟩ target s id
  have hopened' := openSection_eq ⟨o, options, policy', sink'⟩ target s' id
  simp only [mergeChild_of_none hf, mergeChild_of_none hf', ← State.counted.eq_1] at hopened hopened'
  generalize Rendering.ownHeading s.counted (o.get id) = own at *
  generalize Rendering.ownHeading s'.counted (o.get id) = own' at *
  obtain ⟨hmarker, hbutton, hend⟩ := hown.added had id s.sectionOrdinal (o.get id).filledLines
    (o.get id) own.2.1
  rw [hordinal, ← hheading, ← hid, ← hmarker, ← hbutton] at hopened'
  rw [hopened, hopened']
  exact ⟨rfl, hend⟩

/-- **A section into which another one is merged** is opened alike but for the text that
the search for an image leaves. -/
theorem openSection_merged_inStep {Q' : π × σ × List String → π' × σ' × List String → Prop}
    {only : Nat} (h : InStep Q s s')
    (hf : flattenedChild? ⟨o, options, policy, sink⟩ target (o.get id) = some only)
    (hcapture : ∀ {t : State π σ} {t' : State π' σ'}, InStep Q t t' →
      t.aside = s.aside → t'.aside = s'.aside →
      InStep Q' (captureFeaturedImage ⟨o, options, policy, sink⟩ t (o.get only)).2
        (captureFeaturedImage ⟨o, options, policy', sink'⟩ t' (o.get only)).2)
    (had : AdsInStep Q' R ⟨o, options, policy, sink⟩ ⟨o, options, policy', sink'⟩ target) :
    ∃ (opening : Opening) (heading : List Call) (t : State π σ) (t' : State π' σ'),
      InStep Q t t' ∧ t.aside = s.aside ∧ t'.aside = s'.aside ∧
      (openSection ⟨o, options, policy, sink⟩ target s id).1 = { opening with
        merged := some ⟨only, heading,
          (captureFeaturedImage ⟨o, options, policy, sink⟩ t (o.get only)).1⟩ } ∧
      (openSection ⟨o, options, policy', sink'⟩ target s' id).1 = { opening with
        merged := some ⟨only, heading,
          (captureFeaturedImage ⟨o, options, policy', sink'⟩ t' (o.get only)).1⟩ } ∧
      InStep R (openSection ⟨o, options, policy, sink⟩ target s id).2
        (openSection ⟨o, options, policy', sink'⟩ target s' id).2 := by
  have hf' : flattenedChild? ⟨o, options, policy', sink'⟩ target (o.get id) = some only := hf
  have hordinal : s'.sectionOrdinal = s.sectionOrdinal :=
    (congrArg Counters.sectionOrdinal h.counters).symm
  have haside : ∀ {π σ : Type} (s : State π σ),
      (Rendering.ownHeading s.counted (o.get id)).2.2.aside = s.aside := by
    intro π σ s
    unfold Rendering.ownHeading
    cases (o.get id).isRoot <;> rfl
  have hown_aside := haside s
  have hown_aside' := haside s'
  obtain ⟨hheading, hid, hown⟩ := h.counted.ownHeading (o.get id)
  have hopened := openSection_eq ⟨o, options, policy, sink⟩ target s id
  have hopened' := openSection_eq ⟨o, options, policy', sink'⟩ target s' id
  simp only [mergeChild, hf, hf', ← State.counted.eq_1] at hopened hopened'
  generalize Rendering.ownHeading s.counted (o.get id) = own at *
  generalize Rendering.ownHeading s'.counted (o.get id) = own' at *
  obtain ⟨hmerged, -, hnext⟩ := hown.heading (o.get only)
  obtain ⟨hmarker, hbutton, hend⟩ := (hcapture hnext hown_aside hown_aside').added had id
    s.sectionOrdinal ((o.get id).filledLines + (o.get only).filledLines) (o.get id) own.2.1
  rw [hordinal, ← hheading, ← hid, ← hmarker, ← hbutton, ← hmerged] at hopened'
  rw [hopened, hopened']
  exact ⟨(openSection ⟨o, options, policy, sink⟩ target s id).1, (own.2.2.heading (o.get only)).1,
    (own.2.2.heading (o.get only)).2.2, (own'.2.2.heading (o.get only)).2.2, hnext, hown_aside,
    hown_aside', by rw [hopened], by rw [hopened], hend⟩

/-! ### Whole renditions -/

/-- What is done for sections into which nothing is merged is done alike. -/
theorem perform_inStep (hchild : ∀ i, ∀ j ∈ (o.get i).children, (o.get j).isRoot = false)
    (had : AdsInStep Q Q ⟨o, options, policy, sink⟩ ⟨o, options, policy', sink'⟩ target) :
    ∀ (fuel : Nat) (todo : List Step) {s : State π σ} {s' : State π' σ'},
      (∀ id, Step.opening id ∈ todo → (o.get id).isRoot = false) → InStep Q s s' →
      (perform ⟨o, options, policy, sink⟩ target fuel todo s).1 =
          (perform ⟨o, options, policy', sink'⟩ target fuel todo s').1 ∧
        InStep Q (perform ⟨o, options, policy, sink⟩ target fuel todo s).2
          (perform ⟨o, options, policy', sink'⟩ target fuel todo s').2 := by
  intro fuel
  induction fuel with
  | zero =>
    intro todo s s' _ h
    exact ⟨rfl, h⟩
  | succ fuel ih =>
    intro todo s s' htodo h
    cases todo with
    | nil => exact ⟨rfl, h⟩
    | cons step todo =>
      have htail : ∀ id, Step.opening id ∈ todo → (o.get id).isRoot = false :=
        fun id hid => htodo id (List.mem_cons_of_mem _ hid)
      cases step with
      | closing =>
        obtain ⟨hrest, hend⟩ := ih todo htail h
        exact ⟨congrArg (Event.closed :: ·) hrest, hend⟩
      | opening id =>
        have hf : flattenedChild? ⟨o, options, policy, sink⟩ target (o.get id) = none :=
          flattenedChild?_of_not_root (htodo id List.mem_cons_self)
        obtain ⟨hopened, hnext⟩ := openSection_inStep h had hf
        have hchildren := openSection_children hf s
        simp only [perform]
        rw [← hopened, hchildren]
        have htodo' : ∀ j, Step.opening j ∈ (o.get id).children.map Step.opening ++ .closing :: todo →
            (o.get j).isRoot = false := by
          intro j hj
          rcases List.mem_append.mp hj with hj | hj
          · obtain ⟨k, hk, hkj⟩ := List.mem_map.mp hj
            obtain rfl := Step.opening.inj hkj
            exact hchild id k hk
          · exact htail j ((List.mem_cons.mp hj).resolve_left fun h => by cases h)
        obtain ⟨hrest, hend⟩ := ih _ htodo' hnext
        exact ⟨congrArg (_ :: ·) hrest, hend⟩

end

/-- The opening of the root, from the first state of a rendition. -/
def rootOpening (setup : Setup π σ) (target : Target) (p : π) (t : σ) : Opening × State π σ :=
  openSection setup target { policyState := p, sinkState := t } 0

/-- What is behind the root hangs below a section. -/
theorem children_rootOpening (setup : Setup π σ) (target : Target) (p : π) (t : σ) :
    ∃ i, (rootOpening setup target p t).1.children = (setup.outline.get i).children := by
  cases hf : flattenedChild? setup target (setup.outline.get 0) with
  | none => exact ⟨0, openSection_children hf _⟩
  | some only => exact ⟨only, by simp only [rootOpening, openSection, mergeChild, hf]⟩

/-- A rendition opens the root, and then does what is below it. -/
theorem events_root (setup : Setup π σ) (h : 0 < setup.outline.size) (target : Target) (p : π)
    (t : σ) :
    let root := rootOpening setup target p t
    let rest := perform setup target (2 * setup.outline.size - 1)
      (root.1.children.map Step.opening ++ [.closing]) root.2
    events setup target p t = (.opened root.1 :: rest.1, rest.2) := by
  obtain ⟨fuel, hfuel⟩ : ∃ fuel, 2 * setup.outline.size = fuel + 1 :=
    ⟨2 * setup.outline.size - 1, by omega⟩
  unfold events
  rw [hfuel]
  rfl

/-- **Behind the root** two renditions in step do the same. -/
theorem events_inStep {o : Outline} {heads : List Call} (ht : Tree heads o.nodes)
    {options : Options} {policy : Option (AdPolicy π)} {sink : Option (MetadataSink σ)}
    {policy' : Option (AdPolicy π')} {sink' : Option (MetadataSink σ')} {target : Target}
    {Q : π × σ × List String → π' × σ' × List String → Prop}
    (had : AdsInStep Q Q ⟨o, options, policy, sink⟩ ⟨o, options, policy', sink'⟩ target)
    {p : π} {t : σ} {p' : π'} {t' : σ'}
    (hchildren : (rootOpening ⟨o, options, policy, sink⟩ target p t).1.children =
      (rootOpening ⟨o, options, policy', sink'⟩ target p' t').1.children)
    (hroot : InStep Q (rootOpening ⟨o, options, policy, sink⟩ target p t).2
      (rootOpening ⟨o, options, policy', sink'⟩ target p' t').2) :
    ∃ rest : List Event,
      (events ⟨o, options, policy, sink⟩ target p t).1 =
          .opened (rootOpening ⟨o, options, policy, sink⟩ target p t).1 :: rest ∧
        (events ⟨o, options, policy', sink'⟩ target p' t').1 =
          .opened (rootOpening ⟨o, options, policy', sink'⟩ target p' t').1 :: rest ∧
        InStep Q (events ⟨o, options, policy, sink⟩ target p t).2
          (events ⟨o, options, policy', sink'⟩ target p' t').2 := by
  obtain ⟨i, hi⟩ := children_rootOpening ⟨o, options, policy, sink⟩ target p t
  have htodo : ∀ id, Step.opening id ∈ (o.get i).children.map Step.opening ++ [.closing] →
      (o.get id).isRoot = false := by
    intro id hid
    rcases List.mem_append.mp hid with hid | hid
    · obtain ⟨k, hk, hkid⟩ := List.mem_map.mp hid
      obtain rfl := Step.opening.inj hkid
      exact ht.isRoot_of_mem_children hk
    · cases List.mem_singleton.mp hid
  obtain ⟨hrest, hend⟩ := perform_inStep (fun i j hj => ht.isRoot_of_mem_children hj) had
    (2 * o.size - 1) _ htodo hroot
  have hsize : 0 < o.size := ht.size_pos
  have hevents := events_root ⟨o, options, policy, sink⟩ hsize target p t
  have hevents' := events_root ⟨o, options, policy', sink'⟩ hsize target p' t'
  simp only [hi] at hevents
  simp only [← hchildren, hi] at hevents'
  rw [hevents, hevents']
  exact ⟨_, rfl, congrArg (_ :: ·) hrest.symm, hend⟩

end Rendering

end WikiOutline
