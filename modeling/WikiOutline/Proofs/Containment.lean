/-
# Failures of those who help are contained

A policy that fails is as one that refuses, but for a warning at each failure.  A sink
is told at most one image by a full rendition, none by a dynamic one; when it fails
the rendition is that without a sink, but for one warning, and when it takes the image
one call more is hidden.  A build whose title is not taken is the build without a
sink, but for one diagnostic at its end.

Who is asked what is seen by those who note it: `AdPolicy.noting` keeps the slots at
which a policy failed, `MetadataSink.noting` the images a sink was told.

Key definitions: `AdPolicy.refusing`, `AdPolicy.noting`, `MetadataSink.noting`,
`Rendering.consult`, `Rendering.imageTold?`, `Rendering.PolicyContained`,
`Rendering.ImageContained`, `Outline.TitleContained`.
Key theorems: `Rendering.run_inStep`, `Rendering.run_alike`, `Rendering.run_told`,
`Rendering.failures_contained`.
-/
import WikiOutline.Proofs.Lockstep
import WikiOutline.Proofs.Additions
import WikiOutline.Proofs.Insertions

namespace WikiOutline

/-- The policy that refuses where another one fails. -/
def AdPolicy.refusing {π : Type} (policy : AdPolicy π) : AdPolicy π where
  decide slot p :=
    match policy.decide slot p with
    | (.error _, p) => (.ok false, p)
    | (.ok answer, p) => (.ok answer, p)

/-- A policy that also keeps the slots at which it failed, and why. -/
def AdPolicy.noting {π : Type} (policy : AdPolicy π) :
    AdPolicy (π × List (AdSlot × String)) where
  decide slot p :=
    match policy.decide slot p.1 with
    | (.error reason, q) => (.error reason, q, p.2 ++ [(slot, reason)])
    | (.ok answer, q) => (.ok answer, q, p.2)

/-- A sink that also keeps the images it was told. -/
def MetadataSink.noting {σ : Type} (sink : MetadataSink σ) :
    MetadataSink (σ × List (ImageKind × String)) where
  setTitle title t :=
    let (answer, u) := sink.setTitle title t.1
    (answer, u, t.2)
  setFeaturedImage kind src t :=
    let (answer, u) := sink.setFeaturedImage kind src t.1
    (answer, u, t.2 ++ [(kind, src)])

namespace Rendering

open Outline

variable {π σ π' σ' : Type}

/-! ### Asking a policy -/

/-- The warning about a policy that failed at a slot. -/
def adFailure (slot : AdSlot) (reason : String) : String :=
  "Ad policy failed for section " ++ toString slot.sectionOrdinal ++ ": " ++ reason

/-- The warning about an image that a sink did not take. -/
def imageFailure (src reason : String) : String :=
  "Failed to record featured image " ++ src ++ ": " ++ reason

/-- Whether a policy wants an advertisement in a slot, and what is beside the counters
then. -/
def consult (policy : AdPolicy π) (slot : AdSlot) (a : π × σ × List String) :
    Bool × π × σ × List String :=
  match policy.decide slot a.1 with
  | (.ok wants, p) => (wants, p, a.2)
  | (.error reason, p) => (false, p, a.2.1, a.2.2 ++ [adFailure slot reason])

/-- A state with something else beside its counters. -/
def State.withAside (s : State π σ) (a : π × σ × List String) : State π σ :=
  { s with policyState := a.1, sinkState := a.2.1, warnings := a.2.2 }

variable {o : Outline} {options : Options} {sink : Option (MetadataSink σ)}
  {sink' : Option (MetadataSink σ')} {target : Target}

/-- A marker is written where the policy wants one. -/
theorem adMarker_eq (policy : AdPolicy π) (s : State π σ) (id ordinal lines : Nat) :
    let cumulative := s.cumulativeLines + lines
    let asked := consult policy ⟨lines, cumulative, ordinal, s.adsInserted, id == o.lastSection⟩ s.aside
    let n := s.adsInserted + 1
    adMarker ⟨o, options, some policy, sink⟩ .full s id ordinal lines =
      if asked.1 then
        (some ((Call.special .adMarker).withAttribute "name" (.string ("ad-" ++ toString n))),
          { s.withAside asked.2 with adsInserted := n, cumulativeLines := 0 })
      else (none, { s.withAside asked.2 with cumulativeLines := cumulative }) := by
  unfold adMarker consult State.aside
  simp only
  cases policy.decide ⟨lines, s.cumulativeLines + lines, ordinal, s.adsInserted, id == o.lastSection⟩
    s.policyState with
  | mk answer p =>
    rcases answer with reason | wants
    · rfl
    · cases wants <;> rfl

/-- Policies that want the same in related states keep renditions in step. -/
theorem adsInStep_of_consult {policy : AdPolicy π} {policy' : AdPolicy π'}
    {Q R : π × σ × List String → π' × σ' × List String → Prop}
    (h : ∀ slot a a', Q a a' → (consult policy slot a).1 = (consult policy' slot a').1 ∧
      R (consult policy slot a).2 (consult policy' slot a').2) :
    AdsInStep Q R ⟨o, options, some policy, sink⟩ ⟨o, options, some policy', sink'⟩ .full := by
  intro s s' ⟨hc, ha⟩ id ordinal lines
  rw [adMarker_eq, adMarker_eq]
  generalize s.aside = a at *
  generalize s'.aside = a' at *
  rcases s with ⟨p, t, ids, cumulative, opened, ads, edits, warnings⟩
  rcases s' with ⟨p', t', ids', cumulative', opened', ads', edits', warnings'⟩
  cases hc
  obtain ⟨hwants, haside⟩ := h ⟨lines, cumulative + lines, ordinal, ads, id == o.lastSection⟩ _ _ ha
  simp only
  rw [← hwants]
  split
  · exact ⟨rfl, rfl, haside⟩
  · exact ⟨rfl, rfl, haside⟩

theorem adsInStep_dynamic {policy : Option (AdPolicy π)} {policy' : Option (AdPolicy π')}
    (Q : π × σ × List String → π' × σ' × List String → Prop) :
    AdsInStep Q Q ⟨o, options, policy, sink⟩ ⟨o, options, policy', sink'⟩ .dynamic :=
  fun _ _ h _ _ _ => ⟨rfl, h⟩

theorem adsInStep_none (Q : π × σ × List String → π' × σ' × List String → Prop)
    (target : Target) :
    AdsInStep Q Q ⟨o, options, none, sink⟩ ⟨o, options, none, sink'⟩ target := by
  intro s s' h id ordinal lines
  cases target <;> exact ⟨rfl, h⟩

/-! ### Telling a sink -/

/-- The place and the source of the image that a sink is told about the text of a
section. -/
def featured? (sec : Section) : Option (Nat × String) := do
  let i ← featuredImageIndex? sec.contentCalls
  let c ← sec.contentCalls[i]?
  let src ← c.attributes.getString? "src"
  some (i, src)

/-- The text with the call at an index hidden. -/
def hidden (calls : List Call) (i : Nat) : List Call :=
  calls.modify i fun c => c.withAttribute "display" (.string "none")

variable {policy : Option (AdPolicy π)} {policy' : Option (AdPolicy π')} {s : State π σ}
  {s' : State π' σ'}

/-- Without a sink, and without an image, a text is left as it is. -/
theorem captureFeaturedImage_of_none {sec : Section} (h : sink = none ∨ featured? sec = none) :
    captureFeaturedImage ⟨o, options, policy, sink⟩ s sec = (sec.contentCalls, s) := by
  unfold captureFeaturedImage
  split
  · rename_i index k hindex hsink
    rcases h with h | h
    · rw [h] at hsink
      cases hsink
    · have hsrc : ((sec.contentCalls[index]?).bind fun c => c.attributes.getString? "src") = none := by
        rw [featured?, hindex, Option.bind_eq_bind, Option.bind_some] at h
        cases hc : sec.contentCalls[index]? with
        | none => rfl
        | some c =>
          rw [hc, Option.bind_eq_bind, Option.bind_some] at h
          cases hsrc : c.attributes.getString? "src" with
          | none => exact hsrc
          | some src =>
            rw [hsrc] at h
            cases h
      rw [hsrc]
  · rfl

/-- A sink that is told an image decides whether it is hidden. -/
theorem captureFeaturedImage_of_some {sec : Section} {i : Nat} {src : String}
    (h : featured? sec = some (i, src)) (k : MetadataSink σ) :
    captureFeaturedImage ⟨o, options, policy, some k⟩ s sec =
      match k.setFeaturedImage (ImageKind.ofPath src) src s.sinkState with
      | (.ok (), t) => (hidden sec.contentCalls i, s.withAside (s.policyState, t, s.warnings))
      | (.error reason, t) => (sec.contentCalls,
          s.withAside (s.policyState, t, s.warnings ++ [imageFailure src reason])) := by
  obtain ⟨index, hindex, h⟩ := Option.bind_eq_some_iff.mp h
  obtain ⟨c, hc, h⟩ := Option.bind_eq_some_iff.mp h
  obtain ⟨src', hsrc, h⟩ := Option.bind_eq_some_iff.mp h
  cases h
  unfold captureFeaturedImage
  simp only [hindex, hc, Option.bind_some, hsrc]
  rfl

/-- The image that is told is a medium of the text. -/
theorem featured?_media {sec : Section} {i : Nat} {src : String}
    (h : featured? sec = some (i, src)) :
    ∃ c, sec.contentCalls[i]? = some c ∧ c.tag.isMedia = true := by
  obtain ⟨index, hindex, h⟩ := Option.bind_eq_some_iff.mp h
  obtain ⟨c, hc, h⟩ := Option.bind_eq_some_iff.mp h
  obtain ⟨src', -, h⟩ := Option.bind_eq_some_iff.mp h
  cases h
  refine ⟨c, hc, ?_⟩
  obtain ⟨i', -, hindex⟩ := Option.bind_eq_some_iff.mp hindex
  obtain ⟨c', hc', hindex⟩ := Option.bind_eq_some_iff.mp hindex
  split at hindex
  · rename_i himage
    cases hindex
    rw [hc] at hc'
    cases hc'
    simp only [isSourcedImage, Bool.and_eq_true] at himage
    exact himage.1.1.1
  · cases hindex

/-! ### Policies and sinks in related states -/

/-- Two policies answer alike in related states, or there is neither. -/
def PoliciesAgree (P : π → π' → Prop) : Option (AdPolicy π) → Option (AdPolicy π') → Prop
  | none, none => True
  | some policy, some policy' => ∀ slot p p', P p p' →
      (policy.decide slot p).1 = (policy'.decide slot p').1 ∧
        P (policy.decide slot p).2 (policy'.decide slot p').2
  | _, _ => False

/-- Two sinks answer alike in related states, or there is neither. -/
def SinksAgree (T : σ → σ' → Prop) :
    Option (MetadataSink σ) → Option (MetadataSink σ') → Prop
  | none, none => True
  | some k, some k' => ∀ kind src t t', T t t' →
      (k.setFeaturedImage kind src t).1 = (k'.setFeaturedImage kind src t').1 ∧
        T (k.setFeaturedImage kind src t).2 (k'.setFeaturedImage kind src t').2
  | _, _ => False

/-- Policies and sinks are in related states, and the warnings are the same but for some
that come first. -/
def Alike (P : π → π' → Prop) (T : σ → σ' → Prop) (first : List String) (a : π × σ × List String)
    (a' : π' × σ' × List String) : Prop :=
  P a.1 a'.1 ∧ T a.2.1 a'.2.1 ∧ a.2.2 = first ++ a'.2.2

variable {P : π → π' → Prop} {T : σ → σ' → Prop} {first : List String}

theorem policiesAgree_refl (policy : Option (AdPolicy π)) :
    PoliciesAgree (fun p p' => p = p') policy policy := by
  cases policy with
  | none => trivial
  | some policy =>
    intro slot p p' h
    rw [h]
    exact ⟨rfl, rfl⟩

theorem sinksAgree_refl (sink : Option (MetadataSink σ)) :
    SinksAgree (fun t t' => t = t') sink sink := by
  cases sink with
  | none => trivial
  | some k =>
    intro kind src t t' h
    rw [h]
    exact ⟨rfl, rfl⟩

/-- Policies that answer alike keep renditions in step. -/
theorem PoliciesAgree.adsInStep (hP : PoliciesAgree P policy policy') (target : Target) :
    AdsInStep (Alike P T first) (Alike P T first) ⟨o, options, policy, sink⟩
      ⟨o, options, policy', sink'⟩ target := by
  match target, policy, policy', hP with
  | .dynamic, _, _, _ => exact adsInStep_dynamic _
  | .full, none, none, _ => exact adsInStep_none _ _
  | .full, some policy, some policy', hP =>
    refine adsInStep_of_consult fun slot a a' ⟨hp, ht, hw⟩ => ?_
    obtain ⟨hanswer, hnext⟩ := hP slot _ _ hp
    unfold consult
    generalize policy.decide slot a.1 = r at *
    generalize policy'.decide slot a'.1 = r' at *
    obtain ⟨answer, q⟩ := r
    obtain ⟨answer', q'⟩ := r'
    cases hanswer
    cases answer with
    | ok wants => exact ⟨rfl, hnext, ht, hw⟩
    | error reason =>
      have hw' : a.2.2 ++ [adFailure slot reason] = first ++ (a'.2.2 ++ [adFailure slot reason]) := by
        rw [hw, List.append_assoc]
      exact ⟨rfl, hnext, ht, hw'⟩

/-- Sinks that answer alike leave the same text. -/
theorem captureFeaturedImage_inStep (hT : SinksAgree T sink sink')
    (h : InStep (Alike P T first) s s') (sec : Section) :
    (captureFeaturedImage ⟨o, options, policy, sink⟩ s sec).1 =
        (captureFeaturedImage ⟨o, options, policy', sink'⟩ s' sec).1 ∧
      InStep (Alike P T first) (captureFeaturedImage ⟨o, options, policy, sink⟩ s sec).2
        (captureFeaturedImage ⟨o, options, policy', sink'⟩ s' sec).2 := by
  cases hf : featured? sec with
  | none =>
    rw [captureFeaturedImage_of_none (.inr hf), captureFeaturedImage_of_none (.inr hf)]
    exact ⟨rfl, h⟩
  | some image =>
    obtain ⟨i, src⟩ := image
    match sink, sink', hT with
    | none, none, _ =>
      rw [captureFeaturedImage_of_none (.inl rfl), captureFeaturedImage_of_none (.inl rfl)]
      exact ⟨rfl, h⟩
    | some k, some k', hT =>
      obtain ⟨hp, ht, hw⟩ := h.aside
      obtain ⟨hanswer, hnext⟩ := hT (ImageKind.ofPath src) src _ _ ht
      rw [captureFeaturedImage_of_some hf, captureFeaturedImage_of_some hf]
      simp only [State.aside] at hp hw hanswer hnext
      generalize k.setFeaturedImage (ImageKind.ofPath src) src s.sinkState = r at *
      generalize k'.setFeaturedImage (ImageKind.ofPath src) src s'.sinkState = r' at *
      obtain ⟨answer, t⟩ := r
      obtain ⟨answer', t'⟩ := r'
      cases hanswer
      rw [hw]
      cases answer with
      | error reason => exact ⟨rfl, h.counters, hp, hnext, List.append_assoc ..⟩
      | ok _ => exact ⟨rfl, h.counters, hp, hnext, rfl⟩

/-! ### Whole renditions in step -/

attribute [ext] Rendition

/-- What is beside the counters at the end of a rendition. -/
def asideOf (r : Rendition × π × σ) : π × σ × List String := (r.2.1, r.2.2, r.1.warnings)

variable {heads : List Call} {p : π} {p' : π'} {t : σ} {t' : σ'}
  {R : π × σ × List String → π' × σ' × List String → Prop}

/-- **Two renditions whose roots are opened in step** differ in the calls of the root
only. -/
theorem run_inStep (htree : Tree heads o.nodes)
    (had : AdsInStep R R ⟨o, options, policy, sink⟩ ⟨o, options, policy', sink'⟩ target)
    (hchildren : (rootOpening ⟨o, options, policy, sink⟩ target p t).1.children =
      (rootOpening ⟨o, options, policy', sink'⟩ target p' t').1.children)
    (hroot : InStep R (rootOpening ⟨o, options, policy, sink⟩ target p t).2
      (rootOpening ⟨o, options, policy', sink'⟩ target p' t').2) :
    ∃ rest : List Call,
      (run ⟨o, options, policy, sink⟩ target p t).1.calls =
          (rootOpening ⟨o, options, policy, sink⟩ target p t).1.calls target ++ rest ∧
        (run ⟨o, options, policy', sink'⟩ target p' t').1.calls =
          (rootOpening ⟨o, options, policy', sink'⟩ target p' t').1.calls target ++ rest ∧
        R (asideOf (run ⟨o, options, policy, sink⟩ target p t))
          (asideOf (run ⟨o, options, policy', sink'⟩ target p' t')) := by
  obtain ⟨rest, hevents, hevents', hend⟩ := events_inStep htree had hchildren hroot
  exact ⟨rest.flatMap (Event.calls target), congrArg (List.flatMap (Event.calls target)) hevents,
    congrArg (List.flatMap (Event.calls target)) hevents', hend.aside⟩

/-- Sinks that answer alike open the root alike. -/
theorem rootOpening_inStep (hT : SinksAgree T sink sink') (p : π) (p' : π') (hp : P p p') (t : σ)
    (t' : σ') (ht : T t t')
    (had : AdsInStep (Alike P T []) R ⟨o, options, policy, sink⟩ ⟨o, options, policy', sink'⟩
      target) :
    (rootOpening ⟨o, options, policy, sink⟩ target p t).1 =
        (rootOpening ⟨o, options, policy', sink'⟩ target p' t').1 ∧
      InStep R (rootOpening ⟨o, options, policy, sink⟩ target p t).2
        (rootOpening ⟨o, options, policy', sink'⟩ target p' t').2 := by
  have hstart : InStep (Alike P T []) ({ policyState := p, sinkState := t } : State π σ)
      ({ policyState := p', sinkState := t' } : State π' σ') := ⟨rfl, hp, ht, rfl⟩
  cases hf : flattenedChild? ⟨o, options, policy, sink⟩ target (o.get 0) with
  | none => exact openSection_inStep hstart had hf
  | some only =>
    obtain ⟨opening, heading, u, u', hu, -, -, hopened, hopened', hend⟩ :=
      openSection_merged_inStep hstart hf
        (fun h _ _ => (captureFeaturedImage_inStep hT h (o.get only)).2) had
    refine ⟨?_, hend⟩
    rw [rootOpening, rootOpening, hopened, hopened', (captureFeaturedImage_inStep hT hu _).1]

/-- **Policies and sinks that answer alike** have the same done. -/
theorem events_alike (htree : Tree heads o.nodes) (options : Options) (target : Target)
    (hP : PoliciesAgree P policy policy') (hT : SinksAgree T sink sink') (p : π) (p' : π')
    (hp : P p p') (t : σ) (t' : σ') (ht : T t t') :
    (events ⟨o, options, policy, sink⟩ target p t).1 =
        (events ⟨o, options, policy', sink'⟩ target p' t').1 ∧
      InStep (Alike P T []) (events ⟨o, options, policy, sink⟩ target p t).2
        (events ⟨o, options, policy', sink'⟩ target p' t').2 := by
  have had : AdsInStep (Alike P T []) (Alike P T []) ⟨o, options, policy, sink⟩
      ⟨o, options, policy', sink'⟩ target := hP.adsInStep target
  obtain ⟨hopened, hroot⟩ := rootOpening_inStep hT p p' hp t t' ht had
  obtain ⟨rest, hevents, hevents', hend⟩ := events_inStep htree had
    (congrArg Opening.children hopened) hroot
  rw [hopened] at hevents
  exact ⟨hevents.trans hevents'.symm, hend⟩

/-- So they give the same rendition. -/
theorem run_alike (htree : Tree heads o.nodes) (options : Options) (target : Target)
    (hP : PoliciesAgree P policy policy') (hT : SinksAgree T sink sink') (p : π) (p' : π')
    (hp : P p p') (t : σ) (t' : σ') (ht : T t t') :
    (run ⟨o, options, policy, sink⟩ target p t).1 =
        (run ⟨o, options, policy', sink'⟩ target p' t').1 ∧
      P (run ⟨o, options, policy, sink⟩ target p t).2.1
        (run ⟨o, options, policy', sink'⟩ target p' t').2.1 ∧
      T (run ⟨o, options, policy, sink⟩ target p t).2.2
        (run ⟨o, options, policy', sink'⟩ target p' t').2.2 := by
  obtain ⟨hevents, hend⟩ := events_alike htree options target hP hT p p' hp t t' ht
  obtain ⟨hp, ht, hw⟩ := hend.aside
  have hsame : (run ⟨o, options, policy, sink⟩ target p t).1.calls =
      (run ⟨o, options, policy', sink'⟩ target p' t').1.calls :=
    congrArg (List.flatMap (Event.calls target)) hevents
  exact ⟨Rendition.ext hsame hw, hp, ht⟩

/-! ### The order of slots -/

/-- The state of the policy, and how many sections were opened. -/
def State.slots (s : State π σ) : π × Nat := (s.policyState, s.sectionOrdinal)

theorem slots_of_tallies {s s' : State π σ} (h : s'.tallies = s.tallies) : s'.slots = s.slots :=
  congrArg (fun tallies => (tallies.policyState, tallies.sectionOrdinal)) h

theorem editButton_slots (setup : Setup π σ) (target : Target) (s : State π σ) (sec : Section)
    (headingId : Option String) :
    (editButton setup target s sec headingId).2.slots = s.slots :=
  congrArg (fun tallies => (tallies.policyState, tallies.sectionOrdinal))
    (editButton_tallies setup target s sec headingId)

/-- The failures noted are at slots in the order of the sections, before the next one. -/
structure Ascending (slots : (π × List (AdSlot × String)) × Nat) : Prop where
  before : ∀ failure ∈ slots.1.2, failure.1.sectionOrdinal < slots.2
  sorted : slots.1.2.Pairwise fun f g => f.1.sectionOrdinal < g.1.sectionOrdinal

/-- One more section is opened. -/
theorem Ascending.next {p : π × List (AdSlot × String)} {n : Nat} (h : Ascending (p, n)) :
    Ascending (p, n + 1) :=
  ⟨fun failure hf => Nat.lt_succ_of_lt (h.before failure hf), h.sorted⟩

/-- And one failure more is noted, at its own slot. -/
theorem Ascending.noted {p q : π × List (AdSlot × String)} {n : Nat} (h : Ascending (p, n))
    {slot : AdSlot} {reason : String} (hslot : slot.sectionOrdinal = n)
    (hq : q.2 = p.2 ++ [(slot, reason)]) : Ascending (q, n + 1) := by
  constructor
  · intro failure hf
    rw [hq] at hf
    rcases List.mem_append.mp hf with hf | hf
    · exact h.next.before failure hf
    · rw [List.mem_singleton.mp hf, hslot]
      exact Nat.lt_succ_self n
  · rw [hq]
    refine List.pairwise_append.mpr ⟨h.sorted, List.pairwise_singleton .., ?_⟩
    intro failure hf last hlast
    rw [List.mem_singleton.mp hlast, hslot]
    exact h.before failure hf

/-- Asked about a slot, a policy notes at most that one. -/
theorem consult_noting (policy : AdPolicy π) (slot : AdSlot)
    (a : (π × List (AdSlot × String)) × σ × List String) :
    (consult policy.noting slot a).2.1.2 = a.1.2 ∨
      ∃ reason, (consult policy.noting slot a).2.1.2 = a.1.2 ++ [(slot, reason)] := by
  unfold consult AdPolicy.noting
  simp only
  cases policy.decide slot a.1.1 with
  | mk answer q =>
    cases answer with
    | ok wants => exact .inl rfl
    | error reason => exact .inr ⟨reason, rfl⟩

/-- Opening one more section notes at most its own slot. -/
theorem openSection_ascending (policy : AdPolicy π) {s : State (π × List (AdSlot × String)) σ}
    (h : Ascending s.slots) (id : Nat) :
    Ascending (openSection ⟨o, options, some policy.noting, sink⟩ target s id).2.slots := by
  rw [openSection_eq]
  simp only [editButton_slots]
  set merge := (mergeChild ⟨o, options, some policy.noting, sink⟩ target
    (ownHeading { s with sectionOrdinal := s.sectionOrdinal + 1 } (o.get id)).2.2 (o.get id)).2
  have hmerge : merge.2.2.slots = (s.policyState, s.sectionOrdinal + 1) := by
    rw [slots_of_tallies (mergeChild_tallies _ _ _ _), slots_of_tallies (ownHeading_tallies _ _)]
    rfl
  have hp : merge.2.2.policyState = s.policyState := congrArg Prod.fst hmerge
  have hn : merge.2.2.sectionOrdinal = s.sectionOrdinal + 1 := congrArg Prod.snd hmerge
  have h : Ascending (s.policyState, s.sectionOrdinal) := h
  match target with
  | .dynamic =>
    show Ascending merge.2.2.slots
    rw [hmerge]
    exact h.next
  | .full =>
    rw [adMarker_eq]
    generalize hslot : AdSlot.mk merge.1 _ s.sectionOrdinal _ _ = slot
    have hordinal : slot.sectionOrdinal = s.sectionOrdinal := by rw [← hslot]
    have hnoted := consult_noting policy slot merge.2.2.aside
    have hbefore : merge.2.2.aside.1.2 = s.policyState.2 := congrArg Prod.snd hp
    rw [hbefore] at hnoted
    generalize consult policy.noting slot merge.2.2.aside = asked at *
    have hasked : Ascending (asked.2.1, s.sectionOrdinal + 1) := by
      rcases hnoted with hnoted | ⟨reason, hnoted⟩
      · exact ⟨fun failure hf => h.next.before failure (hnoted ▸ hf), by
          rw [hnoted]
          exact h.sorted⟩
      · exact h.noted hordinal hnoted
    simp only
    split
    · rw [← hn] at hasked
      exact hasked
    · rw [← hn] at hasked
      exact hasked

/-- **Failures come in the order of the sections**, whichever are opened. -/
theorem openAll_ascending (policy : AdPolicy π) : ∀ (ids : List Nat)
    {s : State (π × List (AdSlot × String)) σ}, Ascending s.slots →
    Ascending (openAll ⟨o, options, some policy.noting, sink⟩ target ids s).2.slots := by
  intro ids
  induction ids with
  | nil => exact fun h => h
  | cons id ids ih => exact fun h => ih (openSection_ascending policy h id)

/-! ### A policy that fails -/

/-- Those who are beside a policy that notes its failures, and beside the policy that
refuses there: the first has one warning more for each failure. -/
def Noted (a : (π × List (AdSlot × String)) × σ × List String) (a' : π × σ × List String) : Prop :=
  a.1.1 = a'.1 ∧ a.2.1 = a'.2.1 ∧
    a.2.2 = a'.2.2 ++ a.1.2.map fun failure => adFailure failure.1 failure.2

theorem noting_refusing_inStep (policy : AdPolicy π) (target : Target) :
    AdsInStep Noted Noted ⟨o, options, some policy.noting, sink⟩
      ⟨o, options, some policy.refusing, sink⟩ target := by
  match target with
  | .dynamic => exact adsInStep_dynamic _
  | .full =>
    refine adsInStep_of_consult fun slot a a' ⟨hp, ht, hw⟩ => ?_
    obtain ⟨⟨q, noted⟩, u, warnings⟩ := a
    obtain ⟨q', u', warnings'⟩ := a'
    cases hp
    cases ht
    obtain rfl : warnings = warnings' ++ noted.map _ := hw
    unfold consult AdPolicy.noting AdPolicy.refusing
    simp only
    cases policy.decide slot q with
    | mk answer r =>
      cases answer with
      | ok wants => exact ⟨rfl, rfl, rfl, rfl⟩
      | error reason =>
        refine ⟨rfl, rfl, rfl, ?_⟩
        show _ ++ _ ++ _ = _ ++ List.map _ (_ ++ _)
        rw [List.map_append, List.append_assoc]
        rfl

theorem noting_agrees (policy : AdPolicy π) :
    PoliciesAgree (fun p p' => p = p'.1) (some policy) (some policy.noting) := by
  intro slot p p' h
  obtain ⟨q, noted⟩ := p'
  cases h
  simp only [AdPolicy.noting]
  cases policy.decide slot q with
  | mk answer r => cases answer <;> exact ⟨rfl, rfl⟩

/-- A rendition with a policy that may fail is as one with the policy that refuses
there, but for a warning at each failure. -/
structure PolicyContained (o : Outline) (options : Options) (policy : AdPolicy π)
    (sink : Option (MetadataSink σ)) (target : Target) (p : π) (t : σ) : Prop where
  calls : (run ⟨o, options, some policy, sink⟩ target p t).1.calls =
    (run ⟨o, options, some policy.refusing, sink⟩ target p t).1.calls
  states : (run ⟨o, options, some policy, sink⟩ target p t).2 =
    (run ⟨o, options, some policy.refusing, sink⟩ target p t).2
  /-- Who notes the failures sees the same rendition. -/
  noted : (run ⟨o, options, some policy.noting, sink⟩ target (p, []) t).1 =
    (run ⟨o, options, some policy, sink⟩ target p t).1
  /-- The failures are at slots of one section after the other. -/
  ordered : (run ⟨o, options, some policy.noting, sink⟩ target (p, []) t).2.1.2.Pairwise
    fun f g => f.1.sectionOrdinal < g.1.sectionOrdinal
  warnings : (run ⟨o, options, some policy, sink⟩ target p t).1.warnings =
    (run ⟨o, options, some policy.refusing, sink⟩ target p t).1.warnings ++
      (run ⟨o, options, some policy.noting, sink⟩ target (p, []) t).2.1.2.map
        fun failure => adFailure failure.1 failure.2

theorem policyContained (htree : Tree heads o.nodes) (options : Options) (policy : AdPolicy π)
    (sink : Option (MetadataSink σ)) (target : Target) (p : π) (t : σ) :
    PolicyContained o options policy sink target p t := by
  obtain ⟨hsame, hp, ht⟩ := run_alike htree options target (noting_agrees policy)
    (sinksAgree_refl sink) p (p, []) rfl t t rfl
  have had : AdsInStep (Alike (fun p p' => p.1 = p' ∧ p.2 = []) (fun t t' => t = t') []) Noted
      ⟨o, options, some policy.noting, sink⟩ ⟨o, options, some policy.refusing, sink⟩ target := by
    intro s s' h
    refine noting_refusing_inStep policy target s s' (h.imp fun ⟨⟨hp, hn⟩, ht, hw⟩ => ⟨hp, ht, ?_⟩)
    rw [hn, hw]
    exact (List.append_nil _).symm
  obtain ⟨hopened, hroot⟩ := rootOpening_inStep (sinksAgree_refl sink) (p, []) p ⟨rfl, rfl⟩ t t
    rfl had
  obtain ⟨rest, hcalls, hcalls', hp', ht', hw⟩ := run_inStep htree
    (noting_refusing_inStep policy target) (congrArg Opening.children hopened) hroot
  have hstart : Ascending
      ({ policyState := (p, []), sinkState := t } : State (π × List (AdSlot × String)) σ).slots :=
    ⟨fun _ hf => (List.not_mem_nil hf).elim, List.Pairwise.nil⟩
  set noting : Setup (π × List (AdSlot × String)) σ := ⟨o, options, some policy.noting, sink⟩
  have hnoting : Tree heads noting.outline.nodes := htree
  have hascending : Ascending (openAll noting target (visits noting target) _).2.slots :=
    openAll_ascending policy _ hstart
  rw [← (events_openAll hnoting target (p, []) t).2.1] at hascending
  refine ⟨?_, ?_, hsame.symm, hascending.sorted, ?_⟩
  · rw [hsame, hcalls, hcalls', hopened]
  · exact Prod.ext (hp.trans hp') (ht.trans ht')
  · rw [hsame]
    exact hw

/-! ### A sink that is told an image -/

/-- The image that a rendition tells a sink: that of the section merged into the root. -/
def imageTold? (o : Outline) (options : Options) (target : Target) : Option (Nat × String) := do
  let only ← flattenedChild? (⟨o, options, none, none⟩ : Setup Unit Unit) target (o.get 0)
  featured? (o.get only)

/-- A section holds the end of its text in one piece, and nothing else of it depends on
that end, but whether it is empty. -/
theorem arrange_content (target : Target) (hasChildren : Bool) (heading text : List Call)
    (marker button : Option Call) :
    ∃ before behind : List Call, ∀ content : List Call, content ≠ [] →
      arrange target hasChildren heading (text ++ content) marker button =
        before ++ content ++ behind := by
  match hasChildren, target with
  | false, _ =>
    refine ⟨marker.toList ++ heading ++ text, button.toList, fun content _ => ?_⟩
    show marker.toList ++ heading ++ (text ++ content) ++ button.toList = _
    simp only [List.append_assoc]
  | true, .dynamic =>
    refine ⟨heading ++ text, marker.toList ++ button.toList, fun content _ => ?_⟩
    show heading ++ (text ++ content) ++ marker.toList ++ button.toList = _
    simp only [List.append_assoc]
  | true, .full =>
    refine ⟨Call.enter .header :: (heading ++ text),
      marker.toList ++ button.toList ++ [Call.exit .header], fun content hcontent => ?_⟩
    have hfilled : text ++ content ≠ [] := fun h => hcontent (List.append_eq_nil_iff.mp h).2
    rw [arrange_set_apart (.inr hfilled)]
    simp only [List.append_assoc, List.cons_append]

/-- The calls of an opening hold the text of the section merged into it in one piece. -/
theorem calls_merged (target : Target) (opening : Opening) (id : Nat) (heading : List Call) :
    ∃ before behind : List Call, ∀ content : List Call, content ≠ [] →
      ({ opening with merged := some ⟨id, heading, content⟩ } : Opening).calls target =
        before ++ content ++ behind := by
  obtain ⟨before, behind, h⟩ := arrange_content target (!opening.children.isEmpty)
    (opening.own.heading ++ heading) opening.own.content opening.marker opening.button
  refine ⟨(Call.enter .division).withAttribute levelAttribute (.ofNat opening.level) :: before,
    behind, fun content hcontent => ?_⟩
  have hcalls := h content hcontent
  simp only [Opening.calls, Opening.portions, Option.toList_some, List.flatMap_cons,
    List.flatMap_nil, List.append_nil, hcalls, List.cons_append]

/-- A call hidden in a part is hidden in the whole. -/
theorem hidden_append (before content behind : List Call) (i : Nat) (h : i < content.length) :
    before ++ hidden content i ++ behind =
      hidden (before ++ content ++ behind) (before.length + i) := by
  have htake : (before ++ (content ++ behind)).take (before.length + i) =
      before ++ content.take i := by
    rw [List.take_length_add_append, List.take_append_of_le_length h.le]
  have hdrop : (before ++ (content ++ behind)).drop (before.length + i) =
      content.drop i ++ behind := by
    rw [List.drop_length_add_append, List.drop_append_of_le_length h.le]
  obtain ⟨c, rest, hc⟩ : ∃ c rest, content.drop i = c :: rest :=
    List.exists_cons_of_length_pos (by rw [List.length_drop]; omega)
  unfold hidden
  rw [List.modify_eq_take_drop, List.modify_eq_take_drop, List.append_assoc before content, htake,
    hdrop, hc]
  simp only [List.cons_append, List.modifyHead_cons, List.append_assoc]

/-- **A rendition that tells no image** is that without a sink. -/
theorem run_untold (htree : Tree heads o.nodes)
    (h : sink = none ∨ imageTold? o options target = none) :
    run ⟨o, options, policy, sink⟩ target p t = run ⟨o, options, policy, none⟩ target p t := by
  have had : AdsInStep (Alike (fun p p' => p = p') (fun t t' => t = t') [])
      (Alike (fun p p' => p = p') (fun t t' => t = t') []) ⟨o, options, policy, sink⟩
      ⟨o, options, policy, none⟩ target := (policiesAgree_refl policy).adsInStep target
  have hstart : InStep (Alike (fun p p' => p = p') (fun t t' => t = t') [])
      ({ policyState := p, sinkState := t } : State π σ) { policyState := p, sinkState := t } :=
    ⟨rfl, rfl, rfl, rfl⟩
  -- the root is opened alike, merged with a section or not
  obtain ⟨hopened, hroot⟩ : (rootOpening ⟨o, options, policy, sink⟩ target p t).1 =
      (rootOpening ⟨o, options, policy, none⟩ target p t).1 ∧
        InStep (Alike (fun p p' => p = p') (fun t t' => t = t') [])
          (rootOpening ⟨o, options, policy, sink⟩ target p t).2
          (rootOpening ⟨o, options, policy, none⟩ target p t).2 := by
    cases hf : flattenedChild? ⟨o, options, policy, sink⟩ target (o.get 0) with
    | none => exact openSection_inStep hstart had hf
    | some only =>
      have huntold : sink = none ∨ featured? (o.get only) = none := by
        refine h.imp_right fun h => ?_
        have hf' : flattenedChild? (⟨o, options, none, none⟩ : Setup Unit Unit) target (o.get 0) =
          some only := hf
        rw [imageTold?, hf'] at h
        exact h
      have hleft : ∀ u : State π σ, captureFeaturedImage ⟨o, options, policy, sink⟩ u (o.get only) =
          ((o.get only).contentCalls, u) := fun u => captureFeaturedImage_of_none huntold
      have hleft' : ∀ u : State π σ, captureFeaturedImage ⟨o, options, policy, none⟩ u (o.get only) =
          ((o.get only).contentCalls, u) := fun u => captureFeaturedImage_of_none (.inl rfl)
      obtain ⟨opening, heading, u, u', -, -, -, hopened, hopened', hend⟩ :=
        openSection_merged_inStep hstart hf
          (fun {u u'} hu _ _ => by rw [hleft, hleft']; exact hu) had
      refine ⟨?_, hend⟩
      rw [rootOpening, rootOpening, hopened, hopened', hleft, hleft']
  obtain ⟨rest, hcalls, hcalls', hp, ht, hw⟩ := run_inStep htree had
    (congrArg Opening.children hopened) hroot
  have hrendition : (run ⟨o, options, policy, sink⟩ target p t).1 =
      (run ⟨o, options, policy, none⟩ target p t).1 :=
    Rendition.ext (by rw [hcalls, hcalls', hopened]) hw
  exact Prod.ext hrendition (Prod.ext hp ht)

/-- A sink that takes an image hides one medium; one that does not leaves one warning
more. -/
def AnsweredAs (answer : Except String Unit) (src : String) (told bare : Rendition) : Prop :=
  match answer with
  | .ok _ =>
    told.warnings = bare.warnings ∧
      ∃ i c, bare.calls[i]? = some c ∧ c.tag.isMedia = true ∧ told.calls = hidden bare.calls i
  | .error reason =>
    told.calls = bare.calls ∧ told.warnings = imageFailure src reason :: bare.warnings

/-- What a sink does to the text of the section merged into the root, it does to the page:
the page holds what it leaves of that text, its state is the one it leaves, and what it
warns of comes first. -/
theorem run_captured (htree : Tree heads o.nodes) {only : Nat}
    (hf : flattenedChild? ⟨o, options, policy, sink⟩ target (o.get 0) = some only)
    {content : List Call} {t₁ : σ} {first : List String}
    (hcapture : ∀ u : State π σ, u.aside = (p, t, []) →
      captureFeaturedImage ⟨o, options, policy, sink⟩ u (o.get only) =
        (content, u.withAside (p, t₁, first))) :
    ∃ (opening : Opening) (heading rest : List Call),
      (run ⟨o, options, policy, sink⟩ target p t).1.calls =
          ({ opening with merged := some ⟨only, heading, content⟩ } : Opening).calls target ++
            rest ∧
        (run ⟨o, options, policy, none⟩ target p t).1.calls =
          ({ opening with merged := some ⟨only, heading, (o.get only).contentCalls⟩ } :
            Opening).calls target ++ rest ∧
        (run ⟨o, options, policy, sink⟩ target p t).2.2 = t₁ ∧
        (run ⟨o, options, policy, sink⟩ target p t).1.warnings =
          first ++ (run ⟨o, options, policy, none⟩ target p t).1.warnings := by
  have hstart : InStep (Alike (fun p p' => p = p') (fun t t' => t = t') [])
      ({ policyState := p, sinkState := t } : State π σ) { policyState := p, sinkState := t } :=
    ⟨rfl, rfl, rfl, rfl⟩
  have hleft : ∀ u : State π σ, captureFeaturedImage ⟨o, options, policy, none⟩ u (o.get only) =
      ((o.get only).contentCalls, u) := fun u => captureFeaturedImage_of_none (.inl rfl)
  have had : AdsInStep (Alike (fun p p' => p = p') (fun u (_ : σ) => u = t₁) first)
      (Alike (fun p p' => p = p') (fun u (_ : σ) => u = t₁) first)
      ⟨o, options, policy, sink⟩ ⟨o, options, policy, none⟩ target :=
    (policiesAgree_refl policy).adsInStep target
  obtain ⟨opening, heading, u, u', -, hu, -, hopened, hopened', hroot⟩ :=
    openSection_merged_inStep hstart hf (fun {u u'} h hu hu' => by
      rw [hcapture u hu, hleft]
      have hp : p = u'.policyState := (congrArg Prod.fst hu').symm
      have hw : u'.warnings = [] := congrArg (·.2.2) hu'
      refine ⟨h.counters, hp, rfl, ?_⟩
      show first = first ++ u'.warnings
      rw [hw, List.append_nil]) had
  rw [hcapture u hu] at hopened
  rw [hleft] at hopened'
  have hchildren := (congrArg Opening.children hopened).trans
    (congrArg Opening.children hopened').symm
  obtain ⟨rest, hcalls, hcalls', -, ht, hw⟩ := run_inStep htree had hchildren hroot
  refine ⟨opening, heading, rest, ?_, ?_, ht, hw⟩
  · rw [hcalls, rootOpening, hopened]
  · rw [hcalls', rootOpening, hopened']

/-- A page that holds a text in one piece holds it with a medium hidden. -/
theorem calls_hidden {opening : Opening} {only i : Nat} {heading rest calls bare : List Call}
    {sec : Section} {src : String} (hfeatured : featured? sec = some (i, src))
    (hcalls : calls = ({ opening with
      merged := some ⟨only, heading, hidden sec.contentCalls i⟩ } : Opening).calls target ++ rest)
    (hbare : bare = ({ opening with
      merged := some ⟨only, heading, sec.contentCalls⟩ } : Opening).calls target ++ rest) :
    ∃ j c, bare[j]? = some c ∧ c.tag.isMedia = true ∧ calls = hidden bare j := by
  obtain ⟨c, hc, hmedia⟩ := featured?_media hfeatured
  have hi : i < sec.contentCalls.length := (List.getElem?_eq_some_iff.mp hc).1
  have hfilled : sec.contentCalls ≠ [] := List.ne_nil_of_length_pos (by omega)
  have hhidden : hidden sec.contentCalls i ≠ [] := by
    rw [hidden, Ne, List.modify_eq_nil_iff]
    exact hfilled
  obtain ⟨before, behind, hmerged⟩ := calls_merged target opening only heading
  rw [hmerged _ hhidden, List.append_assoc _ behind, hidden_append _ _ _ _ hi] at hcalls
  rw [hmerged _ hfilled, List.append_assoc _ behind] at hbare
  refine ⟨before.length + i, c, ?_, hmedia, ?_⟩
  · rw [hbare, List.append_assoc, List.getElem?_append_right (Nat.le_add_right _ _),
      Nat.add_sub_cancel_left, List.getElem?_append_left hi]
    exact hc
  · rw [hcalls, hbare]

/-- **A rendition that tells an image** goes by the answer of the sink. -/
theorem run_told (htree : Tree heads o.nodes) {i : Nat} {src : String}
    (h : imageTold? o options target = some (i, src)) (k : MetadataSink σ) :
    (run ⟨o, options, policy, some k⟩ target p t).2.2 =
        (k.setFeaturedImage (ImageKind.ofPath src) src t).2 ∧
      AnsweredAs (k.setFeaturedImage (ImageKind.ofPath src) src t).1 src
        (run ⟨o, options, policy, some k⟩ target p t).1
        (run ⟨o, options, policy, none⟩ target p t).1 := by
  obtain ⟨only, hf, hfeatured⟩ := Option.bind_eq_some_iff.mp h
  have hf : flattenedChild? ⟨o, options, policy, some k⟩ target (o.get 0) = some only := hf
  have htold : ∀ u : State π σ, u.aside = (p, t, []) →
      captureFeaturedImage ⟨o, options, policy, some k⟩ u (o.get only) =
        match k.setFeaturedImage (ImageKind.ofPath src) src t with
        | (.ok (), t) => (hidden (o.get only).contentCalls i, u.withAside (p, t, []))
        | (.error reason, t) =>
          ((o.get only).contentCalls, u.withAside (p, t, [imageFailure src reason])) := by
    intro u hu
    have hp : u.policyState = p := congrArg Prod.fst hu
    have ht : u.sinkState = t := congrArg (·.2.1) hu
    have hw : u.warnings = [] := congrArg (·.2.2) hu
    rw [captureFeaturedImage_of_some hfeatured, hp, ht, hw]
    rfl
  generalize k.setFeaturedImage (ImageKind.ofPath src) src t = r at htold ⊢
  obtain ⟨answer, t₁⟩ := r
  cases answer with
  | error reason =>
    obtain ⟨opening, heading, rest, hcalls, hcalls', ht, hw⟩ := run_captured htree hf htold
    exact ⟨ht, hcalls.trans hcalls'.symm, hw⟩
  | ok taken =>
    obtain ⟨opening, heading, rest, hcalls, hcalls', ht, hw⟩ := run_captured htree hf htold
    exact ⟨ht, hw, calls_hidden hfeatured hcalls hcalls'⟩

/-- Without a sink the state kept for one does not change. -/
theorem run_bare (htree : Tree heads o.nodes) :
    (run ⟨o, options, policy, (none : Option (MetadataSink σ))⟩ target p t).2.2 = t := by
  have hnone : SinksAgree (fun u _ => u = t) (none : Option (MetadataSink σ))
      (none : Option (MetadataSink σ)) := trivial
  exact (run_alike htree options target (policiesAgree_refl policy) hnone p p rfl t t rfl).2.2

theorem noting_sink_agrees (k : MetadataSink σ) :
    SinksAgree (fun t t' => t = t'.1) (some k) (some k.noting) := by
  intro kind src t t' h
  cases h
  exact ⟨rfl, rfl⟩

/-- The images that a rendition tells a sink. -/
def imagesTold (o : Outline) (options : Options) (policy : Option (AdPolicy π))
    (k : MetadataSink σ) (target : Target) (p : π) (t : σ) : List (ImageKind × String) :=
  (run ⟨o, options, policy, some k.noting⟩ target p (t, [])).2.2.2

/-- **What is told** is the featured image, if there is one. -/
theorem imagesTold_eq (htree : Tree heads o.nodes) (k : MetadataSink σ) :
    imagesTold o options policy k target p t =
      ((imageTold? o options target).map fun image => (ImageKind.ofPath image.2, image.2)).toList := by
  unfold imagesTold
  cases h : imageTold? o options target with
  | none =>
    rw [run_untold htree (.inr h), run_bare htree]
    rfl
  | some image =>
    rw [(run_told htree h k.noting).1]
    rfl

/-- A rendition tells a sink at most one image, and only a full one does.  It is that
without a sink but for what follows from the answer. -/
structure ImageContained (o : Outline) (options : Options) (policy : Option (AdPolicy π))
    (k : MetadataSink σ) (p : π) (t : σ) : Prop where
  /-- Who notes the images sees the same rendition. -/
  noted (target : Target) : (run ⟨o, options, policy, some k.noting⟩ target p (t, [])).1 =
    (run ⟨o, options, policy, some k⟩ target p t).1
  dynamic : imagesTold o options policy k .dynamic p t = []
  once : (imagesTold o options policy k .full p t).length ≤ 1
  untold (target : Target) : imagesTold o options policy k target p t = [] →
    run ⟨o, options, policy, some k⟩ target p t = run ⟨o, options, policy, none⟩ target p t
  told (kind : ImageKind) (src : String) :
    imagesTold o options policy k .full p t = [(kind, src)] →
      (run ⟨o, options, policy, some k⟩ .full p t).2.2 = (k.setFeaturedImage kind src t).2 ∧
        AnsweredAs (k.setFeaturedImage kind src t).1 src
          (run ⟨o, options, policy, some k⟩ .full p t).1
          (run ⟨o, options, policy, none⟩ .full p t).1

theorem imageContained (htree : Tree heads o.nodes) (options : Options)
    (policy : Option (AdPolicy π)) (k : MetadataSink σ) (p : π) (t : σ) :
    ImageContained o options policy k p t where
  noted target := (run_alike htree options target (policiesAgree_refl policy) (noting_sink_agrees k)
    p p rfl t (t, []) rfl).1.symm
  dynamic := imagesTold_eq htree k
  once := by
    rw [imagesTold_eq htree]
    cases imageTold? o options .full with
    | none => exact Nat.zero_le 1
    | some image => exact Nat.le_refl 1
  untold target h := by
    rw [imagesTold_eq htree] at h
    cases himage : imageTold? o options target with
    | none => exact run_untold htree (.inr himage)
    | some image =>
      rw [himage] at h
      cases h
  told kind src h := by
    rw [imagesTold_eq htree] at h
    cases himage : imageTold? o options .full with
    | none =>
      rw [himage] at h
      cases h
    | some image =>
      rw [himage] at h
      cases h
      exact run_told htree himage k

/-! ### A sink that is told a title -/

/-- A build with a sink is that without one, but for one warning at its end when the title
is not taken. -/
def TitleContained (strictness : Strictness) (calls : List Call) (k : MetadataSink σ) (t : σ) :
    Prop :=
  ∃ bare o t', buildWith strictness none calls t = .ok (bare, t) ∧
    buildWith strictness (some k) calls t = .ok (o, t') ∧
    match bare.title with
    | none => o = bare ∧ t' = t
    | some title => t' = (k.setTitle title t).2 ∧
      match (k.setTitle title t).1 with
      | .ok _ => o = bare
      | .error reason => ∃ d : Diagnostic, d.kind = .warning ∧
        d = ⟨.titleNotRecorded reason, none⟩ ∧
        o = { bare with diagnostics := bare.diagnostics ++ [d] }

theorem titleContained {strictness : Strictness} {calls : List Call} {b : Builder}
    (h : buildSections strictness calls = .ok b) (k : MetadataSink σ) (t : σ) :
    TitleContained strictness calls k t := by
  have hbare : buildWith strictness none calls t =
      .ok (⟨b.sections, b.title?, b.maxEndPos, b.diagnostics⟩, t) := by
    rw [Builder.buildWith_of_ok h, Builder.recordTitle_none]
  refine ⟨_, _, _, hbare, Builder.buildWith_of_ok h (some k) t, ?_⟩
  simp only [recordTitle]
  cases b.title? with
  | none => exact ⟨rfl, rfl⟩
  | some title =>
    simp only
    cases k.setTitle title t with
    | mk answer t' =>
      cases answer with
      | ok _ => exact ⟨rfl, rfl⟩
      | error reason => exact ⟨rfl, _, rfl, rfl, rfl⟩

/-! ### All together -/

/-- **Failures are contained**, for every outline that is built, with whichever policy and
sinks. -/
theorem failures_contained {τ : Type} {strictness : Strictness} {titled : Option (MetadataSink τ)}
    {calls : List Call} {u u' : τ} {o : Outline}
    (hb : buildWith strictness titled calls u = .ok (o, u')) :
    (∀ {π σ : Type} (options : Options) (policy : AdPolicy π) (sink : Option (MetadataSink σ))
        (target : Target) (p : π) (t : σ), PolicyContained o options policy sink target p t) ∧
      (∀ {π σ : Type} (options : Options) (policy : Option (AdPolicy π)) (k : MetadataSink σ)
        (p : π) (t : σ), ImageContained o options policy k p t) ∧
      ∀ {σ : Type} (k : MetadataSink σ) (t : σ), TitleContained strictness calls k t := by
  have htree := (buildWith_sound hb).1
  obtain ⟨b, hsections, -⟩ := Builder.buildWith_ok hb
  exact ⟨policyContained htree, imageContained htree, titleContained hsections⟩

/-- Where all who help fail, each failure is a warning and nothing else. -/
theorem failures_contained_of_pictured :
    let busy : AdPolicy Unit := ⟨fun _ p => (.error "busy", p)⟩
    let gone : MetadataSink Unit := ⟨fun _ t => (.error "gone", t), fun _ _ t => (.error "gone", t)⟩
    ∃ o, buildWith .strict (none : Option (MetadataSink Unit)) pictured () = .ok (o, ()) ∧
      PolicyContained o {} busy (some gone) .full () () ∧
      ImageContained o {} (some busy) gone () () ∧ TitleContained .strict pictured gone () ∧
      (run ⟨o, {}, some busy, some gone⟩ .full () ()).1.warnings =
        ["Failed to record featured image sun.png: gone", "Ad policy failed for section 0: busy",
          "Ad policy failed for section 1: busy"] := by
  intro busy gone
  have hb : buildWith .strict (none : Option (MetadataSink Unit)) pictured () = .ok (_, ()) := rfl
  obtain ⟨hpolicy, himage, htitle⟩ := failures_contained hb
  refine ⟨_, hb, hpolicy {} busy (some gone) .full () (), himage {} (some busy) gone () (),
    htitle gone (), ?_⟩
  decide

end Rendering

end WikiOutline
