/-
# Elements open around an event

Events are well nested where every element that starts is finished, the innermost first,
and no heading starts inside another one.  Around each event there are the elements that
are open (`elementsBehind?`).  A heading belongs to the outline when none of them is a
quote, an item or a footnote.

The calls of such events are read along: a reading of the calls stands in a heading just
where a heading of the outline is open, and it may take a paragraph only where nothing is
open that keeps headings out of the outline (`Stands`).  So the calls that begin sections
are those of the headings of the outline (`Stands.transcribe`).

Key definitions: `Markdown.elementsBehind?`, `Markdown.WellNested`,
`Markdown.outlineHeadings`, `Markdown.Stands`.
Key theorems: `Markdown.exists_finish`, `Markdown.Stands.transcribeEvent`,
`Markdown.Stands.transcribe`.
-/
import WikiOutline.Markdown.Transcript
import WikiOutline.Proofs.Attributes
import WikiOutline.Proofs.Trail

namespace WikiOutline

namespace Markdown

open Outline Builder Reading

/-! ### Elements -/

namespace Element

def isHeading : Element → Bool
  | .heading _ _ => true
  | _ => false

/-- The element keeps the headings inside it out of the outline. -/
def isContainer : Element → Bool
  | .quote => true
  | .item => true
  | .footnote _ => true
  | _ => false

end Element

/-- The elements open behind an event, the innermost first.  Nothing finishes where nothing
is open, and no heading starts inside another one. -/
def Event.behind? (opened : List Element) : Event → Option (List Element)
  | .start e =>
    if e.isHeading && opened.any Element.isHeading then none else some (e :: opened)
  | .finish =>
    match opened with
    | [] => none
    | _ :: outer => some outer
  | _ => some opened

/-- The elements open behind some events. -/
def elementsBehind? : List Element → List (Event × Span) → Option (List Element)
  | opened, [] => some opened
  | opened, (event, _) :: events =>
    (event.behind? opened).bind fun opened => elementsBehind? opened events

/-- Every element that starts is finished, the innermost first, and no heading starts inside
another one. -/
def WellNested (events : List (Event × Span)) : Prop := elementsBehind? [] events = some []

/-- The start of a heading. -/
structure HeadingStart where
  level : HeadingLevel
  id : Option String
  span : Span

/-- The call of a heading of the outline. -/
def HeadingStart.call (source : List Char) (h : HeadingStart) : Call :=
  spanned (enterElement source [] h.span (.heading h.level h.id)) h.span

/-- The heading of the outline that an event starts. -/
def Event.heading? (opened : List Element) (span : Span) : Event → Option HeadingStart
  | .start (.heading level id) =>
    if opened.any Element.isContainer then none else some ⟨level, id, span⟩
  | _ => none

/-- The headings of the outline that some events start, in their order. -/
def outlineHeadings : List Element → List (Event × Span) → List HeadingStart
  | _, [] => []
  | opened, (event, span) :: events =>
    (event.heading? opened span).toList ++
      outlineHeadings ((event.behind? opened).getD opened) events

/-! ### What is open -/

/-- The event neither starts nor finishes an element. -/
def Event.IsLeaf (event : Event) : Prop := (∀ e, event ≠ .start e) ∧ event ≠ .finish

/-- An event starts an element, or finishes the innermost one, or leaves open what is. -/
theorem Event.behind?_cases {event : Event} {opened opened' : List Element}
    (h : event.behind? opened = some opened') :
    (∃ e, event = .start e ∧ opened' = e :: opened ∧
        (e.isHeading = true → opened.any Element.isHeading = false)) ∨
      (event = .finish ∧ ∃ e, opened = e :: opened') ∨ (event.IsLeaf ∧ opened' = opened) := by
  have hleaf : event.IsLeaf → event.behind? opened = some opened → event.IsLeaf ∧ opened' = opened :=
    fun hl hs => ⟨hl, (Option.some.inj (hs.symm.trans h)).symm⟩
  cases event with
  | start e =>
    left
    simp only [Event.behind?] at h
    split at h
    · cases h
    · rename_i hnested
      refine ⟨e, rfl, (Option.some.inj h).symm, fun he => ?_⟩
      rw [he, Bool.true_and] at hnested
      simpa using hnested
  | finish =>
    cases opened with
    | nil => cases h
    | cons e outer =>
      obtain rfl : outer = opened' := Option.some.inj h
      exact .inr (.inl ⟨rfl, e, rfl⟩)
  | text => exact .inr (.inr (hleaf ⟨nofun, nofun⟩ rfl))
  | code => exact .inr (.inr (hleaf ⟨nofun, nofun⟩ rfl))
  | html => exact .inr (.inr (hleaf ⟨nofun, nofun⟩ rfl))
  | math => exact .inr (.inr (hleaf ⟨nofun, nofun⟩ rfl))
  | footnoteReference => exact .inr (.inr (hleaf ⟨nofun, nofun⟩ rfl))
  | softBreak => exact .inr (.inr (hleaf ⟨nofun, nofun⟩ rfl))
  | hardBreak => exact .inr (.inr (hleaf ⟨nofun, nofun⟩ rfl))
  | rule => exact .inr (.inr (hleaf ⟨nofun, nofun⟩ rfl))
  | taskMarker => exact .inr (.inr (hleaf ⟨nofun, nofun⟩ rfl))

theorem Event.IsLeaf.behind? {event : Event} (h : event.IsLeaf) (opened : List Element) :
    event.behind? opened = some opened := by
  cases event with
  | start e => exact absurd rfl (h.1 e)
  | finish => exact absurd rfl h.2
  | _ => rfl

/-- What an event does to the elements inside others it does with those others around. -/
theorem Event.behind?_inside {event : Event} {inside inside' opened outer : List Element}
    (hinside : event.behind? inside = some inside')
    (houter : event.behind? (inside ++ opened) = some outer) : outer = inside' ++ opened := by
  rcases Event.behind?_cases hinside with ⟨e, rfl, rfl, -⟩ | ⟨rfl, e, rfl⟩ | ⟨hleaf, rfl⟩
  · rcases Event.behind?_cases houter with ⟨e', he, rfl, -⟩ | ⟨hfinish, -⟩ | ⟨hleaf, -⟩
    · rw [Event.start.inj he]
      rfl
    · cases hfinish
    · exact absurd rfl (hleaf.1 e)
  · exact (Option.some.inj houter).symm
  · exact (Option.some.inj ((hleaf.behind? _).symm.trans houter)).symm

theorem elementsBehind?_append (opened : List Element) (events more : List (Event × Span)) :
    elementsBehind? opened (events ++ more) =
      (elementsBehind? opened events).bind fun opened => elementsBehind? opened more := by
  induction events generalizing opened with
  | nil => rfl
  | cons e events ih =>
    obtain ⟨event, span⟩ := e
    simp only [List.cons_append, elementsBehind?]
    cases event.behind? opened with
    | none => rfl
    | some opened => exact ih opened

theorem outlineHeadings_append {opened opened' : List Element} {events : List (Event × Span)}
    (h : elementsBehind? opened events = some opened') (more : List (Event × Span)) :
    outlineHeadings opened (events ++ more) =
      outlineHeadings opened events ++ outlineHeadings opened' more := by
  induction events generalizing opened with
  | nil =>
    obtain rfl := Option.some.inj h
    rfl
  | cons e events ih =>
    obtain ⟨event, span⟩ := e
    obtain ⟨outer, houter, h⟩ := Option.bind_eq_some_iff.mp h
    simp only [List.cons_append, outlineHeadings, houter, Option.getD_some, ih h, List.append_assoc]

/-- **Every element that starts is finished**: behind its start come events that are well
nested, and then its end. -/
theorem exists_finish {e : Element} {opened : List Element} : ∀ (events : List (Event × Span))
    (inside : List Element), elementsBehind? (inside ++ e :: opened) events = some [] →
    ∃ inner stop rest, events = inner ++ (.finish, stop) :: rest ∧
      elementsBehind? inside inner = some [] ∧
      elementsBehind? (inside ++ e :: opened) inner = some (e :: opened) ∧
      elementsBehind? opened rest = some []
  | [], inside, h => by
    have hne : inside ++ e :: opened ≠ [] :=
      List.append_ne_nil_of_right_ne_nil _ (List.cons_ne_nil _ _)
    exact absurd (Option.some.inj h) hne
  | (event, span) :: events, inside, h => by
    obtain ⟨outer, houter, h⟩ := Option.bind_eq_some_iff.mp h
    -- an event inside goes before the end, which is found behind it
    have hstep : ∀ inside', event.behind? inside = some inside' →
        ∃ inner stop rest, (event, span) :: events = inner ++ (.finish, stop) :: rest ∧
          elementsBehind? inside inner = some [] ∧
          elementsBehind? (inside ++ e :: opened) inner = some (e :: opened) ∧
          elementsBehind? opened rest = some [] := by
      intro inside' hinside
      obtain rfl := Event.behind?_inside hinside houter
      obtain ⟨inner, stop, rest, rfl, h1, h2, h3⟩ := exists_finish events inside' h
      refine ⟨(event, span) :: inner, stop, rest, rfl, ?_, ?_, h3⟩
      · rw [elementsBehind?, hinside, Option.bind_some, h1]
      · rw [elementsBehind?, houter, Option.bind_some, h2]
    rcases Event.behind?_cases houter with ⟨d, rfl, -, hnested⟩ | ⟨rfl, d, hd⟩ | ⟨hleaf, -⟩
    · refine hstep (d :: inside) (if_neg fun hinner => ?_)
      rw [Bool.and_eq_true] at hinner
      have hnone := hnested hinner.1
      rw [List.any_append, hinner.2] at hnone
      cases hnone
    · cases inside with
      | nil =>
        obtain ⟨-, rfl⟩ := List.cons.inj hd
        exact ⟨[], span, events, rfl, rfl, rfl, h⟩
      | cons d inside => exact hstep inside rfl
    · exact hstep inside (hleaf.behind? inside)

/-- Inside a container no heading belongs to the outline. -/
theorem outlineHeadings_inside {opened : List Element}
    (hopened : opened.any Element.isContainer = true) : ∀ (events : List (Event × Span))
    {inside last outer : List Element}, elementsBehind? inside events = some last →
    elementsBehind? (inside ++ opened) events = some outer →
    outlineHeadings (inside ++ opened) events = []
  | [], _, _, _, _, _ => rfl
  | (event, span) :: events, inside, last, outer, h, h' => by
    obtain ⟨inside', hinside, h⟩ := Option.bind_eq_some_iff.mp h
    obtain ⟨outer', houter, h'⟩ := Option.bind_eq_some_iff.mp h'
    obtain rfl := Event.behind?_inside hinside houter
    have hcontainer : (inside ++ opened).any Element.isContainer = true := by
      rw [List.any_append, hopened, Bool.or_true]
    have hnone : event.heading? (inside ++ opened) span = none := by
      unfold Event.heading?
      split
      · exact if_pos hcontainer
      · rfl
    rw [outlineHeadings, hnone, houter]
    exact outlineHeadings_inside hopened events h h'

/-! ### The calls of events -/

/-- A tag is that of an element. -/
def Fits (e : Element) (tag : Tag) : Prop :=
  tag.isHeading = e.isHeading ∧ isComponent tag = e.isContainer

theorem enterElement_fits (source : List Char) (tags : List Tag) (span : Span) (e : Element) :
    Fits e (enterElement source tags span e).tag ∧
      (enterElement source tags span e).state = .enter := by
  cases e with
  | heading level id => cases id <;> exact ⟨⟨rfl, rfl⟩, rfl⟩
  | codeBlock info =>
    cases info with
    | none => exact ⟨⟨rfl, rfl⟩, rfl⟩
    | some words =>
      unfold enterElement
      simp only
      split <;> exact ⟨⟨rfl, rfl⟩, rfl⟩
  | list first => cases first <;> exact ⟨⟨rfl, rfl⟩, rfl⟩
  | image destination title =>
    unfold enterElement
    simp only
    split <;> exact ⟨⟨rfl, rfl⟩, rfl⟩
  | _ => exact ⟨⟨rfl, rfl⟩, rfl⟩

/-- A component is none of the outline. -/
theorem name_ne_outline {tag : Tag} (h : isComponent tag = true) :
    tag.name ≠ Call.outlineContext := by
  intro heq
  rw [isComponent, heq] at h
  exact absurd h (by decide)

theorem fits_any {opened : List Element} {tags : List Tag} (h : List.Forall₂ Fits opened tags) :
    tags.any isComponent = opened.any Element.isContainer := by
  induction h with
  | nil => rfl
  | cons hd _ ih => rw [List.any_cons, List.any_cons, ih, hd.2]

/-- The context of a heading tells whether it belongs to the outline. -/
theorem headingContext_eq_outline {opened : List Element} {tags : List Tag}
    (h : List.Forall₂ Fits opened tags) :
    headingContext tags = Call.outlineContext ↔ opened.any Element.isContainer = false := by
  rw [← fits_any h]
  unfold headingContext
  constructor
  · intro hc
    by_contra hany
    have hany : tags.any isComponent = true := by simpa using hany
    split at hc
    · rename_i tag htag
      exact name_ne_outline (List.find?_some htag) hc
    · rename_i hnone
      obtain ⟨tag, hmem, htag⟩ := List.any_eq_true.mp hany
      exact absurd htag (List.find?_eq_none.mp hnone tag hmem)
  · intro hany
    split
    · rename_i tag htag
      have hmem := List.mem_of_find?_eq_some htag
      have htrue : tags.any isComponent = true :=
        List.any_eq_true.mpr ⟨tag, hmem, List.find?_some htag⟩
      rw [hany] at htrue
      cases htrue
    · rfl

/-- Only a heading is a heading of the outline, and only outside of all containers. -/
theorem isOutlineHeading_enterElement {opened : List Element} {tags : List Tag}
    (h : List.Forall₂ Fits opened tags) (source : List Char) (span : Span) (e : Element) :
    isOutlineHeading (spanned (enterElement source tags span e) span) =
      (e.isHeading && !opened.any Element.isContainer) := by
  have hheading : (spanned (enterElement source tags span e) span).tag.isHeading = e.isHeading :=
    (enterElement_fits source tags span e).1.1
  rw [isOutlineHeading, hheading]
  cases e with
  | heading level id =>
    have hcontext : (spanned (enterElement source tags span (.heading level id)) span).context =
        some (headingContext tags) := by cases id <;> rfl
    have hcontext' := headingContext_eq_outline h
    rw [Call.isOutlineContext, hcontext]
    cases hany : opened.any Element.isContainer with
    | false =>
      rw [hcontext'.mpr hany]
      rfl
    | true =>
      have hne : headingContext tags ≠ Call.outlineContext := fun hc => by
        rw [hcontext'.mp hc] at hany
        cases hany
      have hsome : (some (headingContext tags) == some Call.outlineContext) = false :=
        beq_false_of_ne fun hc => hne (Option.some.inj hc)
      rw [hsome]
      rfl
  | _ => rfl

/-- The calls of an event that is no start and no finish are no headings. -/
theorem transcribeEvent_leaf {event : Event} (h : event.IsLeaf) (source : List Char)
    (tags : List Tag) (span : Span) :
    (transcribeEvent source tags event span).2 = tags ∧
      ∀ c ∈ (transcribeEvent source tags event span).1, c.tag.isHeading = false := by
  cases event with
  | start e => exact absurd rfl (h.1 e)
  | finish => exact absurd rfl h.2
  | code =>
    refine ⟨rfl, fun c hc => ?_⟩
    simp only [transcribeEvent, List.mem_cons, List.not_mem_nil, or_false] at hc
    rcases hc with rfl | rfl | rfl <;> rfl
  | _ =>
    refine ⟨rfl, fun c hc => ?_⟩
    obtain rfl := List.mem_singleton.mp hc
    rfl

/-! ### Reading the calls -/

/-- How many headings of the outline are open. -/
def depthOf : List Element → Nat
  | [] => 0
  | e :: outer => depthOf outer + if e.isHeading && !outer.any Element.isContainer then 1 else 0

/-- A reading of calls stands where the events stand that they come from: in a heading just
where one of the outline is open. -/
structure Stands (opened : List Element) (tags : List Tag) (t : Trail) : Prop where
  tags : List.Forall₂ Fits opened tags
  /-- No heading is open inside another one. -/
  single : opened.countP Element.isHeading ≤ 1
  depth : t.reading.depth = depthOf opened
  absorbing : t.absorbing = true → opened.any Element.isContainer = false

theorem stands_init : Stands [] [] {} where
  tags := .nil
  single := Nat.zero_le 1
  depth := rfl
  absorbing h := by cases h

theorem depthOf_eq_zero {opened : List Element} (h : opened.any Element.isHeading = false) :
    depthOf opened = 0 := by
  induction opened with
  | nil => rfl
  | cons e outer ih =>
    rw [List.any_cons, Bool.or_eq_false_iff] at h
    rw [depthOf, ih h.2, h.1]
    rfl

theorem countP_eq_zero {opened : List Element} (h : opened.any Element.isHeading = false) :
    opened.countP Element.isHeading = 0 := by
  rw [List.countP_eq_zero]
  intro e he hheading
  rw [List.any_eq_true.mpr ⟨e, he, hheading⟩] at h
  cases h

/-- Behind an open heading no other one is open. -/
theorem Stands.outer {e : Element} {outer : List Element} {tags : List Tag} {t : Trail}
    (h : Stands (e :: outer) tags t) (he : e.isHeading = true) :
    outer.any Element.isHeading = false := by
  have hsingle := h.single
  rw [List.countP_cons_of_pos he] at hsingle
  by_contra hany
  obtain ⟨d, hmem, hd⟩ := List.any_eq_true.mp (by simpa using hany : outer.any Element.isHeading = true)
  have hpos := List.countP_pos_iff.mpr ⟨d, hmem, hd⟩
  omega

variable {opened opened' : List Element} {tags : List Tag} {t : Trail} {c : Call}

/-- A call that is no heading of the outline is passed by, if it is no heading at all or
comes outside of the headings of the outline. -/
theorem after_passed (hc : isOutlineHeading c = false)
    (h : c.tag.isHeading = false ∨ t.reading.depth = 0) :
    (t.after c).reading = t.reading ∧ (t.after c).absorbing = false ∧
      t.reading.starts c = false := by
  have hs := starts_of_not_heading t.reading hc
  have hstray : isStray c = false := by rw [isStray, hc, Bool.false_and]
  by_cases hd : t.reading.depth = 0
  · rw [Trail.after_outside hs hd, hstray]
    exact ⟨rfl, Bool.and_false _, hs⟩
  · have hn : c.tag.isHeading = false := h.resolve_right hd
    have hreading : t.reading.after c = t.reading := by
      rw [Reading.after, hs, if_neg Bool.false_ne_true, if_neg hd, nesting, hn]
    rw [Trail.after_inside hd, hreading, beq_false_of_ne hd]
    exact ⟨rfl, rfl, hs⟩

/-- So a reading still stands where as many headings of the outline are open. -/
theorem Stands.passed (h : Stands opened tags t) {tags' : List Tag}
    (htags : List.Forall₂ Fits opened' tags') (hsingle : opened'.countP Element.isHeading ≤ 1)
    (hdepth : depthOf opened' = depthOf opened) (hc : isOutlineHeading c = false)
    (hpass : c.tag.isHeading = false ∨ t.reading.depth = 0) :
    Stands opened' tags' (t.after c) ∧ startingCalls t.reading [c] = [] := by
  obtain ⟨hreading, habsorbing, hs⟩ := after_passed hc hpass
  refine ⟨⟨htags, hsingle, ?_, fun ha => ?_⟩, ?_⟩
  · rw [hreading, h.depth, hdepth]
  · rw [habsorbing] at ha
    cases ha
  · rw [startingCalls, hs]
    rfl

/-- The calls of a page that are no headings at all are passed by. -/
theorem Stands.plain (h : Stands opened tags t) : ∀ (calls : List Call),
    (∀ c ∈ calls, c.tag.isHeading = false) →
    Stands opened tags (calls.foldl Trail.after t) ∧ startingCalls t.reading calls = [] := by
  intro calls
  induction calls generalizing t with
  | nil => exact fun _ => ⟨h, rfl⟩
  | cons c calls ih =>
    intro hcalls
    have hc : c.tag.isHeading = false := hcalls c List.mem_cons_self
    have houtline : isOutlineHeading c = false := by rw [isOutlineHeading, hc, Bool.false_and]
    obtain ⟨hnext, hfirst⟩ := h.passed h.tags h.single rfl houtline (.inl hc)
    obtain ⟨hend, hrest⟩ := ih hnext fun d hd => hcalls d (List.mem_cons_of_mem c hd)
    rw [Trail.reading_after] at hrest
    have happend := startingCalls_append t.reading [c] calls
    rw [hfirst, List.foldl_cons, List.foldl_nil, hrest] at happend
    exact ⟨hend, happend⟩

/-- The start of a heading of the outline. -/
theorem heading?_eq {e : Element} {span : Span} {source : List Char}
    (htags : List.Forall₂ Fits opened tags) :
    ((Event.start e).heading? opened span).toList.map (HeadingStart.call source) =
      if e.isHeading && !opened.any Element.isContainer then
        [spanned (enterElement source tags span e) span]
      else [] := by
  cases e with
  | heading level id =>
    cases hany : opened.any Element.isContainer with
    | true =>
      have hnone : (Event.start (.heading level id)).heading? opened span = none := if_pos hany
      rw [hnone]
      rfl
    | false =>
      have hsome : (Event.start (.heading level id)).heading? opened span =
          some ⟨level, id, span⟩ := if_neg (by rw [hany]; exact Bool.false_ne_true)
      have hcontext : headingContext tags = headingContext [] :=
        (headingContext_eq_outline htags).mpr hany
      have hcall : HeadingStart.call source ⟨level, id, span⟩ =
          spanned (enterElement source tags span (.heading level id)) span := by
        unfold HeadingStart.call enterElement
        rw [hcontext]
      rw [hsome, Option.toList_some, List.map_singleton, hcall]
      rfl
  | _ => rfl

/-- At most one of the open elements is a heading. -/
theorem countP_cons_le {e : Element} (hsingle : opened.countP Element.isHeading ≤ 1)
    (hnested : e.isHeading = true → opened.any Element.isHeading = false) :
    (e :: opened).countP Element.isHeading ≤ 1 := by
  cases he : e.isHeading with
  | false =>
    rw [List.countP_cons_of_neg (by rw [he]; exact Bool.false_ne_true)]
    exact hsingle
  | true => rw [List.countP_cons_of_pos he, countP_eq_zero (hnested he)]

/-- A heading of the outline is begun where none is open. -/
theorem Stands.begun (h : Stands opened tags t) {e : Element} (hfits : Fits e c.tag)
    (hclosed : opened.any Element.isHeading = false) (hsingle : (e :: opened).countP Element.isHeading ≤ 1)
    (he : (e.isHeading && !opened.any Element.isContainer) = true)
    (hc : isOutlineHeading c = true) (hstate : c.state = .enter) :
    Stands (e :: opened) (c.tag :: tags) (t.after c) ∧ startingCalls t.reading [c] = [c] := by
  have hd : t.reading.depth = 0 := by rw [h.depth, depthOf_eq_zero hclosed]
  have hs : t.reading.starts c = true := by simp [Reading.starts_eq, hd, hc, hstate]
  refine ⟨⟨.cons hfits h.tags, hsingle, ?_, fun ha => ?_⟩, ?_⟩
  · rw [Trail.reading_after, Reading.after, if_pos hs, hstate, depthOf, depthOf_eq_zero hclosed,
      if_pos he]
    rfl
  · rw [Trail.after_start hs, hstate] at ha
    cases ha
  · rw [startingCalls, if_pos hs]
    rfl

/-- The start of an element: a heading of the outline begins a section, all else is passed
by. -/
theorem Stands.start (h : Stands opened tags t) {e : Element}
    (hnested : e.isHeading = true → opened.any Element.isHeading = false) (source : List Char)
    (span : Span) :
    let call := spanned (enterElement source tags span e) span
    Stands (e :: opened) (call.tag :: tags) (t.after call) ∧
      startingCalls t.reading [call] =
        ((Event.start e).heading? opened span).toList.map (HeadingStart.call source) := by
  intro call
  obtain ⟨hfits, hstate⟩ : Fits e call.tag ∧ call.state = .enter :=
    enterElement_fits source tags span e
  have hoh : isOutlineHeading call = (e.isHeading && !opened.any Element.isContainer) :=
    isOutlineHeading_enterElement h.tags source span e
  have hsingle := countP_cons_le h.single hnested
  rw [heading?_eq h.tags, ← hoh]
  cases hheading : isOutlineHeading call with
  | true =>
    have he : (e.isHeading && !opened.any Element.isContainer) = true := hoh.symm.trans hheading
    have hclosed : opened.any Element.isHeading = false :=
      hnested (Bool.and_eq_true_iff.mp he).1
    exact h.begun hfits hclosed hsingle he hheading hstate
  | false =>
    have hdepth : depthOf (e :: opened) = depthOf opened := by
      rw [depthOf, ← hoh, hheading]
      rfl
    have hpass : call.tag.isHeading = false ∨ t.reading.depth = 0 := by
      cases he : e.isHeading with
      | false => exact .inl (hfits.1.trans he)
      | true => exact .inr (by rw [h.depth, depthOf_eq_zero (hnested he)])
    exact h.passed (.cons hfits h.tags) hsingle hdepth hheading hpass

/-- The heading of the outline that was open is closed. -/
theorem Stands.closed {e : Element} {tag : Tag} (h : Stands (e :: opened) (tag :: tags) t)
    (he : e.isHeading = true) (hcontainer : opened.any Element.isContainer = false)
    (hsingle : opened.countP Element.isHeading ≤ 1) (hc : c.tag = tag) (hstate : c.state = .exit)
    (hoh : isOutlineHeading c = false) : Stands opened tags (t.after c) := by
  obtain ⟨hfits, htags⟩ := List.forall₂_cons.mp h.tags
  have hnone := depthOf_eq_zero (h.outer he)
  have hdepth : t.reading.depth = 1 := by
    rw [h.depth, depthOf, hnone, he, hcontainer]
    rfl
  have hs : t.reading.starts c = false := starts_of_not_heading _ hoh
  have hheading : c.tag.isHeading = true := by rw [hc, hfits.1, he]
  have hafter : (t.reading.after c).depth = 0 := by
    rw [Reading.after, hs, if_neg Bool.false_ne_true, if_neg (by rw [hdepth]; exact Nat.one_ne_zero),
      hdepth, nesting, hheading, hstate]
  refine ⟨htags, hsingle, ?_, fun _ => hcontainer⟩
  rw [Trail.reading_after, hafter, hnone]

/-- The end of an element: that of a heading of the outline closes it. -/
theorem Stands.finish {e : Element} {tag : Tag} (h : Stands (e :: opened) (tag :: tags) t)
    (span : Span) :
    let call := spanned (.exit tag) span
    Stands opened tags (t.after call) ∧ startingCalls t.reading [call] = [] := by
  intro call
  obtain ⟨hfits, htags⟩ := List.forall₂_cons.mp h.tags
  have hheading : call.tag.isHeading = e.isHeading := hfits.1
  have hoh : isOutlineHeading call = false := Bool.and_false _
  have hsingle : opened.countP Element.isHeading ≤ 1 := by
    have hcount := h.single
    rw [List.countP_cons] at hcount
    omega
  by_cases hopen : (e.isHeading && !opened.any Element.isContainer) = true
  · have hs : t.reading.starts call = false := starts_of_not_heading _ hoh
    have hstarting : startingCalls t.reading [call] = [] := by
      rw [startingCalls, hs]
      rfl
    rw [Bool.and_eq_true, Bool.not_eq_true'] at hopen
    exact ⟨h.closed hopen.1 hopen.2 hsingle rfl rfl hoh, hstarting⟩
  · have hopen : (e.isHeading && !opened.any Element.isContainer) = false := by simpa using hopen
    have hdepth : depthOf opened = depthOf (e :: opened) := by
      rw [depthOf, hopen]
      rfl
    have hpass : call.tag.isHeading = false ∨ t.reading.depth = 0 := by
      cases he : e.isHeading with
      | false => exact .inl (hheading.trans he)
      | true => exact .inr (by rw [h.depth, ← hdepth, depthOf_eq_zero (h.outer he)])
    exact h.passed htags hsingle hdepth hoh hpass

/-- **An event** is read along with its calls. -/
theorem Stands.transcribeEvent (h : Stands opened tags t) {event : Event}
    (hb : event.behind? opened = some opened') (source : List Char) (span : Span) :
    let r := transcribeEvent source tags event span
    Stands opened' r.2 (r.1.foldl Trail.after t) ∧
      startingCalls t.reading r.1 =
        (event.heading? opened span).toList.map (HeadingStart.call source) := by
  rcases Event.behind?_cases hb with ⟨e, rfl, rfl, hnested⟩ | ⟨rfl, e, rfl⟩ | ⟨hleaf, rfl⟩
  · exact h.start hnested source span
  · cases htags : tags with
    | nil =>
      rw [htags] at h
      cases h.tags
    | cons tag tags =>
      rw [htags] at h
      exact h.finish span
  · obtain ⟨htags, hplain⟩ := transcribeEvent_leaf hleaf source tags span
    have hnone : event.heading? opened' span = none := by
      unfold Event.heading?
      split
      · exact absurd rfl (hleaf.1 _)
      · rfl
    obtain ⟨hstands, hstarting⟩ := h.plain _ hplain
    rw [hnone]
    exact ⟨htags.symm ▸ hstands, hstarting⟩

/-- **Some events** are read along with their calls, and the calls that begin sections are
those of the headings of the outline. -/
theorem Stands.transcribe (source : List Char) : ∀ (events : List (Event × Span))
    {opened opened' : List Element} {tags : List Tag} {t : Trail}, Stands opened tags t →
    elementsBehind? opened events = some opened' →
    let r := transcribe source tags events
    Stands opened' r.2 (r.1.foldl Trail.after t) ∧
      startingCalls t.reading r.1 = (outlineHeadings opened events).map (HeadingStart.call source)
  | [], _, _, _, _, h, hb => by
    obtain rfl := Option.some.inj hb
    exact ⟨h, rfl⟩
  | (event, span) :: events, opened, _, tags, t, h, hb => by
    obtain ⟨outer, houter, hb⟩ := Option.bind_eq_some_iff.mp hb
    obtain ⟨hnext, hfirst⟩ := h.transcribeEvent houter source span
    obtain ⟨hend, hrest⟩ := Stands.transcribe source events hnext hb
    rw [Trail.reading_foldl] at hrest
    simp only [Markdown.transcribe, List.foldl_append, startingCalls_append, outlineHeadings, houter,
      Option.getD_some, List.map_append]
    exact ⟨hend, by rw [hfirst, hrest]⟩

/-! ### What a heading is given -/

/-- A heading is given its level. -/
theorem getInt?_enterElement (source : List Char) (tags : List Tag) (span : Span)
    (level : HeadingLevel) (id : Option String) :
    (spanned (enterElement source tags span (.heading level id)) span).attributes.getInt?
      levelAttribute = some (level.toNat : Int) := by
  have hlevel : ∀ c : Call, (c.withAttribute levelAttribute (.ofNat level.toNat)).attributes.getInt?
      levelAttribute = some (level.toNat : Int) := by
    intro c
    unfold Attributes.getInt?
    rw [Call.get?_withAttribute_self]
    cases level <;> rfl
  cases id with
  | none => exact hlevel _
  | some id =>
    have hid : ∀ c : Call, (c.withAttribute "id" (.string id)).attributes.getInt? levelAttribute =
        c.attributes.getInt? levelAttribute := by
      intro c
      unfold Attributes.getInt?
      rw [Call.get?_withAttribute_ne c _ (by decide)]
    exact (hid _).trans (hlevel _)

theorem HeadingStart.levelRead_call (h : HeadingStart) (source : List Char) (previous : Nat) :
    levelRead previous (h.call source) = h.level.toNat := by
  unfold levelRead HeadingStart.call
  rw [getInt?_enterElement]
  cases h.level <;> rfl

/-- The headings of the outline among the calls of some events are entered with a level. -/
theorem isOutlineHeading_transcribe (source : List Char) : ∀ (events : List (Event × Span))
    (tags : List Tag), ∀ c ∈ (transcribe source tags events).1, isOutlineHeading c = true →
    c.state = .enter ∧ c.attributes.getInt? levelAttribute ≠ none
  | [], _, c, hc, _ => absurd hc List.not_mem_nil
  | (event, span) :: events, tags, c, hc, hh => by
    rcases List.mem_append.mp hc with hc | hc
    · rw [isOutlineHeading, Bool.and_eq_true] at hh
      by_cases hleaf : event.IsLeaf
      · rw [(transcribeEvent_leaf hleaf source tags span).2 c hc] at hh
        cases hh.1
      · cases event with
        | start e =>
          obtain rfl := List.mem_singleton.mp hc
          obtain ⟨hfits, hstate⟩ := enterElement_fits source tags span e
          refine ⟨hstate, ?_⟩
          have he : e.isHeading = true := hfits.1.symm.trans hh.1
          cases e with
          | heading level id =>
            rw [getInt?_enterElement]
            exact Option.some_ne_none _
          | _ => cases he
        | finish =>
          cases tags with
          | nil => cases hc
          | cons tag tags =>
            obtain rfl := List.mem_singleton.mp hc
            cases hh.2
        | _ => exact absurd ⟨nofun, nofun⟩ hleaf
    · exact isOutlineHeading_transcribe source events _ c hc hh

theorem transcribe_append (source : List Char) (events more : List (Event × Span))
    (tags : List Tag) :
    transcribe source tags (events ++ more) =
      ((transcribe source tags events).1 ++
          (transcribe source (transcribe source tags events).2 more).1,
        (transcribe source (transcribe source tags events).2 more).2) := by
  induction events generalizing tags with
  | nil => rfl
  | cons e events ih =>
    obtain ⟨event, span⟩ := e
    simp only [List.cons_append, transcribe, ih, List.append_assoc]

end Markdown

end WikiOutline
