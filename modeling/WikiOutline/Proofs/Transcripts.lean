/-
# Outlines of Markdown events

The calls of well-nested events always build strictly.  The sections behind the root are
those of the headings of the outline, one for each and in their order, with the levels of
the headings.  Every other heading stands, from its start to its end, in the text of the
section that was started last before it (`transcript_builds`).

The build of some events is looked at where they stop (`exists_run_transcript`): the
elements that are open then tell whether it stands in a heading, and whether that heading
may still take a paragraph (`Stands`).

Key definitions: `Markdown.HeadingStart.Begins`, `Markdown.elementCalls`,
`Markdown.GoesOn`.
Key theorems: `Markdown.exists_run_transcript`, `Markdown.begins_sections`,
`Markdown.BuiltTo.heading_kept`, `Markdown.transcript_builds`.
-/
import WikiOutline.Proofs.Elements
import WikiOutline.Proofs.Passages

namespace WikiOutline

namespace Markdown

open Outline Builder Reading

variable {opened : List Element} {tags : List Tag} {events : List (Event × Span)} {b : Builder}

/-! ### Builds of events -/

/-- What a build has become behind some events: it has a section for every heading of the
outline so far, and stands where a reading of the calls stands. -/
structure BuiltTo (source : List Char) (events : List (Event × Span)) (opened : List Element)
    (b : Builder) : Prop where
  run : Run { strictness := .strict } (transcribe source [] events).1 [] b
  sound : Sound ((outlineHeadings [] events).map (HeadingStart.call source)) b
  stands : Stands opened (transcribe source [] events).2
    ((transcribe source [] events).1.foldl Trail.after {})
  reading : b.reading = ((transcribe source [] events).1.foldl Trail.after {}).reading
  absorbing : b.openHeading = none →
    b.absorbing = ((transcribe source [] events).1.foldl Trail.after {}).absorbing

/-- **The calls of events** build strictly, as far as the events go. -/
theorem exists_run_transcript (source : List Char) (h : elementsBehind? [] events = some opened) :
    ∃ b, BuiltTo source events opened b := by
  obtain ⟨hstands, hstarting⟩ := stands_init.transcribe source events h
  obtain ⟨b, hr⟩ := exists_run_of_entered (isOutlineHeading_transcribe source events [])
  obtain ⟨hb, hreading, habsorbing⟩ := hr.sound
  have hb : Sound ((outlineHeadings [] events).map (HeadingStart.call source)) b := by
    rw [← hstarting]
    exact hb
  exact ⟨b, hr, hb, hstands, hreading, habsorbing⟩

/-- Where no heading is open around the next event, none is open in the build. -/
theorem BuiltTo.closed {source : List Char} (h : BuiltTo source events opened b)
    (hopened : opened.any Element.isHeading = false) : b.openHeading = none := by
  refine h.sound.closed ?_
  rw [h.reading, h.stands.depth, depthOf_eq_zero hopened]

/-- Inside a container no heading takes a paragraph any more. -/
theorem BuiltTo.settled {source : List Char} (h : BuiltTo source events opened b)
    (hopened : opened.any Element.isHeading = false)
    (hcontainer : opened.any Element.isContainer = true) : b.absorbing = false := by
  by_contra ha
  have ha : b.absorbing = true := by simpa using ha
  rw [h.absorbing (h.closed hopened)] at ha
  rw [h.stands.absorbing ha] at hcontainer
  cases hcontainer

/-- So well-nested events are built to their end. -/
theorem BuiltTo.buildSections {source : List Char} (h : BuiltTo source events [] b) :
    buildSections .strict (transcribe source [] events).1 = .ok b :=
  buildSections_strict_iff.mpr ⟨h.run, h.closed rfl⟩

/-! ### The sections -/

/-- A section is that of a heading: it was given the level of the heading, starts where it
starts and holds its call first. -/
structure HeadingStart.Begins (source : List Char) (h : HeadingStart) (s : Section) : Prop where
  isRoot : s.isRoot = false
  declaredLevel : s.declaredLevel = h.level.toNat
  startPos : s.startPos = some h.span.start
  lead : s.headingCalls.head? = some (leveled (h.call source) h.level.toNat s.level)

/-- What the call of a heading makes of a section below another one. -/
theorem HeadingStart.begins {source : List Char} {h : HeadingStart} {s : Section}
    {previous parent : Nat} (hfrom : s.node.IsFrom previous (h.call source))
    (hparent : s.parent = some parent) : h.Begins source s := by
  obtain ⟨hdeclared, hlevel, hpos, hlead⟩ := hfrom
  rw [← hlevel, h.levelRead_call] at hlead
  rw [h.levelRead_call] at hdeclared
  refine ⟨?_, hdeclared, hpos, hlead⟩
  rw [Section.isRoot, hparent]
  rfl

/-- **The sections of a tree of headings** are those of the headings, behind the root. -/
theorem begins_sections {source : List Char} {hs : List HeadingStart} {ss : List Section}
    (h : Tree (hs.map (HeadingStart.call source)) (ss.map Section.node)) :
    ∃ root more, ss = root :: more ∧ root.isRoot = true ∧
      List.Forall₂ (HeadingStart.Begins source) hs more := by
  have hlength : ss.length = hs.length + 1 := by
    have hlength := h.length
    rwa [List.length_map, List.length_map] at hlength
  obtain ⟨root, more, rfl⟩ := List.exists_cons_of_length_eq_add_one hlength
  rw [List.length_cons, Nat.add_right_cancel_iff] at hlength
  have hroot : (nodeAt ((root :: more).map Section.node) 0).parent = none := h.rootParent
  refine ⟨root, more, rfl, ?_, List.forall₂_iff_get.mpr ⟨hlength.symm, fun i hi hi' => ?_⟩⟩
  · rw [nodeAt_map_node] at hroot
    exact Option.isNone_iff_eq_none.mpr hroot
  · have hhead : (hs.map (HeadingStart.call source))[i]? =
        some ((hs.get ⟨i, hi⟩).call source) := by
      rw [List.getElem?_map, List.getElem?_eq_getElem hi]
      rfl
    have hnode : nodeAt ((root :: more).map Section.node) (i + 1) = (more.get ⟨i, hi'⟩).node := by
      rw [nodeAt_map_node, List.getD_cons_succ, List.getD_eq_getElem _ _ hi']
      rfl
    have hbelow : i + 1 < ((root :: more).map Section.node).length := by
      rw [List.length_map, List.length_cons]
      omega
    obtain ⟨p, hparent, -⟩ := h.below (i + 1) (Nat.succ_pos i) hbelow
    have hfrom := h.isFrom i _ hhead
    rw [hnode] at hparent hfrom
    exact HeadingStart.begins hfrom hparent

/-! ### Headings that are no sections -/

/-- The calls of an element, from its start to its end. -/
def elementCalls (source : List Char) (tags : List Tag) (e : Element) (span : Span)
    (inner : List (Event × Span)) (stop : Span) : List Call :=
  let enter := spanned (enterElement source tags span e) span
  enter :: ((transcribe source (enter.tag :: tags) inner).1 ++ [spanned (.exit enter.tag) stop])

/-- What an outline has as the text of its last section, another one has as the beginning
of the text of that section, and the calls behind it. -/
def GoesOn (before o : Outline) (calls : List Call) : Prop :=
  (before.get (before.size - 1)).contentCalls ++ calls <+:
    (o.get (before.size - 1)).contentCalls

/-- Events take off no more tags than elements that they found open. -/
theorem transcribe_around (source : List Char) (tags : List Tag) :
    ∀ (events : List (Event × Span)) {inside last : List Element} {around : List Tag},
    around.length = inside.length → elementsBehind? inside events = some last →
    ∃ around', around'.length = last.length ∧
      (transcribe source (around ++ tags) events).2 = around' ++ tags
  | [], _, _, around, hlength, h => by
    obtain rfl := Option.some.inj h
    exact ⟨around, hlength, rfl⟩
  | (event, span) :: events, inside, last, around, hlength, h => by
    obtain ⟨inside', hinside, h⟩ := Option.bind_eq_some_iff.mp h
    have hnext : ∃ around', around'.length = inside'.length ∧
        (transcribeEvent source (around ++ tags) event span).2 = around' ++ tags := by
      rcases Event.behind?_cases hinside with ⟨e, rfl, rfl, -⟩ | ⟨rfl, e, rfl⟩ | ⟨hleaf, rfl⟩
      · exact ⟨_ :: around, congrArg (· + 1) hlength, rfl⟩
      · obtain ⟨tag, outer, rfl⟩ := List.exists_cons_of_length_eq_add_one hlength
        exact ⟨outer, Nat.succ.inj hlength, rfl⟩
      · exact ⟨around, hlength, (transcribeEvent_leaf hleaf source (around ++ tags) span).1⟩
    obtain ⟨around', hlength', htags⟩ := hnext
    have hend := transcribe_around source tags events hlength' h
    rw [← htags] at hend
    exact hend

/-- So behind well-nested events the tags are open that were open before. -/
theorem transcribe_tags (h : WellNested events) (source : List Char) (tags : List Tag) :
    (transcribe source tags events).2 = tags := by
  obtain ⟨around, hlength, htags⟩ := transcribe_around source tags events
    (show ([] : List Tag).length = ([] : List Element).length from rfl) h
  rw [List.length_eq_zero_iff.mp hlength] at htags
  exact htags

/-- An element is transcribed from its start to its end. -/
theorem transcribe_element {inner : List (Event × Span)} (hinner : WellNested inner)
    (source : List Char) (tags : List Tag) (e : Element) (span stop : Span)
    (post : List (Event × Span)) :
    (transcribe source tags ((.start e, span) :: (inner ++ (.finish, stop) :: post))).1 =
      elementCalls source tags e span inner stop ++ (transcribe source tags post).1 := by
  set tag := (spanned (enterElement source tags span e) span).tag
  have hafter := transcribe_tags hinner source (tag :: tags)
  have hrest := transcribe_append source inner ((.finish, stop) :: post) (tag :: tags)
  rw [hafter] at hrest
  show spanned (enterElement source tags span e) span ::
    (transcribe source (tag :: tags) (inner ++ (.finish, stop) :: post)).1 = _
  rw [hrest]
  simp only [transcribe, transcribeEvent, elementCalls, List.cons_append, List.append_assoc,
    List.nil_append, tag]

/-- Outside of headings, calls that begin no section are no headings of the outline. -/
theorem isOutlineHeading_of_startingCalls : ∀ {calls : List Call} {r : Reading}, r.depth = 0 →
    Entered calls → startingCalls r calls = [] → ∀ c ∈ calls, isOutlineHeading c = false
  | [], _, _, _, _, c, hc => absurd hc List.not_mem_nil
  | d :: calls, r, hr, hcalls, hnone, c, hc => by
    have hd : isOutlineHeading d = false := by
      by_contra hheading
      have hheading : isOutlineHeading d = true := by simpa using hheading
      obtain ⟨hstate, -⟩ := hcalls d List.mem_cons_self hheading
      have hstarts : r.starts d = true := by simp [Reading.starts_eq, hr, hheading, hstate]
      rw [startingCalls, if_pos hstarts] at hnone
      cases hnone
    have hs := starts_of_not_heading r hd
    rw [startingCalls, hs, if_neg Bool.false_ne_true, after_of_outside hs hr] at hnone
    rcases List.mem_cons.mp hc with rfl | hc
    · exact hd
    · exact isOutlineHeading_of_startingCalls hr
        (fun e he => hcalls e (List.mem_cons_of_mem d he)) hnone c hc

/-- **An element inside a container**, with no heading around it, holds no heading of the
outline. -/
theorem isOutlineHeading_elementCalls {t : Trail} (h : Stands opened tags t)
    (hcontainer : opened.any Element.isContainer = true)
    (hclosed : opened.any Element.isHeading = false) {e : Element}
    {inner : List (Event × Span)} (hinner : WellNested inner)
    (hopened : elementsBehind? (e :: opened) inner = some (e :: opened)) (source : List Char)
    (span stop : Span) :
    ∀ c ∈ elementCalls source tags e span inner stop, isOutlineHeading c = false := by
  set element := (Event.start e, span) :: (inner ++ [(.finish, stop)])
  have hcalls : (transcribe source tags element).1 = elementCalls source tags e span inner stop :=
    (transcribe_element hinner source tags e span stop []).trans (List.append_nil _)
  have hstart : (Event.start e).behind? opened = some (e :: opened) := by
    rw [Event.behind?, hclosed, Bool.and_false]
    rfl
  have hbehind : elementsBehind? opened element = some opened := by
    rw [elementsBehind?, hstart, Option.bind_some, elementsBehind?_append, hopened]
    rfl
  have hnone : outlineHeadings opened element = [] := by
    have hheading : (Event.start e).heading? opened span = none := by
      unfold Event.heading?
      split
      · exact if_pos hcontainer
      · rfl
    have hinside : outlineHeadings (e :: opened) inner = [] := by
      have hcontainer' : (e :: opened).any Element.isContainer = true := by
        rw [List.any_cons, hcontainer, Bool.or_true]
      exact outlineHeadings_inside hcontainer' inner hinner hopened
    rw [outlineHeadings, hheading, hstart, Option.getD_some, outlineHeadings_append hopened, hinside]
    rfl
  obtain ⟨-, hstarting⟩ := h.transcribe source element hbehind
  rw [hcalls, hnone] at hstarting
  refine isOutlineHeading_of_startingCalls ?_ ?_ hstarting
  · rw [h.depth, depthOf_eq_zero hclosed]
  · rw [← hcalls]
    exact isOutlineHeading_transcribe source element tags

/-- **A heading inside a container** goes to the text of the section started last before
it, from its start to its end, and stays there. -/
theorem BuiltTo.heading_kept {source : List Char} {e : Element} {span stop : Span}
    {inner post : List (Event × Span)} {b₁ : Builder} (h : BuiltTo source events opened b₁)
    (hheading : e.isHeading = true) (hcontainer : opened.any Element.isContainer = true)
    (hclosed : opened.any Element.isHeading = false) (hinner : WellNested inner)
    (hopened : elementsBehind? (e :: opened) inner = some (e :: opened))
    (hr : Run { strictness := .strict }
      (transcribe source [] (events ++ (.start e, span) :: (inner ++ (.finish, stop) :: post))).1
      [] b) :
    (b₁.get b₁.current).contentCalls ++
        elementCalls source (transcribe source [] events).2 e span inner stop <+:
      (b.get b₁.current).contentCalls := by
  set tags := (transcribe source [] events).2 with htags
  set first := (transcribe source [] events).1
  set element := elementCalls source tags e span inner stop with helement
  set last := (transcribe source tags post).1
  have hpage : (transcribe source []
      (events ++ (.start e, span) :: (inner ++ (.finish, stop) :: post))).1 =
      first ++ (element ++ last) := by
    rw [transcribe_append, ← htags, transcribe_element hinner]
  rw [hpage] at hr
  -- the calls up to the heading build as they do on their own
  have hfirst : Run { strictness := .strict } (first ++ (element ++ last)) (element ++ last) b₁ := by
    refine h.run.append fun n hn => ?_
    have hn : n = spanned (enterElement source tags span e) span := (Option.some.inj hn).symm
    have htag : n.tag.isHeading = true := by
      rw [hn]
      exact (enterElement_fits source tags span e).1.1.trans hheading
    cases hstyle : n.tag with
    | heading => rfl
    | _ =>
      rw [hstyle] at htag
      cases htag
  have hlast : b₁.current < b₁.sections.length := by
    rw [h.sound.length]
    exact Nat.lt_succ_self _
  obtain ⟨b₂, hpassage, htext⟩ := exists_run_passage hlast (h.closed hclosed)
    (h.settled hclosed hcontainer)
    (isOutlineHeading_elementCalls h.stands hcontainer hclosed hinner hopened source span stop) last
  have hpart := hfirst.trans hpassage
  obtain ⟨heads, hb₂, -⟩ := hpart.strict
  have hrest : Run b₂ last [] b := acceptAll_run (hpart.acceptAll_eq.symm.trans hr.acceptAll_eq)
  rw [← htext]
  exact hrest.continues hb₂ b₁.current

/-! ### Whole transcripts -/

/-- **Outlines of Markdown events**: the calls of well-nested events build strictly.  The
sections behind the root are those of the headings of the outline, in their order.  Every
other heading is finished, and all of it, from its start to its end, goes to the text of
the section that was the last one before it. -/
theorem transcript_builds {σ : Type} (source : List Char) (events : List (Event × Span))
    (h : WellNested events) (sink : Option (MetadataSink σ)) (s : σ) :
    ∃ o s', buildWith .strict sink (transcribe source [] events).1 s = .ok (o, s') ∧
      (∃ root more, o.sections = root :: more ∧ root.isRoot = true ∧
        List.Forall₂ (HeadingStart.Begins source) (outlineHeadings [] events) more) ∧
      ∀ pre level id span rest opened,
        events = pre ++ (.start (.heading level id), span) :: rest →
        elementsBehind? [] pre = some opened → opened.any Element.isContainer = true →
        ∃ inner stop post before, rest = inner ++ (.finish, stop) :: post ∧ WellNested inner ∧
          build .strict (transcribe source [] pre).1 = .ok before ∧
          before.size = (outlineHeadings [] pre).length + 1 ∧
          GoesOn before o (elementCalls source (transcribe source [] pre).2 (.heading level id)
            span inner stop) := by
  obtain ⟨b, hb⟩ := exists_run_transcript source h
  obtain ⟨o, s', ho, hsections, -⟩ := exists_buildWith hb.buildSections sink s
  refine ⟨o, s', ho, ?_, ?_⟩
  · rw [hsections]
    exact begins_sections hb.sound.tree
  · rintro pre level id span rest opened rfl hpre hcontainer
    have hnested := h
    rw [WellNested, elementsBehind?_append, hpre, Option.bind_some, elementsBehind?] at hnested
    obtain ⟨opened', hstart, hrest⟩ := Option.bind_eq_some_iff.mp hnested
    obtain ⟨e, he, rfl, hclosed⟩ : ∃ e, Event.start (.heading level id) = .start e ∧
        opened' = e :: opened ∧ (e.isHeading = true → opened.any Element.isHeading = false) := by
      rcases Event.behind?_cases hstart with hs | ⟨hfinish, -⟩ | ⟨hleaf, -⟩
      · exact hs
      · cases hfinish
      · exact absurd rfl (hleaf.1 _)
    obtain rfl := Event.start.inj he
    obtain ⟨inner, stop, post, rfl, hinner, hopened, -⟩ := exists_finish rest [] hrest
    obtain ⟨b₁, hb₁⟩ := exists_run_transcript source hpre
    have hbefore : build .strict (transcribe source [] pre).1 = .ok b₁.outline :=
      build_strict_iff.mpr ⟨b₁, hb₁.run, hb₁.closed (hclosed rfl), rfl⟩
    have hsize : b₁.outline.size = b₁.current + 1 := hb₁.sound.length
    refine ⟨inner, stop, post, b₁.outline, rfl, hinner, hbefore, ?_, ?_⟩
    · rw [hsize, hb₁.sound.current, List.length_map]
    · have hkept := hb₁.heading_kept rfl hcontainer (hclosed rfl) hinner hopened hb.run
      have hget : o.get b₁.current = b.get b₁.current := by rw [Outline.get, hsections, Builder.get]
      rw [GoesOn, hsize, Nat.add_sub_cancel, hget]
      exact hkept

/-- The text of a heading, and of a quote with another heading in it. -/
def quotedSource : List Char := "# News\n\n> ## Old\n".toList

/-- Its events. -/
def quotedHeading : List (Event × Span) :=
  [(.start (.heading .one none), ⟨0, 7⟩), (.text "News", ⟨2, 6⟩), (.finish, ⟨0, 7⟩),
    (.start .quote, ⟨8, 17⟩), (.start (.heading .two none), ⟨10, 17⟩), (.text "Old", ⟨13, 16⟩),
    (.finish, ⟨10, 17⟩), (.finish, ⟨8, 17⟩)]

/-- The first heading begins the only section, and the second one stands in its text. -/
theorem transcript_builds_of_quotedHeading :
    WellNested quotedHeading ∧ ∃ o root news,
      buildWith .strict (none : Option (MetadataSink Unit))
        (transcribe quotedSource [] quotedHeading).1 () = .ok (o, ()) ∧
      o.sections = [root, news] ∧ news.declaredLevel = 1 ∧
      ∃ inner stop before, before.size = 2 ∧
        GoesOn before o (elementCalls quotedSource [.other "blockquote"] (.heading .two none)
          ⟨10, 17⟩ inner stop) := by
  have hnested : WellNested quotedHeading := rfl
  obtain ⟨o, told, ho, ⟨root, more, hsections, -, hbegins⟩, hothers⟩ :=
    transcript_builds quotedSource quotedHeading hnested (none : Option (MetadataSink Unit)) ()
  have hbegins : List.Forall₂ (HeadingStart.Begins quotedSource) [⟨.one, none, ⟨0, 7⟩⟩] more :=
    hbegins
  obtain ⟨news, rest, hnews, hrest, rfl⟩ := List.forall₂_cons_left_iff.mp hbegins
  obtain rfl := List.forall₂_nil_left_iff.mp hrest
  have hcontainer : [Element.quote].any Element.isContainer = true := rfl
  obtain ⟨inner, stop, -, before, -, -, -, hsize, hgoes⟩ :=
    hothers (quotedHeading.take 4) .two none ⟨10, 17⟩ (quotedHeading.drop 5) [.quote] rfl rfl
      hcontainer
  exact ⟨hnested, o, root, news, ho, hsections, hnews.declaredLevel, inner, stop, before, hsize,
    hgoes⟩

end Markdown

end WikiOutline
