/-
# How the calls of headings say they were written

The call of a heading is tagged by the character that its span starts with: a number sign
stands for the first of the two ways to write a heading.  Where a line is a heading by
itself this is right.  Text that is underlined may start with a number sign too, if there is
no blank behind the signs or if there are more than six of them; then the call is tagged as
if its line were a heading by itself (`calls_taggedByFirstSign`).

Key definitions: `Markdown.enteredHeadings`, `Markdown.TaggedByFirstSign`.
Key theorems: `Markdown.headingSyntax_of_atxAt`, `Markdown.headingSyntax_of_underlinedAt`,
`Markdown.enteredHeadings_transcribe`, `Markdown.transcribe_taggedByFirstSign`,
`Markdown.calls_taggedByFirstSign`.
-/
import WikiOutline.Proofs.HeadingPlaces

namespace WikiOutline

namespace Markdown

/-- The calls that enter headings, in their order. -/
def enteredHeadings (calls : List Call) : List Call :=
  calls.filter fun c => c.isEnter && c.tag.isHeading

/-- The call that enters a heading has its span, and says how the heading was written, but
for text that starts with a number sign. -/
structure TaggedByFirstSign (source : List Char) (h : HeadingStart) (c : Call) : Prop where
  startPos : c.startPos = some h.span.start
  endPos : c.endPos = some h.span.stop
  written : WrittenAt source h
  /-- No heading is written in both ways. -/
  exclusive : AtxAt source h → ∀ text, ¬ UnderlinedAt source h text
  atx : c.tag = .heading .atx ↔
    AtxAt source h ∨ ∃ text, UnderlinedAt source h text ∧ text.head? = some '#'
  block : c.tag = .heading .block ↔
    ∃ text, UnderlinedAt source h text ∧ text.head? ≠ some '#'

variable {source : List Char} {h : HeadingStart} {text : List Char}

/-! ### The first sign -/

theorem headingSyntax_eq {start : Nat} {line : List Char}
    (hline : textFrom? start source = some line) : headingSyntax source start =
      if (line.dropWhile (· == ' ')).head? = some '#' then .atx else .block := by
  simp only [headingSyntax, hline, Option.getD_some, beq_iff_eq]

/-- The line of a heading by itself has its number signs behind spaces. -/
theorem IsAtxLine.head? {level : HeadingLevel} {line : List Char} (h : IsAtxLine level line) :
    (line.dropWhile (· == ' ')).head? = some '#' := by
  obtain ⟨indent, behind, -, rfl, -⟩ := h
  obtain ⟨n, hn⟩ : ∃ n, level.toNat = n + 1 := by cases level <;> exact ⟨_, rfl⟩
  rw [hn, List.append_assoc, List.dropWhile_append_of_pos (by simp)]
  rfl

theorem headingSyntax_of_atxAt (hatx : AtxAt source h) :
    headingSyntax source h.span.start = .atx := by
  obtain ⟨line, hline, hsigns⟩ := hatx
  rw [headingSyntax_eq hline, if_pos hsigns.head?]

/-- Underlined text starts where the heading does, with something that is no space. -/
theorem headingSyntax_of_underlinedAt (hunder : UnderlinedAt source h text) :
    headingSyntax source h.span.start = if text.head? = some '#' then .atx else .block := by
  obtain ⟨lead, line, behind, hline, -, ⟨b, hlast, -⟩, -, -, hspace, -⟩ := hunder
  cases text with
  | nil => cases hlast
  | cons x text =>
    have hx : (x == ' ') = false := by simpa using hspace
    rw [headingSyntax_eq hline]
    simp [hx]

theorem AtxAt.not_underlinedAt (hatx : AtxAt source h) : ¬ UnderlinedAt source h text := by
  rintro ⟨lead, line, behind, hline, -, -, -, -, -, hno⟩
  obtain ⟨line', hline', hsigns⟩ := hatx
  obtain rfl := Option.some.inj (hline'.symm.trans hline)
  exact hno h.level hsigns

/-- A number sign with no blank behind it does not make its line a heading, but the line
below does. -/
theorem underlinedAt_hashtag : UnderlinedAt "#hashtag\n========\n".toList
    ⟨.one, none, ⟨0, 18⟩⟩ "#hashtag\n".toList := by
  have hline : IsUnderline .one "========\n".toList [] :=
    ⟨'=', 7, [], ['\n'], rfl, by decide +kernel, rfl, .inl (by decide)⟩
  refine ⟨[], _, [], by decide +kernel, by decide +kernel, ⟨'\n', by decide +kernel, rfl⟩, rfl,
    hline, by decide +kernel, fun level hatx => ?_⟩
  rw [isAtxLine_iff (by decide +kernel)] at hatx
  revert hatx
  cases level <;> decide +kernel

/-! ### The calls of headings -/

theorem enteredHeadings_append (cs ds : List Call) :
    enteredHeadings (cs ++ ds) = enteredHeadings cs ++ enteredHeadings ds := List.filter_append _ _

theorem enteredHeadings_eq_nil {calls : List Call} (h : ∀ c ∈ calls, c.tag.isHeading = false) :
    enteredHeadings calls = [] :=
  List.filter_eq_nil_iff.mpr fun c hc => by simp [h c hc]

/-- A call that enters a heading, with the tag and the span of it. -/
def Enters (source : List Char) (h : HeadingStart) (c : Call) : Prop :=
  c.startPos = some h.span.start ∧ c.endPos = some h.span.stop ∧
    c.tag = .heading (headingSyntax source h.span.start)

/-- **One event** enters a heading just if it starts one. -/
theorem enteredHeadings_transcribeEvent (source : List Char) (tags : List Tag) (event : Event)
    (span : Span) : List.Forall₂ (Enters source) (event.heading? [] span).toList
      (enteredHeadings (transcribeEvent source tags event span).1) := by
  by_cases hleaf : event.IsLeaf
  · rw [enteredHeadings_eq_nil (transcribeEvent_leaf hleaf source tags span).2]
    have hnone : event.heading? [] span = none := by
      unfold Event.heading?
      split
      · exact absurd rfl (hleaf.1 _)
      · rfl
    rw [hnone]
    exact .nil
  · cases event with
    | start e =>
      cases e with
      | heading level id =>
        have hcall : (enterElement source tags span (.heading level id)).tag =
            .heading (headingSyntax source span.start) := by cases id <;> rfl
        have hfilter :
            enteredHeadings (transcribeEvent source tags (.start (.heading level id)) span).1 =
              [spanned (enterElement source tags span (.heading level id)) span] := by
          cases id <;> rfl
        rw [hfilter]
        exact .cons ⟨rfl, rfl, hcall⟩ .nil
      | _ =>
        rw [enteredHeadings_eq_nil fun c hc => ?_]
        · exact .nil
        · obtain rfl := List.mem_singleton.mp hc
          exact (enterElement_fits source tags span _).1.1
    | finish =>
      cases tags with
      | nil => exact .nil
      | cons tag outer => exact .nil
    | _ => exact absurd ⟨nofun, nofun⟩ hleaf

/-- **All events**: the calls that enter headings are those of the headings started. -/
theorem enteredHeadings_transcribe (source : List Char) : ∀ (events : List (Event × Span))
    (tags : List Tag), List.Forall₂ (Enters source) (headingStarts events)
      (enteredHeadings (transcribe source tags events).1)
  | [], _ => .nil
  | (event, span) :: events, tags => by
    rw [headingStarts_cons]
    unfold transcribe
    simp only
    rw [enteredHeadings_append]
    exact List.rel_append (enteredHeadings_transcribeEvent source tags event span)
      (enteredHeadings_transcribe source events _)

/-! ### The law -/

theorem Enters.taggedByFirstSign {c : Call} (hc : Enters source h c)
    (hwritten : WrittenAt source h) : TaggedByFirstSign source h c := by
  obtain ⟨hstart, hstop, htag⟩ := hc
  refine ⟨hstart, hstop, hwritten, fun hatx text => hatx.not_underlinedAt, ?_, ?_⟩
  · rw [htag, Tag.heading.injEq]
    constructor
    · intro hsyntax
      refine hwritten.imp_right fun ⟨text, hunder⟩ => ⟨text, hunder, ?_⟩
      by_contra hsign
      rw [headingSyntax_of_underlinedAt hunder, if_neg hsign] at hsyntax
      cases hsyntax
    · rintro (hatx | ⟨text, hunder, hsign⟩)
      · exact headingSyntax_of_atxAt hatx
      · rw [headingSyntax_of_underlinedAt hunder, if_pos hsign]
  · rw [htag, Tag.heading.injEq]
    constructor
    · intro hsyntax
      rcases hwritten with hatx | ⟨text, hunder⟩
      · rw [headingSyntax_of_atxAt hatx] at hsyntax
        cases hsyntax
      · refine ⟨text, hunder, fun hsign => ?_⟩
        rw [headingSyntax_of_underlinedAt hunder, if_pos hsign] at hsyntax
        cases hsyntax
    · rintro ⟨text, hunder, hsign⟩
      rw [headingSyntax_of_underlinedAt hunder, if_neg hsign]

/-- Headings of any source: those that are written in one of the two ways where their spans
start are tagged by their first sign, whoever has read them. -/
theorem transcribe_taggedByFirstSign {events : List (Event × Span)}
    (hwritten : ∀ h ∈ headingStarts events, WrittenAt source h) (tags : List Tag) :
    List.Forall₂ (TaggedByFirstSign source) (headingStarts events)
      (enteredHeadings (transcribe source tags events).1) := by
  have hcalls := enteredHeadings_transcribe source events tags
  exact ((List.forall₂_and_left _ _).mpr ⟨hwritten, hcalls⟩).imp fun h c hc =>
    hc.2.taggedByFirstSign hc.1

/-- **How headings are tagged**: every heading that is read in a text has a call with its
span.  A line that is a heading by itself is tagged so, and underlined text as a block, but
for text that starts with a number sign: that is tagged as a line by itself.  This is so for
any events whose headings are written where their spans start, and the events of the text are
such, in either dialect. -/
theorem calls_taggedByFirstSign (text : String) :
    (∀ (events : List (Event × Span)) (tags : List Tag),
      (∀ h ∈ headingStarts events, WrittenAt text.toList h) →
      List.Forall₂ (TaggedByFirstSign text.toList) (headingStarts events)
        (enteredHeadings (transcribe text.toList tags events).1)) ∧
    ∀ dialect : Dialect,
      List.Forall₂ (TaggedByFirstSign text.toList) (headingStarts (events dialect text.toList))
        (enteredHeadings (calls dialect text)) :=
  ⟨fun _ tags hwritten => transcribe_taggedByFirstSign hwritten tags, fun dialect =>
    transcribe_taggedByFirstSign (written_of_mem_events dialect text.toList) []⟩

/-- Text of two lines is not always tagged as a block: its first sign may be a number
sign. -/
theorem hashtag_not_block : ¬ ∀ (dialect : Dialect) (text : String),
    List.Forall₂ (fun h c => c.tag = .heading .block ↔ ∃ lines, UnderlinedAt text.toList h lines)
      (headingStarts (events dialect text.toList)) (enteredHeadings (calls dialect text)) := by
  intro hall
  have hevents : events .plain "#hashtag\n========\n".toList =
      [(.start (.heading .one none), ⟨0, 18⟩), (.text "#hashtag", ⟨0, 8⟩), (.finish, ⟨0, 18⟩)] := by
    decide +kernel
  have hstarts : headingStarts (events .plain "#hashtag\n========\n".toList) =
      [⟨.one, none, ⟨0, 18⟩⟩] := by
    rw [hevents]
    rfl
  have hclaim := hall .plain "#hashtag\n========\n"
  have hcalls := enteredHeadings_transcribe "#hashtag\n========\n".toList
    (events .plain "#hashtag\n========\n".toList) []
  rw [hstarts] at hclaim hcalls
  obtain ⟨c, more, ⟨-, -, htag⟩, -, hcall⟩ := List.forall₂_cons_left_iff.mp hcalls
  unfold calls at hclaim
  rw [hcall, List.forall₂_cons] at hclaim
  have hblock := hclaim.1.mpr ⟨_, underlinedAt_hashtag⟩
  rw [htag, Tag.heading.injEq] at hblock
  revert hblock
  decide +kernel

end Markdown

end WikiOutline
