/-
# Rendering an outline

An outline is flattened into calls again, section by section in the order of the
page.  Every section is wrapped in a division.  The dynamic rendition adds
nothing else.  The full one also sets the heading and the text of a section with
subsections apart, and adds edit buttons and advertisements; there the only
section of level 1 gives its heading and text to the page itself.

The state of a rendition starts afresh each time; only the policy and the sink
keep theirs.

Key definitions: `Rendering.Setup`, `Rendering.openSection`, `Rendering.perform`,
`Rendering.run`, `Rendering.contents`.
-/
import WikiOutline.AdPlacement
import WikiOutline.Anchor
import WikiOutline.EditButton
import WikiOutline.Outline.Builder
import WikiOutline.Outline.Walk

namespace WikiOutline

namespace Rendering

/-- What a rendition may add. -/
structure Options where
  editButtons : Bool := true
  captureHeaderMetadata : Bool := true
  wikiId : String := "start"
  deriving Repr, BEq, DecidableEq

/-- The full page, or its structure only. -/
inductive Target where
  | full
  | dynamic
  deriving Repr, BEq, DecidableEq

/-- An outline and who helps to render it. -/
structure Setup (π σ : Type) where
  outline : Outline
  options : Options
  policy : Option (AdPolicy π)
  sink : Option (MetadataSink σ)

/-- The counters of a rendition, and the states of those who help. -/
structure State (π σ : Type) where
  policyState : π
  sinkState : σ
  headingIds : HeadingIds := {}
  cumulativeLines : Nat := 0
  sectionOrdinal : Nat := 0
  adsInserted : Nat := 0
  editSequence : Nat := 0
  warnings : List String := []

/-- A rendition. -/
structure Rendition where
  calls : List Call
  warnings : List String

variable {π σ : Type}

namespace State

/-- Notes a warning. -/
def warn (s : State π σ) (message : String) : State π σ :=
  { s with warnings := s.warnings ++ [message] }

/-- The heading calls of a section with its id, and the id. -/
def heading (s : State π σ) (sec : Section) : List Call × String × State π σ :=
  let (id, ids) := s.headingIds.assign sec.explicitId? sec.label
  let calls :=
    match sec.headingCalls with
    | [] => []
    | c :: cs => c.withAttribute "id" (.string id) :: cs
  (calls, id, { s with headingIds := ids })

end State

/-! ### The featured image -/

/-- A text of blanks only. -/
def hasBlankText (c : Call) : Bool := c.text?.any fun t => Text.allBlank t.toList

/-- A text with a character that is not blank. -/
def hasFilledText (c : Call) : Bool := c.text?.any fun t => !Text.allBlank t.toList

/-- A call that shows nothing by itself. -/
def isLayout (c : Call) : Bool := c.tag.isParagraph || hasBlankText c

/-- An image with a source. -/
def isSourcedImage (c : Call) : Bool :=
  c.tag.isMedia && !c.isExit && (c.attributes.getString? "src").any fun src => !src.isEmpty

/-- The index of the image that a text opens with, if other text comes behind
it. -/
def featuredImageIndex? (calls : List Call) : Option Nat := do
  let index ← calls.findIdx? fun c => !isLayout c
  let first ← calls[index]?
  if isSourcedImage first &&
      (calls.drop (index + 1)).any fun c => !isLayout c && hasFilledText c then some index
  else none

/-- Tells the featured image of a section to the sink.  When the sink takes it,
the image is hidden in the text. -/
def captureFeaturedImage (setup : Setup π σ) (s : State π σ) (sec : Section) :
    List Call × State π σ :=
  match featuredImageIndex? sec.contentCalls, setup.sink with
  | some index, some sink =>
    match (sec.contentCalls[index]?).bind fun c => c.attributes.getString? "src" with
    | none => (sec.contentCalls, s)
    | some src =>
      match sink.setFeaturedImage (ImageKind.ofPath src) src s.sinkState with
      | (.ok (), state) =>
        (sec.contentCalls.modify index fun c => c.withAttribute "display" (.string "none"),
          { s with sinkState := state })
      | (.error reason, state) =>
        (sec.contentCalls,
          { s with sinkState := state }.warn
            ("Failed to record featured image " ++ src ++ ": " ++ reason))
  | _, _ => (sec.contentCalls, s)

/-! ### What the full rendition adds -/

/-- The only subsection of the root, when it is given level 1 and gives its
heading to the page. -/
def flattenedChild? (setup : Setup π σ) (target : Target) (sec : Section) : Option Nat :=
  if target == .full && setup.options.captureHeaderMetadata && sec.isRoot then
    match sec.children with
    | [only] =>
      let child := setup.outline.get only
      if child.level = 1 && child.declaredLevel = 1 then some only else none
    | _ => none
  else none

/-- Asks the policy about the slot of a section.  A failing policy counts as a
refusal. -/
def adMarker (setup : Setup π σ) (target : Target) (s : State π σ) (id ordinal lines : Nat) :
    Option Call × State π σ :=
  match target, setup.policy with
  | .full, some policy =>
    let s := { s with cumulativeLines := s.cumulativeLines + lines }
    let slot : AdSlot :=
      { sectionLines := lines
        cumulativeLines := s.cumulativeLines
        sectionOrdinal := ordinal
        adsInserted := s.adsInserted
        isLastSection := id == setup.outline.lastSection }
    match policy.decide slot s.policyState with
    | (.ok true, state) =>
      let n := s.adsInserted + 1
      (some ((Call.special .adMarker).withAttribute "name" (.string ("ad-" ++ toString n))),
        { s with policyState := state, adsInserted := n, cumulativeLines := 0 })
    | (.ok false, state) => (none, { s with policyState := state })
    | (.error reason, state) =>
      (none,
        { s with policyState := state }.warn
          ("Ad policy failed for section " ++ toString ordinal ++ ": " ++ reason))
  | _, _ => (none, s)

/-- The edit button of a section that has a start. -/
def editButton (setup : Setup π σ) (target : Target) (s : State π σ) (sec : Section)
    (headingId : Option String) : Option Call × State π σ :=
  match target, setup.options.editButtons, headingId, sec.startPos with
  | .full, true, some id, some start =>
    let n := s.editSequence + 1
    let button :=
      (EditButton.forSection setup.options.wikiId n sec.label start sec.endPos).withHeadingId id
    (some (((Call.special .editButton).withAttribute "secid" (.ofNat n)).withPayload button.toJson),
      { s with editSequence := n })
  | _, _, _, _ => (none, s)

/-! ### Sections -/

/-- The calls of a section in their order.  Without subsections an advertisement
comes first; with them it comes behind the text, and in the full rendition what
the section has of its own is set apart. -/
def arrange (target : Target) (hasChildren : Bool) (heading content : List Call)
    (marker button : Option Call) : List Call :=
  if !hasChildren then marker.toList ++ heading ++ content ++ button.toList
  else
    let own := heading ++ content ++ marker.toList ++ button.toList
    if target == .full && (!heading.isEmpty || !content.isEmpty || marker.isSome) then
      Call.enter .header :: own ++ [Call.exit .header]
    else own

/-- What a section gives to the page: its heading, with the id, and its text. -/
structure Portion where
  id : Nat
  heading : List Call
  content : List Call

/-- All that comes before the subsections of a section. -/
structure Opening where
  level : Nat
  own : Portion
  /-- The subsection that gives its heading and its text to this one. -/
  merged : Option Portion
  marker : Option Call
  button : Option Call
  /-- The subsections still to come. -/
  children : List Nat

namespace Opening

/-- Its own portion and the one merged into it. -/
def portions (o : Opening) : List Portion := o.own :: o.merged.toList

/-- The calls in their order, the division around the section first. -/
def calls (target : Target) (o : Opening) : List Call :=
  (Call.enter .division).withAttribute Outline.levelAttribute (.ofNat o.level) ::
    arrange target (!o.children.isEmpty) (o.portions.flatMap Portion.heading)
      (o.portions.flatMap Portion.content) o.marker o.button

end Opening

/-- The heading calls of a section and its id; the root has neither. -/
def ownHeading (s : State π σ) (sec : Section) : List Call × Option String × State π σ :=
  if sec.isRoot then ([], none, s)
  else
    let (calls, id, s) := s.heading sec
    (calls, some id, s)

/-- The portion merged into a section if there is one, the filled lines of both,
and the subsections still to come. -/
def mergeChild (setup : Setup π σ) (target : Target) (s : State π σ) (sec : Section) :
    Option Portion × Nat × List Nat × State π σ :=
  match flattenedChild? setup target sec with
  | none => (none, sec.filledLines, sec.children, s)
  | some only =>
    let child := setup.outline.get only
    let (heading, _, s) := s.heading child
    let (content, s) := captureFeaturedImage setup s child
    (some ⟨only, heading, content⟩, sec.filledLines + child.filledLines, child.children, s)

/-- Opens a section. -/
def openSection (setup : Setup π σ) (target : Target) (s : State π σ) (id : Nat) :
    Opening × State π σ :=
  let sec := setup.outline.get id
  let ordinal := s.sectionOrdinal
  let s := { s with sectionOrdinal := ordinal + 1 }
  let (heading, headingId, s) := ownHeading s sec
  let (merged, lines, children, s) := mergeChild setup target s sec
  let (marker, s) := adMarker setup target s id ordinal lines
  let (button, s) := editButton setup target s sec headingId
  ({ level := sec.level, own := ⟨id, heading, sec.contentCalls⟩, merged, marker, button, children },
    s)

/-- What is still to be done. -/
inductive Step where
  | opening (id : Nat)
  | closing
  deriving Repr, BEq, ReflBEq, LawfulBEq, DecidableEq

/-- What was done. -/
inductive Event where
  | opened (o : Opening)
  | closed

/-- The calls of what was done. -/
def Event.calls (target : Target) : Event → List Call
  | .opened o => o.calls target
  | .closed => [Call.exit .division]

/-- Does what is to be done, the nearest first; every section is opened and
closed at most once, so twice the number of sections is fuel enough. -/
def perform (setup : Setup π σ) (target : Target) :
    Nat → List Step → State π σ → List Event × State π σ
  | 0, _, s => ([], s)
  | _, [], s => ([], s)
  | fuel + 1, .opening id :: todo, s =>
    let (o, s) := openSection setup target s id
    let (rest, s) := perform setup target fuel (o.children.map Step.opening ++ .closing :: todo) s
    (.opened o :: rest, s)
  | fuel + 1, .closing :: todo, s =>
    let (rest, s) := perform setup target fuel todo s
    (.closed :: rest, s)

/-- What is done for a whole outline, and the state behind it. -/
def events (setup : Setup π σ) (target : Target) (policyState : π) (sinkState : σ) :
    List Event × State π σ :=
  perform setup target (2 * setup.outline.size) [.opening 0] { policyState, sinkState }

/-- One rendition, and the states of the policy and the sink behind it. -/
def run (setup : Setup π σ) (target : Target) (policyState : π) (sinkState : σ) :
    Rendition × π × σ :=
  let (es, s) := events setup target policyState sinkState
  (⟨es.flatMap (Event.calls target), s.warnings⟩, s.policyState, s.sinkState)

/-! ### The table of contents -/

/-- A line of the table of contents. -/
structure ContentsEntry where
  link : String
  title : String
  level : Nat
  deriving Repr, BEq, DecidableEq

/-- The kind of list that the table of contents is made of. -/
def ContentsEntry.kind : String := "ul"

/-- The entries of some sections, with the ids given out so far. -/
def contentsFrom (outline : Outline) : HeadingIds → List Nat → List ContentsEntry
  | _, [] => []
  | ids, id :: rest =>
    let sec := outline.get id
    if sec.isRoot then contentsFrom outline ids rest
    else
      let (anchor, ids) := ids.assign sec.explicitId? sec.label
      ⟨"#" ++ anchor, sec.label, sec.level⟩ :: contentsFrom outline ids rest

/-- The table of contents: a line for every section but the root. -/
def contents (outline : Outline) : List ContentsEntry :=
  contentsFrom outline {} outline.preOrder

end Rendering

end WikiOutline
