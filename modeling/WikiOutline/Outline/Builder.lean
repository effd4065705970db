/-
# Building an outline

A build reads the calls once, front to back.  A heading of the outline starts a
section; what comes up to its exit is part of the heading, and all else is text
of the section that was started last.  A section goes below the last one that is
one level up; a level that skips some is corrected to the next one below.

When a heading is written on its own line, the paragraph that closes right behind
it, or an empty one, is taken into the heading.

Key definitions: `Outline.Builder`, `Outline.Builder.accept`,
`Outline.Builder.startSection`, `Outline.Builder.acceptAll`, `Outline.build`.
-/
import WikiOutline.Outline.Basic
import WikiOutline.PageMetadata

namespace WikiOutline

namespace Outline

/-- The attribute that holds the level of a heading or section. -/
def levelAttribute : String := "level"

/-- The attribute that keeps the level a heading was given, where it was
corrected. -/
def declaredLevelAttribute : String := "declared-level"

/-- A heading whose exit has not come yet. -/
structure OpenHeading where
  style : HeadingSyntax
  /-- How many headings are open inside one another. -/
  depth : Nat
  deriving Repr, BEq, DecidableEq

/-- A build in progress. -/
structure Builder where
  strictness : Strictness
  sections : List Section := [.root]
  /-- The section that was started last. -/
  current : Nat := 0
  openHeading : Option OpenHeading := none
  /-- A paragraph that comes now may be taken into the heading. -/
  absorbing : Bool := false
  maxEndPos : Option Nat := none
  diagnostics : List Diagnostic := []

namespace Builder

/-- The section of a number. -/
def get (b : Builder) (id : Nat) : Section := b.sections.getD id .root

/-- Changes the section of a number. -/
def modify (b : Builder) (id : Nat) (f : Section → Section) : Builder :=
  { b with sections := b.sections.modify id f }

/-- Changes the section that was started last. -/
def modifyCurrent (b : Builder) (f : Section → Section) : Builder := b.modify b.current f

/-- Adds a call to the text of the current section. -/
def pushContent (b : Builder) (c : Call) : Builder :=
  b.modifyCurrent fun s => { s with contentCalls := s.contentCalls ++ [c] }

/-- Adds a call to the heading of the current section. -/
def pushHeading (b : Builder) (c : Call) : Builder :=
  b.modifyCurrent fun s => { s with headingCalls := s.headingCalls ++ [c] }

/-- Labels the current section by the text of its heading. -/
def labelCurrent (b : Builder) : Builder :=
  b.modifyCurrent fun s => { s with label := plainText s.headingCalls }

/-- Notes a finding that stops nothing. -/
def warn (b : Builder) (finding : Finding) (position : Option Nat) : Builder :=
  { b with diagnostics := b.diagnostics ++ [⟨finding, position⟩] }

/-- Notes an internal finding, which ends a strict build. -/
def internal (b : Builder) (finding : Finding) (position : Option Nat) :
    Except Diagnostic Builder :=
  match b.strictness with
  | .strict => .error ⟨finding, position⟩
  | .lenient => .ok (b.warn finding position)

/-- The largest end position, with that of a call. -/
def noteEnd (b : Builder) (c : Call) : Builder :=
  match c.endPos with
  | none => b
  | some e => { b with maxEndPos := some (b.maxEndPos.elim e (max e)) }

/-! ### Starting a section -/

/-- The level a heading was given.  A level below 1 counts as 1, and a heading
without a level counts as one beside the current section. -/
def declaredLevel (b : Builder) (c : Call) : Except Diagnostic (Nat × Builder) :=
  let current := (b.get b.current).level
  match c.attributes.getInt? levelAttribute with
  | some level =>
    if 1 ≤ level then .ok (level.toNat, b)
    else .ok (1, b.warn (.invalidLevel level) c.startPos)
  | none => (b.internal (.missingLevel current) c.startPos).map fun b => (max current 1, b)

/-- Walks up from a section, one parent at each step. -/
def ancestorFrom (b : Builder) (level : Nat) (position : Option Nat) :
    Nat → Nat → Except Diagnostic (Nat × Builder)
  | 0, id => .ok (id, b)
  | steps + 1, id =>
    match (b.get id).parent with
    | some parent => b.ancestorFrom level position steps parent
    | none => (b.internal (.noAncestor level) position).map fun b => (id, b)

/-- The parent and the corrected level of a section of some declared level. -/
def placement (b : Builder) (declared : Nat) (position : Option Nat) :
    Except Diagnostic (Nat × Nat × Builder) :=
  let current := (b.get b.current).level
  if current < declared then
    if 1 < declared - current then
      .ok (b.current, current + 1, b.warn (.skippedLevels declared current) position)
    else .ok (b.current, declared, b)
  else
    (b.ancestorFrom declared position (current - declared + 1) b.current).map
      fun (parent, b) => (parent, declared, b)

/-- Ends the open sections below `parent`, from `id` upward, at the position
before `start`, but none before its own start. -/
def closeSpans (start parent : Nat) : Nat → Nat → Builder → Builder
  | 0, _, b => b
  | steps + 1, id, b =>
    if id = parent then b
    else
      match (b.get id).parent with
      | none => b
      | some next =>
        closeSpans start parent steps next
          (b.modify id fun s =>
            { s with endPos := some (s.startPos.elim (start - 1) (max (start - 1))) })

/-- The heading call with the level it is corrected to. -/
def leveled (c : Call) (declared level : Nat) : Call :=
  let c := if level = declared then c
    else c.withAttribute declaredLevelAttribute (.ofNat declared)
  c.withAttribute levelAttribute (.ofNat level)

/-- Ends the open sections below `parent` before a heading, if it has a position. -/
def leaveSections (b : Builder) (c : Call) (parent : Nat) : Builder :=
  match c.startPos with
  | some start => closeSpans start parent b.sections.length b.current b
  | none => b

/-- Opens the section of a heading below `parent`, and ends those it leaves. -/
def openSection (b : Builder) (c : Call) (declared parent level : Nat) : Builder :=
  let call := leveled c declared level
  let b := b.leaveSections c parent
  let style := c.headingSyntax?.getD .block
  let id := b.sections.length
  let started : Section :=
    { level, declaredLevel := declared, headingCalls := [call], parent := some parent
      startPos := c.startPos }
  let b := b.modify parent fun s => { s with children := s.children ++ [id] }
  let b := { b with sections := b.sections ++ [started], current := id }
  if c.state == .special then { b.labelCurrent with absorbing := !style.isBlock }
  else { b with openHeading := some ⟨style, 1⟩ }

/-- Starts the section of a heading. -/
def startSection (b : Builder) (c : Call) : Except Diagnostic Builder := do
  let (declared, b) ← b.declaredLevel c
  let (parent, level, b) ← b.placement declared c.startPos
  .ok (b.openSection c declared parent level)

/-! ### Taking calls -/

/-- The nesting of headings behind a call. -/
def OpenHeading.after (h : OpenHeading) (c : Call) : OpenHeading :=
  if c.tag.isHeading then
    match c.state with
    | .enter => { h with depth := h.depth + 1 }
    | .exit => { h with depth := h.depth - 1 }
    | _ => h
  else h

/-- A call inside a heading.  Media do not link there; the exit of the outermost
heading ends it. -/
def acceptInHeading (b : Builder) (h : OpenHeading) (c : Call) : Builder :=
  let call := if c.tag.isMedia then c.withAttribute "linking" (.string "nolink") else c
  let h := OpenHeading.after h c
  let b := b.pushHeading call
  if h.depth = 0 then { b.labelCurrent with openHeading := none, absorbing := !h.style.isBlock }
  else { b with openHeading := some h }

/-- A heading of the outline. -/
def isOutlineHeading (c : Call) : Bool := c.tag.isHeading && c.isOutlineContext

/-- A paragraph is taken into a heading when it exits, or when it enters and the
next call exits it. -/
def absorbs (c : Call) (next : Option Call) : Bool :=
  c.tag.isParagraph &&
    (c.isExit || (c.isEnter && next.any fun n => n.tag.isParagraph && n.isExit))

/-- No paragraph is taken into the heading any more. -/
def endAbsorbing (b : Builder) : Builder := { b with absorbing := false }

/-- Takes one call, knowing the next one.  The answer says whether the next one
was taken too. -/
def accept (b : Builder) (c : Call) (next : Option Call) : Except Diagnostic (Builder × Bool) :=
  let b := b.noteEnd c
  match b.openHeading with
  | some h => .ok (b.acceptInHeading h c, false)
  | none =>
    if isOutlineHeading c then
      match c.state with
      | .enter | .special => (b.startSection c).map fun b => (b, false)
      | _ => (b.internal .strayHeadingExit c.startPos).map fun b => (b.pushContent c, false)
    else
      let absorbing := b.absorbing
      let b := b.endAbsorbing
      if absorbing && absorbs c next then
        match next with
        | some n =>
          if c.isEnter then .ok ((b.pushHeading c).pushHeading n, true)
          else .ok (b.pushHeading c, false)
        | none => .ok (b.pushHeading c, false)
      else .ok (b.pushContent c, false)

/-- Takes calls in order. -/
def acceptAll : List Call → Builder → Except Diagnostic Builder
  | [], b => .ok b
  | [c], b => (b.accept c none).map (·.1)
  | c :: next :: rest, b => do
    let (b, both) ← b.accept c (some next)
    if both then acceptAll rest b else acceptAll (next :: rest) b

/-- Ends the build; a heading still open is an internal finding. -/
def finish (b : Builder) : Except Diagnostic Builder :=
  match b.openHeading with
  | none => .ok b
  | some _ =>
    ({ b with openHeading := none }.internal .unclosedHeading (b.get b.current).startPos).map
      labelCurrent

/-- The label of the first section, if it was given level 1 and has a label. -/
def title? (b : Builder) : Option String :=
  match (b.get 0).children with
  | [] => none
  | first :: _ =>
    let s := b.get first
    if s.declaredLevel = 1 && !s.label.isEmpty then some s.label else none

end Builder

/-- The sections of some calls, before anything is told to a sink. -/
def buildSections (strictness : Strictness) (calls : List Call) : Except Diagnostic Builder := do
  let b ← Builder.acceptAll calls { strictness }
  b.finish

/-- Tells a title to a sink, if there are both; a failure is noted. -/
def recordTitle {σ : Type} (sink : Option (MetadataSink σ)) (b : Builder) (s : σ) :
    Builder × σ :=
  match b.title?, sink with
  | some title, some sink =>
    match sink.setTitle title s with
    | (.ok (), s) => (b, s)
    | (.error reason, s) => (b.warn (.titleNotRecorded reason) none, s)
  | _, _ => (b, s)

/-- The outline of some calls.  The title goes to the sink once the whole outline
is there; a build that fails leaves the sink as it was. -/
def buildWith {σ : Type} (strictness : Strictness) (sink : Option (MetadataSink σ))
    (calls : List Call) (s : σ) : Except (Failure σ) (Outline × σ) :=
  match buildSections strictness calls with
  | .error d => .error ⟨d, s⟩
  | .ok b =>
    let title := b.title?
    let (b, s) := recordTitle sink b s
    .ok (⟨b.sections, title, b.maxEndPos, b.diagnostics⟩, s)

/-- The outline of some calls, without a sink. -/
def build (strictness : Strictness) (calls : List Call) : Except Diagnostic Outline :=
  match @buildWith Unit strictness none calls () with
  | .error failure => .error failure.toDiagnostic
  | .ok (o, _) => .ok o

end Outline

end WikiOutline
