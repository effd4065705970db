/-
# Calls

A page is a flat sequence of calls.  A call enters or exits an element, stands
for an element without content, or carries text between elements.  It has a tag,
an attribute bag, and optionally a context, a span of source positions and a
payload.

Key definitions: `Tag`, `Call`, `Tag.name`, `Call.text?`, `Call.headingSyntax?`.
-/
import WikiOutline.Attributes

namespace WikiOutline

/-- How a call takes part in the nesting. -/
inductive CallState where
  | enter
  | exit
  | special
  | unmatched
  deriving Repr, BEq, ReflBEq, LawfulBEq, DecidableEq, Inhabited

/-- How a heading was written. -/
inductive HeadingSyntax where
  | atx
  | wiki
  | block
  deriving Repr, BEq, DecidableEq, Inhabited

/-- A heading that its source wraps in paragraphs. -/
def HeadingSyntax.isBlock : HeadingSyntax → Bool
  | .block => true
  | _ => false

mutual

/-- The element a call belongs to. -/
inductive Tag where
  | heading (style : HeadingSyntax)
  /-- One section of an outline with all that is in it. -/
  | division
  /-- The heading and the text of a section, without its subsections. -/
  | header
  | editButton
  | adMarker
  | paragraph
  | media
  /-- A component with calls of its own. -/
  | template (children : List Call)
  | other (name : String)
  deriving Repr, BEq

/-- One step of a page. -/
structure Call where
  tag : Tag
  state : CallState
  attributes : Attributes := {}
  context : Option String := none
  startPos : Option Nat := none
  endPos : Option Nat := none
  payload : Option String := none
  deriving Repr, BEq

end

/-- The name that enters and exits are matched by. -/
def Tag.name : Tag → String
  | .heading _ => "heading"
  | .division => "section"
  | .header => "header"
  | .editButton => "edit-button"
  | .adMarker => "ad"
  | .paragraph => "p"
  | .media => "media"
  | .template _ => "template"
  | .other name => name

/-- The tag is a heading, however written. -/
def Tag.isHeading : Tag → Bool
  | .heading _ => true
  | _ => false

/-- The tag is a paragraph. -/
def Tag.isParagraph : Tag → Bool
  | .paragraph => true
  | _ => false

/-- The tag is an image or another medium. -/
def Tag.isMedia : Tag → Bool
  | .media => true
  | _ => false

namespace Call

instance : Inhabited Call := ⟨⟨.paragraph, .special, {}, none, none, none, none⟩⟩

/-- The context of the calls that make up the outline. -/
def outlineContext : String := "outline"

/-! ### Making calls -/

/-- Enters an element. -/
def enter (tag : Tag) : Call := { tag, state := .enter }

/-- Exits an element. -/
def exit (tag : Tag) : Call := { tag, state := .exit }

/-- An element without content. -/
def special (tag : Tag) : Call := { tag, state := .special }

/-- Text between elements. -/
def text (content : String) : Call :=
  { tag := .other "cdata", state := .unmatched, payload := some content }

/-- A component with calls of its own. -/
def template (children : List Call) : Call := special (.template children)

/-- The call with an attribute set. -/
def withAttribute (c : Call) (key : String) (value : AttributeValue) : Call :=
  { c with attributes := c.attributes.set key value }

/-- The call with a context. -/
def withContext (c : Call) (context : String) : Call := { c with context := some context }

/-- The call with a span of source positions. -/
def withSpan (c : Call) (startPos endPos : Nat) : Call :=
  { c with startPos := some startPos, endPos := some endPos }

/-- The call with a payload. -/
def withPayload (c : Call) (payload : String) : Call := { c with payload := some payload }

/-! ### Asking calls -/

/-- The name that enters and exits are matched by. -/
def name (c : Call) : String := c.tag.name

/-- The call enters an element. -/
def isEnter (c : Call) : Bool := c.state == .enter

/-- The call exits an element. -/
def isExit (c : Call) : Bool := c.state == .exit

/-- The call is markup, not text. -/
def isTag (c : Call) : Bool := c.state != .unmatched

/-- The call makes up the outline. -/
def isOutlineContext (c : Call) : Bool := c.context == some outlineContext

/-- How the heading was written, if the call is one. -/
def headingSyntax? (c : Call) : Option HeadingSyntax :=
  match c.tag with
  | .heading style => some style
  | _ => none

/-- The text between elements, if the call carries some. -/
def text? (c : Call) : Option String :=
  match c.state with
  | .unmatched => c.payload
  | _ => none

end Call

end WikiOutline
