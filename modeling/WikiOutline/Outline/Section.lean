/-
# Sections

A section of an outline holds the calls of its heading and the calls of its own
text, and knows its parent and its children by number.  Section 0 is the root:
it has no heading and holds what comes before the first one.

Key definitions: `Section`, `plainText`, `Section.explicitId?`,
`Section.filledLines`.
-/
import WikiOutline.Call
import WikiOutline.Text.Blank

namespace WikiOutline

/-- The text of a call as far as it shows in a label: text between elements, and
what a heading without content carries. -/
def Call.labelText (c : Call) : List Char :=
  if c.state == .unmatched || (c.tag.isHeading && c.state == .special) then
    (c.payload.getD "").toList
  else []

/-- The text of calls, with single spaces for its blanks. -/
def plainText (calls : List Call) : String :=
  String.ofList (Text.squeeze (calls.flatMap Call.labelText))

/-- A section of an outline. -/
structure Section where
  /-- The depth in the outline. -/
  level : Nat
  /-- The level its author gave it. -/
  declaredLevel : Nat
  label : String := ""
  headingCalls : List Call := []
  contentCalls : List Call := []
  children : List Nat := []
  parent : Option Nat
  startPos : Option Nat
  /-- The last position of the section; the last section has none. -/
  endPos : Option Nat := none
  deriving Repr, Inhabited

namespace Section

/-- The section that holds all others. -/
def root : Section := { level := 0, declaredLevel := 0, parent := none, startPos := none }

/-- The section is the root. -/
def isRoot (s : Section) : Bool := s.parent.isNone

/-- The section has subsections. -/
def hasChildren (s : Section) : Bool := !s.children.isEmpty

/-- The id that the author gave the heading, unless it is empty. -/
def explicitId? (s : Section) : Option String :=
  match s.headingCalls with
  | [] => none
  | c :: _ => (c.attributes.getString? "id").filter fun id => !id.isEmpty

/-- The lines of a call's text that are not blank. -/
def filledLinesOf (c : Call) : Nat :=
  match c.text? with
  | some text => Text.countFilledLines text.toList
  | none => 0

/-- The lines of the section's own text that are not blank. -/
def filledLines (s : Section) : Nat :=
  s.contentCalls.foldr (fun c n => filledLinesOf c + n) 0

end Section

end WikiOutline
