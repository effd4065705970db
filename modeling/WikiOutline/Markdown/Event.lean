/-
# Markdown events

A reader of Markdown reports what it finds as events in the order of the text:
elements start and finish around the content between them.  Every event has a
span of byte offsets.

Key definitions: `Markdown.Element`, `Markdown.Event`, `Markdown.Span`,
`Markdown.Dialect.offers`.
-/

namespace WikiOutline

namespace Markdown

/-- The six levels of headings. -/
inductive HeadingLevel where
  | one
  | two
  | three
  | four
  | five
  | six
  deriving Repr, BEq, DecidableEq, Inhabited

namespace HeadingLevel

/-- The level as a number. -/
def toNat : HeadingLevel → Nat
  | one => 1
  | two => 2
  | three => 3
  | four => 4
  | five => 5
  | six => 6

/-- The level of a number from 1 to 6. -/
def ofNat? : Nat → Option HeadingLevel
  | 1 => some one
  | 2 => some two
  | 3 => some three
  | 4 => some four
  | 5 => some five
  | 6 => some six
  | _ => none

end HeadingLevel

/-- Where something stands in the text, in bytes. -/
structure Span where
  start : Nat
  stop : Nat
  deriving Repr, BEq, DecidableEq, Inhabited

/-- What may have content. -/
inductive Element where
  | paragraph
  | heading (level : HeadingLevel) (id : Option String)
  | quote
  /-- Code on lines of its own, with the words behind the opening fence. -/
  | codeBlock (info : Option String)
  | htmlBlock
  /-- A list, with its first number if it is ordered. -/
  | list (first : Option Nat)
  | item
  | footnote (name : String)
  | definitionList
  | definitionTitle
  | definition
  | metadata
  | table
  | tableHead
  | tableRow
  | tableCell
  | emphasis
  | strong
  | strikethrough
  | superscript
  | subscript
  | link (destination title : String)
  | image (destination title : String)
  deriving Repr, BEq, DecidableEq, Inhabited

/-- What a reader reports. -/
inductive Event where
  | start (element : Element)
  /-- The innermost element ends. -/
  | finish
  | text (content : String)
  | code (content : String)
  | html (content : String)
  | math (content : String)
  | footnoteReference (name : String)
  | softBreak
  | hardBreak
  | rule
  | taskMarker (checked : Bool)
  deriving Repr, BEq, DecidableEq, Inhabited

/-- What Markdown may offer beyond its core. -/
inductive Extension where
  | headingAttributes
  | tables
  | strikethrough
  | taskLists
  /-- Quotes that are notes, tips, warnings and the like. -/
  | alerts
  | footnotes
  | math
  | smartPunctuation
  deriving Repr, BEq, DecidableEq

/-- The two dialects: little more than the core, or what GitHub reads. -/
inductive Dialect where
  | plain
  | github
  deriving Repr, BEq, DecidableEq, Inhabited

/-- The extensions of a dialect. -/
def Dialect.offers : Dialect → Extension → Bool
  | _, .headingAttributes => true
  | .github, .tables => true
  | .github, .strikethrough => true
  | .github, .taskLists => true
  | .github, .alerts => true
  | _, _ => false

end Markdown

end WikiOutline
