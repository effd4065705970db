/-
# Blocks

A text is a sequence of blocks.  Quotes, lists and their items hold blocks, other
blocks hold passages of text or code.

Key definitions: `Markdown.Block`, `Markdown.Passage`.
-/
import WikiOutline.Markdown.Piece

namespace WikiOutline

namespace Markdown

/-- Text in which emphasis, links and the like are still to be found. -/
structure Passage where
  pieces : List Piece
  stop : Nat
  /-- The containers around it, the outermost first. -/
  containers : List Container
  inTable : Bool := false
  deriving Repr, BEq, DecidableEq, Inhabited

/-- A cell of a table. -/
structure Cell where
  span : Span
  passage : Passage
  deriving Repr, BEq, DecidableEq, Inhabited

/-- A row of a table. -/
structure Row where
  span : Span
  cells : List Cell
  deriving Repr, BEq, DecidableEq, Inhabited

/-- A block. -/
inductive Block where
  | quote (span : Span) (children : List Block)
  /-- A list, with its first number if it is ordered.  In a tight list nothing
  marks the paragraphs of the items. -/
  | list (span : Span) (first : Option Nat) (tight : Bool) (items : List Block)
  | item (span : Span) (children : List Block)
  | taskMarker (span : Span) (checked : Bool)
  | paragraph (span : Span) (passage : Passage)
  | heading (span : Span) (level : HeadingLevel) (id : Option String) (passage : Passage)
  /-- Code or HTML, with the events of its lines. -/
  | verbatim (span : Span) (element : Element) (lines : List (Event × Span))
  | rule (span : Span)
  /-- A table, its head first. -/
  | table (span : Span) (rows : List Row)
  deriving Repr

end Markdown

end WikiOutline
