/-
# The events of a text

The events of a text are those of its blocks.  Definitions count in the whole
text, also before the place where they stand, so inline content is read when all
blocks are there.

Key definitions: `Markdown.events`, `Markdown.calls`.
-/
import WikiOutline.Markdown.Block.Reading
import WikiOutline.Markdown.Inline.Passage
import WikiOutline.Markdown.Transcript

namespace WikiOutline

namespace Markdown

/-- An element with some events in it. -/
def wrapEvents (element : Element) (span : Span) (inner : List (Event × Span)) :
    List (Event × Span) :=
  (.start element, span) :: inner ++ [(.finish, span)]

/-- The events of a passage. -/
def Passage.events (definitions : Definitions) (p : Passage) : List (Event × Span) :=
  Inline.eventsOfList (p.inlines definitions)

/-- The events of the cells of a row. -/
def Row.cellEvents (definitions : Definitions) (row : Row) : List (Event × Span) :=
  row.cells.flatMap fun cell => wrapEvents .tableCell cell.span (cell.passage.events definitions)

/-- The events of the rows of a table, the first of which is its head. -/
def rowEvents (definitions : Definitions) : List Row → List (Event × Span)
  | [] => []
  | head :: rows =>
    wrapEvents .tableHead head.span (head.cellEvents definitions) ++
      rows.flatMap fun row => wrapEvents .tableRow row.span (row.cellEvents definitions)

mutual

/-- The events of a block.  In an item of a tight list paragraphs are not
marked. -/
def Block.events (definitions : Definitions) (tight : Bool) : Block → List (Event × Span)
  | .quote span children =>
    wrapEvents .quote span (Block.eventsOfList definitions false children)
  | .list span first tight items =>
    wrapEvents (.list first) span (Block.eventsOfList definitions tight items)
  | .item span children => wrapEvents .item span (Block.eventsOfList definitions tight children)
  | .taskMarker span checked => [(.taskMarker checked, span)]
  | .paragraph span passage =>
    if tight then passage.events definitions
    else wrapEvents .paragraph span (passage.events definitions)
  | .heading span level id passage =>
    wrapEvents (.heading level id) span (passage.events definitions)
  | .verbatim span element lines => wrapEvents element span lines
  | .rule span => [(.rule, span)]
  | .table span rows => wrapEvents .table span (rowEvents definitions rows)

/-- The events of blocks in their order. -/
def Block.eventsOfList (definitions : Definitions) (tight : Bool) :
    List Block → List (Event × Span)
  | [] => []
  | b :: bs => b.events definitions tight ++ Block.eventsOfList definitions tight bs

end

/-- The events of a text. -/
def events (dialect : Dialect) (text : List Char) : List (Event × Span) :=
  let (blocks, definitions) := readBlocks dialect text
  Block.eventsOfList definitions false blocks

/-- The calls of a text. -/
def calls (dialect : Dialect) (text : String) : List Call :=
  (transcribe text.toList [] (events dialect text.toList)).1

end Markdown

end WikiOutline
