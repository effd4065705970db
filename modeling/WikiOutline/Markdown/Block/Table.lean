/-
# Tables

A row of a table is cut into cells at its bars.  Every row has as many cells as
the head; missing ones are empty, and further ones are left out.

Key definitions: `Markdown.readRow`, `Markdown.readRows`.
-/
import WikiOutline.Markdown.Block
import WikiOutline.Markdown.Interruption

namespace WikiOutline

namespace Markdown

/-- The cells of a row from a place on, and the place behind the row. -/
def readCells (dialect : Dialect) (containers : List Container) :
    Nat → Cursor → List Cell × Cursor
  | 0, c => ([], c)
  | fuel + 1, c =>
    let start := if c.rest.head? == some '|' then c.advance 1 else c
    let content := start.dropWhile isInlineBlank
    match lineEnd? content.rest with
    | some n => ([], content.advance n)
    | none =>
      let line := readLine dialect .cell containers none [] content
      let cell : Cell :=
        { span := ⟨start.offset, line.next.offset⟩
          passage :=
            { pieces := line.pieces.reverse, stop := line.next.offset, containers
              inTable := true } }
      let (cells, behind) := readCells dialect containers fuel line.next
      (cell :: cells, behind)

/-- A cell without content. -/
def emptyCell (containers : List Container) (offset : Nat) : Cell where
  span := ⟨offset, offset⟩
  passage := { pieces := [], stop := offset, containers, inTable := true }

/-- Takes a row of so many columns.  A row has at least one cell of its own. -/
def readRow (dialect : Dialect) (containers : List Container) (columns : Nat) (start : Cursor) :
    Option (Row × Cursor) :=
  let (cells, behind) := readCells dialect containers (2 * start.rest.length + 2) start
  if cells.isEmpty then none
  else
    let missing := List.replicate (columns - cells.length) (emptyCell containers behind.offset)
    some (⟨⟨start.offset, behind.offset⟩, (cells ++ missing).take columns⟩, behind)

/-- Takes rows up to a line that interrupts the table, and tells the place of that
line. -/
def readRows (dialect : Dialect) (containers : List Container) (columns : Nat) :
    Nat → Cursor → List Row × Cursor
  | 0, c => ([], c)
  | fuel + 1, c =>
    match (LineStart.ofCursor c).enterAll? containers with
    | none => ([], c)
    | some l =>
      let start := l.takeAll.cursor
      if interruptsRow true start.rest then ([], c)
      else
        match readRow dialect containers columns start with
        | none => ([], c)
        | some (row, next) =>
          let (rows, behind) := readRows dialect containers columns fuel next
          (row :: rows, behind)

/-- Takes a table: its head from one place on, and its rows from another. -/
def readTable (dialect : Dialect) (containers : List Container) (columns : Nat)
    (head body : Cursor) : Block × Cursor :=
  let (rows, behind) := readRows dialect containers columns (body.rest.length + 1) body
  let first :=
    match readRow dialect containers columns head with
    | some (row, _) => [row]
    | none => []
  (.table ⟨head.offset, behind.offset⟩ (first ++ rows), behind)

end Markdown

end WikiOutline
