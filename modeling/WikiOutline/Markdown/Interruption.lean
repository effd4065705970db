/-
# Interruptions

A paragraph goes on with the next line unless that line is blank or starts a
block of its own.  Not every block may: an empty item does not end a paragraph,
nor an ordered list that starts at another number than one, nor HTML that is a
single tag.

Key definitions: `Markdown.interrupts`, `Markdown.continueParagraph?`.
-/
import WikiOutline.Markdown.HtmlSyntax
import WikiOutline.Markdown.LineStart

namespace WikiOutline

namespace Markdown

/-- A list item that ends a paragraph.  In the lines of a table, and where the
line leaves a container, every item does. -/
def itemInterrupts (free : Bool) (cs : List Char) : Bool :=
  match itemStart? cs with
  | none => false
  | some (mark, number, behind) =>
    free || ((!isOrderedMark mark || number = 1) && !startsTwoBlankLines behind)

/-- A blank line, or one that starts a block other than a table. -/
def interruptsRow (free : Bool) (cs : List Char) : Bool :=
  (lineEnd? cs).isSome || (ruleLength? cs).isSome || (atxLevel? cs).isSome ||
    (openingFence? cs).isSome || cs.head? == some '>' || itemInterrupts free cs ||
    match cs with
    | '<' :: inner => (rawBlockEnd? inner).isSome || startsNamedBlock inner
    | _ => false

/-- The bars of a line that no backslash comes before, with what comes behind the
last one. -/
def countBars : Bool → Nat → List Char → List Char → Nat × List Char
  | _, bars, behind, [] => (bars, behind)
  | escaped, bars, behind, c :: cs =>
    if isLineBreak c then (bars, behind)
    else if c == '|' && !escaped then countBars false (bars + 1) cs cs
    else countBars (c == '\\') bars behind cs

/-- A table starts with a bar: its head, and a row of hyphens that fits. -/
def startsTable (containers : List Container) (start : Cursor) : Bool :=
  let line := start.rest.takeWhile fun c => !isLineBreak c
  let lineBreak := start.advance line.length
  if start.rest.head? == some '|' && !lineBreak.atEnd then
    let next := lineBreak.advance ((lineEnd? lineBreak.rest).getD 0)
    match (LineStart.ofCursor next).enterAll? containers with
    | none => false
    | some row =>
      match delimiterRow? row.cursor.rest with
      | none => false
      | some (columns, _) =>
        let (bars, behind) := countBars false 0 [] start.rest
        columns == headColumns start.rest bars behind
  else false

/-- The line at a place ends the paragraph before it; `current` says that it
continues all containers. -/
def interrupts (dialect : Dialect) (containers : List Container) (current : Bool)
    (start : Cursor) : Bool :=
  interruptsRow (!current) start.rest ||
    (dialect.offers .tables && startsTable containers start)

/-- The place behind the signs of containers and the indentation of a line, if
the line goes on with what the line before it began. -/
def continueParagraph? (dialect : Dialect) (containers : List Container) (start : Cursor) :
    Option Cursor :=
  let (left, l) := (LineStart.ofCursor start).enter containers
  let current := left.isEmpty
  let (missing, l) := l.takeSpaces 4
  if missing = 0 then some l.cursor
  else if interrupts dialect containers current l.cursor ||
      (current && (underline? l.cursor.rest).isSome) then none
  else some l.cursor

end Markdown

end WikiOutline
