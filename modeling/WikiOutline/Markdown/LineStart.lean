/-
# The start of a line

A line starts with the signs of the containers that it continues: the marker of a
quote, or the indentation of a list item.  A tab reaches up to the next multiple
of four columns, and part of it may be used while the rest stays over.

Key definitions: `Markdown.LineStart`, `Markdown.LineStart.takeSpaces`,
`Markdown.Container`, `Markdown.LineStart.enter`, `Markdown.LineStart.listMarker?`.
-/
import WikiOutline.Markdown.Cursor
import WikiOutline.Markdown.LineKind

namespace WikiOutline

namespace Markdown

/-- A place near the start of a line. -/
structure LineStart where
  cursor : Cursor
  /-- The offset that tab stops are counted from. -/
  tabOrigin : Nat
  /-- The columns of the last tab that are left over. -/
  spare : Nat := 0
  deriving Repr, BEq, DecidableEq, Inhabited

/-- What goes on over several lines. -/
inductive Container where
  | quote
  | item (indent : Nat)
  deriving Repr, BEq, DecidableEq, Inhabited

/-- A marker of a list. -/
structure ListMarker where
  /-- The bullet, or what stands behind the number. -/
  mark : Char
  number : Nat
  /-- The indentation of what belongs to the item. -/
  indent : Nat
  deriving Repr, BEq, DecidableEq, Inhabited

/-- The list is ordered. -/
def isOrderedMark (mark : Char) : Bool := mark == '.' || mark == ')'

namespace LineStart

/-- The start of a line. -/
def ofCursor (c : Cursor) : LineStart := ⟨c, c.offset, 0⟩

/-! ### Spaces -/

/-- Takes up to `n` columns of `cs`, and tells how many were missing. -/
def takeColumns : Nat → Nat → Nat → List Char → Nat × LineStart
  | 0, offset, origin, cs => (0, ⟨⟨offset, cs⟩, origin, 0⟩)
  | n + 1, offset, origin, [] => (n + 1, ⟨⟨offset, []⟩, origin, 0⟩)
  | n + 1, offset, origin, c :: cs =>
    if c == ' ' then takeColumns n (offset + 1) origin cs
    else if c == '\t' then
      let width := 4 - (offset - origin) % 4
      if width ≤ n then takeColumns (n + 1 - width) (offset + 1) (offset + 1) cs
      else (0, ⟨⟨offset + 1, cs⟩, offset + 1, width - (n + 1)⟩)
    else (n + 1, ⟨⟨offset, c :: cs⟩, origin, 0⟩)

/-- Takes up to `n` columns of space, and tells how many were missing. -/
def takeSpaces (n : Nat) (l : LineStart) : Nat × LineStart :=
  if n ≤ l.spare then (0, { l with spare := l.spare - n })
  else takeColumns (n - l.spare) l.cursor.offset l.tabOrigin l.cursor.rest

/-- Takes up to `n` columns of space, and tells how many there were. -/
def takeUpTo (n : Nat) (l : LineStart) : Nat × LineStart :=
  let (missing, l) := l.takeSpaces n
  (n - missing, l)

/-- Takes all spaces and tabs. -/
def takeAll (l : LineStart) : LineStart :=
  { l with cursor := l.cursor.dropWhile fun c => c == ' ' || c == '\t', spare := 0 }

/-- The line ends here. -/
def atLineEnd (l : LineStart) : Bool := (lineEnd? l.cursor.rest).isSome

/-- The place a number of characters further on, which hold no tab. -/
def advance (l : LineStart) (n : Nat) : LineStart := { l with cursor := l.cursor.advance n }

/-! ### Containers -/

/-- Takes the marker of a quote and a space behind it. -/
def quoteMarker? (l : LineStart) : Option LineStart :=
  match l.cursor.rest with
  | '>' :: _ => some ((l.advance 1).takeSpaces 1).2
  | _ => none

/-- Takes the sign that the line continues a container. -/
def enter? (l : LineStart) : Container → Option LineStart
  | .quote => (l.takeSpaces 3).2.quoteMarker?
  | .item indent =>
    let (missing, l) := l.takeSpaces indent
    if missing = 0 || l.atLineEnd then some l else none

/-- Enters containers from the outside, and tells which ones the line does not
continue. -/
def enter : List Container → LineStart → List Container × LineStart
  | [], l => ([], l)
  | c :: cs, l =>
    match l.enter? c with
    | some l => enter cs l
    | none => (c :: cs, l)

/-- Enters containers, if the line continues all of them. -/
def enterAll? (containers : List Container) (l : LineStart) : Option LineStart :=
  match l.enter containers with
  | ([], l) => some l
  | _ => none

/-! ### Markers -/

/-- The names of the alerts. -/
def alertNames : List String := ["note", "tip", "important", "warning", "caution"]

/-- Takes the name of an alert on a line of its own, and the line with it. -/
def alertLine? (l : LineStart) : Option LineStart :=
  match l.cursor.rest with
  | '[' :: '!' :: cs =>
    let name := cs.takeWhile Char.isAlpha
    match cs.drop name.length with
    | ']' :: behind =>
      if alertNames.contains (String.ofList (name.map Char.toLower)) then
        (blankLine? behind).map fun n => l.advance (name.length + 3 + n)
      else none
    | _ => none
  | _ => none

/-- Takes the spaces behind a marker of a list, and adds up the indentation. -/
def finishMarker? (mark : Char) (number indent : Nat) (l : LineStart) :
    Option (ListMarker × LineStart) :=
  let (missing, behind) := l.takeSpaces 1
  if missing = 0 || behind.atLineEnd then
    if startsBlankLine behind.cursor.rest then some (⟨mark, number, indent⟩, behind)
    else
      let (extra, content) := behind.takeUpTo 4
      if extra < 4 then some (⟨mark, number, indent + extra⟩, content)
      else some (⟨mark, number, indent⟩, behind)
  else none

/-- Takes a marker of a list that is indented by `outer` columns. -/
def listMarker? (outer : Nat) (l : LineStart) : Option (ListMarker × LineStart) :=
  match marker? l.cursor.rest with
  | none => none
  | some (mark, number, length) =>
    if !isOrderedMark mark && (ruleLength? l.cursor.rest).isSome then none
    else (l.advance length).finishMarker? mark number (outer + length + 1)

/-- Takes the box of a task, and tells whether it is checked. -/
def taskBox? (l : LineStart) : Option (Bool × LineStart) :=
  let l := (l.takeUpTo 3).2
  match l.cursor.rest with
  | '[' :: c :: ']' :: blank :: _ =>
    if !isAsciiBlank blank then none
    else if isInlineBlank c then some (false, l.advance 3)
    else if c == 'x' || c == 'X' then some (true, l.advance 3)
    else none
  | _ => none

end LineStart

end Markdown

end WikiOutline
