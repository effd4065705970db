/-
# Kinds of lines

What kind of block a line starts is told by the characters behind its
indentation: a rule, a heading, a fence, a list item.  A line of one sign under
a paragraph makes that paragraph a heading, and a line of dashes and bars makes
the line before it the head of a table.

Key definitions: `Markdown.ruleLength?`, `Markdown.atxLevel?`,
`Markdown.underline?`, `Markdown.openingFence?`, `Markdown.marker?`,
`Markdown.delimiterRow?`.
-/
import WikiOutline.Markdown.Cursor
import WikiOutline.Markdown.Event

namespace WikiOutline

namespace Markdown

/-! ### Rules and headings -/

/-- A sign that rules are made of. -/
def isRuleSign (c : Char) : Bool := c == '*' || c == '-' || c == '_'

/-- The length of a rule with its line end: three equal signs or more, with
nothing but spaces and tabs between them. -/
def ruleLength? (cs : List Char) : Option Nat :=
  match cs with
  | [] => none
  | sign :: _ =>
    let line := cs.takeWhile fun c => !isLineBreak c
    if isRuleSign sign && line.all (fun c => c == sign || c == ' ' || c == '\t') &&
        3 ≤ line.count sign then
      some (line.length + (lineEnd? (cs.drop line.length)).getD 0)
    else none

/-- The level of a heading: one to six number signs with a blank or the end of
the text behind them. -/
def atxLevel? (cs : List Char) : Option HeadingLevel :=
  let n := runLength '#' cs
  match cs.drop n with
  | [] => HeadingLevel.ofNat? n
  | c :: _ => if isAsciiBlank c then HeadingLevel.ofNat? n else none

/-- The level and length of a line that underlines a heading. -/
def underline? (cs : List Char) : Option (HeadingLevel × Nat) :=
  match cs with
  | [] => none
  | sign :: _ =>
    let n := runLength sign cs
    match sign, blankLine? (cs.drop n) with
    | '=', some k => some (.one, n + k)
    | '-', some k => some (.two, n + k)
    | _, _ => none

/-! ### Fences -/

/-- The sign and the length of a fence that opens code: three or more backticks
with none behind them in the line, or three or more tildes. -/
def openingFence? (cs : List Char) : Option (Char × Nat) :=
  match cs with
  | [] => none
  | sign :: _ =>
    let n := runLength sign cs
    let behind := cs.drop n
    if n < 3 then none
    else if sign == '~' then some (sign, n)
    else if sign == '\x60' && !(behind.take (lineLength behind)).contains sign then some (sign, n)
    else none

/-- The length of a fence that closes code opened by `n` times `sign`.  The end
of the text closes it too. -/
def closingFence? (sign : Char) (n : Nat) (cs : List Char) : Option Nat :=
  if cs.isEmpty then some 0
  else
    let found := runLength sign cs
    let spaces := runLength ' ' (cs.drop found)
    let length := found + spaces
    if n ≤ found && (lineEnd? (cs.drop length)).isSome then some length else none

/-! ### Lists -/

/-- The value of digits. -/
def digitsValue (ds : List Char) : Nat := ds.foldl (fun n d => 10 * n + (d.toNat - '0'.toNat)) 0

/-- The sign, number and length of a bullet, or of up to nine digits with a point
or bracket behind them. -/
def marker? (cs : List Char) : Option (Char × Nat × Nat) :=
  match cs with
  | [] => none
  | c :: _ =>
    if c == '-' || c == '+' || c == '*' then some (c, 0, 1)
    else
      let digits := cs.takeWhile Char.isDigit
      match cs.drop digits.length with
      | mark :: _ =>
        if (mark == '.' || mark == ')') && !digits.isEmpty && digits.length ≤ 9 then
          some (mark, digitsValue digits, digits.length + 1)
        else none
      | [] => none

/-- What comes behind the marker of a list item, with its sign and number. -/
def itemStart? (cs : List Char) : Option (Char × Nat × List Char) :=
  match marker? cs with
  | none => none
  | some (mark, number, length) =>
    let behind := cs.drop length
    let separated :=
      match behind with
      | [] => true
      | c :: _ => c == ' ' || c == '\t' || isLineBreak c
    if separated then some (mark, number, behind) else none

/-- Two blank lines. -/
def startsTwoBlankLines (cs : List Char) : Bool :=
  match blankLine? cs with
  | some n => startsBlankLine (cs.drop n)
  | none => false

/-! ### Tables -/

/-- Reads a delimiter row from inside a column: whether the column has had a sign
and a hyphen, the row a bar, and how many columns are complete. -/
def delimiterColumns : Bool → Bool → Bool → Nat → List Char → Option Nat
  | started, hyphen, bar, columns, [] => endRow started hyphen bar columns
  | started, hyphen, bar, columns, c :: cs =>
    if isLineBreak c then endRow started hyphen bar columns
    else if c == ' ' then delimiterColumns started hyphen bar columns cs
    else if c == ':' then delimiterColumns true hyphen bar columns cs
    else if c == '-' then delimiterColumns true true bar columns cs
    else if c == '|' && hyphen then delimiterColumns false false true (columns + 1) cs
    else none
where
  /-- The number of columns at the end of the row. -/
  endRow (started hyphen bar : Bool) (columns : Nat) : Option Nat :=
    if !bar then none
    else if started then (if hyphen then some (columns + 1) else none)
    else if 0 < columns then some columns else none

/-- The number of columns and the length of a row of hyphens and bars. -/
def delimiterRow? (cs : List Char) : Option (Nat × Nat) :=
  let indent := runLength ' ' cs
  let row := cs.drop indent
  if 3 < indent || row.isEmpty then none
  else
    let columns :=
      match row with
      | '|' :: inner => delimiterColumns false false true 0 inner
      | _ => delimiterColumns false false false 0 row
    let line := cs.takeWhile fun c => !isLineBreak c
    columns.map fun n => (n, line.length + (lineEnd? (cs.drop line.length)).getD 0)

/-- The number of columns of a head row with `bars` bars: those at its start and
end divide nothing. -/
def headColumns (row : List Char) (bars : Nat) (behindLastBar : List Char) : Nat :=
  let inner :=
    if (row.dropWhile isInlineBlank).head? == some '|' then bars - 1 else bars
  if startsBlankLine behindLastBar then inner else inner + 1

end Markdown

end WikiOutline
