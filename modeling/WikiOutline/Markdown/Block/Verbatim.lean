/-
# Code and HTML

The lines of code and of HTML are taken as they are, without the signs of
containers and the indentation that belongs to the block.  Fenced code ends with
its closing fence, indented code before the blank lines at its end, and HTML
where its end comes up or at a blank line.

Key definitions: `Markdown.fencedCode`, `Markdown.indentedCode`,
`Markdown.htmlBlock`.
-/
import WikiOutline.Markdown.Block
import WikiOutline.Markdown.HtmlSyntax

namespace WikiOutline

namespace Markdown

/-! ### Lines -/

/-- Spaces. -/
def spaces (n : Nat) : List Char := List.replicate n ' '

/-- The parts of a line without the carriage return before its last byte. -/
def lineParts (start : Cursor) (stop : Nat) : List (Cursor × Nat) :=
  match (start.before stop).reverse with
  | c :: '\r' :: _ =>
    if c.utf8Size = 1 then [(start, stop - 2), (start.seek (stop - 1), stop)] else [(start, stop)]
  | _ => [(start, stop)]

/-- Adds a line of code behind some spaces, the latest piece first. -/
def pushCode (indent : Nat) (start : Cursor) (stop : Nat) (pieces : List Piece) : List Piece :=
  let pieces :=
    if indent = 0 then pieces else ⟨.characters (spaces indent), start, start.offset⟩ :: pieces
  (lineParts start stop).foldl (fun pieces part => pushText pieces part.1 part.2) pieces

/-- The event of a piece of code. -/
def codeEvent (p : Piece) : Event × Span :=
  let content :=
    match p.kind with
    | .characters content => content
    | _ => p.chars
  (.text (String.ofList content), ⟨p.start.offset, p.stop⟩)

/-- The events of a line of HTML behind some spaces. -/
def htmlLine (indent : Nat) (start : Cursor) (stop : Nat) : List (Event × Span) :=
  let parts := (lineParts start stop).map fun (part : Cursor × Nat) =>
    (Event.html (String.ofList (part.1.before part.2)), Span.mk part.1.offset part.2)
  if indent = 0 then parts
  else (.text (String.ofList (spaces indent)), ⟨start.offset, start.offset⟩) :: parts

/-! ### Fenced code -/

/-- The fence that opened some code. -/
structure Fence where
  sign : Char
  length : Nat
  indent : Nat
  deriving Repr, BEq, DecidableEq

/-- The place behind the fence that closes the code, if the line is one. -/
def Fence.closedBy? (f : Fence) (l : LineStart) : Option Cursor :=
  let (missing, l) := l.takeSpaces (4 - f.indent)
  if missing = 0 then none
  else (closingFence? f.sign f.length l.cursor.rest).map l.cursor.advance

/-- The lines of fenced code behind some pieces, the offset where the code ends,
and the next place. -/
def fencedLines (containers : List Container) (f : Fence) :
    Nat → Cursor → List Piece → List Piece × Nat × Cursor
  | 0, c, pieces => (pieces, c.offset, c)
  | fuel + 1, c, pieces =>
    match (LineStart.ofCursor c).enterAll? containers with
    | none => (pieces, c.offset, c)
    | some l =>
      let l := (l.takeSpaces f.indent).2
      match f.closedBy? l with
      | some stop => (pieces, stop.offset, stop.passBlankLine)
      | none =>
        let next := l.cursor.nextLine
        fencedLines containers f fuel next (pushCode l.spare l.cursor next.offset pieces)

/-- Takes fenced code; the answer holds the next place. -/
def fencedCode (containers : List Container) (start : Cursor) (f : Fence) : Block × Cursor :=
  let info := (start.advance f.length).dropWhile isInlineBlank
  let next := info.nextLine
  let words := Text.dropEndWhile isAsciiBlank (info.before next.offset)
  let (pieces, stop, behind) := fencedLines containers f (next.rest.length + 2) next []
  (.verbatim ⟨start.offset, stop⟩ (.codeBlock (some (String.ofList (unescape false words))))
    (pieces.reverse.map codeEvent), behind)

/-! ### Indented code -/

/-- The lines of indented code behind some pieces.  What holds up to the last line
that is not blank is kept apart: its pieces, and the offset where it ends. -/
def indentedLines (containers : List Container) :
    Nat → Cursor → Nat → List Piece → List Piece × Nat → List Piece × Nat × Cursor
  | 0, c, _, _, kept => (kept.1, kept.2, c)
  | fuel + 1, c, indent, pieces, kept =>
    let next := c.nextLine
    let blank := startsBlankLine c.rest
    let pieces := pushCode indent c next.offset pieces
    let kept := if blank then kept else (pieces, next.offset)
    match (LineStart.ofCursor next).enterAll? containers with
    | none => (kept.1, kept.2, next)
    | some l =>
      let (missing, l) := l.takeSpaces 4
      if missing ≠ 0 && !l.atLineEnd || l.cursor.atEnd then (kept.1, kept.2, next)
      else indentedLines containers fuel l.cursor l.spare pieces kept

/-- Takes indented code; the answer holds the next place. -/
def indentedCode (containers : List Container) (start : Cursor) (indent : Nat) : Block × Cursor :=
  let (pieces, stop, next) :=
    indentedLines containers (start.rest.length + 1) start indent [] ([], start.offset)
  (.verbatim ⟨start.offset, stop⟩ (.codeBlock none) (pieces.reverse.map codeEvent), next)

/-! ### HTML -/

/-- What ends a block of HTML. -/
inductive HtmlEnd where
  | word (ending : String)
  | blankLine
  deriving Repr, BEq, DecidableEq

/-- A text holds a word. -/
def holdsWord (word : String) (cs : List Char) : Bool := (splitAtWord? word.toList cs).isSome

/-- The lines of HTML, the offset where the block ends, and the next place. -/
def htmlLines (containers : List Container) (ending : HtmlEnd) :
    Nat → Cursor → Nat → List (Event × Span) × Nat × Cursor
  | 0, c, _ => ([], c.offset, c)
  | fuel + 1, c, indent =>
    let next := c.nextLine
    let line := htmlLine indent c next.offset
    match (LineStart.ofCursor next).enterAll? containers with
    | none => (line, next.offset, next)
    | some l =>
      let ended :=
        match ending with
        | .word word => if holdsWord word (c.before next.offset) then some next.offset else none
        | .blankLine =>
          if l.atLineEnd then some next.offset
          else if startsBlankLine l.cursor.rest then some l.cursor.offset else none
      match ended with
      | some stop => (line, stop, next)
      | none =>
        if l.cursor.atEnd then (line, l.cursor.offset, next)
        else
          let (more, stop, behind) := htmlLines containers ending fuel l.cursor l.spare
          (line ++ more, stop, behind)

/-- Takes a block of HTML; the answer holds the next place. -/
def htmlBlock (containers : List Container) (start : Cursor) (indent : Nat) (ending : HtmlEnd) :
    Block × Cursor :=
  let (lines, stop, next) := htmlLines containers ending (start.rest.length + 1) start indent
  (.verbatim ⟨start.offset, stop⟩ .htmlBlock lines, next)

/-- What ends the block of HTML that starts at a place, if one does. -/
def htmlEnd? (cs : List Char) : Option HtmlEnd :=
  match cs with
  | '<' :: inner =>
    match rawBlockEnd? inner with
    | some word => some (.word word)
    | none => if startsNamedBlock inner || startsTagLine inner then some .blankLine else none
  | _ => none

end Markdown

end WikiOutline
