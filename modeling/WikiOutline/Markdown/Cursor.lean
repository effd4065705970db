/-
# Cursors and lines

A cursor is a place in a text: the number of bytes before it and the characters
behind it.  Lines end at a line feed, a carriage return, or both in that order;
the end of the text ends a line too.

Key definitions: `Markdown.Cursor`, `Markdown.lineEnd?`, `Markdown.blankLine?`.
-/

namespace WikiOutline

namespace Markdown

/-- A place in a text. -/
structure Cursor where
  offset : Nat
  rest : List Char
  deriving Repr, BEq, DecidableEq, Inhabited

namespace Cursor

/-- The start of a text. -/
def ofText (text : List Char) : Cursor := ⟨0, text⟩

/-- The place so many characters behind the start of `cs`. -/
def skip : Nat → Nat → List Char → Cursor
  | 0, offset, cs => ⟨offset, cs⟩
  | _ + 1, offset, [] => ⟨offset, []⟩
  | n + 1, offset, c :: cs => skip n (offset + c.utf8Size) cs

/-- The place so many characters further on. -/
def advance (c : Cursor) (n : Nat) : Cursor := skip n c.offset c.rest

/-- The place behind the characters that satisfy `p`. -/
def dropWhile (p : Char → Bool) (c : Cursor) : Cursor := c.advance (c.rest.takeWhile p).length

/-- The first characters of `cs`, which starts at `offset`, that come before the
offset `stop`. -/
def takeBefore (stop : Nat) : Nat → List Char → List Char
  | _, [] => []
  | offset, c :: cs => if offset < stop then c :: takeBefore stop (offset + c.utf8Size) cs else []

/-- The characters up to an offset. -/
def before (c : Cursor) (stop : Nat) : List Char := takeBefore stop c.offset c.rest

/-- The place in the text cut off at an offset. -/
def upTo (c : Cursor) (stop : Nat) : Cursor := ⟨c.offset, c.before stop⟩

/-- The place, or the offset if it is further on. -/
def seek (c : Cursor) (offset : Nat) : Cursor := c.advance (c.before offset).length

/-- Nothing comes behind. -/
def atEnd (c : Cursor) : Bool := c.rest.isEmpty

end Cursor

/-! ### Characters -/

/-- A blank inside a line. -/
def isInlineBlank (c : Char) : Bool := c == ' ' || c == '\t' || c == '\x0b' || c == '\x0c'

/-- A character that ends a line. -/
def isLineBreak (c : Char) : Bool := c == '\n' || c == '\r'

/-- A blank, ASCII only. -/
def isAsciiBlank (c : Char) : Bool := isInlineBlank c || isLineBreak c

/-! ### Lines -/

/-- The length of the line end that a text starts with. -/
def lineEnd? : List Char → Option Nat
  | [] => some 0
  | '\n' :: _ => some 1
  | '\r' :: '\n' :: _ => some 2
  | '\r' :: _ => some 1
  | _ => none

/-- The length of the blank line that a text starts with. -/
def blankLine? (cs : List Char) : Option Nat :=
  let n := (cs.takeWhile isInlineBlank).length
  (lineEnd? (cs.drop n)).map (n + ·)

/-- The text starts with a blank line. -/
def startsBlankLine (cs : List Char) : Bool := (blankLine? cs).isSome

/-- The number of characters up to the first line feed and with it. -/
def lineLength : List Char → Nat
  | [] => 0
  | '\n' :: _ => 1
  | _ :: cs => lineLength cs + 1

/-- How often a character is repeated at the start of a text. -/
def runLength (c : Char) (cs : List Char) : Nat := (cs.takeWhile (· == c)).length

namespace Cursor

/-- The place behind the line feed that ends the line. -/
def nextLine (c : Cursor) : Cursor := c.advance (lineLength c.rest)

/-- The place behind a blank line, or the same place if the rest of the line is
not blank. -/
def passBlankLine (c : Cursor) : Cursor := c.advance ((blankLine? c.rest).getD 0)

end Cursor

end Markdown

end WikiOutline
