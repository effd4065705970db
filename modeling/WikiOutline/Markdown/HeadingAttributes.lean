/-
# Attributes of headings

A heading may end with attributes between braces, of which the id counts.  What
comes before them is the text of the heading.

Key definitions: `Markdown.splitAttributes?`, `Markdown.attributeId?`,
`Markdown.withoutClosing`.
-/
import WikiOutline.Markdown.Piece

namespace WikiOutline

namespace Markdown

/-- The number of bytes of a text. -/
def byteLength (cs : List Char) : Nat := cs.foldr (fun c n => c.utf8Size + n) 0

/-- A character that attributes do not hold. -/
def endsAttributes (c : Char) : Bool :=
  c == '\x7b' || c == '\x7d' || c == '<' || c == '>' || c == '\\' || isLineBreak c

/-- The text of a heading, and what stands between the braces at its end. -/
def splitAttributes? (heading : List Char) : Option (List Char × List Char) :=
  match heading.reverse.dropWhile fun c => c == ' ' || c == '\t' || isLineBreak c with
  | '\x7d' :: inner =>
    let attributes := inner.takeWhile fun c => !endsAttributes c
    match inner.drop attributes.length with
    | '\x7b' :: text => some (text.reverse, attributes.reverse)
    | _ => none
  | _ => none

/-- A blank between attributes. -/
def isAttributeBlank (c : Char) : Bool := c == ' ' || c == '\t' || c == '\x0c' || isLineBreak c

/-- The last id among attributes. -/
def attributeId? (attributes : List Char) : Option String :=
  (Text.splitRuns isAttributeBlank [] attributes).foldl (fun id word =>
    match word with
    | '#' :: name => if name.isEmpty then id else some (String.ofList name)
    | _ => id) none

/-! ### Closing signs -/

/-- The text of a heading without the number signs that close it and the spaces
before them. -/
def withoutClosing (heading : List Char) : List Char :=
  let text := Text.dropEndWhile (fun c => c == ' ' || isLineBreak c) heading
  let unclosed := Text.dropEndWhile (· == '#') text
  if unclosed.isEmpty then []
  else
    let kept := Text.dropEndWhile (· == ' ') unclosed
    if kept.length < unclosed.length then kept else text

/-- The pieces of a heading, the latest first, that ends at an offset.  The last
piece stays, with no text in it if it is nothing but closing signs. -/
def trimLast (stop : Nat) : List Piece → List Piece
  | [] => []
  | p :: pieces => { p with stop } :: pieces

/-- The pieces of a heading up to an offset, where its attributes start.  A
backslash just before it is plain text. -/
def truncate (stop : Nat) : Cursor → List Piece → List Piece
  | _, [] => []
  | before, p :: pieces =>
    if p.stop < stop then p :: truncate stop (p.start.seek p.stop) pieces
    else if p.stop = stop then [p]
    else if p.start.offset = stop then
      let lost := before.seek (stop - 1)
      if lost.offset + 1 = stop && lost.rest.head? == some '\\' then [⟨.text, lost, stop⟩] else []
    else [{ p with stop }]

end Markdown

end WikiOutline
