/-
# Reading a passage

The pieces of a passage are read in order.  A run of backticks looks for one of
the same length and takes what is between as code; a less-than sign may open an
address or HTML; a closing bracket may end the text of a link.  There are no
links inside links, so a link makes the brackets around it plain text.

Key definitions: `Markdown.PassageReader`, `Markdown.Passage.inlines`.
-/
import WikiOutline.Markdown.Block
import WikiOutline.Markdown.HtmlSyntax
import WikiOutline.Markdown.Inline.Emphasis
import WikiOutline.Markdown.Link

namespace WikiOutline

namespace Markdown

/-! ### Pieces behind a place -/

/-- The pieces that go on behind an offset, the first of them from there on. -/
def piecesBehind (stop : Nat) : List Piece → List Piece
  | [] => []
  | p :: pieces =>
    if p.stop ≤ stop then piecesBehind stop pieces
    else { p with start := p.start.seek stop } :: pieces

/-- How many characters of a line belong to containers. -/
def containerPrefix (containers : List Container) (cs : List Char) : Nat :=
  let (_, l) := (LineStart.ofCursor ⟨0, cs⟩).enter containers
  cs.length - l.cursor.rest.length

/-! ### Code -/

/-- The text of code: line ends are spaces, with nothing of the containers behind
them; `skip` characters are left out first. -/
def codeChars (containers : List Container) (inTable : Bool) : Nat → List Char → List Char
  | _, [] => []
  | skip + 1, _ :: cs => codeChars containers inTable skip cs
  | 0, c :: cs =>
    if isLineBreak c then
      if c == '\r' && cs.head? == some '\n' then codeChars containers inTable 0 cs
      else ' ' :: codeChars containers inTable (containerPrefix containers cs) cs
    else if inTable && c == '\\' && cs.head? == some '|' then codeChars containers inTable 0 cs
    else c :: codeChars containers inTable 0 cs

/-- Code with a space at both ends loses them, unless it is all spaces. -/
def stripCode (cs : List Char) : List Char :=
  match cs with
  | ' ' :: inner =>
    if cs.all (· == ' ') then cs
    else if inner.getLast? == some ' ' then inner.dropLast
    else cs
  | _ => cs

/-- The next run of so many backticks, and the pieces behind it. -/
def closingBackticks? (n : Nat) : List Piece → Option (Piece × List Piece)
  | [] => none
  | p :: pieces =>
    match p.kind with
    | .backticks count _ => if count = n then some (p, pieces) else closingBackticks? n pieces
    | _ => closingBackticks? n pieces

/-! ### Open brackets -/

/-- What an open bracket may turn out to be. -/
inductive BracketKind where
  | link
  | image
  /-- A bracket around a link. -/
  | plain
  deriving Repr, BEq, DecidableEq

/-- An open bracket, with the nodes behind it, the latest first. -/
structure Bracket where
  kind : BracketKind
  piece : Piece
  inner : List Inline := []

/-- A passage as it is being read. -/
structure PassageReader where
  passage : Passage
  definitions : Definitions
  /-- The nodes before all open brackets, the latest first. -/
  base : List Inline := []
  /-- The open brackets, the innermost first. -/
  brackets : List Bracket := []

namespace PassageReader

/-- Adds a node. -/
def push (s : PassageReader) (node : Inline) : PassageReader :=
  match s.brackets with
  | [] => { s with base := node :: s.base }
  | b :: outer => { s with brackets := { b with inner := node :: b.inner } :: outer }

/-- Adds text that stands between two places. -/
def pushChars (s : PassageReader) (start : Cursor) (stop : Nat) : PassageReader :=
  s.push (.leaf (.text (String.ofList (start.before stop))) ⟨start.offset, stop⟩)

/-- Adds a piece as text. -/
def pushPiece (s : PassageReader) (p : Piece) : PassageReader := s.pushChars p.start p.stop

/-- The nodes in their order, the latest first; brackets that are still open are
text. -/
def allNodes (s : PassageReader) : List Inline :=
  s.brackets.reverse.foldl (fun nodes b =>
    let span : Span := ⟨b.piece.start.offset, b.piece.stop⟩
    b.inner ++ .leaf (.text (String.ofList b.piece.chars)) span :: nodes) s.base

/-- Makes a bracket plain, if it could have been a link. -/
def Bracket.silence (b : Bracket) : Bracket :=
  if b.kind == .link then { b with kind := .plain } else b

/-- Ends the innermost bracket as text. -/
def giveUp (s : PassageReader) (b : Bracket) (outer : List Bracket) : PassageReader :=
  b.inner.reverse.foldl push ({ s with brackets := outer }.pushPiece b.piece)

/-- Ends the innermost bracket as a link or an image up to an offset. -/
def finishLink (s : PassageReader) (b : Bracket) (outer : List Bracket) (target : Target)
    (stop : Nat) : PassageReader :=
  let outer := if b.kind == .link then outer.map Bracket.silence else outer
  let element :=
    if b.kind == .image then Element.image target.destination target.title
    else .link target.destination target.title
  { s with brackets := outer }.push
    (.nested element ⟨b.piece.start.offset, stop⟩ (Emphasis.resolve b.inner.reverse))

/-! ### Targets -/

/-- Passes over blanks and at most one line end. -/
def passSeparator (s : PassageReader) (c : Cursor) : Cursor :=
  let c := c.dropWhile isInlineBlank
  match lineEnd? c.rest with
  | none => c
  | some n =>
    let c := c.advance n
    (c.advance (containerPrefix s.passage.containers c.rest)).dropWhile isInlineBlank

/-- Reads a title up to its closing sign; behind a line end it goes on with the
next piece. -/
def titleFrom? (inTable : Bool) (openSign close : Char) (pieces : List Piece) :
    Nat → Cursor → List Char → Option (List Char × Cursor)
  | 0, _, _ => none
  | fuel + 1, c, kept =>
    match c.rest with
    | [] => none
    | x :: _ =>
      let next := c.advance 1
      if x == close then some (kept.reverse, next)
      else if x == openSign then none
      else
        let jump :=
          if isLineBreak x then
            (pieces.find? fun p => next.offset < p.stop).bind fun p =>
              if c.offset < p.start.offset then some p.start else none
          else none
        match jump, escape? inTable c.rest, reference? c.rest with
        | some place, _, _ => titleFrom? inTable openSign close pieces fuel place ('\n' :: kept)
        | none, some (plain, rest), _ =>
          titleFrom? inTable openSign close pieces fuel (c.advance (c.rest.length - rest.length))
            (plain.reverse ++ kept)
        | none, none, some (value, rest) =>
          titleFrom? inTable openSign close pieces fuel (c.advance (c.rest.length - rest.length))
            (value.reverse ++ kept)
        | none, none, none =>
          titleFrom? inTable openSign close pieces fuel next (x :: kept)

/-- Takes a title. -/
def title? (s : PassageReader) (pieces : List Piece) (c : Cursor) : Option (List Char × Cursor) :=
  match c.rest with
  | x :: _ =>
    let close := if x == '(' then ')' else x
    if x == '\'' || x == '"' || x == '(' then
      titleFrom? s.passage.inTable x close pieces (c.rest.length + 1) (c.advance 1) []
    else none
  | [] => none

/-- Takes the destination and title of a link in brackets of their own. -/
def inlineTarget? (s : PassageReader) (pieces : List Piece) (c : Cursor) :
    Option (Target × Cursor) :=
  match c.rest with
  | '(' :: _ => do
    let place := s.passSeparator (c.advance 1)
    let (destination, rest) ← destination? place.rest
    let behind := s.passSeparator (place.advance (place.rest.length - rest.length))
    let (title, last) :=
      match s.title? pieces behind with
      | some (title, c) => (title, s.passSeparator c)
      | none => ([], behind)
    match last.rest with
    | ')' :: _ =>
      some ({ destination := String.ofList (unescape s.passage.inTable destination),
              title := String.ofList title },
        last.advance 1)
    | _ => none
  | _ => none

/-- Takes a label in its brackets. -/
def labelAt? (s : PassageReader) (c : Cursor) : Option (List Char × Cursor) :=
  (label? (fun cs => some (containerPrefix s.passage.containers cs)) s.passage.inTable c.rest).map
    fun (label, rest) => (label, c.advance (c.rest.length - rest.length))

/-- The place of a piece in the passage. -/
def placeOf (s : PassageReader) (p : Piece) : Cursor := p.start.upTo s.passage.stop

/-- The label that stands between two brackets. -/
def ownLabel? (s : PassageReader) (b : Bracket) (close : Piece) : Option (List Char × Cursor) :=
  (s.labelAt? (b.piece.start.seek (b.piece.stop - 1) |>.upTo close.stop)).filter fun l =>
    l.2.offset = close.stop

/-- What follows the text of a link. -/
inductive LabelForm where
  /-- A label of its own, up to a place. -/
  | full (label : List Char) (stop : Cursor)
  /-- Empty brackets, and the pieces behind them. -/
  | collapsed (behind : List Piece)
  | shortcut
  deriving Repr, BEq

/-- The label behind the text of a link. -/
def labelForm (s : PassageReader) (pieces : List Piece) : LabelForm :=
  match pieces with
  | [] => .shortcut
  | p :: more =>
    let place := s.placeOf p
    match place.rest with
    | '[' :: ']' :: _ => .collapsed (more.drop 1)
    | _ =>
      match s.labelAt? place with
      | some (label, stop) => .full label stop
      | none => .shortcut

/-- The bracket that ends at or behind an offset is no label of its own any
more. -/
def refuse (stop : Nat) : List Piece → List Piece
  | [] => []
  | p :: pieces =>
    if p.stop < stop then p :: refuse stop pieces
    else { p with kind := .closeBracket false } :: pieces

/-- Reads a closing bracket, with the pieces behind it. -/
def closeBracket (s : PassageReader) (p : Piece) (mayRefer : Bool) (pieces : List Piece) :
    PassageReader × List Piece :=
  match s.brackets with
  | [] => (s.pushPiece p, pieces)
  | b :: outer =>
    let failed := ((s.giveUp b outer).pushPiece p, pieces)
    let behind := (s.placeOf p).advance 1
    if b.kind == .plain then failed
    else
      match s.inlineTarget? pieces behind with
      | some (target, last) =>
        (s.finishLink b outer target last.offset, piecesBehind last.offset pieces)
      | none =>
        let own (more : List Piece) :=
          match if mayRefer then s.ownLabel? b p else none with
          | none => failed
          | some (label, stop) =>
            match s.definitions.find? label with
            | none => failed
            | some target => (s.finishLink b outer target stop.offset, more)
        match s.labelForm pieces with
        | .shortcut => own pieces
        | .collapsed more => own more
        | .full label stop =>
          match s.definitions.find? label with
          | some target =>
            (s.finishLink b outer target stop.offset, piecesBehind stop.offset pieces)
          | none => ((s.giveUp b outer).pushPiece p, refuse stop.offset pieces)

/-! ### Pieces -/

/-- Reads a less-than sign, with the pieces behind it. -/
def lessThan (s : PassageReader) (p : Piece) (pieces : List Piece) :
    PassageReader × List Piece :=
  match pieces with
  | [] => (s.pushPiece p, pieces)
  | next :: _ =>
    let place := s.placeOf next
    match autolink? place.rest with
    | some (address, rest) =>
      let stop := (place.advance (place.rest.length - rest.length)).offset
      let text := p.start.advance 1
      let span : Span := ⟨p.start.offset, stop⟩
      let inner : Inline :=
        .leaf (.text (String.ofList (text.before (stop - 1)))) ⟨text.offset, stop - 1⟩
      (s.push (.nested (.link (String.ofList address) "") span [inner]), piecesBehind stop pieces)
    | none =>
      match inlineHtml? (containerPrefix s.passage.containers) place.rest with
      | some (content, rest) =>
        let stop := (place.advance (place.rest.length - rest.length)).offset
        (s.push (.leaf (.html (String.ofList content)) ⟨p.start.offset, stop⟩),
          piecesBehind stop pieces)
      | none => (s.pushPiece p, pieces)

/-- Reads a run of backticks, with the pieces behind it.  An escaped first backtick
is text. -/
def backticks (s : PassageReader) (p : Piece) (count : Nat) (escaped : Bool)
    (pieces : List Piece) : PassageReader × List Piece :=
  let n := if escaped then count - 1 else count
  match if n = 0 then none else closingBackticks? n pieces with
  | none => (s.pushPiece p, pieces)
  | some (close, behind) =>
    let inner := (p.start.seek p.stop).before close.start.offset
    let content := stripCode (codeChars s.passage.containers s.passage.inTable 0 inner)
    let start := if escaped then p.start.offset + 1 else p.start.offset
    let s := if escaped then s.pushChars p.start start else s
    (s.push (.leaf (.code (String.ofList content)) ⟨start, close.stop⟩), behind)

/-- Reads a piece, with the pieces behind it. -/
def readPiece (s : PassageReader) (p : Piece) (pieces : List Piece) :
    PassageReader × List Piece :=
  let span : Span := ⟨p.start.offset, p.stop⟩
  match p.kind with
  | .text => (s.pushPiece p, pieces)
  | .characters content => (s.push (.leaf (.text (String.ofList content)) span), pieces)
  | .delimiters mark count opens closes =>
    (s.push (.delimiters ⟨mark, p.start.offset, count, count, opens, closes⟩), pieces)
  | .backticks count escaped => s.backticks p count escaped pieces
  | .lessThan => s.lessThan p pieces
  | .openImage => ({ s with brackets := ⟨.image, p, []⟩ :: s.brackets }, pieces)
  | .openBracket => ({ s with brackets := ⟨.link, p, []⟩ :: s.brackets }, pieces)
  | .closeBracket mayRefer => s.closeBracket p mayRefer pieces
  | .softBreak => (s.push (.leaf .softBreak span), pieces)
  | .hardBreak => (s.push (.leaf .hardBreak span), pieces)
  | .taskMarker checked => (s.push (.leaf (.taskMarker checked) span), pieces)

/-- Reads pieces in order; each step takes at least one, so their number is fuel
enough. -/
def readPieces : Nat → List Piece → PassageReader → PassageReader
  | 0, _, s => s
  | _ + 1, [], s => s
  | fuel + 1, p :: pieces, s =>
    let (s, rest) := s.readPiece p pieces
    readPieces fuel rest s

end PassageReader

/-- The inline nodes of a passage. -/
def Passage.inlines (p : Passage) (definitions : Definitions) : List Inline :=
  let s := PassageReader.readPieces p.pieces.length p.pieces { passage := p, definitions }
  Emphasis.resolve s.allNodes.reverse

end Markdown

end WikiOutline
