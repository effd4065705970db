/-
# Pieces of a line

A line of text is cut into pieces at the characters that may mean something:
delimiters of emphasis, backticks, brackets, less-than signs, escapes and
references.  What they mean is settled when the whole passage is there.

Key definitions: `Markdown.Piece`, `Markdown.readLine`.
-/
import WikiOutline.Markdown.Escape
import WikiOutline.Markdown.LineStart
import WikiOutline.Text.Blank

namespace WikiOutline

namespace Markdown

/-- What a piece may mean. -/
inductive PieceKind where
  | text
  /-- Characters that the source refers to. -/
  | characters (content : List Char)
  /-- A run of one sign that may open or close emphasis. -/
  | delimiters (mark : Char) (count : Nat) (opens closes : Bool)
  /-- A run of backticks, the first of them escaped or not. -/
  | backticks (count : Nat) (escaped : Bool)
  | lessThan
  | openImage
  | openBracket
  /-- A bracket that may close the text of a link; the text may also be its own
  label unless a search for the label has failed. -/
  | closeBracket (mayRefer : Bool)
  | softBreak
  | hardBreak
  | taskMarker (checked : Bool)
  deriving Repr, BEq, DecidableEq, Inhabited

/-- A piece of the text. -/
structure Piece where
  kind : PieceKind
  start : Cursor
  stop : Nat
  deriving Repr, BEq, DecidableEq, Inhabited

namespace Piece

/-- The characters of the piece. -/
def chars (p : Piece) : List Char := p.start.before p.stop

/-- The piece is plain text. -/
def isText (p : Piece) : Bool := p.kind == .text

end Piece

/-- Adds plain text up to an offset, the latest piece first; text that goes on
where the last piece ended is one with it. -/
def pushText (pieces : List Piece) (start : Cursor) (stop : Nat) : List Piece :=
  if stop ≤ start.offset then pieces
  else
    match pieces with
    | p :: more =>
      if p.isText && p.stop == start.offset then { p with stop } :: more
      else ⟨.text, start, stop⟩ :: pieces
    | [] => [⟨.text, start, stop⟩]

/-! ### Emphasis -/

/-- A run of delimiters with the characters around it, if there are any. -/
structure DelimiterRun where
  mark : Char
  count : Nat
  previous : Option Char
  next : Option Char
  inCell : Bool

namespace DelimiterRun

/-- The run may open emphasis.  A single asterisk and a double tilde may do so
inside a word. -/
def opens (r : DelimiterRun) : Bool :=
  match r.next, r.previous with
  | none, _ => false
  | some next, none => !Text.isBlank next
  | some next, some previous =>
    !Text.isBlank next &&
      !(r.inCell && next == '|') &&
      ((r.mark == '*' && !Text.isPunctuation next) ||
        (r.mark == '~' && 1 < r.count) ||
        (r.mark == '~' && previous == '~' && !Text.isPunctuation next) ||
        Text.isBlank previous || Text.isPunctuation previous)

/-- The run may close emphasis. -/
def closes (r : DelimiterRun) : Bool :=
  match r.previous, r.next with
  | none, _ => false
  | some previous, none => !Text.isBlank previous
  | some previous, some next =>
    !Text.isBlank previous &&
      ((r.inCell && next == '|') ||
        ((r.mark == '*' || (r.mark == '~' && 1 < r.count)) && !Text.isPunctuation previous) ||
        (r.mark == '~' && previous == '~') ||
        Text.isBlank next || Text.isPunctuation next)

/-- The run means something: a run of tildes has one or two of them. -/
def matters (r : DelimiterRun) : Bool :=
  (r.opens || r.closes) && (r.mark != '~' || r.count ≤ 2)

end DelimiterRun

/-! ### Lines -/

/-- What a line is read as. -/
inductive LineMode where
  | plain
  /-- A line that may turn out to be the head of a table. -/
  | first
  /-- A cell of a table, which ends at a bar. -/
  | cell
  deriving Repr, BEq, DecidableEq

/-- What is known where a line is read. -/
structure LineContext where
  dialect : Dialect
  mode : LineMode
  containers : List Container
  /-- The characters of the whole line. -/
  line : List Char
  /-- The character behind the text, where the text has been cut off. -/
  beyond : Option Char := none

/-- How a line ends. -/
inductive LineEnding where
  /-- The text or the cell is over. -/
  | textEnd
  | soft (start : Cursor) (stop : Nat)
  | hard (start : Cursor) (stop : Nat) (backslash : Bool)
  /-- The line is the head of a table with so many columns. -/
  | tableHead (columns : Nat)
  deriving Repr, BEq, DecidableEq, Inhabited

/-- A line that has been read. -/
structure Line where
  /-- The latest piece first. -/
  pieces : List Piece
  next : Cursor
  ending : LineEnding
  deriving Repr, BEq, DecidableEq, Inhabited

/-- A line as it is being read. -/
structure LineScan where
  pieces : List Piece
  /-- Where the text starts that is in no piece yet. -/
  textStart : Cursor
  /-- The character read last, and its place. -/
  previous : Option (Char × Cursor) := none
  /-- How many backslashes were read last. -/
  backslashes : Nat := 0
  /-- Where the blanks start that were read last. -/
  blanksFrom : Option Cursor := none
  bars : Nat := 0
  behindLastBar : List Char := []

namespace LineScan

/-- Notes that a character was read. -/
def pass (s : LineScan) (here : Cursor) (c : Char) : LineScan :=
  { s with
    previous := some (c, here)
    backslashes := if c == '\\' then s.backslashes + 1 else 0
    blanksFrom := if isInlineBlank c then some (s.blanksFrom.getD here) else none }

/-- Puts the text up to a place into a piece, and leaves out what comes up to
another place. -/
def leaveOut (s : LineScan) (here behind : Cursor) : LineScan :=
  { s with pieces := pushText s.pieces s.textStart here.offset, textStart := behind }

/-- Puts the text up to a place into a piece, and adds one that goes on to
another place. -/
def push (s : LineScan) (kind : PieceKind) (here behind : Cursor) : LineScan :=
  let s := s.leaveOut here behind
  { s with pieces := ⟨kind, here, behind.offset⟩ :: s.pieces }

/-- Puts the text into a piece without the blanks read last. -/
def finish (s : LineScan) (here : Cursor) : List Piece :=
  pushText s.pieces s.textStart (s.blanksFrom.getD here).offset

/-- The head of a table that the line is, if the next line is a fitting row of
hyphens and bars: its columns, and the place behind that row. -/
def tableHead? (ctx : LineContext) (s : LineScan) (behind : Cursor) : Option (Nat × Cursor) :=
  if ctx.mode == .first && 0 < s.bars then do
    let row ← (LineStart.ofCursor behind).enterAll? ctx.containers
    let (columns, length) ← delimiterRow? row.cursor.rest
    if columns = headColumns ctx.line s.bars s.behindLastBar then
      some (columns, row.cursor.advance length)
    else none
  else none

/-- Ends the line at a line break. -/
def endLine (ctx : LineContext) (s : LineScan) (here : Cursor) : Line :=
  let behind := here.advance ((lineEnd? here.rest).getD 0)
  if ctx.mode == .cell then ⟨s.finish here, here, .textEnd⟩
  else
    match s.previous with
    | some (_, backslash) =>
      if s.backslashes % 2 = 1 && !behind.atEnd then
        ⟨pushText s.pieces s.textStart backslash.offset, behind,
          .hard backslash behind.offset true⟩
      else endBlankLine s behind
    | none => endBlankLine s behind
where
  /-- Ends the line where no backslash does: as the head of a table, or with two
  blanks as a hard break. -/
  endBlankLine (s : LineScan) (behind : Cursor) : Line :=
    match tableHead? ctx s behind with
    | some (columns, next) => ⟨[], next, .tableHead columns⟩
    | none =>
      match s.blanksFrom with
      | some blanks =>
        if blanks.offset + 2 ≤ here.offset then
          ⟨s.finish here, behind, .hard blanks behind.offset false⟩
        else ⟨s.finish here, behind, .soft here behind.offset⟩
      | none => ⟨s.finish here, behind, .soft here behind.offset⟩

/-- Takes the special sign at a place: what is known behind its first character,
and how many characters belong to it beside the first. -/
def special? (ctx : LineContext) (s : LineScan) (here : Cursor) (c : Char) (cs : List Char) :
    Option (LineScan × Nat) :=
  let behind := here.advance 1
  if c == '\\' then
    match cs with
    | [] => none
    | d :: more =>
      if !Text.isAsciiPunctuation d then none
      else if d == '\x60' then
        let n := runLength d cs
        some ((s.leaveOut here behind).push (.backticks n true) behind (here.advance (n + 1)), n)
      else if ctx.mode == .cell && d == '\\' && more.head? == some '|' then
        some (s.leaveOut here (here.advance 2), 2)
      else some (s.leaveOut here behind, 1)
  else if c == '*' || c == '_' || (c == '~' && ctx.dialect.offers .strikethrough) then
    let n := runLength c (c :: cs)
    let run : DelimiterRun :=
      { mark := c, count := n, previous := s.previous.map (·.1)
        next := ((c :: cs).drop n).head?.or ctx.beyond, inCell := ctx.mode == .cell }
    if run.matters then
      some (s.push (.delimiters c n run.opens run.closes) here (here.advance n), n - 1)
    else some (s, n - 1)
  else if c == '\x60' then
    let n := runLength c (c :: cs)
    some (s.push (.backticks n false) here (here.advance n), n - 1)
  else if c == '<' && cs.head? != some '\\' then some (s.push .lessThan here behind, 0)
  else if c == '!' && cs.head? == some '[' then some (s.push .openImage here (here.advance 2), 1)
  else if c == '[' then some (s.push .openBracket here behind, 0)
  else if c == ']' then some (s.push (.closeBracket true) here behind, 0)
  else if c == '&' then
    match reference? (c :: cs) with
    | some (content, rest) =>
      let n := cs.length - rest.length
      some (s.push (.characters content) here (here.advance (n + 1)), n)
    | none => none
  else if c == '|' && ctx.dialect.offers .tables then
    some ({ s with bars := s.bars + 1, behindLastBar := cs }, 0)
  else none

end LineScan

/-- Reads on in a line; `skip` characters belong to what was read before. -/
def readLineFrom (ctx : LineContext) : Nat → LineScan → Nat → List Char → Line
  | _, s, offset, [] => ⟨s.finish ⟨offset, []⟩, ⟨offset, []⟩, .textEnd⟩
  | skip + 1, s, offset, c :: cs =>
    readLineFrom ctx skip (s.pass ⟨offset, c :: cs⟩ c) (offset + c.utf8Size) cs
  | 0, s, offset, c :: cs =>
    let here : Cursor := ⟨offset, c :: cs⟩
    if isLineBreak c then s.endLine ctx here
    else if c == '|' && ctx.mode == .cell then ⟨s.finish here, here, .textEnd⟩
    else
      match s.special? ctx here c cs with
      | some (s, skip) => readLineFrom ctx skip (s.pass here c) (offset + c.utf8Size) cs
      | none => readLineFrom ctx 0 (s.pass here c) (offset + c.utf8Size) cs

/-- Reads a line behind some pieces, the latest of them first. -/
def readLine (dialect : Dialect) (mode : LineMode) (containers : List Container)
    (beyond : Option Char) (pieces : List Piece) (start : Cursor) : Line :=
  readLineFrom { dialect, mode, containers, line := start.rest, beyond } 0
    { pieces, textStart := start } start.offset start.rest

end Markdown

end WikiOutline
