/-
# Reading blocks

Blocks are read from the start of a line on.  The line first continues some of
the open containers and ends the others; then it may open new ones, and what is
left of it starts a block.

A list is tight unless a blank line comes between two of its items or between
two blocks in one of them.

Key definitions: `Markdown.Reading`, `Markdown.Reading.readBlock`,
`Markdown.readBlocks`.
-/
import WikiOutline.Markdown.Block.Table
import WikiOutline.Markdown.Block.Verbatim
import WikiOutline.Markdown.Definition
import WikiOutline.Markdown.HeadingAttributes

namespace WikiOutline

namespace Markdown

/-! ### What is open -/

/-- An open block that holds blocks. -/
inductive FrameKind where
  | quote
  | list (mark : Char) (number : Nat) (tight : Bool)
  | item (indent : Nat)
  deriving Repr, BEq, DecidableEq, Inhabited

/-- The container that a line has to continue, if it is one. -/
def FrameKind.container? : FrameKind → Option Container
  | .quote => some .quote
  | .list _ _ _ => none
  | .item indent => some (.item indent)

/-- An open block with the blocks in it, the latest first. -/
structure Frame where
  kind : FrameKind
  start : Nat
  children : List Block := []
  deriving Repr

/-- The block of a frame that ends at an offset. -/
def Frame.toBlock (f : Frame) (stop : Nat) : Block :=
  let span : Span := ⟨f.start, stop⟩
  match f.kind with
  | .quote => .quote span f.children.reverse
  | .list mark number tight =>
    .list span (if isOrderedMark mark then some number else none) tight f.children.reverse
  | .item _ => .item span f.children.reverse

/-- What is known between two blocks. -/
structure Reading where
  dialect : Dialect
  /-- The open blocks, the innermost first. -/
  spine : List Frame := []
  /-- The blocks outside all others, the latest first. -/
  blocks : List Block := []
  /-- Where the item goes on whose first line has nothing but its marker. -/
  emptyItem : Option Nat := none
  /-- The line before was blank. -/
  afterBlank : Bool := false
  /-- The box of a task, which goes into the next paragraph. -/
  task : Option Piece := none
  definitions : Definitions := []

namespace Reading

/-- The open containers, the outermost first. -/
def containers (r : Reading) : List Container :=
  (r.spine.filterMap fun f => f.kind.container?).reverse

/-- Adds a block where the reading is. -/
def append (r : Reading) (b : Block) : Reading :=
  match r.spine with
  | [] => { r with blocks := b :: r.blocks }
  | f :: outer => { r with spine := { f with children := b :: f.children } :: outer }

/-- Opens a block. -/
def openFrame (r : Reading) (kind : FrameKind) (start : Nat) : Reading :=
  { r with spine := { kind, start } :: r.spine }

/-- Ends the innermost open block. -/
def close (r : Reading) (stop : Nat) : Reading :=
  match r.spine with
  | [] => r
  | f :: outer =>
    let r := { r with spine := outer }.append (f.toBlock stop)
    match f.kind with
    | .list _ _ true => { r with emptyItem := none }
    | _ => r

/-- Ends the innermost open blocks, so many containers among them.  A list
outside the last of these stays open. -/
def closeContainers (stop : Nat) : List Frame → Nat → Reading → Reading
  | [], _, r => r
  | _ :: _, 0, r => r
  | f :: frames, n + 1, r =>
    closeContainers stop frames (if f.kind.container?.isSome then n else n + 1) (r.close stop)

/-- Ends all open blocks. -/
def closeAll (r : Reading) (stop : Nat) : Reading :=
  r.spine.foldl (fun r _ => r.close stop) r

/-- The innermost open block is a list. -/
def inList (r : Reading) : Bool :=
  match r.spine with
  | ⟨.list _ _ _, _, _⟩ :: _ => true
  | _ => false

/-- Makes a frame loose, if it is a list. -/
def loosen (f : Frame) : Frame :=
  match f.kind with
  | .list mark number _ => { f with kind := .list mark number false }
  | _ => f

/-! ### Lists -/

/-- Ends an item that is empty and has a blank line behind it. -/
def finishEmptyItem (r : Reading) : Reading :=
  let ended :=
    match r.emptyItem, r.afterBlank, r.spine with
    | some stop, true, ⟨.item _, _, _⟩ :: _ => r.close stop
    | _, _, _ => r
  { ended with emptyItem := none }

/-- Ends the list that no item of is open.  A blank line before a block makes the
list loose in which the block is. -/
def finishList (r : Reading) (stop : Nat) : Reading :=
  let r := r.finishEmptyItem
  let r := if r.inList then r.close stop else r
  if r.afterBlank then
    let spine :=
      match r.spine with
      | f :: g :: outer => f :: loosen g :: outer
      | spine => spine
    { r with spine, afterBlank := false }
  else r

/-- Goes on with a list of the same mark, or starts one. -/
def continueList (r : Reading) (start : Nat) (marker : ListMarker) : Reading :=
  let r := r.finishEmptyItem
  let fresh :=
    { (r.finishList start).openFrame (.list marker.mark marker.number true) start with
      afterBlank := false }
  match r.spine with
  | f :: outer =>
    match f.kind with
    | .list mark _ _ =>
      if mark = marker.mark then
        if r.afterBlank then { r with spine := loosen f :: outer, afterBlank := false } else r
      else fresh
    | _ => fresh
  | [] => fresh

/-! ### New containers -/

/-- What is left of a line behind its containers. -/
inductive Opened where
  /-- Nothing; the next line starts at a place. -/
  | nothing (next : Cursor) (r : Reading)
  /-- The start of a block; lists end at an offset if it is in none. -/
  | content (start : Nat) (l : LineStart) (r : Reading)

/-- Opens an item with a place behind its marker; the answer says where the line
goes on, unless nothing is left of it. -/
def openItem (r : Reading) (start : Nat) (marker : ListMarker) (behind : LineStart) :
    Reading × (Cursor ⊕ LineStart) :=
  let r := (r.continueList start marker).openFrame (.item marker.indent) start
  match blankLine? behind.cursor.rest with
  | some n =>
    let next := behind.cursor.advance n
    ({ r with emptyItem := some next.offset }, .inl next)
  | none =>
    match if r.dialect.offers .taskLists then behind.taskBox? else none with
    | none => (r, .inr behind)
    | some (checked, content) =>
      let box : Piece := ⟨.taskMarker checked, behind.cursor, content.cursor.offset⟩
      match blankLine? content.cursor.rest with
      | some n =>
        let next := content.cursor.advance n
        ({ r.append (.taskMarker ⟨box.start.offset, box.stop⟩ checked) with
            emptyItem := some next.offset },
          .inl next)
      | none => ({ r with task := some box }, .inr content)

/-- Goes on behind the name of an alert in the line that follows: as a block of
its own, or as a paragraph in the alert. -/
def afterAlert (r : Reading) (next : Cursor) : Opened :=
  let (left, l) := (LineStart.ofCursor next).enter r.containers
  let (missing, l) := l.takeSpaces 4
  if missing ≠ 0 && interrupts r.dialect r.containers left.isEmpty l.cursor then .nothing next r
  else .content next.offset l.takeAll r

/-- Opens the containers that a line starts. -/
def openContainers : Nat → Nat → LineStart → Reading → Opened
  | 0, start, l, r => .content start l r
  | fuel + 1, start, l, r =>
    let (outer, inner) := l.takeUpTo 4
    if 4 ≤ outer then .content start l r
    else
      let place := inner.cursor.offset
      match inner.listMarker? outer with
      | some (marker, behind) =>
        match r.openItem (place - outer) marker behind with
        | (r, .inl next) => .nothing next r
        | (r, .inr l) => openContainers fuel start l r
      | none =>
        match inner.quoteMarker? with
        | none => .content start l r
        | some behind =>
          let r := (r.finishList start).openFrame .quote place
          match if r.dialect.offers .alerts then behind.alertLine? else none with
          | some alert => r.afterAlert alert.cursor
          | none => openContainers fuel start behind r

/-- Notes a blank line.  An item that is still empty can hold nothing more. -/
def noteBlank (r : Reading) : Reading :=
  match r.spine with
  | [] => { r with afterBlank := true }
  | f :: outer =>
    match f.kind with
    | .quote => r
    | .item _ =>
      if r.emptyItem.isSome then
        { r with afterBlank := true, spine := { f with kind := .item 0 } :: outer }
      else { r with afterBlank := true }
    | .list _ _ _ => { r with afterBlank := true }

/-! ### Headings -/

/-- Takes a heading with its sign at a place. -/
def readHeading (r : Reading) (start : Cursor) (level : HeadingLevel) : Block × Cursor :=
  let behind := start.advance level.toNat
  let containers := r.containers
  match lineEnd? behind.rest with
  | some n =>
    let next := behind.advance n
    (.heading ⟨start.offset, next.offset⟩ level none
        { pieces := [], stop := next.offset, containers },
      next)
  | none =>
    let text := behind.dropWhile isInlineBlank
    let next := text.nextLine
    let line := text.before next.offset
    let (content, id) :=
      match splitAttributes? line with
      | some (content, attributes) => (content, attributeId? attributes)
      | none => (line, none)
    let read := readLine r.dialect .plain containers (text.rest.drop content.length).head? []
      ⟨text.offset, content⟩
    let stop := text.offset + byteLength (withoutClosing content)
    (.heading ⟨start.offset, next.offset⟩ level id
        { pieces := (trimLast stop read.pieces).reverse, stop := next.offset, containers },
      next)

/-- The heading that underlined lines are, with the latest piece first. -/
def underlinedHeading (containers : List Container) (start : Cursor) (pieces : List Piece)
    (level : HeadingLevel) (stop : Nat) : Block :=
  let text := pieces.head?.elim [] fun p => start.before p.stop
  let (pieces, id) :=
    match splitAttributes? text with
    | some (content, attributes) =>
      let kept := Text.dropEndWhile isInlineBlank content
      (truncate (start.offset + byteLength kept) start pieces.reverse, attributeId? attributes)
    | none => (pieces.reverse, none)
  .heading ⟨start.offset, stop⟩ level id { pieces, stop, containers }

/-! ### Paragraphs -/

/-- What a paragraph turns out to be, with its latest piece first. -/
inductive ParagraphEnd where
  | plain (pieces : List Piece) (next : Cursor)
  | heading (pieces : List Piece) (level : HeadingLevel) (next : Cursor)
  | table (columns : Nat) (body : Cursor)

/-- The break at the end of a line, if another line follows in the paragraph. -/
def pushBreak (pieces : List Piece) : LineEnding → List Piece
  | .soft start stop => ⟨.softBreak, start, stop⟩ :: pieces
  | .hard start stop _ => ⟨.hardBreak, start, stop⟩ :: pieces
  | _ => pieces

/-- A backslash at the end of the last line is plain text. -/
def pushBackslash (pieces : List Piece) : LineEnding → List Piece
  | .hard start _ true => pushText pieces start (start.offset + 1)
  | _ => pieces

/-- Reads the lines of a paragraph. -/
def paragraphLines (dialect : Dialect) (containers : List Container) :
    Nat → LineMode → Cursor → List Piece → ParagraphEnd
  | 0, _, c, pieces => .plain pieces c
  | fuel + 1, mode, c, pieces =>
    let line := readLine dialect mode containers none pieces c
    match line.ending with
    | .tableHead columns => .table columns line.next
    | ending =>
      let ended := pushBackslash line.pieces ending
      let (left, l) := (LineStart.ofCursor line.next).enter containers
      let current := left.isEmpty
      let (missing, l) := l.takeSpaces 4
      match if missing ≠ 0 && current then underline? l.cursor.rest else none with
      | some (level, n) => .heading ended level (l.cursor.advance n)
      | none =>
        if missing ≠ 0 && interrupts dialect containers current l.cursor then .plain ended line.next
        else if l.takeAll.atLineEnd then .plain ended line.next
        else
          paragraphLines dialect containers fuel .plain l.takeAll.cursor
            (pushBreak line.pieces ending)

/-- Takes a paragraph, or what it turns out to be. -/
def readParagraph (r : Reading) (start : Cursor) : Block × Cursor :=
  let containers := r.containers
  let mode := if r.dialect.offers .tables then LineMode.first else .plain
  match paragraphLines r.dialect containers (start.rest.length + 1) mode start r.task.toList with
  | .plain pieces next =>
    (.paragraph ⟨start.offset, next.offset⟩
        { pieces := pieces.reverse, stop := next.offset, containers },
      next)
  | .heading pieces level next =>
    (underlinedHeading containers start pieces level next.offset, next)
  | .table columns body => readTable r.dialect containers columns start body

/-! ### Blocks -/

/-- Takes the block that starts behind some indentation; the answer holds the next
place. -/
def readLeaf (r : Reading) (l : LineStart) : Cursor × Reading :=
  let (indent, inner) := l.takeUpTo 4
  let start := inner.cursor
  let containers := r.containers
  let take (taken : Block × Cursor) : Cursor × Reading := (taken.2, r.append taken.1)
  if indent = 4 then take (indentedCode containers start inner.spare)
  else
    match htmlEnd? start.rest, ruleLength? start.rest, atxLevel? start.rest,
      openingFence? start.rest with
    | some ending, _, _, _ => take (htmlBlock containers start (max l.spare indent) ending)
    | none, some n, _, _ =>
      let next := start.advance n
      take (.rule ⟨start.offset, next.offset⟩, next)
    | none, none, some level, _ => take (r.readHeading start level)
    | none, none, none, some (sign, n) =>
      take (fencedCode containers start { sign, length := n, indent })
    | none, none, none, none =>
      match definition? r.dialect containers start with
      | some (label, target, behind) =>
        (behind.passBlankLine, { r with definitions := r.definitions.add label target })
      | none =>
        let (block, next) := r.readParagraph start
        (next, { r with task := none }.append block)

/-- Reads from the start of a line up to the end of a block, and tells the next
place. -/
def readBlock (r : Reading) (c : Cursor) : Cursor × Reading :=
  let (left, l) := (LineStart.ofCursor c).enter r.containers
  let r := closeContainers c.offset r.spine left.length r
  match openContainers (c.rest.length + 1) c.offset l r with
  | .nothing next r => (next, r)
  | .content start l r =>
    match blankLine? l.cursor.rest with
    | some n => (l.cursor.advance n, r.noteBlank)
    | none => (r.finishList start).readLeaf l

end Reading

/-- Reads the blocks of a text from a place on; every block takes at least one
character, so their number is fuel enough. -/
def readFrom : Nat → Cursor → Reading → Reading
  | 0, c, r => r.closeAll c.offset
  | fuel + 1, c, r =>
    if c.atEnd then r.closeAll c.offset
    else
      let (next, r) := r.readBlock c
      readFrom fuel next r

/-- The blocks of a text, and the definitions in it. -/
def readBlocks (dialect : Dialect) (text : List Char) : List Block × Definitions :=
  let r := readFrom (text.length + 1) (.ofText text) { dialect }
  (r.blocks.reverse, r.definitions)

end Markdown

end WikiOutline
