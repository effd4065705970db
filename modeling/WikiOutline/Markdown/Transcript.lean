/-
# Calls of Markdown events

The events of a text become the calls of a page.  An element that starts enters
its tag, and the innermost open tag is exited when an element finishes; with no
tag open, a finish counts for nothing.

A heading is part of the outline unless a quote, an item or a footnote is open
around it.  How it was written is told by the text at its start.

Key definitions: `Markdown.headingSyntax`, `Markdown.headingContext`,
`Markdown.transcribe`.
-/
import WikiOutline.Call
import WikiOutline.Markdown.Event

namespace WikiOutline

namespace Markdown

/-! ### Headings -/

/-- What comes behind a byte offset, if a character starts or the text ends
there. -/
def textFrom? : Nat → List Char → Option (List Char)
  | 0, cs => some cs
  | _ + 1, [] => none
  | n + 1, c :: cs => if c.utf8Size ≤ n + 1 then textFrom? (n + 1 - c.utf8Size) cs else none

/-- A heading whose first character that is no space is a number sign was written
in the ATX way; any other one takes lines of its own. -/
def headingSyntax (source : List Char) (start : Nat) : HeadingSyntax :=
  let line := (textFrom? start source).getD []
  if (line.dropWhile (· == ' ')).head? == some '#' then .atx else .block

/-- The tags that keep headings out of the outline. -/
def componentNames : List String := ["blockquote", "li", "footnote"]

/-- The tag keeps headings out of the outline. -/
def isComponent (t : Tag) : Bool := componentNames.contains t.name

/-- The context of a heading inside some open tags, the innermost first. -/
def headingContext (openTags : List Tag) : String :=
  match openTags.find? isComponent with
  | some t => t.name
  | none => Call.outlineContext

/-! ### Events -/

/-- The call that enters an element. -/
def enterElement (source : List Char) (openTags : List Tag) (span : Span) : Element → Call
  | .paragraph => .enter .paragraph
  | .heading level id =>
    let call := (Call.enter (.heading (headingSyntax source span.start))).withAttribute "level"
      (.ofNat level.toNat) |>.withContext (headingContext openTags)
    match id with
    | some id => call.withAttribute "id" (.string id)
    | none => call
  | .quote => .enter (.other "blockquote")
  | .codeBlock info =>
    match info with
    | some words =>
      if words.isEmpty then .enter (.other "pre")
      else (Call.enter (.other "pre")).withAttribute "lang" (.string words)
    | none => .enter (.other "pre")
  | .htmlBlock => .enter (.other "html-block")
  | .list (some first) => (Call.enter (.other "ol")).withAttribute "start" (.ofNat first)
  | .list none => .enter (.other "ul")
  | .item => .enter (.other "li")
  | .footnote name => (Call.enter (.other "footnote")).withAttribute "name" (.string name)
  | .definitionList => .enter (.other "dl")
  | .definitionTitle => .enter (.other "dt")
  | .definition => .enter (.other "dd")
  | .metadata => .enter (.other "metadata")
  | .table => .enter (.other "table")
  | .tableHead => .enter (.other "thead")
  | .tableRow => .enter (.other "tr")
  | .tableCell => .enter (.other "td")
  | .emphasis => .enter (.other "em")
  | .strong => .enter (.other "strong")
  | .strikethrough => .enter (.other "s")
  | .superscript => .enter (.other "sup")
  | .subscript => .enter (.other "sub")
  | .link destination _ => (Call.enter (.other "a")).withAttribute "href" (.string destination)
  | .image destination title =>
    let call := (Call.enter .media).withAttribute "src" (.string destination)
    if title.isEmpty then call else call.withAttribute "title" (.string title)

/-- A call with the span of its event. -/
def spanned (c : Call) (span : Span) : Call := c.withSpan span.start span.stop

/-- The calls of one event inside some open tags, and the tags open behind it. -/
def transcribeEvent (source : List Char) (openTags : List Tag) (event : Event) (span : Span) :
    List Call × List Tag :=
  match event with
  | .start element =>
    let call := enterElement source openTags span element
    ([spanned call span], call.tag :: openTags)
  | .finish =>
    match openTags with
    | [] => ([], [])
    | tag :: outer => ([spanned (.exit tag) span], outer)
  | .text content => ([spanned (.text content) span], openTags)
  | .code content =>
    ([spanned (.enter (.other "code")) span, .text content, spanned (.exit (.other "code")) span],
      openTags)
  | .html content => ([spanned ((Call.special (.other "html")).withPayload content) span], openTags)
  | .math content => ([spanned ((Call.special (.other "math")).withPayload content) span], openTags)
  | .footnoteReference name =>
    ([spanned ((Call.special (.other "footnote-ref")).withAttribute "name" (.string name)) span],
      openTags)
  | .softBreak => ([spanned (.text "\n") span], openTags)
  | .hardBreak => ([spanned (.special (.other "br")) span], openTags)
  | .rule => ([spanned (.special (.other "hr")) span], openTags)
  | .taskMarker checked =>
    ([spanned ((Call.special (.other "checkbox")).withAttribute "checked" (.bool checked)) span],
      openTags)

/-- The calls of some events inside some open tags, and the tags open behind
them, the innermost first. -/
def transcribe (source : List Char) : List Tag → List (Event × Span) → List Call × List Tag
  | openTags, [] => ([], openTags)
  | openTags, (event, span) :: events =>
    let (calls, openTags) := transcribeEvent source openTags event span
    let (more, openTags) := transcribe source openTags events
    (calls ++ more, openTags)

end Markdown

end WikiOutline
