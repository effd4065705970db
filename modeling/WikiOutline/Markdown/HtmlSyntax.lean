/-
# HTML inside Markdown

HTML stands in Markdown as lines of its own or inside a line.  A tag may go on
over several lines; the signs of containers at the start of those lines are then
no part of it.

Key definitions: `Markdown.rawBlockEnd?`, `Markdown.startsNamedBlock`,
`Markdown.startsTagLine`, `Markdown.inlineHtml?`.
-/
import WikiOutline.Markdown.Cursor

namespace WikiOutline

namespace Markdown

/-- The text starts with a word. -/
def startsWith (word : String) (cs : List Char) : Bool := word.toList.isPrefixOf cs

/-- What comes before and behind the first place where a word stands. -/
def splitAtWord? (word : List Char) : List Char → Option (List Char × List Char)
  | [] => if word.isEmpty then some ([], []) else none
  | c :: cs =>
    if word.isPrefixOf (c :: cs) then some ([], (c :: cs).drop word.length)
    else (splitAtWord? word cs).map fun (before, behind) => (c :: before, behind)

/-! ### Blocks -/

/-- The elements whose text is raw, with the tags that end them. -/
def rawElements : List (String × String) :=
  [("pre", "</pre>"), ("style", "</style>"), ("script", "</script>"), ("textarea", "</textarea>")]

/-- The openings of comments and the like, with what ends them. -/
def rawOpenings : List (String × String) := [("!--", "-->"), ("?", "?>"), ("![CDATA[", "]]>")]

/-- A name stands at the start, whatever its case, with a blank, a bracket or the
end behind it. -/
def startsElement (name : String) (cs : List Char) : Bool :=
  let n := name.length
  (cs.take n).map Char.toLower == name.toList &&
    match cs.drop n with
    | [] => true
    | c :: _ => isAsciiBlank c || c == '>'

/-- What ends the block of raw text that opens behind a less-than sign. -/
def rawBlockEnd? (cs : List Char) : Option String :=
  match rawElements.find? fun e => startsElement e.1 cs,
    rawOpenings.find? fun o => startsWith o.1 cs with
  | some (_, ending), _ => some ending
  | none, some (_, ending) => some ending
  | none, none =>
    match cs with
    | '!' :: c :: _ => if c.isAlpha then some ">" else none
    | _ => none

/-- The elements whose tags open a block that a blank line ends. -/
def blockElements : List String := [
  "address", "article", "aside", "base", "basefont", "blockquote", "body", "caption", "center",
  "col", "colgroup", "dd", "details", "dialog", "dir", "div", "dl", "dt", "fieldset", "figcaption",
  "figure", "footer", "form", "frame", "frameset", "h1", "h2", "h3", "h4", "h5", "h6", "head",
  "header", "hr", "html", "iframe", "legend", "li", "link", "main", "menu", "menuitem", "nav",
  "noframes", "ol", "optgroup", "option", "p", "param", "search", "section", "summary", "table",
  "tbody", "td", "tfoot", "th", "thead", "title", "tr", "track", "ul"]

/-- The tag of a block element opens behind a less-than sign. -/
def startsNamedBlock (cs : List Char) : Bool :=
  let cs :=
    match cs with
    | '/' :: cs => cs
    | cs => cs
  let name := cs.takeWhile Char.isAlphanum
  blockElements.contains (String.ofList (name.map Char.toLower)) &&
    match cs.drop name.length with
    | [] => true
    | '/' :: '>' :: _ => true
    | c :: _ => c == ' ' || c == '\t' || isLineBreak c || c == '>'

/-! ### Tags -/

/-- How a tag goes on behind a line end: the number of characters that belong to
containers, if it may go on at all. -/
abbrev Resume := Option (List Char → Nat)

/-- What has been read of a tag, the latest character first, and what comes
behind. -/
structure TagScan where
  kept : List Char
  rest : List Char
  deriving Repr, BEq, DecidableEq, Inhabited

namespace TagScan

/-- Takes a number of characters. -/
def take (s : TagScan) (n : Nat) : TagScan :=
  ⟨(s.rest.take n).reverse ++ s.kept, s.rest.drop n⟩

/-- Takes the characters that satisfy `p`. -/
def takeWhile (s : TagScan) (p : Char → Bool) : TagScan := s.take (s.rest.takeWhile p).length

/-- Passes over blanks and line ends up to something else; `skip` characters are
left out first. -/
def passBlanks (resume : Resume) : Nat → List Char → List Char → Option TagScan
  | _, _, [] => none
  | skip + 1, kept, _ :: cs => passBlanks resume skip kept cs
  | 0, kept, c :: cs =>
    if isInlineBlank c then passBlanks resume 0 (c :: kept) cs
    else if isLineBreak c then
      match resume with
      | none => none
      | some containers =>
        if c == '\r' && cs.head? == some '\n' then passBlanks resume 0 (c :: kept) cs
        else passBlanks resume (containers cs) (c :: kept) cs
    else some ⟨kept, c :: cs⟩

/-- Passes over blanks and line ends. -/
def blanks (resume : Resume) (s : TagScan) : Option TagScan := passBlanks resume 0 s.kept s.rest

/-- Takes a quoted value up to its closing quote; `skip` characters are left out
first. -/
def takeQuoted (resume : Resume) (quote : Char) : Nat → List Char → List Char → Option TagScan
  | _, _, [] => none
  | skip + 1, kept, _ :: cs => takeQuoted resume quote skip kept cs
  | 0, kept, c :: cs =>
    if c == quote then some ⟨c :: kept, cs⟩
    else if isLineBreak c then
      match resume with
      | none => none
      | some containers =>
        if c == '\r' && cs.head? == some '\n' then takeQuoted resume quote 0 (c :: kept) cs
        else takeQuoted resume quote (containers cs) (c :: kept) cs
    else takeQuoted resume quote 0 (c :: kept) cs

/-- A character that ends a value without quotes. -/
def endsBareValue (c : Char) : Bool :=
  isAsciiBlank c || c == '"' || c == '\'' || c == '=' || c == '>' || c == '<' || c == '\x60'

/-- Takes the value of an attribute. -/
def value? (resume : Resume) (s : TagScan) : Option TagScan :=
  match s.rest with
  | [] => none
  | c :: cs =>
    if c == '"' || c == '\'' then takeQuoted resume c 0 (c :: s.kept) cs
    else if endsBareValue c then none
    else some (s.takeWhile fun c => !endsBareValue c)

/-- Takes an attribute with its value, if it has one. -/
def attribute? (resume : Resume) (s : TagScan) : Option TagScan :=
  match s.rest with
  | [] => none
  | c :: _ =>
    if c.isAlpha || c == '_' || c == ':' then
      let name := s.takeWhile fun c =>
        c.isAlphanum || c == '_' || c == '.' || c == ':' || c == '-'
      match name.blanks resume with
      | none => none
      | some sign =>
        match sign.rest with
        | '=' :: _ => ((sign.take 1).blanks resume).bind (value? resume)
        | _ => some name
    else none

/-- Takes attributes, each with blanks before it, up to the end of the tag. -/
def attributes? (resume : Resume) : Nat → TagScan → Option TagScan
  | 0, _ => none
  | fuel + 1, s =>
    match s.blanks resume with
    | none => none
    | some t =>
      match t.rest with
      | '/' :: _ | '>' :: _ => some t
      | _ =>
        if t.rest.length == s.rest.length then none
        else (t.attribute? resume).bind (attributes? resume fuel)

/-- Takes the closing bracket of a tag. -/
def close? (s : TagScan) : Option TagScan :=
  match s.rest with
  | '>' :: _ => some (s.take 1)
  | _ => none

end TagScan

/-- A character of the name of an element. -/
def isElementNameChar (c : Char) : Bool := c.isAlphanum || c == '-'

/-- Takes a tag behind its `<`: what belongs to it, and what comes behind. -/
def tag? (resume : Resume) (cs : List Char) : Option (List Char × List Char) :=
  let closing := cs.head? == some '/'
  let start : TagScan := (TagScan.mk ['<'] cs).take (if closing then 1 else 0)
  match start.rest with
  | [] => none
  | c :: _ =>
    if !c.isAlpha then none
    else
      let name := start.takeWhile isElementNameChar
      let ended :=
        if closing then (name.takeWhile isInlineBlank).close?
        else
          (name.attributes? resume (cs.length + 1)).bind fun s =>
            (if s.rest.head? == some '/' then s.take 1 else s).close?
      ended.map fun s => (s.kept.reverse, s.rest)

/-- A tag stands alone on the line behind a less-than sign. -/
def startsTagLine (cs : List Char) : Bool :=
  match tag? none cs with
  | some (_, rest) => startsBlankLine rest
  | none => false

/-! ### Inside a line -/

/-- Takes a declaration, a comment or marked text behind `<!`. -/
def declaration? (cs : List Char) : Option (List Char) :=
  match cs with
  | '-' :: '-' :: _ => (splitAtWord? ['-', '-', '>'] cs).map (·.2)
  | c :: inner =>
    if startsWith "[CDATA[" cs then
      let brackets := (cs.drop 7).dropWhile (· != ']')
      match brackets, brackets.dropWhile (· == ']') with
      | _ :: _, '>' :: rest => some rest
      | _, _ => none
    else if c.isAlpha then
      match inner.dropWhile (· != '>') with
      | _ :: rest => some rest
      | [] => none
    else none
  | [] => none

/-- Takes inline HTML behind its `<`: what belongs to it, and what comes
behind. -/
def inlineHtml? (resume : List Char → Nat) (cs : List Char) : Option (List Char × List Char) :=
  let whole (rest : List Char) := ('<' :: cs.take (cs.length - rest.length), rest)
  match cs with
  | '!' :: inner => (declaration? inner).map whole
  | '?' :: inner => (splitAtWord? ['?', '>'] inner).map fun (_, rest) => whole rest
  | _ => tag? (some resume) cs

end Markdown

end WikiOutline
