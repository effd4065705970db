/-
# Definitions of links

A definition stands where a paragraph could start: a label, a colon, a
destination, and perhaps a title.  It may take several lines; a title that does
not end with its line is no part of it.

Key definitions: `Markdown.definition?`.
-/
import WikiOutline.Markdown.Interruption
import WikiOutline.Markdown.Link

namespace WikiOutline

namespace Markdown

variable (dialect : Dialect) (containers : List Container)

/-- Passes over blanks and at most one line end; the answer says whether there was
one. -/
def definitionBlanks? (start : Cursor) : Option (Cursor × Bool) :=
  let c := start.dropWhile isInlineBlank
  match lineEnd? c.rest with
  | none => some (c, false)
  | some n =>
    if c.atEnd then none
    else
      match continueParagraph? dialect containers (c.advance n) with
      | none => none
      | some next =>
        let next := next.dropWhile isInlineBlank
        if (lineEnd? next.rest).isSome then none else some (next, true)

/-- The sign that closes a title opened by another. -/
def titleEnd? : Char → Option Char
  | '"' => some '"'
  | '\'' => some '\''
  | '(' => some ')'
  | _ => none

/-- Reads a title up to its closing sign, the latest character first; `skip`
characters belong to containers, and `escaped` says that the next one is. -/
def titleFrom? (close : Char) : Nat → Bool → List Char → Nat → List Char →
    Option (List Char × Cursor)
  | _, _, _, _, [] => none
  | skip + 1, escaped, kept, offset, c :: cs =>
    titleFrom? close skip escaped kept (offset + c.utf8Size) cs
  | 0, escaped, kept, offset, c :: cs =>
    let behind := offset + c.utf8Size
    if isLineBreak c then
      if c == '\r' && cs.head? == some '\n' then titleFrom? close 0 false kept behind cs
      else
        match continueParagraph? dialect containers ⟨behind, cs⟩ with
        | none => none
        | some next =>
          let next := next.dropWhile fun c => c == ' ' || c == '\t'
          if startsBlankLine next.rest then none
          else titleFrom? close (cs.length - next.rest.length) false ('\n' :: kept) behind cs
    else if escaped then titleFrom? close 0 false (c :: kept) behind cs
    else if c == close then some (kept.reverse, ⟨behind, cs⟩)
    else if c == '(' && close == ')' then none
    else titleFrom? close 0 (c == '\\') (c :: kept) behind cs

/-- Takes a title as it is written. -/
def definitionTitle? (start : Cursor) : Option (List Char × Cursor) :=
  match start.rest with
  | [] => none
  | c :: cs => do
    let close ← titleEnd? c
    titleFrom? dialect containers close 0 false [] (start.offset + c.utf8Size) cs

/-- Takes a label in its brackets. -/
def definitionLabel? (start : Cursor) : Option (List Char × Cursor) :=
  let resume (cs : List Char) : Option Nat :=
    (continueParagraph? dialect containers ⟨0, cs⟩).map fun c => cs.length - c.rest.length
  (label? resume false start.rest).map fun (label, rest) =>
    (label, start.advance (start.rest.length - rest.length))

/-- A text without escapes and references. -/
def plain (cs : List Char) : String := String.ofList (unescape false cs)

/-- Takes a definition: its label, its target, and the place behind it. -/
def definition? (start : Cursor) : Option (List Char × Target × Cursor) := do
  let (label, colon) ← definitionLabel? dialect containers start
  if colon.rest.head? != some ':' then none
  else
    let (place, _) ← definitionBlanks? dialect containers (colon.advance 1)
    let (destination, rest) ← destination? place.rest
    let behind := place.advance (place.rest.length - rest.length)
    if behind.offset = place.offset then none
    else
      let bare := (label, ({ destination := plain destination } : Target), behind)
      match definitionBlanks? dialect containers behind with
      | none => if startsBlankLine behind.rest then some bare else none
      | some (place, brokeLine) =>
        if place.offset = behind.offset then none
        else
          let titled := (definitionTitle? dialect containers place).filter fun t =>
            startsBlankLine t.2.rest
          match titled with
          | some (title, behind) =>
            some (label, { destination := plain destination, title := plain title }, behind)
          | none => if brokeLine then some bare else none

end Markdown

end WikiOutline
