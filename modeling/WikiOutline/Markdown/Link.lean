/-
# Links

A link has a destination and a title.  Both stand behind the text of the link, or
in a definition that is found by its label; labels that differ only in case and
in their blanks are the same, and the first definition of a label counts.

Key definitions: `Markdown.Target`, `Markdown.Definitions`,
`Markdown.destination?`, `Markdown.label?`, `Markdown.autolink?`.
-/
import WikiOutline.Markdown.Cursor
import WikiOutline.Markdown.Escape
import WikiOutline.Text.CaseFold

namespace WikiOutline

namespace Markdown

/-- Where a link leads. -/
structure Target where
  destination : String
  title : String := ""
  deriving Repr, BEq, DecidableEq, Inhabited

/-- The targets by their folded labels. -/
abbrev Definitions := List (List Char × Target)

namespace Definitions

/-- The target of a label. -/
def find? (d : Definitions) (label : List Char) : Option Target := d.lookup (Text.caseFold label)

/-- Adds a definition, unless the label has one. -/
def add (d : Definitions) (label : List Char) (target : Target) : Definitions :=
  match d.find? label with
  | some _ => d
  | none => d ++ [(Text.caseFold label, target)]

end Definitions

/-! ### Destinations -/

/-- The most brackets inside one another in a destination. -/
def maxNestedBrackets : Nat := 32

/-- Takes a destination up to its `>`; `skip` says that the next character is
escaped. -/
def pointedDestination? : Bool → List Char → Option (List Char × List Char)
  | _, [] => none
  | true, c :: cs => (pointedDestination? false cs).map fun (d, rest) => (c :: d, rest)
  | false, c :: cs =>
    if isLineBreak c || c == '<' then none
    else if c == '>' then some ([], cs)
    else
      let escapes := c == '\\' && cs.head?.any Text.isAsciiPunctuation
      (pointedDestination? escapes cs).map fun (d, rest) => (c :: d, rest)

/-- Takes a destination up to a blank, a control character, or a bracket that it
did not open. -/
def bareDestination? : Bool → Nat → List Char → Option (List Char × List Char)
  | _, nest, [] => if nest = 0 then some ([], []) else none
  | true, nest, c :: cs => (bareDestination? false nest cs).map fun (d, rest) => (c :: d, rest)
  | false, nest, c :: cs =>
    let keep (nest : Nat) (escapes : Bool) :=
      (bareDestination? escapes nest cs).map fun (d, rest) => (c :: d, rest)
    if c.toNat ≤ 0x20 then (if nest = 0 then some ([], c :: cs) else none)
    else if c == '(' then (if maxNestedBrackets < nest then none else keep (nest + 1) false)
    else if c == ')' then (if nest = 0 then some ([], c :: cs) else keep (nest - 1) false)
    else keep nest (c == '\\' && cs.head?.any Text.isAsciiPunctuation)

/-- Takes a destination as it is written, and what comes behind. -/
def destination? (cs : List Char) : Option (List Char × List Char) :=
  match cs with
  | '<' :: inner => pointedDestination? false inner
  | _ => bareDestination? false 0 cs

/-! ### Labels -/

/-- The most characters of a label. -/
def maxLabelLength : Nat := 1000

/-- A label as it is being read. -/
structure LabelScan where
  /-- The label, the latest character first. -/
  kept : List Char := []
  length : Nat := 0
  /-- Something in it is no blank. -/
  filled : Bool := false
  /-- The blanks read last, and the line ends among them. -/
  blanks : Nat := 0
  breaks : Nat := 0

/-- The text without the spaces at both ends. -/
def trimSpaces (cs : List Char) : List Char :=
  Text.dropEndWhile (· == ' ') (cs.dropWhile (· == ' '))

/-- Reads a label up to its `]`; `skip` characters are left out first.  Blanks
count as one space, with no more than one line end among them.  Behind a line end
`resume` tells the characters that belong to containers, if the label may go on
there. -/
def labelFrom? (resume : List Char → Option Nat) (inTable : Bool) :
    Nat → LabelScan → List Char → Option (List Char × List Char)
  | _, _, [] => none
  | skip + 1, s, _ :: cs => labelFrom? resume inTable skip s cs
  | 0, s, c :: cs =>
    if maxLabelLength ≤ s.length then none
    else
      let s := if isAsciiBlank c then s else { s with blanks := 0, breaks := 0 }
      if c == '[' then none
      else if c == ']' then (if s.filled then some (trimSpaces s.kept.reverse, cs) else none)
      else if c == '\\' then
        match cs with
        | '\\' :: '|' :: _ =>
          if inTable then
            labelFrom? resume inTable 2
              { s with kept := '|' :: s.kept, length := s.length + 3, filled := true } cs
          else
            labelFrom? resume inTable 1
              { s with kept := '\\' :: c :: s.kept, length := s.length + 2, filled := true } cs
        | d :: _ =>
          let kept := if inTable && d == '|' then d :: s.kept else d :: c :: s.kept
          labelFrom? resume inTable 1 { s with kept, length := s.length + 2, filled := true } cs
        | [] => none
      else if isAsciiBlank c then
        let kept := if s.blanks = 0 then ' ' :: s.kept else s.kept
        let s := { s with kept, blanks := s.blanks + 1, length := s.length + 1 }
        if isLineBreak c && !(c == '\r' && cs.head? == some '\n') then
          if s.breaks = 0 then
            match resume cs with
            | some skip => labelFrom? resume inTable skip { s with breaks := 1 } cs
            | none => none
          else none
        else labelFrom? resume inTable 0 s cs
      else
        labelFrom? resume inTable 0
          { s with kept := c :: s.kept, length := s.length + 1, filled := true } cs

/-- Takes a label in its brackets, and what comes behind. -/
def label? (resume : List Char → Option Nat) (inTable : Bool) (cs : List Char) :
    Option (List Char × List Char) :=
  match cs with
  | '[' :: inner => labelFrom? resume inTable 0 {} inner
  | _ => none

/-! ### Links that are their own text -/

/-- A character of a scheme. -/
def isSchemeChar (c : Char) : Bool := c.isAlphanum || c == '.' || c == '-' || c == '+'

/-- Takes an address with a scheme of two to 32 characters up to its `>`. -/
def uri? (cs : List Char) : Option (List Char × List Char) :=
  let scheme := cs.takeWhile isSchemeChar
  match cs, cs.drop scheme.length with
  | c :: _, ':' :: behind =>
    let body := behind.takeWhile fun c => 0x20 < c.toNat && c != '<' && c != '>'
    match behind.drop body.length with
    | '>' :: rest =>
      if c.isAlpha && 2 ≤ scheme.length && scheme.length ≤ 32 then
        some (scheme ++ ':' :: body, rest)
      else none
    | _ => none
  | _, _ => none

/-- A character of the name before the `@` of an address. -/
def isMailboxChar (c : Char) : Bool :=
  c.isAlphanum || ".!#$%&'*+/=?^_\x60\x7b|\x7d~-".toList.contains c

/-- A part of the name of a host: letters, digits and hyphens, with no hyphen at
either end, and no longer than 63 characters. -/
def isHostLabel (cs : List Char) : Bool :=
  !cs.isEmpty && cs.length ≤ 63 && cs.all (fun c => c.isAlphanum || c == '-') &&
    cs.head? != some '-' && cs.getLast? != some '-'

/-- The pieces of a text between points. -/
def splitPoints : List Char → List (List Char)
  | [] => [[]]
  | c :: cs =>
    if c == '.' then [] :: splitPoints cs
    else
      match splitPoints cs with
      | [] => [[c]]
      | piece :: pieces => (c :: piece) :: pieces

/-- Takes a mail address up to its `>`. -/
def email? (cs : List Char) : Option (List Char × List Char) :=
  let mailbox := cs.takeWhile isMailboxChar
  match cs.drop mailbox.length with
  | '@' :: behind =>
    let host := behind.takeWhile fun c => c.isAlphanum || c == '-' || c == '.'
    match behind.drop host.length with
    | '>' :: rest =>
      if !mailbox.isEmpty && (splitPoints host).all isHostLabel then
        some (mailbox ++ '@' :: host, rest)
      else none
    | _ => none
  | _ => none

/-- Takes an address behind a `<` and up to its `>`. -/
def autolink? (cs : List Char) : Option (List Char × List Char) :=
  match uri? cs with
  | some r => some r
  | none => email? cs

end Markdown

end WikiOutline
