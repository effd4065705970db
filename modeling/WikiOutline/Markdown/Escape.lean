/-
# Escapes

A backslash before ASCII punctuation makes the punctuation plain, and a character
may be given by its number or its name between an ampersand and a semicolon.

Key definitions: `Markdown.reference?`, `Markdown.unescape`.
-/
import WikiOutline.Markdown.NamedCharacter
import WikiOutline.Text.Punctuation

namespace WikiOutline

namespace Markdown

/-- The character of a code point; zero stands for the replacement character. -/
def characterOf? (n : Nat) : Option Char :=
  if n = 0 then some '\uFFFD' else if n.isValidChar then some (Char.ofNat n) else none

/-- A digit in base sixteen. -/
def isHexDigit (c : Char) : Bool :=
  c.isDigit || ('a' ≤ c && c ≤ 'f') || ('A' ≤ c && c ≤ 'F')

/-- The longest run of characters that satisfy `p`, at most `limit` of them, with
a semicolon behind it, and what comes behind that. -/
def untilSemicolon? (p : Char → Bool) (limit : Nat) (cs : List Char) :
    Option (List Char × List Char) :=
  let run := (cs.take limit).takeWhile p
  match run, cs.drop run.length with
  | _ :: _, ';' :: rest => some (run, rest)
  | _, _ => none

/-- Reads the reference to a character behind an ampersand: the characters meant,
and what comes behind it. -/
def referenceBody? : List Char → Option (List Char × List Char)
  | '#' :: 'x' :: cs | '#' :: 'X' :: cs => do
    let (digits, rest) ← untilSemicolon? isHexDigit 6 cs
    let c ← characterOf? (hexValue digits)
    some ([c], rest)
  | '#' :: cs => do
    let (digits, rest) ← untilSemicolon? Char.isDigit 7 cs
    let c ← characterOf? (digits.foldl (fun n d => 10 * n + (d.toNat - '0'.toNat)) 0)
    some ([c], rest)
  | cs => do
    let (name, rest) ← untilSemicolon? Char.isAlphanum cs.length cs
    let value ← namedCharacter? name
    some (value, rest)

/-- Reads a reference to a character. -/
def reference? : List Char → Option (List Char × List Char)
  | '&' :: cs => referenceBody? cs
  | _ => none

/-- Reads an escape: the plain text of it and what comes behind.  In a table a bar
needs one backslash more. -/
def escape? (inTable : Bool) : List Char → Option (List Char × List Char)
  | '\\' :: '\\' :: '|' :: rest =>
    if inTable then some (['|'], rest) else some (['\\'], '|' :: rest)
  | '\\' :: c :: rest => if Text.isAsciiPunctuation c then some ([c], rest) else none
  | _ => none

/-- Unescapes a text with at most so many steps. -/
def unescapeUpTo (inTable : Bool) : Nat → List Char → List Char
  | 0, _ => []
  | _, [] => []
  | fuel + 1, c :: cs =>
    match escape? inTable (c :: cs), reference? (c :: cs) with
    | some (plain, rest), _ => plain ++ unescapeUpTo inTable fuel rest
    | none, some (value, rest) => value ++ unescapeUpTo inTable fuel rest
    | none, none =>
      if c == '\r' then unescapeUpTo inTable fuel cs else c :: unescapeUpTo inTable fuel cs

/-- The text without its escapes and references; carriage returns are dropped. -/
def unescape (inTable : Bool) (cs : List Char) : List Char := unescapeUpTo inTable cs.length cs

end Markdown

end WikiOutline
