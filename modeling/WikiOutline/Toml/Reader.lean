/-
# Reading TOML

A document is a list of lines: blank, a key with its value, or a header.  A key
goes into the table of the last header.  Arrays and inline tables may run over
lines, with comments and a last comma.  The first line that cannot be read makes
the whole document unreadable.

Key definitions: `Toml.scanKey`, `Toml.scanValue`, `Toml.read`.
-/
import WikiOutline.Toml.Scalar

namespace WikiOutline

namespace Toml

/-! ### Blanks, comments and keys -/

/-- The rest behind a comment, if there is one. -/
def dropComment (cs : List Char) : Option (List Char) :=
  match cs with
  | '#' :: rest =>
    let body := rest.takeWhile (· != '\n')
    let behind := rest.dropWhile (· != '\n')
    let body := if !behind.isEmpty && body.getLast? == some '\r' then body.dropLast else body
    if body.any isControl then none else some behind
  | cs => some cs

/-- The rest behind a comment and the end of the line. -/
def endLine (cs : List Char) : Option (List Char) := do
  let rest ← dropComment (dropBlanks cs)
  if rest.isEmpty then some [] else afterNewline? rest

/-- The rest behind blanks, comments and line ends. -/
def dropTrivia : Nat → List Char → Option (List Char)
  | 0, _ => none
  | fuel + 1, cs => do
    let rest ← dropComment (dropBlanks cs)
    match afterNewline? rest with
    | some rest => dropTrivia fuel rest
    | none => some rest

/-- A character of a key without quotes. -/
def isBareKey (c : Char) : Bool := c.isAlphanum || c == '-' || c == '_'

/-- One part of a key. -/
def scanKeyPart (cs : List Char) : Option (String × List Char) :=
  match cs with
  | '"' :: rest => (scanBasic (rest.length + 1) rest).map fun r => (String.ofList r.1, r.2)
  | '\'' :: rest => (scanLiteral rest).map fun r => (String.ofList r.1, r.2)
  | cs =>
    match cs.takeWhile isBareKey with
    | [] => none
    | word => some (String.ofList word, cs.dropWhile isBareKey)

/-- A key: parts with points between them. -/
def scanKeyUpTo : Nat → List Char → Option (List String × List Char)
  | 0, _ => none
  | fuel + 1, cs => do
    let (part, rest) ← scanKeyPart (dropBlanks cs)
    match dropBlanks rest with
    | '.' :: rest => do
      let (parts, rest) ← scanKeyUpTo fuel rest
      some (part :: parts, rest)
    | rest => some ([part], rest)

/-- A key: parts with points between them. -/
def scanKey (cs : List Char) : Option (List String × List Char) := scanKeyUpTo (cs.length + 1) cs

/-! ### Values -/

/-- How deep arrays and inline tables may nest. -/
def nestingLimit : Nat := 80

mutual

/-- A value.  `depth` bounds the nesting, and the fuel the number of steps. -/
def scanValue : Nat → Nat → List Char → Option (Toml × List Char)
  | 0, _, _ => none
  | fuel + 1, depth, cs =>
    match cs with
    | '[' :: rest =>
      match depth with
      | 0 => none
      | d + 1 => (scanItems fuel d rest).map fun r => (.array r.1, r.2)
    | '\x7b' :: rest =>
      match depth with
      | 0 => none
      | d + 1 => (scanEntries fuel d (.inline, []) rest).map fun r => (.table .inline r.1, r.2)
    | '"' :: _ => (scanString cs).map fun r => (.string r.1, r.2)
    | '\'' :: _ => (scanString cs).map fun r => (.string r.1, r.2)
    | cs => scanBare cs

/-- The items of an array up to its bracket. -/
def scanItems : Nat → Nat → List Char → Option (List Toml × List Char)
  | 0, _, _ => none
  | fuel + 1, depth, cs => do
    let rest ← dropTrivia (cs.length + 1) cs
    match rest with
    | ']' :: rest => some ([], rest)
    | rest => do
      let (v, rest) ← scanValue fuel depth rest
      let rest ← dropTrivia (rest.length + 1) rest
      match rest with
      | ']' :: rest => some ([v], rest)
      | ',' :: rest => do
        let (vs, rest) ← scanItems fuel depth rest
        some (v :: vs, rest)
      | _ => none

/-- The entries of an inline table up to its brace. -/
def scanEntries : Nat → Nat → Table → List Char → Option (List (String × Toml) × List Char)
  | 0, _, _, _ => none
  | fuel + 1, depth, t, cs => do
    let rest ← dropTrivia (cs.length + 1) cs
    match rest with
    | '\x7d' :: rest => some (t.2, rest)
    | rest => do
      let (keys, rest) ← scanKey rest
      let rest ← expect (· == '=') rest
      let (v, rest) ← scanValue fuel depth (dropBlanks rest)
      let t ← insertKey keys v t
      let rest ← dropTrivia (rest.length + 1) rest
      match rest with
      | '\x7d' :: rest => some (t.2, rest)
      | ',' :: rest => scanEntries fuel depth t rest
      | _ => none

end

/-! ### Documents -/

/-- The tables of a document so far, and the path of the last header. -/
structure Draft where
  root : Table := (.defined, [])
  header : List String := []

/-- A header with its brackets: whether it is repeated, its key, and the rest. -/
def scanHeader (cs : List Char) : Option (Bool × List String × List Char) :=
  match cs with
  | '[' :: '[' :: rest => do
    let (keys, rest) ← scanKey rest
    match rest with
    | ']' :: ']' :: rest => some (true, keys, rest)
    | _ => none
  | '[' :: rest => do
    let (keys, rest) ← scanKey rest
    match rest with
    | ']' :: rest => some (false, keys, rest)
    | _ => none
  | _ => none

/-- Reads one line, and gives the draft and the rest. -/
def readLine (d : Draft) (cs : List Char) : Option (Draft × List Char) :=
  match dropBlanks cs with
  | [] => some (d, [])
  | '[' :: rest => do
    let (repeated, keys, rest) ← scanHeader ('[' :: rest)
    let root ← if repeated then appendElement keys d.root else defineTable keys d.root
    let rest ← endLine rest
    some ({ root, header := keys }, rest)
  | '#' :: rest => (endLine ('#' :: rest)).map fun rest => (d, rest)
  | line =>
    match afterNewline? line with
    | some rest => some (d, rest)
    | none => do
      let (keys, rest) ← scanKey line
      let rest ← expect (· == '=') rest
      let (v, rest) ← scanValue (rest.length + 1) nestingLimit (dropBlanks rest)
      let root ← descend true (insertKey keys v) d.header d.root
      let rest ← endLine rest
      some ({ d with root }, rest)

/-- Reads lines up to the end. -/
def readLines : Nat → Draft → List Char → Option Draft
  | _, d, [] => some d
  | 0, _, _ => none
  | fuel + 1, d, cs => do
    let (d, rest) ← readLine d cs
    readLines fuel d rest

/-- Reads a document; a byte order mark at its start counts for nothing. -/
def read (text : String) : Option (List (String × Toml)) :=
  let cs := text.toList
  let cs := if cs.head? == some (Char.ofNat 0xFEFF) then cs.drop 1 else cs
  (readLines (cs.length + 1) {} cs).map fun d => d.root.2

end Toml

end WikiOutline
