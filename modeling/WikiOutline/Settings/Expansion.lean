/-
# Variables in settings

A text may name variables: `$NAME`, or `NAME` between braces behind the dollar,
there with a default behind `:-`.  Two dollars are one.  Values and defaults are
taken as they are.

Key definitions: `Expansion.expand`.
-/
import WikiOutline.Text.Alphanumeric

namespace WikiOutline

namespace Expansion

/-- A character of a name without braces. -/
def isNameChar (c : Char) : Bool := Text.isAlphanumeric c || c == '_'

/-- What comes before and behind the first `:-`. -/
def splitDefault? : List Char → Option (List Char × List Char)
  | [] => none
  | ':' :: '-' :: rest => some ([], rest)
  | c :: rest => (splitDefault? rest).map fun r => (c :: r.1, r.2)

/-- The name between braces and its default.  A `:-` that nothing comes before
does not part them. -/
def parseBraced (body : List Char) : List Char × Option (List Char) :=
  match splitDefault? body with
  | some ([], _) => (body, none)
  | some (name, value) => (name, some value)
  | none => (body, none)

/-- The value of a variable, else its default, else the name as an error. -/
def lookUp (env : String → Option String) (name : List Char) (value : Option (List Char)) :
    Except String (List Char) :=
  match env (String.ofList name), value with
  | some v, _ => .ok v.toList
  | none, some v => .ok v
  | none, none => .error (String.ofList name)

/-- Expands a text; the fuel is at least its length. -/
def expandUpTo (env : String → Option String) : Nat → List Char → Except String (List Char)
  | 0, _ => .ok []
  | _, [] => .ok []
  | fuel + 1, '$' :: '\x7b' :: rest =>
    if rest.contains '\x7d' then do
      let (name, value) := parseBraced (rest.takeWhile (· != '\x7d'))
      let v ← lookUp env name value
      let more ← expandUpTo env fuel ((rest.dropWhile (· != '\x7d')).drop 1)
      .ok (v ++ more)
    else do
      let more ← expandUpTo env fuel rest
      .ok ('$' :: '\x7b' :: more)
  | fuel + 1, '$' :: '$' :: rest => do
    let more ← expandUpTo env fuel rest
    .ok ('$' :: more)
  | fuel + 1, '$' :: rest =>
    match rest.takeWhile isNameChar with
    | [] => do
      let more ← expandUpTo env fuel rest
      .ok ('$' :: more)
    | name => do
      let v ← lookUp env name none
      let more ← expandUpTo env fuel (rest.dropWhile isNameChar)
      .ok (v ++ more)
  | fuel + 1, c :: rest => do
    let more ← expandUpTo env fuel rest
    .ok (c :: more)

/-- Expands the variables of a text; an error names the variable that is not
set. -/
def expand (env : String → Option String) (text : String) : Except String String := do
  let cs ← expandUpTo env (text.toList.length + 1) text.toList
  .ok (String.ofList cs)

end Expansion

end WikiOutline
