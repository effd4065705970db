/-
# Writing JSON

A tree is written without blanks.  In a string the quote, the backslash and the
characters below U+0020 are escaped and all others stand for themselves.

Key definitions: `Json.escape`, `Json.quote`, `Json.print`.
-/
import WikiOutline.Json.Basic

namespace WikiOutline

namespace Json

/-- A hexadecimal digit, in lower case. -/
def hexDigit (n : Nat) : Char :=
  if n < 10 then Char.ofNat ('0'.toNat + n) else Char.ofNat ('a'.toNat + (n - 10))

/-- The four hexadecimal digits of a number below 2^16. -/
def hexFour (n : Nat) : List Char :=
  [hexDigit (n / 4096 % 16), hexDigit (n / 256 % 16), hexDigit (n / 16 % 16), hexDigit (n % 16)]

/-- A character inside a string. -/
def escapeChar (c : Char) : List Char :=
  if c = '"' then ['\\', '"']
  else if c = '\\' then ['\\', '\\']
  else if c = '\n' then ['\\', 'n']
  else if c = '\r' then ['\\', 'r']
  else if c = '\t' then ['\\', 't']
  else if c.toNat = 8 then ['\\', 'b']
  else if c.toNat = 12 then ['\\', 'f']
  else if c.toNat < 32 then '\\' :: 'u' :: hexFour c.toNat
  else [c]

/-- The characters of a string, escaped. -/
def escape (cs : List Char) : List Char := cs.flatMap escapeChar

/-- A string in quotes. -/
def quote (s : String) : List Char := '"' :: escape s.toList ++ ['"']

/-- The text of a number. -/
def Number.chars : Number → List Char
  | .natural n => (toString n).toList
  | .negative n => '-' :: (toString n).toList
  | .float minus size => (if minus then ['-'] else []) ++ size.text.toList

/-- The text of a name. -/
def Name.chars : Name → List Char
  | .known s => quote s
  | .unreadable _ => quote ""

mutual

/-- The text of a tree. -/
def chars : Json → List Char
  | .null => "null".toList
  | .bool true => "true".toList
  | .bool false => "false".toList
  | .number n => n.chars
  | .string s => quote s
  | .array items _ => '[' :: charsItems items ++ [']']
  | .object members _ => '{' :: charsMembers members ++ ['}']
  | .unreadable _ _ => "null".toList

/-- The text of items, a comma between two of them. -/
def charsItems : List Json → List Char
  | [] => []
  | [v] => chars v
  | v :: vs => chars v ++ ',' :: charsItems vs

/-- The text of members, a comma between two of them. -/
def charsMembers : List (Name × Json) → List Char
  | [] => []
  | [m] => m.1.chars ++ ':' :: chars m.2
  | m :: ms => m.1.chars ++ ':' :: chars m.2 ++ ',' :: charsMembers ms

end

/-- A tree as a text. -/
def print (j : Json) : String := String.ofList (chars j)

end Json

end WikiOutline
