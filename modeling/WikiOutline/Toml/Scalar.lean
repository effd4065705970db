/-
# TOML strings, numbers and dates

Strings stand between quotes or apostrophes, on one line or between three of
them on many.  Digits of a number may be parted by single underscores.  A scalar
without quotes is read as far as its characters go and then told apart as a
whole.

Key definitions: `Toml.scanString`, `Toml.readInteger?`, `Toml.isFloat`,
`Toml.isDateTime`, `Toml.readBare?`.
-/
import WikiOutline.Json.Reader
import WikiOutline.Toml.Basic

namespace WikiOutline

namespace Toml

/-- A control character that may stand nowhere in a document. -/
def isControl (c : Char) : Bool := (c.toNat < 0x20 && c != '\t') || c.toNat == 0x7F

/-- The rest behind a line end. -/
def afterNewline? : List Char → Option (List Char)
  | '\n' :: rest => some rest
  | '\r' :: '\n' :: rest => some rest
  | _ => none

/-- A text without its blanks at the start. -/
def dropBlanks (cs : List Char) : List Char := cs.dropWhile fun c => c == ' ' || c == '\t'

/-! ### Strings -/

/-- The character of an escape by a fixed number of hexadecimal digits. -/
def scanHexEscape (digits : Nat) (cs : List Char) : Option (Char × List Char) := do
  let ds := cs.take digits
  let values ← ds.mapM Json.hexValue?
  let n := values.foldl (fun n d => 16 * n + d) 0
  if ds.length = digits && (n < 0xD800 || (0xDFFF < n && n < 0x110000)) then
    some (Char.ofNat n, cs.drop digits)
  else none

/-- The character of an escape, behind its backslash. -/
def scanEscape : List Char → Option (Char × List Char)
  | 'b' :: rest => some (Char.ofNat 8, rest)
  | 't' :: rest => some ('\t', rest)
  | 'n' :: rest => some ('\n', rest)
  | 'f' :: rest => some (Char.ofNat 12, rest)
  | 'r' :: rest => some ('\r', rest)
  | 'e' :: rest => some (Char.ofNat 27, rest)
  | '"' :: rest => some ('"', rest)
  | '\\' :: rest => some ('\\', rest)
  | 'x' :: rest => scanHexEscape 2 rest
  | 'u' :: rest => scanHexEscape 4 rest
  | 'U' :: rest => scanHexEscape 8 rest
  | _ => none

/-- The rest of a string on one line, up to its quote. -/
def scanBasic : Nat → List Char → Option (List Char × List Char)
  | 0, _ => none
  | _, [] => none
  | _ + 1, '"' :: rest => some ([], rest)
  | fuel + 1, '\\' :: rest => do
    let (c, rest) ← scanEscape rest
    let (s, rest) ← scanBasic fuel rest
    some (c :: s, rest)
  | fuel + 1, c :: rest =>
    if isControl c then none
    else do
      let (s, rest) ← scanBasic fuel rest
      some (c :: s, rest)

/-- The rest of a string between apostrophes on one line. -/
def scanLiteral : List Char → Option (List Char × List Char)
  | [] => none
  | '\'' :: rest => some ([], rest)
  | c :: rest =>
    if isControl c then none
    else do
      let (s, rest) ← scanLiteral rest
      some (c :: s, rest)

/-- How many quotes a text begins with. -/
def countQuotes (quote : Char) (cs : List Char) : Nat := (cs.takeWhile (· == quote)).length

/-- The rest behind a line end, all blanks and further line ends, if there is a
line end behind the blanks. -/
def afterLineBreaks? (cs : List Char) : Option (List Char) := do
  let rest ← afterNewline? (dropBlanks cs)
  some (rest.dropWhile fun c => c == ' ' || c == '\t' || c == '\n' || c == '\r')

/-- The rest of a string on many lines.  Up to two quotes more than the closing
three belong to the string. -/
def scanMany (quote : Char) (escapes : Bool) : Nat → List Char → Option (List Char × List Char)
  | 0, _ => none
  | _, [] => none
  | fuel + 1, c :: rest =>
    if c = quote then
      let n := countQuotes quote (c :: rest)
      if 5 < n then none
      else if 3 ≤ n then some (List.replicate (n - 3) quote, (c :: rest).drop n)
      else do
        let (s, rest) ← scanMany quote escapes fuel rest
        some (c :: s, rest)
    else if c = '\\' && escapes then
      match afterLineBreaks? rest with
      | some rest => scanMany quote escapes fuel rest
      | none => do
        let (d, rest) ← scanEscape rest
        let (s, rest) ← scanMany quote escapes fuel rest
        some (d :: s, rest)
    else
      match afterNewline? (c :: rest) with
      | some rest => do
        let (s, rest) ← scanMany quote escapes fuel rest
        some ('\n' :: s, rest)
      | none =>
        if isControl c then none
        else do
          let (s, rest) ← scanMany quote escapes fuel rest
          some (c :: s, rest)

/-- A text behind the line end it may begin with. -/
def dropFirstNewline (cs : List Char) : List Char := (afterNewline? cs).getD cs

/-- A string of any form. -/
def scanString (cs : List Char) : Option (String × List Char) :=
  let found :=
    match cs with
    | '"' :: '"' :: '"' :: rest =>
      scanMany '"' true (rest.length + 1) (dropFirstNewline rest)
    | '\'' :: '\'' :: '\'' :: rest =>
      scanMany '\'' false (rest.length + 1) (dropFirstNewline rest)
    | '"' :: rest => scanBasic (rest.length + 1) rest
    | '\'' :: rest => scanLiteral rest
    | _ => none
  found.map fun r => (String.ofList r.1, r.2)

/-! ### Numbers -/

/-- Digits of some base, with single underscores between two of them. -/
def plainDigits? (isDigit : Char → Bool) : List Char → Option (List Char)
  | [] => none
  | [d] => if isDigit d then some [d] else none
  | d :: '_' :: rest => if isDigit d then (plainDigits? isDigit rest).map (d :: ·) else none
  | d :: rest => if isDigit d then (plainDigits? isDigit rest).map (d :: ·) else none

/-- The value of digits of some base. -/
def digitsInBase (base : Nat) (ds : List Char) : Nat :=
  ds.foldl (fun n d => base * n + (Json.hexValue? d).getD 0) 0

/-- A digit of a base up to sixteen. -/
def isDigitOf (base : Nat) (c : Char) : Bool := (Json.hexValue? c).any (· < base)

/-- A decimal number without sign or leading zero. -/
def readDecimal? (cs : List Char) : Option Nat := do
  let ds ← plainDigits? Char.isDigit cs
  if ds.head? == some '0' && 1 < ds.length then none else some (digitsInBase 10 ds)

/-- An integer, decimal with a sign or in base sixteen, eight or two without. -/
def readInteger? : List Char → Option Int
  | '0' :: 'x' :: cs => (plainDigits? (isDigitOf 16) cs).map fun ds => digitsInBase 16 ds
  | '0' :: 'o' :: cs => (plainDigits? (isDigitOf 8) cs).map fun ds => digitsInBase 8 ds
  | '0' :: 'b' :: cs => (plainDigits? (isDigitOf 2) cs).map fun ds => digitsInBase 2 ds
  | '+' :: cs => (readDecimal? cs).map fun n => (n : Int)
  | '-' :: cs => (readDecimal? cs).map fun n => -(n : Int)
  | cs => (readDecimal? cs).map fun n => (n : Int)

/-- A text without the sign it may begin with. -/
def dropSign : List Char → List Char
  | '+' :: cs => cs
  | '-' :: cs => cs
  | cs => cs

/-- A whole part, and a fraction or an exponent or both; or a name. -/
def isFloat (cs : List Char) : Bool :=
  let cs := dropSign cs
  if cs == "inf".toList || cs == "nan".toList then true
  else
    let mantissa := cs.takeWhile fun c => c != 'e' && c != 'E'
    let exponent := cs.dropWhile fun c => c != 'e' && c != 'E'
    let whole := mantissa.takeWhile (· != '.')
    let fraction := mantissa.dropWhile (· != '.')
    (readDecimal? whole).isSome &&
      (match fraction with
        | [] => !exponent.isEmpty
        | _ :: ds => (plainDigits? Char.isDigit ds).isSome) &&
      (match exponent with
        | [] => true
        | _ :: ds => (plainDigits? Char.isDigit (dropSign ds)).isSome)

/-! ### Dates and times -/

/-- A number of exactly so many digits, and the rest. -/
def scanFixed (digits : Nat) (cs : List Char) : Option (Nat × List Char) :=
  let ds := cs.take digits
  if ds.length = digits && ds.all Char.isDigit then some (digitsInBase 10 ds, cs.drop digits)
  else none

/-- The rest behind a character. -/
def expect (p : Char → Bool) : List Char → Option (List Char)
  | c :: cs => if p c then some cs else none
  | [] => none

/-- The days of a month. -/
def daysInMonth (year month : Nat) : Nat :=
  if month = 2 then
    if year % 4 = 0 && (year % 100 != 0 || year % 400 == 0) then 29 else 28
  else if month = 4 || month = 6 || month = 9 || month = 11 then 30
  else 31

/-- The rest behind a date. -/
def afterDate? (cs : List Char) : Option (List Char) := do
  let (year, cs) ← scanFixed 4 cs
  let cs ← expect (· == '-') cs
  let (month, cs) ← scanFixed 2 cs
  let cs ← expect (· == '-') cs
  let (day, cs) ← scanFixed 2 cs
  if 1 ≤ month && month ≤ 12 && 1 ≤ day && day ≤ daysInMonth year month then some cs else none

/-- The rest behind a time; the seconds and their fraction may be left out. -/
def afterTime? (cs : List Char) : Option (List Char) := do
  let (hour, cs) ← scanFixed 2 cs
  let cs ← expect (· == ':') cs
  let (minute, cs) ← scanFixed 2 cs
  if 23 < hour || 59 < minute then none
  else
    match cs with
    | ':' :: cs => do
      let (second, cs) ← scanFixed 2 cs
      if 60 < second then none
      else
        match cs with
        | '.' :: cs =>
          match cs.takeWhile Char.isDigit with
          | [] => none
          | _ => some (cs.dropWhile Char.isDigit)
        | cs => some cs
    | cs => some cs

/-- The rest behind an offset from universal time. -/
def afterOffset? : List Char → Option (List Char)
  | 'Z' :: cs => some cs
  | 'z' :: cs => some cs
  | s :: cs =>
    if s = '+' || s = '-' then do
      let (hour, cs) ← scanFixed 2 cs
      let cs ← expect (· == ':') cs
      let (minute, cs) ← scanFixed 2 cs
      if hour ≤ 23 && minute ≤ 59 then some cs else none
    else none
  | [] => none

/-- A date, a time, or both with an offset or without. -/
def isDateTime (cs : List Char) : Bool :=
  match afterDate? cs with
  | some [] => true
  | some (t :: rest) =>
    if t = 'T' || t = 't' || t = ' ' then
      match afterTime? rest with
      | some [] => true
      | some rest => afterOffset? rest == some []
      | none => false
    else false
  | none => afterTime? cs == some []

/-! ### Scalars without quotes -/

/-- A character of a scalar without quotes. -/
def isBareValue (c : Char) : Bool :=
  c.isAlphanum || c == '+' || c == '-' || c == '_' || c == '.' || c == ':'

/-- The value of a scalar without quotes. -/
def readBare? (cs : List Char) : Option Toml :=
  if cs == "true".toList then some (.boolean true)
  else if cs == "false".toList then some (.boolean false)
  else
    match readInteger? cs with
    | some i => some (.integer i)
    | none =>
      if isFloat cs then some .float
      else if isDateTime cs then some .dateTime
      else none

/-- A scalar without quotes, and the rest.  One space may part a date from a
time. -/
def scanBare (cs : List Char) : Option (Toml × List Char) := do
  let word := cs.takeWhile isBareValue
  let rest := cs.dropWhile isBareValue
  let (word, rest) :=
    match rest with
    | ' ' :: d :: more =>
      if d.isDigit && afterDate? word == some [] then
        (word ++ ' ' :: (d :: more).takeWhile isBareValue, (d :: more).dropWhile isBareValue)
      else (word, rest)
    | _ => (word, rest)
  let v ← readBare? word
  some (v, rest)

end Toml

end WikiOutline
