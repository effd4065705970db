/-
# Reading JSON

The reader walks a list of characters.  Each scanner gives what it read and the
characters behind it.  A string is scanned twice over when its escapes do not
all name characters: it then cannot be read but can be skipped.  The nesting is
bounded by the length of the text, which is the fuel of the reader.

Key definitions: `Json.scanString`, `Json.scanNumber`, `Json.read`.
-/
import WikiOutline.Json.Basic

namespace WikiOutline

namespace Json

/-- The blanks between the parts of a document. -/
def isSpace (c : Char) : Bool := c == ' ' || c == '\n' || c == '\t' || c == '\r'

/-- The text behind its blanks. -/
def dropSpace (cs : List Char) : List Char := cs.dropWhile isSpace

/-! ### Strings -/

/-- The value of a hexadecimal digit. -/
def hexValue? (c : Char) : Option Nat :=
  if '0' ≤ c && c ≤ '9' then some (c.toNat - '0'.toNat)
  else if 'a' ≤ c && c ≤ 'f' then some (c.toNat - 'a'.toNat + 10)
  else if 'A' ≤ c && c ≤ 'F' then some (c.toNat - 'A'.toNat + 10)
  else none

/-- How many bytes the characters take in UTF-8, counted up to `limit`. -/
def byteCountUpTo (limit : Nat) : List Char → Nat
  | [] => 0
  | c :: cs => if limit = 0 then 0 else min limit (c.utf8Size + byteCountUpTo (limit - 1) cs)

/-- Four hexadecimal digits.  Fewer than four bytes are a text cut short. -/
def scanHexFour (cs : List Char) : Except Fault (Nat × List Char) :=
  match cs with
  | a :: b :: c :: d :: rest =>
    match hexValue? a, hexValue? b, hexValue? c, hexValue? d with
    | some a, some b, some c, some d => .ok (4096 * a + 256 * b + 16 * c + d, rest)
    | _, _, _, _ => .error .malformed
  | cs => if byteCountUpTo 4 cs < 4 then .error .truncated else .error .malformed

/-- The character of a one-letter escape. -/
def simpleEscape? : Char → Option Char
  | '"' => some '"'
  | '\\' => some '\\'
  | '/' => some '/'
  | 'b' => some (Char.ofNat 8)
  | 'f' => some (Char.ofNat 12)
  | 'n' => some '\n'
  | 'r' => some '\r'
  | 't' => some '\t'
  | _ => none

/-- The rest of an escape by number, behind its letter.  A leading surrogate
wants a trailing one behind it, and none may stand alone. -/
def scanUnicodeEscape (cs : List Char) : Except Fault (Char × List Char) := do
  let (n, rest) ← scanHexFour cs
  if 0xDC00 ≤ n && n ≤ 0xDFFF then .error .malformed
  else if n < 0xD800 || 0xDBFF < n then .ok (Char.ofNat n, rest)
  else
    match rest with
    | [] => .error .truncated
    | ['\\'] => .error .truncated
    | '\\' :: 'u' :: rest => do
      let (m, rest) ← scanHexFour rest
      if m < 0xDC00 || 0xDFFF < m then .error .malformed
      else .ok (Char.ofNat ((n - 0xD800) * 0x400 + (m - 0xDC00) + 0x10000), rest)
    | _ => .error .malformed

/-- The characters of a string up to the closing quote, and what comes behind
it; the fuel is at least the length of the text. -/
def scanStringBody : Nat → List Char → Except Fault (List Char × List Char)
  | 0, _ => .error .truncated
  | _ + 1, [] => .error .truncated
  | _ + 1, '"' :: rest => .ok ([], rest)
  | _ + 1, ['\\'] => .error .truncated
  | fuel + 1, '\\' :: 'u' :: rest => do
    let (c, rest) ← scanUnicodeEscape rest
    let (s, rest) ← scanStringBody fuel rest
    .ok (c :: s, rest)
  | fuel + 1, '\\' :: e :: rest =>
    match simpleEscape? e with
    | none => .error .malformed
    | some c => do
      let (s, rest) ← scanStringBody fuel rest
      .ok (c :: s, rest)
  | fuel + 1, c :: rest =>
    if c.toNat < 32 then .error .malformed
    else do
      let (s, rest) ← scanStringBody fuel rest
      .ok (c :: s, rest)

/-- What comes behind the closing quote of a string that is skipped: escapes by
number need not name characters. -/
def skipStringBody : Nat → List Char → Except Fault (List Char)
  | 0, _ => .error .truncated
  | _ + 1, [] => .error .truncated
  | _ + 1, '"' :: rest => .ok rest
  | _ + 1, ['\\'] => .error .truncated
  | fuel + 1, '\\' :: 'u' :: rest => do
    let (_, rest) ← scanHexFour rest
    skipStringBody fuel rest
  | fuel + 1, '\\' :: e :: rest =>
    match simpleEscape? e with
    | none => .error .malformed
    | some _ => skipStringBody fuel rest
  | fuel + 1, c :: rest =>
    if c.toNat < 32 then .error .malformed else skipStringBody fuel rest

/-- A string behind its opening quote. -/
def scanString (cs : List Char) : Except Fault (String × List Char) := do
  let (s, rest) ← scanStringBody (cs.length + 1) cs
  .ok (String.ofList s, rest)

/-- Skips a string behind its opening quote. -/
def skipString (cs : List Char) : Except Fault (List Char) :=
  skipStringBody (cs.length + 1) cs

/-! ### Numbers -/

/-- The digits at the start of a text, and the rest. -/
def spanDigits (cs : List Char) : List Char × List Char :=
  (cs.takeWhile Char.isDigit, cs.dropWhile Char.isDigit)

/-- The parts of a number: digits before and after the point, and the exponent. -/
structure Numeral where
  whole : List Char
  fraction : Option (List Char)
  exponent : Option (Bool × List Char)

/-- Adds digits to a whole number as long as it stays within 64 bits.  Gives the
number and how many digits were left over. -/
def gatherDigits : Nat → List Char → Nat × Nat
  | n, [] => (n, 0)
  | n, d :: ds =>
    if 10 * n + Word.digitValue d ≤ Word.maxNat then gatherDigits (10 * n + Word.digitValue d) ds
    else (n, ds.length + 1)

/-- The digits of a number as a whole number times a power of ten: digits beyond
64 bits are dropped, before the point they count in the power. -/
def Numeral.parts (x : Numeral) : Nat × Int :=
  let (n, dropped) := gatherDigits 0 x.whole
  match x.fraction with
  | none => (n, dropped)
  | some ds =>
    let (m, left) := gatherDigits n ds
    (m, (dropped : Int) - ((ds.length - left : Nat) : Int))

/-- The largest exponent that is counted. -/
def exponentLimit : Nat := 0x7fffffff

/-- The number a numeral names, unless it is beyond all binary64 numbers. -/
def Numeral.value? (minus : Bool) (x : Numeral) : Option Number :=
  let (n, power) := x.parts
  match x.fraction, x.exponent with
  | none, none =>
    if power = 0 then
      if !minus then some (.natural n)
      else if 0 < n && Word.minInt ≤ -(n : Int) then some (.negative n)
      else (Binary64.nearest n 1).map (.float minus)
    else (Binary64.ofParts n power).map (.float minus)
  | _, none => (Binary64.ofParts n power).map (.float minus)
  | _, some (below, ds) =>
    let e := Word.digitsValue ds
    if exponentLimit < e then
      if n ≠ 0 && !below then none else some (.float minus Binary64.zero)
    else (Binary64.ofParts n (if below then power - e else power + e)).map (.float minus)

/-- The exponent of a number, if there is one.  A text that ends in the exponent
is cut short for a reader but malformed for one who skips. -/
def scanExponent (cs : List Char) :
    Except (Fault × Fault) (Option (Bool × List Char) × List Char) :=
  match cs with
  | e :: rest =>
    if e = 'e' || e = 'E' then
      let (below, rest) :=
        match rest with
        | '+' :: rest => (false, rest)
        | '-' :: rest => (true, rest)
        | rest => (false, rest)
      match spanDigits rest with
      | ([], []) => .error (.truncated, .malformed)
      | ([], _) => .error (.malformed, .malformed)
      | (ds, rest) => .ok (some (below, ds), rest)
    else .ok (none, cs)
  | [] => .ok (none, [])

/-- The digits after the point, if there is one. -/
def scanFraction (cs : List Char) : Except (Fault × Fault) (Option (List Char) × List Char) :=
  match cs with
  | '.' :: rest =>
    match spanDigits rest with
    | ([], []) => .error (.truncated, .malformed)
    | ([], _) => .error (.malformed, .malformed)
    | (ds, rest) => .ok (some ds, rest)
  | _ => .ok (none, cs)

/-- A numeral without its sign: no leading zero, a digit on both sides of the
point. -/
def scanNumeral (cs : List Char) : Except (Fault × Fault) (Numeral × List Char) := do
  let (whole, rest) ←
    match spanDigits cs with
    | ([], []) => .error (.truncated, .malformed)
    | ([], _) => .error (.malformed, .malformed)
    | ('0' :: _ :: _, _) => .error (.malformed, .malformed)
    | (ds, rest) => .ok (ds, rest)
  let (fraction, rest) ← scanFraction rest
  let (exponent, rest) ← scanExponent rest
  .ok (⟨whole, fraction, exponent⟩, rest)

/-- A number behind its sign, as a tree, and the rest. -/
def scanNumber (minus : Bool) (cs : List Char) : Json × List Char :=
  match scanNumeral cs with
  | .error (read, skipped) => (.unreadable read (some skipped), [])
  | .ok (x, rest) =>
    match x.value? minus with
    | some n => (.number n, rest)
    | none => (.unreadable .malformed none, rest)

/-! ### Values -/

/-- A word of the language behind its first letter. -/
def scanWord (value : Json) : List Char → List Char → Json × List Char
  | [], rest => (value, rest)
  | _ :: _, [] => (.unreadable .truncated (some .truncated), [])
  | w :: ws, c :: rest =>
    if w = c then scanWord value ws rest else (.unreadable .malformed (some .malformed), [])

/-- A string behind its opening quote, as a tree, and the rest. -/
def scanText (cs : List Char) : Json × List Char :=
  match scanString cs with
  | .ok (s, rest) => (.string s, rest)
  | .error fault =>
    match skipString cs with
    | .ok rest => (.unreadable fault none, rest)
    | .error skipped => (.unreadable fault (some skipped), [])

/-- A name behind its opening quote, and the rest if it can be skipped. -/
def scanName (cs : List Char) : Name × Except Fault (List Char) :=
  match scanString cs with
  | .ok (s, rest) => (.known s, .ok rest)
  | .error fault => (.unreadable fault, skipString cs)

mutual

/-- One value and the rest.  Where reading stops for good the rest is empty and
the value says why. -/
def scanValue : Nat → List Char → Json × List Char
  | 0, _ => (.unreadable .malformed (some .malformed), [])
  | fuel + 1, cs =>
    match dropSpace cs with
    | [] => (.unreadable .truncated (some .truncated), [])
    | '"' :: rest => scanText rest
    | '-' :: rest => scanNumber true rest
    | '[' :: rest => scanItems fuel true rest
    | '{' :: rest => scanMembers fuel true rest
    | 'n' :: rest => scanWord .null "ull".toList rest
    | 't' :: rest => scanWord (.bool true) "rue".toList rest
    | 'f' :: rest => scanWord (.bool false) "alse".toList rest
    | c :: rest =>
      if c.isDigit then scanNumber false (c :: rest)
      else (.unreadable .malformed (some .malformed), [])

/-- The items of an array up to its closing bracket; `first` before the first
one. -/
def scanItems : Nat → Bool → List Char → Json × List Char
  | 0, _, _ => (.array [] (some .malformed), [])
  | fuel + 1, first, cs =>
    match first, dropSpace cs with
    | _, [] => (.array [] (some .truncated), [])
    | _, ']' :: rest => (.array [] none, rest)
    | false, ',' :: rest => scanItem fuel rest
    | false, _ => (.array [] (some .malformed), [])
    | true, rest => scanItem fuel rest

/-- One item and those behind it. -/
def scanItem : Nat → List Char → Json × List Char
  | 0, _ => (.array [] (some .malformed), [])
  | fuel + 1, cs =>
    let (v, rest) := scanValue fuel cs
    match v.skip with
    | some _ => (.array [v] none, [])
    | none =>
      match scanItems fuel false rest with
      | (.array vs stop, rest) => (.array (v :: vs) stop, rest)
      | other => other

/-- The members of an object up to its closing brace; `first` before the first
one. -/
def scanMembers : Nat → Bool → List Char → Json × List Char
  | 0, _, _ => (.object [] (some .malformed), [])
  | fuel + 1, first, cs =>
    match first, dropSpace cs with
    | _, [] => (.object [] (some .truncated), [])
    | _, '}' :: rest => (.object [] none, rest)
    | true, '"' :: rest => scanMember fuel rest
    | true, _ => (.object [] (some .malformed), [])
    | false, ',' :: rest =>
      match dropSpace rest with
      | [] => (.object [] (some .truncated), [])
      | '"' :: rest => scanMember fuel rest
      | _ => (.object [] (some .malformed), [])
    | false, _ => (.object [] (some .malformed), [])

/-- One member behind the opening quote of its name, and those behind it. -/
def scanMember : Nat → List Char → Json × List Char
  | 0, _ => (.object [] (some .malformed), [])
  | fuel + 1, cs =>
    match scanName cs with
    | (name, .error fault) => (.object [(name, .unreadable fault (some fault))] none, [])
    | (name, .ok rest) =>
      match dropSpace rest with
      | ':' :: rest =>
        let (v, rest) := scanValue fuel rest
        match v.skip with
        | some _ => (.object [(name, v)] none, [])
        | none =>
          match scanMembers fuel false rest with
          | (.object ms stop, rest) => (.object ((name, v) :: ms) stop, rest)
          | other => other
      | [] => (.object [(name, .unreadable .truncated (some .truncated))] none, [])
      | _ => (.object [(name, .unreadable .malformed (some .malformed))] none, [])

end

/-- Reads a text as one value with blanks around it. -/
def read (text : String) : Document :=
  let cs := text.toList
  let (root, rest) := scanValue (3 * cs.length + 3) cs
  ⟨root, (dropSpace rest).isEmpty⟩

end Json

end WikiOutline
