/-
# Whole numbers in 64 bits

Positions and counters are natural numbers below 2^64; attribute integers are
the integers of the signed 64-bit range.  A decimal text names an integer when
it is an optional sign followed by at least one ASCII digit and the value lies
in that range.

Key definitions: `Word.maxNat`, `Word.minInt`, `Word.maxInt`, `Word.readInt?`.
-/

namespace WikiOutline

namespace Word

/-- The largest position or counter. -/
def maxNat : Nat := 0xffffffffffffffff

/-- The largest attribute integer. -/
def maxInt : Int := 0x7fffffffffffffff

/-- The smallest attribute integer. -/
def minInt : Int := -0x8000000000000000

/-- An integer lies in the signed 64-bit range. -/
def inRange (i : Int) : Bool := decide (minInt ≤ i) && decide (i ≤ maxInt)

/-- A natural number as an attribute integer: beyond the largest one it stays
at the largest one. -/
def clampNat (n : Nat) : Int := min (n : Int) maxInt

/-- The value of an ASCII digit. -/
def digitValue (c : Char) : Nat := c.toNat - '0'.toNat

/-- The value of a run of decimal digits, most significant first. -/
def digitsValue (ds : List Char) : Nat :=
  ds.foldl (fun n c => 10 * n + digitValue c) 0

/-- A nonempty run of decimal digits, read as a natural number. -/
def readDigits? (ds : List Char) : Option Nat :=
  if ds.isEmpty || !ds.all Char.isDigit then none else some (digitsValue ds)

/-- Keeps an integer only if it is in range. -/
def checked (i : Int) : Option Int := if inRange i then some i else none

/-- An optional sign, digits, and a value in range. -/
def readInt? : List Char → Option Int
  | '-' :: ds => (readDigits? ds).bind fun n => checked (-(n : Int))
  | '+' :: ds => (readDigits? ds).bind fun n => checked (n : Int)
  | ds => (readDigits? ds).bind fun n => checked (n : Int)

end Word

end WikiOutline
