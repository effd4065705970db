/-
# Blank characters

The blank characters are those of the Unicode property White_Space.  Trimming
and splitting into words go by it.

Key definitions: `Text.isBlank`, `Text.trim`, `Text.words`, `Text.squeeze`,
`Text.splitLines`.
-/

namespace WikiOutline

namespace Text

/-- The Unicode property White_Space. -/
def isBlank (c : Char) : Bool :=
  let n := c.toNat
  (0x09 ≤ n && n ≤ 0x0D) || n == 0x20 || n == 0x85 || n == 0xA0 || n == 0x1680 ||
    (0x2000 ≤ n && n ≤ 0x200A) || n == 0x2028 || n == 0x2029 || n == 0x202F ||
    n == 0x205F || n == 0x3000

/-- A text without a character that is not blank. -/
def allBlank (cs : List Char) : Bool := cs.all isBlank

/-- Removes the last characters that satisfy `p`. -/
def dropEndWhile (p : Char → Bool) (cs : List Char) : List Char :=
  (cs.reverse.dropWhile p).reverse

/-- Removes the blanks at both ends. -/
def trim (cs : List Char) : List Char := dropEndWhile isBlank (cs.dropWhile isBlank)

/-- The maximal runs of characters outside the separators `sep`; `piece` is the
run being read. -/
def splitRuns (sep : Char → Bool) : List Char → List Char → List (List Char)
  | piece, [] => if piece.isEmpty then [] else [piece]
  | piece, c :: cs =>
    if sep c then
      if piece.isEmpty then splitRuns sep [] cs else piece :: splitRuns sep [] cs
    else splitRuns sep (piece ++ [c]) cs

/-- The words of a text: its maximal runs without a blank. -/
def words (cs : List Char) : List (List Char) := splitRuns isBlank [] cs

/-- The words of a text, one space between two of them. -/
def squeeze (cs : List Char) : List Char := List.intercalate [' '] (words cs)

/-- The pieces between line feeds. -/
def splitLines : List Char → List (List Char)
  | [] => [[]]
  | '\n' :: cs => [] :: splitLines cs
  | c :: cs =>
    match splitLines cs with
    | [] => [[c]]
    | l :: ls => (c :: l) :: ls

/-- How many lines of a text hold a character that is not blank. -/
def countFilledLines (cs : List Char) : Nat :=
  (splitLines cs).countP fun l => !allBlank l

end Text

end WikiOutline
