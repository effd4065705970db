/-
# Heading anchors

A heading is addressed by an id: the one its author gave, or else the slug of
its label.  Within one page an id that was given out before gets a number.

Key definitions: `Anchor.slugify`, `HeadingIds`, `HeadingIds.assign`.
-/
import WikiOutline.Text.Alphanumeric
import WikiOutline.Text.Blank
import WikiOutline.Text.Lowercase

namespace WikiOutline

namespace Anchor

/-- A character that parts two words of a slug. -/
def isSeparator (c : Char) : Bool := Text.isBlank c || c == '-' || c == '_'

/-- Slugs the characters of a text.  `afterDash` holds at the start and behind a
dash: no other dash may follow there. -/
def slugChars : Bool → List Char → List Char
  | _, [] => []
  | afterDash, c :: cs =>
    if Text.isAlphanumeric c then Text.lowercase c ++ slugChars false cs
    else if !afterDash && isSeparator c then '-' :: slugChars true cs
    else slugChars afterDash cs

/-- A text without a dash at its end. -/
def dropLastDash (cs : List Char) : List Char :=
  if cs.getLast? == some '-' then cs.dropLast else cs

/-- The slug of a text: its letters and digits in lower case, a dash for the
separators between two of them, and nothing for all else. -/
def slugify (text : String) : String :=
  String.ofList (dropLastDash (slugChars true (Text.trim text.toList)))

/-- The slug of a label that leaves none. -/
def fallback : String := "section"

/-- What the id of a heading is made of. -/
def base (explicit : Option String) (label : String) : String :=
  match explicit with
  | some id => id
  | none =>
    let slug := slugify label
    if slug.isEmpty then fallback else slug

end Anchor

/-- The bases of the ids given out on one page, the latest first. -/
structure HeadingIds where
  bases : List String := []
  deriving Inhabited

namespace HeadingIds

/-- Gives out an id: its base, with the number of earlier ids of the same base if
there are any. -/
def assign (ids : HeadingIds) (explicit : Option String) (label : String) :
    String × HeadingIds :=
  let base := Anchor.base explicit label
  let count := ids.bases.count base
  (if count = 0 then base else base ++ "-" ++ toString count, ⟨base :: ids.bases⟩)

end HeadingIds

end WikiOutline
