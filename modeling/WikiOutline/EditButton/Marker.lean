/-
# Replacing markers

In a finished page every marker is replaced by what its button is rendered as.  A
marker begins where its opening is found and ends at the first closing behind
it.

Key definitions: `EditButton.cutAt`, `EditButton.splitMarkers`,
`EditButton.replaceMarkers`.
-/
import WikiOutline.EditButton

namespace WikiOutline

namespace EditButton

/-- The rest of a text behind a pattern it begins with. -/
def afterPattern? : List Char → List Char → Option (List Char)
  | [], cs => some cs
  | _ :: _, [] => none
  | p :: ps, c :: cs => if p = c then afterPattern? ps cs else none

/-- What comes before the first place where a pattern stands, and behind it. -/
def cutAt (pattern : List Char) : List Char → Option (List Char × List Char)
  | [] => (afterPattern? pattern []).map fun rest => ([], rest)
  | c :: cs =>
    match afterPattern? pattern (c :: cs) with
    | some rest => some ([], rest)
    | none => (cutAt pattern cs).map fun r => (c :: r.1, r.2)

/-- The opening of a marker with the brace of the JSON text. -/
def bracedOpen : List Char := markerOpen ++ ['{']

/-- The closing of a marker with the brace of the JSON text. -/
def bracedClose : List Char := '}' :: markerClose

/-- The text before the first marker, the JSON text in it, and what comes
behind. -/
def firstMarker? (page : List Char) : Option (List Char × List Char × List Char) := do
  let (before, rest) ← cutAt bracedOpen page
  let (body, rest) ← cutAt bracedClose rest
  some (before, '{' :: body ++ ['}'], rest)

/-- The markers of a page, each as the text before it and the JSON text in it,
and the text behind the last one.  The fuel is at least the length of the
page. -/
def splitMarkersUpTo : Nat → List Char → List (List Char × List Char) × List Char
  | 0, page => ([], page)
  | fuel + 1, page =>
    match firstMarker? page with
    | none => ([], page)
    | some (before, json, rest) =>
      let (markers, last) := splitMarkersUpTo fuel rest
      ((before, json) :: markers, last)

/-- The markers of a page and the text behind the last one. -/
def splitMarkers (page : List Char) : List (List Char × List Char) × List Char :=
  splitMarkersUpTo (page.length + 1) page

/-- Renders markers in order, with the text before each.  The state goes from one
rendering to the next; a marker that cannot be read ends it. -/
def renderMarkers {σ : Type} (render : EditButton → σ → List Char × σ) :
    List (List Char × List Char) → σ → Except Json.Problem (List Char) × σ
  | [], s => (.ok [], s)
  | (before, json) :: rest, s =>
    match ofJson (String.ofList json) with
    | .error problem => (.error problem, s)
    | .ok button =>
      let (shown, s) := render button s
      match renderMarkers render rest s with
      | (.error problem, s) => (.error problem, s)
      | (.ok text, s) => (.ok (before ++ shown ++ text), s)

/-- Replaces every marker of a page. -/
def replaceMarkers {σ : Type} (render : EditButton → σ → List Char × σ) (page : List Char)
    (s : σ) : Except Json.Problem (List Char) × σ :=
  let (markers, last) := splitMarkers page
  match renderMarkers render markers s with
  | (.error problem, s) => (.error problem, s)
  | (.ok text, s) => (.ok (text ++ last), s)

end EditButton

end WikiOutline
