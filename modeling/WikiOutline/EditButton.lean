/-
# Edit buttons

An edit button names the part of a source that a section came from.  It travels
as JSON, in which angle brackets are escaped so that the text can stand inside a
comment of a page.

Key definitions: `EditButton`, `EditButton.forSection`, `EditButton.toJson`,
`EditButton.ofJson`, `EditButton.marker`, `formatRange`.
-/
import WikiOutline.Json.Decode

namespace WikiOutline

/-- A button that edits one section. -/
structure EditButton where
  target : String
  wikiId : String
  formId : String
  message : String
  range : String
  headingId : Option String
  sectionId : Nat
  deriving Repr, BEq, DecidableEq

/-- A range of source positions; one without an end goes to the end of the
source. -/
def formatRange (startPos : Nat) (endPos : Option Nat) : String :=
  match endPos with
  | some e => toString startPos ++ "-" ++ toString e
  | none => toString startPos ++ "-"

namespace EditButton

/-- The button of the section with a number, a label and a range. -/
def forSection (wikiId : String) (number : Nat) (label : String) (startPos : Nat)
    (endPos : Option Nat) : EditButton where
  target := "section"
  wikiId := wikiId
  formId := "edit-section-" ++ toString number
  message := label
  range := formatRange startPos endPos
  headingId := none
  sectionId := number

/-- The button with the id of the heading. -/
def withHeadingId (b : EditButton) (id : String) : EditButton := { b with headingId := some id }

/-! ### The JSON form -/

/-- The button as a JSON tree; a missing heading id is left out. -/
def tree (b : EditButton) : Json :=
  .recordOf [("target", some (.string b.target)), ("wiki-id", some (.string b.wikiId)),
    ("form-id", some (.string b.formId)), ("message", some (.string b.message)),
    ("range", some (.string b.range)), ("hid", b.headingId.map Json.string),
    ("secid", some (.ofNat b.sectionId))]

/-- A character with the angle brackets escaped. -/
def escapeBracket (c : Char) : List Char :=
  if c = '<' then "\\u003c".toList else if c = '>' then "\\u003e".toList else [c]

/-- The button as a JSON text without angle brackets. -/
def toJsonChars (b : EditButton) : List Char := b.tree.chars.flatMap escapeBracket

/-- The button as a JSON text without angle brackets. -/
def toJson (b : EditButton) : String := String.ofList b.toJsonChars

/-- The fields of a button as far as they have been read. -/
structure Draft where
  target : Option String := none
  wikiId : Option String := none
  formId : Option String := none
  message : Option String := none
  range : Option String := none
  headingId : Option String := none
  sectionId : Option Nat := none

/-- The names of the fields, in order. -/
def fieldNames : List String :=
  ["target", "wiki-id", "form-id", "message", "range", "hid", "secid"]

/-- Reads one field. -/
def Draft.readField (depth : Nat) (d : Draft) (name : String) (v : Json) :
    Except Json.Problem Draft :=
  match name with
  | "target" => (Json.asString depth v).map fun s => { d with target := some s }
  | "wiki-id" => (Json.asString depth v).map fun s => { d with wikiId := some s }
  | "form-id" => (Json.asString depth v).map fun s => { d with formId := some s }
  | "message" => (Json.asString depth v).map fun s => { d with message := some s }
  | "range" => (Json.asString depth v).map fun s => { d with range := some s }
  | "hid" => (Json.asOption Json.asString depth v).map fun s => { d with headingId := s }
  | "secid" => (Json.asNat depth v).map fun n => { d with sectionId := some n }
  | _ => .ok d

/-- The button of a draft: all fields but the heading id must be there. -/
def Draft.finish (d : Draft) : Except Json.Problem EditButton := do
  let target ← Json.required "target" d.target
  let wikiId ← Json.required "wiki-id" d.wikiId
  let formId ← Json.required "form-id" d.formId
  let message ← Json.required "message" d.message
  let range ← Json.required "range" d.range
  let sectionId ← Json.required "secid" d.sectionId
  .ok ⟨target, wikiId, formId, message, range, d.headingId, sectionId⟩

/-- Reads a button: an object of its fields, or an array of all of them. -/
def decoder : Json.Decoder EditButton := fun depth j =>
  match j with
  | .object members stop => Json.deeper depth fun d => do
    let draft ← Json.foldFields fieldNames (Draft.readField d) [] {} members
    Json.stopAt stop
    draft.finish
  | .array items stop => Json.deeper depth fun d => do
    let draft ← (fieldNames.zip items).foldlM (fun draft f => Draft.readField d draft f.1 f.2) {}
    if items.length < fieldNames.length then do
      Json.stopAt stop
      .error (.mismatch (.invalidLength items.length "struct EditButton with 7 elements"))
    else if fieldNames.length < items.length then .error (.fault .malformed)
    else do
      Json.stopAt stop
      draft.finish
  | j => Json.wrongType "struct EditButton" j

/-- The button of a JSON text. -/
def ofJson (text : String) : Except Json.Problem EditButton := Json.decode decoder text

/-- What a mismatch in the JSON text of a button is reported as. -/
def mismatchMessage (m : Json.Mismatch) : String := "Invalid edit button payload: " ++ m.message

/-! ### Markers -/

/-- What a marker begins with, up to the brace of the JSON text. -/
def markerOpen : List Char := "<!-- EDIT".toList

/-- What a marker ends with, behind the brace of the JSON text. -/
def markerClose : List Char := " -->".toList

/-- The button as a comment of a page. -/
def markerChars (b : EditButton) : List Char := markerOpen ++ b.toJsonChars ++ markerClose

/-- The button as a comment of a page. -/
def marker (b : EditButton) : String := String.ofList b.markerChars

end EditButton

end WikiOutline
