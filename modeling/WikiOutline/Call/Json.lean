/-
# The JSON form of calls

A call is an object of its seven fields, or an array of them in order.  A tag
without arguments is its name, one with an argument an object of one member.
An attribute value is the JSON value of its kind; an integer must be written as
one and lie in the signed 64-bit range.  Entries of a bag are taken as they come,
repeated keys included.

Key definitions: `Call.toJson`, `Call.decoder`, `Call.ofText?`,
`AttributeValue.toJson`, `AttributeValue.ofJson?`.
-/
import WikiOutline.Call
import WikiOutline.Json.Decode

namespace WikiOutline

/-! ### Attribute values -/

mutual

/-- The JSON value of an attribute value. -/
def AttributeValue.toJson : AttributeValue → Json
  | .bool b => .bool b
  | .int i => .ofInt i.toInt
  | .string s => .string s
  | .list vs => .list (AttributeValue.toJsonList vs)

/-- The JSON values of a list. -/
def AttributeValue.toJsonList : List AttributeValue → List Json
  | [] => []
  | v :: vs => AttributeValue.toJson v :: AttributeValue.toJsonList vs

end

mutual

/-- Reads an attribute value; lists nest as deep as the depth allows. -/
def AttributeValue.decoder : Json.Decoder AttributeValue := fun depth j =>
  match j with
  | .bool b => .ok (.bool b)
  | .number (.natural n) =>
    if (n : Int) ≤ Word.maxInt then .ok (.int (.ofNat n)) else .error (.mismatch .unknownVariant)
  | .number (.negative n) => .ok (.int (.ofInt (-(n : Int))))
  | .string s => .ok (.string s)
  | .array items stop =>
    match depth with
    | 0 | 1 => .error (.fault .malformed)
    | d + 1 => do
      let vs ← AttributeValue.decodeList d items
      Json.stopAt stop
      .ok (.list vs)
  | .unreadable fault _ => .error (.fault fault)
  | _ => .error (.mismatch .unknownVariant)

/-- Reads the items of a list. -/
def AttributeValue.decodeList (depth : Nat) : List Json → Except Json.Problem (List AttributeValue)
  | [] => .ok []
  | j :: js => do
    let v ← AttributeValue.decoder depth j
    let vs ← AttributeValue.decodeList depth js
    .ok (v :: vs)

end

/-- The attribute value of a JSON value. -/
def AttributeValue.ofJson? (j : Json) : Option AttributeValue :=
  (AttributeValue.decoder Json.depthLimit j).toOption

/-! ### Attribute bags -/

/-- The JSON form of an attribute bag. -/
def Attributes.toJson (a : Attributes) : Json :=
  .record [("items", .list (a.items.map fun e => .list [.string e.1, e.2.toJson]))]

/-- Reads one entry: a key and a value. -/
def Attributes.decodeItem : Json.Decoder (String × AttributeValue) := fun depth j =>
  match j with
  | .array items stop => Json.deeper depth fun d =>
    match items with
    | [k, v] => do
      let k ← Json.asString d k
      let v ← AttributeValue.decoder d v
      Json.stopAt stop
      .ok (k, v)
    | _ => .error (.mismatch (.invalidLength items.length "a tuple of size 2"))
  | j => Json.wrongType "a tuple of size 2" j

/-- Reads the entries of a bag. -/
def Attributes.decodeItems : Json.Decoder (List (String × AttributeValue)) := fun depth j =>
  match j with
  | .array items stop => Json.deeper depth fun d => do
    let es ← items.mapM (Attributes.decodeItem d)
    Json.stopAt stop
    .ok es
  | j => Json.wrongType "a sequence" j

/-- Reads an attribute bag. -/
def Attributes.decoder : Json.Decoder Attributes := fun depth j =>
  match j with
  | .object members stop => Json.deeper depth fun d => do
    let items ← Json.foldFields ["items"]
      (fun _ _ v => (Attributes.decodeItems d v).map some) [] none members
    Json.stopAt stop
    let items ← Json.required "items" items
    .ok ⟨items⟩
  | .array [items] stop => Json.deeper depth fun d => do
    let items ← Attributes.decodeItems d items
    Json.stopAt stop
    .ok ⟨items⟩
  | .array items _ =>
    .error (.mismatch (.invalidLength items.length "struct Attributes with 1 element"))
  | j => Json.wrongType "struct Attributes" j

/-! ### Names -/

/-- The name of a state. -/
def CallState.text : CallState → String
  | .enter => "enter"
  | .exit => "exit"
  | .special => "special"
  | .unmatched => "unmatched"

/-- The state of a name. -/
def CallState.ofText? : String → Option CallState
  | "enter" => some .enter
  | "exit" => some .exit
  | "special" => some .special
  | "unmatched" => some .unmatched
  | _ => none

/-- The name of a heading style. -/
def HeadingSyntax.text : HeadingSyntax → String
  | .atx => "atx"
  | .wiki => "wiki"
  | .block => "block"

/-- The heading style of a name. -/
def HeadingSyntax.ofText? : String → Option HeadingSyntax
  | "atx" => some .atx
  | "wiki" => some .wiki
  | "block" => some .block
  | _ => none

/-- The tag of a name that takes no argument. -/
def Tag.ofText? : String → Option Tag
  | "section" => some .division
  | "header" => some .header
  | "edit-button" => some .editButton
  | "ad-marker" => some .adMarker
  | "paragraph" => some .paragraph
  | "media" => some .media
  | _ => none

/-- Reads a value of an enumeration: its name, or an object that maps the name to
`null`. -/
def Json.decodeNamed {α : Type} (ofText? : String → Option α) : Json.Decoder α := fun depth j =>
  match j with
  | .string s =>
    match ofText? s with
    | some a => .ok a
    | none => .error (.mismatch .unknownVariant)
  | .object [(name, v)] stop => Json.deeper depth fun _ => do
    let name ← Json.asName name
    match ofText? name, v with
    | some a, .null => do
      Json.stopAt stop
      .ok a
    | _, _ => .error (.mismatch .unknownVariant)
  | _ => .error (.mismatch .unknownVariant)

/-! ### Calls -/

mutual

/-- The JSON form of a tag. -/
def Tag.toJson : Tag → Json
  | .heading style => .record [("heading", .string style.text)]
  | .division => .string "section"
  | .header => .string "header"
  | .editButton => .string "edit-button"
  | .adMarker => .string "ad-marker"
  | .paragraph => .string "paragraph"
  | .media => .string "media"
  | .template children =>
    .record [("template", .record [("children", .list (Call.toJsonList children))])]
  | .other name => .record [("other", .string name)]

/-- The JSON form of a call. -/
def Call.toJson : Call → Json
  | ⟨tag, state, attributes, context, startPos, endPos, payload⟩ =>
    .record [("tag", Tag.toJson tag), ("state", .string state.text),
      ("attributes", attributes.toJson), ("context", .option Json.string context),
      ("start_pos", .option Json.ofNat startPos), ("end_pos", .option Json.ofNat endPos),
      ("payload", .option Json.string payload)]

/-- The JSON forms of calls. -/
def Call.toJsonList : List Call → List Json
  | [] => []
  | c :: cs => Call.toJson c :: Call.toJsonList cs

end

/-- The fields of a call as far as they have been read. -/
structure Call.Draft where
  tag : Option Tag := none
  state : Option CallState := none
  attributes : Option Attributes := none
  context : Option String := none
  startPos : Option Nat := none
  endPos : Option Nat := none
  payload : Option String := none

/-- The names of the fields of a call, in order. -/
def Call.fieldNames : List String :=
  ["tag", "state", "attributes", "context", "start_pos", "end_pos", "payload"]

/-- The call of a draft: tag, state and attributes must be there. -/
def Call.Draft.finish (d : Call.Draft) : Except Json.Problem Call := do
  let tag ← Json.required "tag" d.tag
  let state ← Json.required "state" d.state
  let attributes ← Json.required "attributes" d.attributes
  .ok ⟨tag, state, attributes, d.context, d.startPos, d.endPos, d.payload⟩

/-- Reads one field of a call, given how to read its tag. -/
def Call.Draft.readField (decodeTag : Json → Except Json.Problem Tag) (depth : Nat)
    (d : Call.Draft) (name : String) (v : Json) : Except Json.Problem Call.Draft :=
  match name with
  | "tag" => (decodeTag v).map fun t => { d with tag := some t }
  | "state" =>
    (Json.decodeNamed CallState.ofText? depth v).map fun s => { d with state := some s }
  | "attributes" =>
    (Attributes.decoder depth v).map fun a => { d with attributes := some a }
  | "context" =>
    (Json.asOption Json.asString depth v).map fun c => { d with context := c }
  | "start_pos" => (Json.asOption Json.asNat depth v).map fun p => { d with startPos := p }
  | "end_pos" => (Json.asOption Json.asNat depth v).map fun p => { d with endPos := p }
  | "payload" => (Json.asOption Json.asString depth v).map fun p => { d with payload := p }
  | _ => .ok d

/-- Reads an array of items, one level deeper. -/
def Json.decodeArray {α : Type} (f : Nat → Json → Except Json.Problem α) :
    Json.Decoder (List α) := fun depth j =>
  match j with
  | .array items stop => Json.deeper depth fun d => do
    let xs ← items.mapM (f d)
    Json.stopAt stop
    .ok xs
  | j => Json.wrongType "a sequence" j

/-- Reads the argument of a template, given how to read a call: an object with
the children, or an array of the children alone. -/
def Tag.decodeChildren (decodeCall : Nat → Json → Except Json.Problem Call) :
    Json.Decoder (List Call) := fun depth j =>
  match j with
  | .object members stop => Json.deeper depth fun d => do
    let children ← Json.foldFields ["children"]
      (fun _ _ v => (Json.decodeArray decodeCall d v).map some) [] none members
    Json.stopAt stop
    Json.required "children" children
  | .array [children] stop => Json.deeper depth fun d => do
    let children ← Json.decodeArray decodeCall d children
    Json.stopAt stop
    .ok children
  | .array items _ =>
    .error (.mismatch (.invalidLength items.length "struct variant Tag::Template with 1 element"))
  | j => Json.wrongType "struct variant Tag::Template" j

/-- Reads a tag, given how to read a call. -/
def Tag.decoderWith (decodeCall : Nat → Json → Except Json.Problem Call) :
    Json.Decoder Tag := fun depth j =>
  match j with
  | .string s =>
    match Tag.ofText? s with
    | some t => .ok t
    | none => .error (.mismatch .unknownVariant)
  | .object [(name, v)] stop => Json.deeper depth fun d => do
    let name ← Json.asName name
    let tag ←
      match name with
      | "heading" => (Json.decodeNamed HeadingSyntax.ofText? d v).map Tag.heading
      | "template" => (Tag.decodeChildren decodeCall d v).map Tag.template
      | "other" => (Json.asString d v).map Tag.other
      | name =>
        match Tag.ofText? name, v with
        | some t, .null => .ok t
        | _, _ => .error (.mismatch .unknownVariant)
    Json.stopAt stop
    .ok tag
  | _ => .error (.mismatch .unknownVariant)

/-- Reads a call, given how to read its tag: an object of its fields, or an array
of all of them in order. -/
def Call.decoderWith (decodeTag : Nat → Json → Except Json.Problem Tag) :
    Json.Decoder Call := fun depth j =>
  match j with
  | .object members stop => Json.deeper depth fun d => do
    let draft ← Json.foldFields Call.fieldNames
      (Call.Draft.readField (decodeTag d) d) [] {} members
    Json.stopAt stop
    draft.finish
  | .array items stop => Json.deeper depth fun d => do
    let draft ← (Call.fieldNames.zip items).foldlM
      (fun draft f => Call.Draft.readField (decodeTag d) d draft f.1 f.2) {}
    if items.length < Call.fieldNames.length then do
      Json.stopAt stop
      .error (.mismatch (.invalidLength items.length "struct Call with 7 elements"))
    else if Call.fieldNames.length < items.length then .error (.fault .malformed)
    else do
      Json.stopAt stop
      draft.finish
  | j => Json.wrongType "struct Call" j

/-- Reads a call whose templates nest at most `fuel` deep. -/
def Call.decoderUpTo : Nat → Json.Decoder Call
  | 0 => fun _ _ => .error (.fault .malformed)
  | fuel + 1 => Call.decoderWith (Tag.decoderWith (Call.decoderUpTo fuel))

/-- Reads a call.  Templates use up depth, so the depth bounds how they nest. -/
def Call.decoder : Json.Decoder Call := fun depth j => Call.decoderUpTo (depth + 1) depth j

/-- Reads a tag. -/
def Tag.decoder : Json.Decoder Tag := fun depth j =>
  Tag.decoderWith (Call.decoderUpTo (depth + 1)) depth j

/-- The call of a JSON text. -/
def Call.ofText (text : String) : Except Json.Problem Call := Json.decode Call.decoder text

end WikiOutline
