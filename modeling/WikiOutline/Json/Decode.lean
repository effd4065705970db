/-
# Decoding JSON

A decoder walks a tree in the order of its text and stops at the first problem:
a fault of the text, or a value that is not what is wanted.  Objects and arrays
may nest below a fixed depth only; whatever a decoder skips may nest freely.

Key definitions: `Json.Problem`, `Json.Mismatch.message`, `Json.Decoder`,
`Json.decode`.
-/
import WikiOutline.Json.Reader
import WikiOutline.Json.Writer
import WikiOutline.Text.Display

namespace WikiOutline

namespace Json

/-- A value that is not what is wanted. -/
inductive Mismatch where
  | invalidType (found wanted : String)
  | invalidValue (found wanted : String)
  | missingField (name : String)
  | duplicateField (name : String)
  | invalidLength (found : Nat) (wanted : String)
  | unknownVariant
  deriving Repr, DecidableEq

/-- The first problem of a text. -/
inductive Problem where
  | fault (f : Fault)
  | mismatch (m : Mismatch)
  deriving Repr, DecidableEq

/-- A mismatch in words. -/
def Mismatch.message : Mismatch → String
  | .invalidType found wanted => "invalid type: " ++ found ++ ", expected " ++ wanted
  | .invalidValue found wanted => "invalid value: " ++ found ++ ", expected " ++ wanted
  | .missingField name => "missing field \x60" ++ name ++ "\x60"
  | .duplicateField name => "duplicate field \x60" ++ name ++ "\x60"
  | .invalidLength found wanted =>
    "invalid length " ++ toString found ++ ", expected " ++ wanted
  | .unknownVariant => "unknown variant"

/-- A number in words. -/
def Number.describe : Number → String
  | .natural n => "integer \x60" ++ toString n ++ "\x60"
  | .negative n => "integer \x60-" ++ toString n ++ "\x60"
  | .float minus size =>
    "floating point \x60" ++ (if minus then "-" else "") ++ size.text ++ "\x60"

/-- A value in words; one that cannot be read has none. -/
def describe : Json → Except Problem String
  | .null => .ok "null"
  | .bool b => .ok ("boolean \x60" ++ (if b then "true" else "false") ++ "\x60")
  | .number n => .ok n.describe
  | .string s => .ok ("string " ++ Text.debug s)
  | .array _ _ => .ok "sequence"
  | .object _ _ => .ok "map"
  | .unreadable fault _ => .error (.fault fault)

/-- The value is not of the wanted type. -/
def wrongType {α : Type} (wanted : String) (j : Json) : Except Problem α := do
  let found ← j.describe
  .error (.mismatch (.invalidType found wanted))

/-- A reader of one type; the number bounds how deep objects and arrays nest. -/
abbrev Decoder (α : Type) := Nat → Json → Except Problem α

/-- How deep the objects and arrays of a text may nest, plus one. -/
def depthLimit : Nat := 128

/-- Runs a decoder one level deeper. -/
def deeper {α : Type} (depth : Nat) (f : Nat → Except Problem α) : Except Problem α :=
  match depth with
  | 0 | 1 => .error (.fault .malformed)
  | d + 1 => f d

/-- A string. -/
def asString : Decoder String := fun _ j =>
  match j with
  | .string s => .ok s
  | j => wrongType "a string" j

/-- A natural number of 64 bits. -/
def asNat : Decoder Nat := fun _ j =>
  match j with
  | .number (.natural n) => .ok n
  | .number (.negative n) =>
    .error (.mismatch (.invalidValue (Number.negative n).describe "usize"))
  | j => wrongType "usize" j

/-- A value, or nothing for `null`. -/
def asOption {α : Type} (f : Decoder α) : Decoder (Option α) := fun depth j =>
  match j with
  | .null => .ok none
  | j => (f depth j).map some

/-- Passes over a value. -/
def passOver (j : Json) : Except Problem Unit :=
  match j.skip with
  | none => .ok ()
  | some fault => .error (.fault fault)

/-- Stops where the text stopped. -/
def stopAt : Option Fault → Except Problem Unit
  | none => .ok ()
  | some fault => .error (.fault fault)

/-- The name of a member. -/
def asName : Name → Except Problem String
  | .known s => .ok s
  | .unreadable fault => .error (.fault fault)

/-- Walks the members of an object.  `step` is given the name of a field and the
reader of its value; a field not wanted is passed over, and a wanted one may not
come twice. -/
def foldFields {σ : Type} (fields : List String)
    (step : σ → String → Json → Except Problem σ) :
    List String → σ → List (Name × Json) → Except Problem σ
  | _, s, [] => .ok s
  | seen, s, (name, v) :: ms => do
    let name ← asName name
    if fields.contains name then
      if seen.contains name then .error (.mismatch (.duplicateField name))
      else do
        let s ← step s name v
        foldFields fields step (name :: seen) s ms
    else do
      passOver v
      foldFields fields step seen s ms

/-- A field that must be there. -/
def required {α : Type} (name : String) : Option α → Except Problem α
  | some a => .ok a
  | none => .error (.mismatch (.missingField name))

/-- The value of the whole text. -/
def decode {α : Type} (f : Decoder α) (text : String) : Except Problem α := do
  let document := read text
  let a ← f depthLimit document.root
  if document.ends then .ok a else .error (.fault .malformed)

end Json

end WikiOutline
