/-
# Attribute bags

An attribute bag is an ordered list of entries.  Setting a key that is there
keeps its place, setting a new one puts it last, and a lookup finds the first
entry of its key.

Key definitions: `AttributeValue`, `Attributes`, `Attributes.get?`,
`Attributes.exchange`, `Attributes.set`, `Attributes.remove`.
-/
import WikiOutline.Text.Integer
import WikiOutline.Text.Blank

namespace WikiOutline

/-- The value of an attribute; integers are those of the signed 64-bit range. -/
inductive AttributeValue where
  | bool (b : Bool)
  | int (i : Int64)
  | string (s : String)
  | list (vs : List AttributeValue)
  deriving Repr, BEq

namespace AttributeValue

instance : Inhabited AttributeValue := ⟨.bool false⟩

/-- The text of a string value. -/
def asString? : AttributeValue → Option String
  | .string s => some s
  | _ => none

/-- The integer of a value: an integer itself, or a string that names one
between blanks. -/
def asInt? : AttributeValue → Option Int
  | .int i => some i.toInt
  | .string s => Word.readInt? (Text.trim s.toList)
  | _ => none

/-- The truth value of a boolean value. -/
def asBool? : AttributeValue → Option Bool
  | .bool b => some b
  | _ => none

mutual

/-- The value as a text, the items of a list with a space between two. -/
def display : AttributeValue → String
  | .bool true => "true"
  | .bool false => "false"
  | .int i => toString i
  | .string s => s
  | .list vs => displayList vs

/-- The items of a list with a space between two. -/
def displayList : List AttributeValue → String
  | [] => ""
  | [v] => display v
  | v :: vs => display v ++ " " ++ displayList vs

end

/-- A counter as a value. -/
def ofNat (n : Nat) : AttributeValue := .int (.ofInt (Word.clampNat n))

end AttributeValue

/-- An ordered attribute bag. -/
structure Attributes where
  items : List (String × AttributeValue) := []
  deriving Repr, BEq, Inhabited

namespace Attributes

/-- The bag without entries. -/
def empty : Attributes := {}

/-- The value of the first entry of a key. -/
def get? (a : Attributes) (key : String) : Option AttributeValue :=
  (a.items.find? fun e => e.1 == key).map (·.2)

/-- The text of a string attribute. -/
def getString? (a : Attributes) (key : String) : Option String :=
  (a.get? key).bind AttributeValue.asString?

/-- The integer an attribute names. -/
def getInt? (a : Attributes) (key : String) : Option Int :=
  (a.get? key).bind AttributeValue.asInt?

/-- A key has an entry. -/
def contains (a : Attributes) (key : String) : Bool := (a.get? key).isSome

/-- Gives the first entry of a key a value, or adds an entry at the end; with
the value the key had. -/
def exchangeItem (key : String) (value : AttributeValue) :
    List (String × AttributeValue) → Option AttributeValue × List (String × AttributeValue)
  | [] => (none, [(key, value)])
  | e :: es =>
    if e.1 == key then (some e.2, (e.1, value) :: es)
    else
      let rest := exchangeItem key value es
      (rest.1, e :: rest.2)

/-- Sets a key and gives the value it had. -/
def exchange (a : Attributes) (key : String) (value : AttributeValue) :
    Option AttributeValue × Attributes :=
  let items := exchangeItem key value a.items
  (items.1, ⟨items.2⟩)

/-- Sets a key. -/
def set (a : Attributes) (key : String) (value : AttributeValue) : Attributes :=
  (a.exchange key value).2

/-- Removes a key and gives the value it had: the entry at the first place of the
key is taken out. -/
def remove (a : Attributes) (key : String) : Option AttributeValue × Attributes :=
  match a.items.findIdx? fun e => e.1 == key with
  | some i => (a.items[i]?.map (·.2), ⟨a.items.eraseIdx i⟩)
  | none => (none, a)

/-- The number of entries. -/
def size (a : Attributes) : Nat := a.items.length

/-- No entry. -/
def isEmpty (a : Attributes) : Bool := a.items.isEmpty

/-- The bag made by setting the pairs in order. -/
def ofList (pairs : List (String × AttributeValue)) : Attributes :=
  pairs.foldl (fun a p => a.set p.1 p.2) empty

end Attributes

end WikiOutline
