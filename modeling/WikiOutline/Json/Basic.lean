/-
# JSON documents

A JSON tree holds its members in the order written, repeated names included.
Numbers are whole where the text is a whole number of 64 bits, else binary64.
A text that is no JSON is read as far as it goes: where reading cannot go on
the tree has an unreadable leaf, and an object or array that is not closed
properly says what stopped it.  So whoever walks the tree in order meets the
first problem of the text first.

Key definitions: `Json`, `Json.Fault`, `Json.Number`, `Json.skip`.
-/
import WikiOutline.Decimal.Binary64
import WikiOutline.Text.Integer

namespace WikiOutline

namespace Json

/-- Why a text cannot be read on. -/
inductive Fault where
  /-- The next character has no place there. -/
  | malformed
  /-- The text ends too early. -/
  | truncated
  deriving Repr, DecidableEq

/-- A number: whole and at most `Word.maxNat`, below zero and at least
`Word.minInt`, or anything else that has a nearest binary64 number. -/
inductive Number where
  | natural (n : Nat)
  | negative (n : Nat)
  | float (minus : Bool) (size : Binary64)
  deriving Repr, DecidableEq

/-- The name of a member; one with an escape that names no character cannot be
read, only skipped. -/
inductive Name where
  | known (s : String)
  | unreadable (fault : Fault)
  deriving Repr, DecidableEq

end Json

/-- A JSON tree. -/
inductive Json where
  | null
  | bool (b : Bool)
  | number (n : Json.Number)
  | string (s : String)
  | array (items : List Json) (stop : Option Json.Fault)
  | object (members : List (Json.Name × Json)) (stop : Option Json.Fault)
  /-- A value that cannot be read because of `fault`; whoever skips it meets the
  second fault, or none and goes on behind it. -/
  | unreadable (fault : Json.Fault) (skipped : Option Json.Fault)
  deriving Repr

namespace Json

instance : Inhabited Json := ⟨.null⟩

/-- A natural number. -/
def ofNat (n : Nat) : Json := .number (.natural n)

/-- An integer. -/
def ofInt (i : Int) : Json :=
  if 0 ≤ i then .number (.natural i.toNat) else .number (.negative (-i).toNat)

/-- A closed array. -/
def list (items : List Json) : Json := .array items none

/-- A closed object. -/
def record (members : List (String × Json)) : Json :=
  .object (members.map fun m => (.known m.1, m.2)) none

/-- A value or `null`. -/
def option {α : Type} (f : α → Json) : Option α → Json
  | none => .null
  | some a => f a

/-- The members that are there. -/
def recordOf (members : List (String × Option Json)) : Json :=
  record (members.filterMap fun m => m.2.map fun v => (m.1, v))

mutual

/-- What stops a reader that skips the value. -/
def skip : Json → Option Fault
  | .array items stop => (skipItems items).or stop
  | .object members stop => (skipMembers members).or stop
  | .unreadable _ skipped => skipped
  | _ => none

/-- What stops a reader that skips the items. -/
def skipItems : List Json → Option Fault
  | [] => none
  | v :: vs => (skip v).or (skipItems vs)

/-- What stops a reader that skips the members. -/
def skipMembers : List (Name × Json) → Option Fault
  | [] => none
  | m :: ms => (skip m.2).or (skipMembers ms)

end

end Json

/-- A text read as one value and what comes behind it. -/
structure Json.Document where
  root : Json
  /-- Nothing but blanks comes behind the value. -/
  ends : Bool

end WikiOutline
