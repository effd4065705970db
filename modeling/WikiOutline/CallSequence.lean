/-
# Call sequences with a cursor

A call sequence is flat; the nesting of its elements is what the enters and
exits of one name say.  The cursor stands before the first call, on a call, or
behind the last one.  Every move searches from the cursor and leaves it where it
was when there is nothing to find.

Key definitions: `CallSequence`, `Cursor`, `matchOffset?`,
`CallSequence.toOpening`, `CallSequence.toClosing`, `CallSequence.toParent`,
`CallSequence.toFirstChild`, `CallSequence.toNextSibling`,
`CallSequence.checkBalance`.
-/
import WikiOutline.Call

namespace WikiOutline

/-- A place in a call sequence. -/
inductive Cursor where
  | beforeStart
  | at (index : Nat)
  | afterEnd
  deriving Repr, DecidableEq, Inhabited

/-- Why a call sequence cannot be followed. -/
inductive SequenceError where
  | noOpeningCall (tag : String) (index : Nat)
  | noClosingCall (tag : String) (index : Nat)
  | notOnExit
  | notOnEnter
  | unbalanced (index : Nat) (expected found : String)
  deriving Repr, DecidableEq

/-- The error in words. -/
def SequenceError.message : SequenceError → String
  | .noOpeningCall tag index =>
    "No opening call found for \x60" ++ tag ++ "\x60 exit at index " ++ toString index
  | .noClosingCall tag index =>
    "No closing call found for \x60" ++ tag ++ "\x60 enter at index " ++ toString index
  | .notOnExit => "Cursor is not on an exit call"
  | .notOnEnter => "Cursor is not on an enter call"
  | .unbalanced index expected found =>
    "Unbalanced sequence at index " ++ toString index ++ ": expected \x60" ++ expected ++
      "\x60 exit, found \x60" ++ found ++ "\x60"

/-! ### Searching a list of calls -/

/-- A call counts in a search for one name, or in a search for any. -/
def Call.counts (named : Option String) (c : Call) : Bool :=
  match named with
  | some n => c.name == n
  | none => true

/-- How many calls lie before the one that closes what is open.  Calls in the
state `nests` open a deeper level, calls in the state `closes` close one. -/
def matchOffset? (nests closes : CallState) (named : Option String) :
    Nat → List Call → Option Nat
  | _, [] => none
  | depth, c :: cs =>
    if !c.counts named then (matchOffset? nests closes named depth cs).map (· + 1)
    else if c.state == nests then (matchOffset? nests closes named (depth + 1) cs).map (· + 1)
    else if c.state == closes then
      match depth with
      | 0 => some 0
      | d + 1 => (matchOffset? nests closes named d cs).map (· + 1)
    else (matchOffset? nests closes named depth cs).map (· + 1)

/-- The exit that closes an element entered at `index`. -/
def closingIndex? (calls : List Call) (index : Nat) (named : Option String) : Option Nat :=
  (matchOffset? .enter .exit named 0 (calls.drop (index + 1))).map (index + 1 + ·)

/-- The enter of the element that is open before `index`. -/
def openingIndex? (calls : List Call) (index : Nat) (named : Option String) : Option Nat :=
  (matchOffset? .exit .enter named 0 (calls.take index).reverse).map (index - 1 - ·)

/-- The first markup behind `index`, unless it exits an element. -/
def nextTagIndex? (calls : List Call) (index : Nat) : Option Nat :=
  let rest := calls.drop (index + 1)
  match rest.findIdx? Call.isTag with
  | none => none
  | some i => if (rest[i]?).any Call.isExit then none else some (index + 1 + i)

/-! ### Balance -/

/-- Walks calls from `index` on with the elements open so far, innermost first. -/
def checkBalanceFrom (index : Nat) (opened : List (String × Nat)) :
    List Call → Except SequenceError Unit
  | [] =>
    match opened with
    | [] => .ok ()
    | (name, i) :: _ => .error (.noClosingCall name i)
  | c :: cs =>
    match c.state with
    | .enter => checkBalanceFrom (index + 1) ((c.name, index) :: opened) cs
    | .exit =>
      match opened with
      | [] => .error (.noOpeningCall c.name index)
      | (name, _) :: outer =>
        if name == c.name then checkBalanceFrom (index + 1) outer cs
        else .error (.unbalanced index name c.name)
    | _ => checkBalanceFrom (index + 1) opened cs

/-- Every exit closes the innermost open element, and none stays open. -/
def checkBalance (calls : List Call) : Except SequenceError Unit := checkBalanceFrom 0 [] calls

/-! ### The sequence -/

/-- Calls and a place among them. -/
structure CallSequence where
  calls : List Call := []
  cursor : Cursor := .beforeStart
  deriving Inhabited

namespace CallSequence

/-- The sequence of some calls, with the cursor before the first. -/
def ofList (calls : List Call) : CallSequence := { calls }

/-- The number of calls. -/
def size (s : CallSequence) : Nat := s.calls.length

/-- No calls. -/
def isEmpty (s : CallSequence) : Bool := s.calls.isEmpty

/-- The index of the call under the cursor. -/
def index? (s : CallSequence) : Option Nat :=
  match s.cursor with
  | .at i => if i < s.calls.length then some i else none
  | _ => none

/-- The call under the cursor. -/
def current? (s : CallSequence) : Option Call :=
  match s.cursor with
  | .at i => s.calls[i]?
  | _ => none

/-- The cursor moved to an index. -/
def moveTo (s : CallSequence) (i : Nat) : CallSequence := { s with cursor := .at i }

/-- The cursor before the first call. -/
def toStart (s : CallSequence) : CallSequence := { s with cursor := .beforeStart }

/-- The cursor behind the last call. -/
def toEnd (s : CallSequence) : CallSequence := { s with cursor := .afterEnd }

/-- One call forward; behind the last one the cursor stays. -/
def next (s : CallSequence) : CallSequence :=
  match s.cursor with
  | .beforeStart => if s.calls.isEmpty then s.toEnd else s.moveTo 0
  | .at i => if i + 1 < s.calls.length then s.moveTo (i + 1) else s.toEnd
  | .afterEnd => s.toEnd

/-- One call back; before the first one the cursor stays. -/
def previous (s : CallSequence) : CallSequence :=
  match s.cursor with
  | .afterEnd => if s.calls.isEmpty then s.toStart else s.moveTo (s.calls.length - 1)
  | .at i => if 0 < i then s.moveTo (i - 1) else s.toStart
  | .beforeStart => s.toStart

/-- The call one forward of the cursor. -/
def peekNext? (s : CallSequence) : Option Call :=
  match s.cursor with
  | .beforeStart => s.calls[0]?
  | .at i => s.calls[i + 1]?
  | .afterEnd => none

/-! ### Following elements -/

/-- From an exit to its enter; behind the end the last call counts. -/
def toOpening (s : CallSequence) : Except SequenceError CallSequence :=
  let from? :=
    match s.cursor with
    | .at i => some i
    | .afterEnd => if s.calls.isEmpty then none else some (s.calls.length - 1)
    | .beforeStart => none
  match from? with
  | none => .error .notOnExit
  | some i =>
    match s.calls[i]? with
    | none => .error .notOnExit
    | some c =>
      if !c.isExit then .error .notOnExit
      else
        match openingIndex? s.calls i (some c.name) with
        | some j => .ok (s.moveTo j)
        | none => .error (.noOpeningCall c.name i)

/-- From an enter to its exit. -/
def toClosing (s : CallSequence) : Except SequenceError CallSequence :=
  match s.index?, s.current? with
  | some i, some c =>
    if !c.isEnter then .error .notOnEnter
    else
      match closingIndex? s.calls i (some c.name) with
      | some j => .ok (s.moveTo j)
      | none => .error (.noClosingCall c.name i)
  | _, _ => .error .notOnEnter

/-- The index of the enter of the element around the cursor.  From an exit the
search starts at its own enter. -/
def parentIndex? (s : CallSequence) : Option Nat := do
  let i ←
    match s.cursor with
    | .at i => some i
    | .afterEnd => some s.calls.length
    | .beforeStart => none
  let start ←
    match s.calls[i]? with
    | some c => if c.isExit then openingIndex? s.calls i (some c.name) else some i
    | none => some i
  openingIndex? s.calls start none

/-- To the enter of the element around the cursor. -/
def toParent (s : CallSequence) : Option CallSequence := s.parentIndex?.map s.moveTo

/-- From an enter to the first element inside it. -/
def toFirstChild (s : CallSequence) : Option CallSequence := do
  let i ← s.index?
  let c ← s.current?
  if c.isEnter then (nextTagIndex? s.calls i).map s.moveTo else none

/-- To the first element behind the one under the cursor. -/
def toNextSibling (s : CallSequence) : Option CallSequence := do
  let i ← s.index?
  let c ← s.current?
  let last ← if c.isEnter then closingIndex? s.calls i (some c.name) else some i
  (nextTagIndex? s.calls last).map s.moveTo

/-! ### Splicing -/

/-- Inserts a call before the cursor, which stays on its call. -/
def insertBefore (s : CallSequence) (c : Call) : CallSequence :=
  match s.cursor with
  | .at i => { calls := s.calls.insertIdx i c, cursor := .at (i + 1) }
  | .beforeStart => { s with calls := c :: s.calls }
  | .afterEnd => { s with calls := s.calls ++ [c] }

/-- Inserts a call behind the cursor. -/
def insertAfter (s : CallSequence) (c : Call) : CallSequence :=
  match s.cursor with
  | .at i => { s with calls := s.calls.insertIdx (i + 1) c }
  | .beforeStart => { s with calls := c :: s.calls }
  | .afterEnd => { s with calls := s.calls ++ [c] }

/-- The cursor `n` calls before an index, before the first call if there are not
so many. -/
def cursorBefore (index n : Nat) : Cursor :=
  if index < n then .beforeStart else .at (index - n)

/-- Deletes the call under the cursor, which moves one call back, and gives it. -/
def delete? (s : CallSequence) : Option (Call × CallSequence) := do
  let i ← s.index?
  let c ← s.current?
  some (c, { calls := s.calls.eraseIdx i, cursor := cursorBefore i 1 })

/-- Deletes the call under the cursor and the one before it, and gives the first
of the two.  Nothing happens on the first call. -/
def deletePair? (s : CallSequence) : Option (Call × CallSequence) := do
  let i ← s.index?
  let c ← s.current?
  if i = 0 then none
  else some (c, { calls := (s.calls.eraseIdx i).eraseIdx (i - 1), cursor := cursorBefore i 2 })

/-- Adds a call at the end. -/
def append (s : CallSequence) (c : Call) : CallSequence := { s with calls := s.calls ++ [c] }

/-- Adds calls at the end. -/
def appendAll (s : CallSequence) (cs : List Call) : CallSequence :=
  { s with calls := s.calls ++ cs }

/-- Changes the call under the cursor. -/
def modifyCurrent (s : CallSequence) (f : Call → Call) : CallSequence :=
  match s.cursor with
  | .at i => { s with calls := s.calls.modify i f }
  | _ => s

/-- Every exit closes the innermost open element, and none stays open. -/
def checkBalance (s : CallSequence) : Except SequenceError Unit :=
  WikiOutline.checkBalance s.calls

end CallSequence

end WikiOutline
