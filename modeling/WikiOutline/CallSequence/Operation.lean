/-
# Operations on a call sequence, index by index

The operations again, with every index they look at.  An index outside the
sequence is an outcome of its own here, so that it can be shown that none is
ever asked for.  A search looks at one call after another; what it finds, and
what an operation answers, is the same as in `CallSequence`.

Key definitions: `CallSequence.OutOfRange`, `CallSequence.fetch`,
`CallSequence.seekBack`, `CallSequence.seekForward`, `CallSequence.Operation`,
`CallSequence.perform`, `CallSequence.performAll`, `CallSequence.outcome`.
-/
import WikiOutline.CallSequence

namespace WikiOutline

namespace CallSequence

/-- An index was asked for that the sequence does not have. -/
structure OutOfRange where
  index : Nat
  size : Nat
  deriving Repr, DecidableEq

/-! ### Looking at calls -/

/-- The call of an index that has to be there. -/
def fetch (calls : List Call) (i : Nat) : Except OutOfRange Call :=
  match calls[i]? with
  | some c => .ok c
  | none => .error ⟨i, calls.length⟩

/-- The calls with one more at an index, the end included. -/
def insertAt (calls : List Call) (i : Nat) (c : Call) : Except OutOfRange (List Call) :=
  if i ≤ calls.length then .ok (calls.insertIdx i c) else .error ⟨i, calls.length⟩

/-- The call of an index, and the calls without it. -/
def removeAt (calls : List Call) (i : Nat) : Except OutOfRange (Call × List Call) := do
  let c ← fetch calls i
  .ok (c, calls.eraseIdx i)

/-- Looks back from an index for the enter that is open there, with `depth`
elements to be entered before it. -/
def seekBack (calls : List Call) (named : Option String) :
    Nat → Nat → Except OutOfRange (Option Nat)
  | 0, _ => .ok none
  | i + 1, depth => do
    let c ← fetch calls i
    if !c.counts named then seekBack calls named i depth
    else if c.state == .exit then seekBack calls named i (depth + 1)
    else if c.state == .enter then
      match depth with
      | 0 => .ok (some i)
      | d + 1 => seekBack calls named i d
    else seekBack calls named i depth

/-- Looks from an index on for the exit that closes what is open there, with
`depth` elements to be exited before it. -/
def seekForward (calls : List Call) (named : Option String) (i depth : Nat) :
    Except OutOfRange (Option Nat) :=
  if i < calls.length then do
    let c ← fetch calls i
    if !c.counts named then seekForward calls named (i + 1) depth
    else if c.state == .enter then seekForward calls named (i + 1) (depth + 1)
    else if c.state == .exit then
      match depth with
      | 0 => .ok (some i)
      | d + 1 => seekForward calls named (i + 1) d
    else seekForward calls named (i + 1) depth
  else .ok none
termination_by calls.length - i

/-! ### Operations -/

/-- What can be asked of a sequence. -/
inductive Operation where
  | next
  | previous
  | toStart
  | toEnd
  | toOpening
  | toClosing
  | toParent
  | toFirstChild
  | toNextSibling
  | insertBefore (c : Call)
  | insertAfter (c : Call)
  | delete
  | deletePair
  | append (c : Call)
  | appendAll (cs : List Call)
  | clear
  | change (f : Call → Call)

namespace Operation

/-- The operation follows the elements. -/
def isStructural : Operation → Bool
  | .toOpening | .toClosing | .toParent | .toFirstChild | .toNextSibling => true
  | _ => false

/-- The operation only moves the cursor. -/
def isNavigation : Operation → Bool
  | .next | .previous | .toStart | .toEnd => true
  | op => op.isStructural

end Operation

/-- What an operation answers: a call if there is one, or why not. -/
abbrev Reply := Except SequenceError (Option Call)

/-- The answer gives no call. -/
def Reply.isEmpty : Reply → Bool
  | .ok (some _) => false
  | .ok none => true
  | .error _ => true

/-- The sequence with the cursor on a call that was found, and the call. -/
def landed (s : CallSequence) : Option Nat → Reply × CallSequence
  | some i => (.ok (s.moveTo i).current?, s.moveTo i)
  | none => (.ok none, s)

/-- Where an exit is looked for: under the cursor, or at the end if that is behind
the last call. -/
def exitIndex? (s : CallSequence) : Option Nat :=
  match s.cursor with
  | .at i => some i
  | .afterEnd => if s.calls.isEmpty then none else some (s.calls.length - 1)
  | .beforeStart => none

/-- From an exit to its enter. -/
def performOpening (s : CallSequence) : Except OutOfRange (Reply × CallSequence) :=
  match s.exitIndex? with
  | none => .ok (.error .notOnExit, s)
  | some i => do
    let c ← fetch s.calls i
    if !c.isExit then .ok (.error .notOnExit, s)
    else
      match ← seekBack s.calls (some c.name) i 0 with
      | some j => do
        let found ← fetch s.calls j
        .ok (.ok (some found), s.moveTo j)
      | none => .ok (.error (.noOpeningCall c.name i), s)

/-- From an enter to its exit. -/
def performClosing (s : CallSequence) : Except OutOfRange (Reply × CallSequence) :=
  match s.index? with
  | none => .ok (.error .notOnEnter, s)
  | some i => do
    let c ← fetch s.calls i
    if !c.isEnter then .ok (.error .notOnEnter, s)
    else
      match ← seekForward s.calls (some c.name) (i + 1) 0 with
      | some j => do
        let found ← fetch s.calls j
        .ok (.ok (some found), s.moveTo j)
      | none => .ok (.error (.noClosingCall c.name i), s)

/-- Where an element is left, seen from the cursor; there is no call behind the
end. -/
def innerIndex? (s : CallSequence) : Option Nat :=
  match s.cursor with
  | .at i => some i
  | .afterEnd => some s.calls.length
  | .beforeStart => none

/-- Where the search for the element around an index starts: at the enter of an
exit, and elsewhere at the index itself. -/
def parentStart (calls : List Call) (i : Nat) : Except OutOfRange (Option Nat) :=
  match calls[i]? with
  | some c => if c.isExit then seekBack calls (some c.name) i 0 else .ok (some i)
  | none => .ok (some i)

/-- To the enter of the element around the cursor. -/
def performParent (s : CallSequence) : Except OutOfRange (Reply × CallSequence) :=
  match s.innerIndex? with
  | none => .ok (.ok none, s)
  | some i => do
    match ← parentStart s.calls i with
    | none => .ok (.ok none, s)
    | some start => do
      let parent? ← seekBack s.calls none start 0
      .ok (s.landed parent?)

/-- From an enter to the first element inside it. -/
def performFirstChild (s : CallSequence) : Except OutOfRange (Reply × CallSequence) :=
  match s.index? with
  | none => .ok (.ok none, s)
  | some i => do
    let c ← fetch s.calls i
    .ok (s.landed (if c.isEnter then nextTagIndex? s.calls i else none))

/-- To the first element behind the one under the cursor. -/
def performNextSibling (s : CallSequence) : Except OutOfRange (Reply × CallSequence) :=
  match s.index? with
  | none => .ok (.ok none, s)
  | some i => do
    let c ← fetch s.calls i
    let last? ← if c.isEnter then seekForward s.calls (some c.name) (i + 1) 0 else .ok (some i)
    .ok (s.landed (last?.bind (nextTagIndex? s.calls)))

/-- Inserts a call at an index and puts the cursor somewhere. -/
def performInsert (s : CallSequence) (i : Nat) (c : Call) (cursor : Cursor) :
    Except OutOfRange (Reply × CallSequence) := do
  let calls ← insertAt s.calls i c
  .ok (.ok none, { calls, cursor })

/-- Deletes the call under the cursor. -/
def performDelete (s : CallSequence) : Except OutOfRange (Reply × CallSequence) :=
  match s.index? with
  | none => .ok (.ok none, s)
  | some i => do
    let (c, calls) ← removeAt s.calls i
    .ok (.ok (some c), { calls, cursor := cursorBefore i 1 })

/-- Deletes the call under the cursor and then the one before it. -/
def performDeletePair (s : CallSequence) : Except OutOfRange (Reply × CallSequence) :=
  match s.index? with
  | none => .ok (.ok none, s)
  | some i =>
    if i = 0 then .ok (.ok none, s)
    else do
      let (c, calls) ← removeAt s.calls i
      let (_, calls) ← removeAt calls (i - 1)
      .ok (.ok (some c), { calls, cursor := cursorBefore i 2 })

/-- What an operation does, and what it answers. -/
def perform (s : CallSequence) : Operation → Except OutOfRange (Reply × CallSequence)
  | .next => .ok (.ok s.next.current?, s.next)
  | .previous => .ok (.ok s.previous.current?, s.previous)
  | .toStart => .ok (.ok none, s.toStart)
  | .toEnd => .ok (.ok none, s.toEnd)
  | .toOpening => s.performOpening
  | .toClosing => s.performClosing
  | .toParent => s.performParent
  | .toFirstChild => s.performFirstChild
  | .toNextSibling => s.performNextSibling
  | .insertBefore c =>
    match s.cursor with
    | .at i => s.performInsert i c (.at (i + 1))
    | .beforeStart => s.performInsert 0 c .beforeStart
    | .afterEnd => .ok (.ok none, s.append c)
  | .insertAfter c =>
    match s.cursor with
    | .at i => s.performInsert (i + 1) c (.at i)
    | .beforeStart => s.performInsert 0 c .beforeStart
    | .afterEnd => .ok (.ok none, s.append c)
  | .delete => s.performDelete
  | .deletePair => s.performDeletePair
  | .append c => .ok (.ok none, s.append c)
  | .appendAll cs => .ok (.ok none, s.appendAll cs)
  | .clear => .ok (.ok none, {})
  | .change f => .ok (.ok (s.modifyCurrent f).current?, s.modifyCurrent f)

/-- What some operations make of a sequence, one after the other. -/
def performAll : List Operation → CallSequence → Except OutOfRange CallSequence
  | [], s => .ok s
  | op :: ops, s => do
    let (_, s) ← s.perform op
    performAll ops s

/-! ### The same without indices -/

/-- A move that may find nothing, with the call that it leads to. -/
def movedTo (s : CallSequence) : Option CallSequence → Reply × CallSequence
  | some s' => (.ok s'.current?, s')
  | none => (.ok none, s)

/-- A move that may fail, with the call that it leads to. -/
def followed (s : CallSequence) : Except SequenceError CallSequence → Reply × CallSequence
  | .ok s' => (.ok s'.current?, s')
  | .error e => (.error e, s)

/-- A deletion that may find nothing, with the call that it deletes. -/
def without (s : CallSequence) : Option (Call × CallSequence) → Reply × CallSequence
  | some (c, s') => (.ok (some c), s')
  | none => (.ok none, s)

/-- What comes of an operation on a sequence. -/
def outcome (s : CallSequence) : Operation → Reply × CallSequence
  | .next => (.ok s.next.current?, s.next)
  | .previous => (.ok s.previous.current?, s.previous)
  | .toStart => (.ok none, s.toStart)
  | .toEnd => (.ok none, s.toEnd)
  | .toOpening => s.followed s.toOpening
  | .toClosing => s.followed s.toClosing
  | .toParent => s.movedTo s.toParent
  | .toFirstChild => s.movedTo s.toFirstChild
  | .toNextSibling => s.movedTo s.toNextSibling
  | .insertBefore c => (.ok none, s.insertBefore c)
  | .insertAfter c => (.ok none, s.insertAfter c)
  | .delete => s.without s.delete?
  | .deletePair => s.without s.deletePair?
  | .append c => (.ok none, s.append c)
  | .appendAll cs => (.ok none, s.appendAll cs)
  | .clear => (.ok none, {})
  | .change f => (.ok (s.modifyCurrent f).current?, s.modifyCurrent f)

end CallSequence

end WikiOutline
