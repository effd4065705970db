/-
# Walking an outline

Every walk keeps the list of what is still to be done.  A section comes before
its subsections, and these come in order.

Key definitions: `Outline.walk`, `Outline.preOrder`, `Outline.lastSection`.
-/
import WikiOutline.Outline.Basic

namespace WikiOutline

namespace Outline

/-- What a walk meets: a section entered or left, at a depth. -/
inductive WalkEvent where
  | enter (id depth : Nat)
  | leave (id depth : Nat)
  deriving Repr, BEq, DecidableEq

/-- Does what is to be done, the nearest first; every section is entered and left
once, so twice the number of sections is fuel enough. -/
def walkFrom (o : Outline) : Nat → List WalkEvent → List WalkEvent
  | 0, _ => []
  | _, [] => []
  | fuel + 1, .enter id depth :: todo =>
    .enter id depth ::
      o.walkFrom fuel
        ((o.get id).children.map (fun child => .enter child (depth + 1)) ++
          .leave id depth :: todo)
  | fuel + 1, .leave id depth :: todo => .leave id depth :: o.walkFrom fuel todo

/-- Enters and leaves every section, the subsections in between. -/
def walk (o : Outline) : List WalkEvent := o.walkFrom (2 * o.size) [.enter 0 0]

/-- Visits sections, the nearest first. -/
def preOrderFrom (o : Outline) : Nat → List Nat → List Nat
  | 0, _ => []
  | _, [] => []
  | fuel + 1, id :: todo => id :: o.preOrderFrom fuel ((o.get id).children ++ todo)

/-- The sections, each before its subsections. -/
def preOrder (o : Outline) : List Nat := o.preOrderFrom o.size [0]

/-- From a section down to the last subsection of the last subsection. -/
def lastBelow (o : Outline) : Nat → Nat → Nat
  | 0, id => id
  | fuel + 1, id =>
    match (o.get id).children.getLast? with
    | some child => o.lastBelow fuel child
    | none => id

/-- The section that no other comes behind. -/
def lastSection (o : Outline) : Nat := o.lastBelow o.size 0

end Outline

end WikiOutline
