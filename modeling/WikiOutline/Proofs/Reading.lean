/-
# Reading a page heading by heading

Where the sections of a page begin, how deep they lie and what becomes of each
call can be told from left to right, without a tree: it takes the number of
headings that are open, the level of the section begun last, and how many
sections there are so far.  A section begins with a heading of the outline
outside any other one; its level is the one it reads, but at most one below the
section before.  Of the calls only attributes change: the levels of the headings that
begin sections, and the linking of the media inside headings.

Key definitions: `Outline.levelRead`, `Outline.effectiveLevel`, `Outline.Reading`,
`Reading.after`, `Reading.startingCalls`, `Reading.atLevel`, `Reading.kept`.
Key theorems: `Reading.leveled_eq_atLevel`, `Reading.written_eq`.
-/
import WikiOutline.Outline.Builder
import WikiOutline.Proofs.Attributes

namespace WikiOutline

namespace Outline

open Builder

/-- The level read from a heading call behind a section of level `previous`: a
level below 1 counts as 1, and without a level it is that of the section before. -/
def levelRead (previous : Nat) (c : Call) : Nat :=
  match c.attributes.getInt? levelAttribute with
  | some level => if 1 ≤ level then level.toNat else 1
  | none => max previous 1

/-- The level of the section that a heading call begins. -/
def effectiveLevel (previous : Nat) (c : Call) : Nat := min (levelRead previous c) (previous + 1)

/-- The warning about a level that skips some. -/
def skip? (previous : Nat) (c : Call) : Option Diagnostic :=
  if previous + 1 < levelRead previous c then
    some ⟨.skippedLevels (levelRead previous c) previous, c.startPos⟩
  else none

theorem one_le_levelRead (previous : Nat) (c : Call) : 1 ≤ levelRead previous c := by
  unfold levelRead
  split
  · split <;> omega
  · exact le_max_right _ _

theorem one_le_effectiveLevel (previous : Nat) (c : Call) : 1 ≤ effectiveLevel previous c :=
  le_min (one_le_levelRead previous c) (Nat.le_add_left 1 previous)

/-- A level that can be read does not depend on the section before. -/
theorem levelRead_congr {c : Call} (hc : c.attributes.getInt? levelAttribute ≠ none)
    (previous previous' : Nat) : levelRead previous c = levelRead previous' c := by
  unfold levelRead
  split
  · rfl
  · contradiction

/-- How far a page has been read. -/
structure Reading where
  /-- The headings that are open, one inside the other. -/
  depth : Nat := 0
  /-- The level of the section begun last. -/
  level : Nat := 0
  /-- The number of that section, 0 before the first heading. -/
  number : Nat := 0

namespace Reading

/-- The call begins a section: no heading is open, and it enters a heading of the outline or
is a whole one. -/
def starts (r : Reading) (c : Call) : Bool :=
  r.depth == 0 && (c.tag.isHeading && c.context == some "outline") &&
    (c.state == .enter || c.state == .special)

/-- The headings open behind a call inside a heading. -/
def nesting (depth : Nat) (c : Call) : Nat :=
  match c.tag.isHeading, c.state with
  | true, .enter => depth + 1
  | true, .exit => depth - 1
  | _, _ => depth

/-- Reads one call. -/
def after (r : Reading) (c : Call) : Reading :=
  if r.starts c then
    { depth := if c.state == .enter then 1 else 0
      level := effectiveLevel r.level c
      number := r.number + 1 }
  else if r.depth = 0 then r
  else { r with depth := nesting r.depth c }

/-- The calls that begin a section. -/
def startingCalls : Reading → List Call → List Call
  | _, [] => []
  | r, c :: cs =>
    if r.starts c then c :: startingCalls (r.after c) cs else startingCalls (r.after c) cs

/-- A level as the value of an attribute, which holds no larger integer than the largest. -/
def levelValue (level : Nat) : AttributeValue := .int (.ofInt (min (level : Int) Word.maxInt))

/-- A heading call that is given a level.  Where it is not the level that was read, the
call keeps that one too, as the one that it declares. -/
def atLevel (c : Call) (read level : Nat) : Call :=
  let c := if level = read then c else c.giving "declared-level" (levelValue read)
  c.giving "level" (levelValue level)

/-- What becomes of a call.  The one that begins a section gets its level, and
then the mark of the section; media inside a heading do not link. -/
def written (mark : Nat → Call → Call) (r : Reading) (c : Call) : Call :=
  if r.starts c then
    mark (r.number + 1) (atLevel c (levelRead r.level c) (effectiveLevel r.level c))
  else if r.depth != 0 && c.tag.isMedia then c.giving "linking" (.string "nolink")
  else c

/-- What becomes of some calls. -/
def kept (mark : Nat → Call → Call) : Reading → List Call → List Call
  | _, [] => []
  | r, c :: cs => r.written mark c :: kept mark (r.after c) cs

/-- A build gives a heading its level. -/
theorem leveled_eq_atLevel (c : Call) (read level : Nat) :
    leveled c read level = atLevel c read level := by
  unfold leveled atLevel
  simp only [Call.withAttribute_eq_giving]
  rfl

/-- What becomes of a call is what a build makes of it. -/
theorem written_eq (mark : Nat → Call → Call) (r : Reading) (c : Call) :
    r.written mark c =
      if r.starts c then
        mark (r.number + 1) (leveled c (levelRead r.level c) (effectiveLevel r.level c))
      else if r.depth != 0 && c.tag.isMedia then c.withAttribute "linking" (.string "nolink")
      else c := by
  rw [leveled_eq_atLevel, Call.withAttribute_eq_giving]
  rfl

/-- Nothing is lost. -/
theorem length_kept (mark : Nat → Call → Call) :
    ∀ (r : Reading) (cs : List Call), (kept mark r cs).length = cs.length
  | _, [] => rfl
  | r, c :: cs => by simp [kept, length_kept mark (r.after c) cs]

theorem kept_append (mark : Nat → Call → Call) :
    ∀ (r : Reading) (cs ds : List Call),
      kept mark r (cs ++ ds) = kept mark r cs ++ kept mark (cs.foldl after r) ds
  | _, [], _ => rfl
  | r, c :: cs, ds => by simp [kept, kept_append mark (r.after c) cs ds]

theorem startingCalls_append :
    ∀ (r : Reading) (cs ds : List Call),
      startingCalls r (cs ++ ds) = startingCalls r cs ++ startingCalls (cs.foldl after r) ds
  | _, [], _ => rfl
  | r, c :: cs, ds => by
    simp only [List.cons_append, startingCalls, List.foldl_cons]
    split <;> simp [startingCalls_append (r.after c) cs ds]

/-! ### Calls that begin nothing -/

theorem starts_eq (r : Reading) (c : Call) :
    r.starts c = (r.depth == 0 && isOutlineHeading c && (c.state == .enter || c.state == .special)) :=
  rfl

theorem starts_of_not_heading (r : Reading) {c : Call} (h : isOutlineHeading c = false) :
    r.starts c = false := by
  simp [starts_eq, h]

theorem starts_of_depth {r : Reading} (h : r.depth ≠ 0) (c : Call) : r.starts c = false := by
  simp [starts, h]

/-- Outside a heading a call that begins nothing is passed by. -/
theorem after_of_outside {r : Reading} {c : Call} (hs : r.starts c = false) (hd : r.depth = 0) :
    r.after c = r := by
  simp [after, hs, hd]

theorem written_of_outside (mark : Nat → Call → Call) {r : Reading} {c : Call}
    (hs : r.starts c = false) (hd : r.depth = 0) : r.written mark c = c := by
  simp [written, hs, hd]

theorem written_of_starts (mark : Nat → Call → Call) {r : Reading} {c : Call}
    (hs : r.starts c = true) : r.written mark c =
      mark (r.number + 1) (leveled c (levelRead r.level c) (effectiveLevel r.level c)) := by
  rw [written_eq, if_pos hs]

end Reading

end Outline

end WikiOutline
