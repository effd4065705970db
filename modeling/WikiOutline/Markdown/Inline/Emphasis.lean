/-
# Emphasis

A run of signs that may close emphasis looks back for the nearest run of the same
sign that may open it.  Two signs on either side are strong emphasis, one is
plain emphasis, and tildes strike through.  Runs between the two mean nothing.

A run that may do both fits only if the lengths of the two do not add up to a
multiple of three, unless that of the closing run is one itself.

Key definitions: `Markdown.Emphasis.fits`, `Markdown.Emphasis.resolve`.
-/
import WikiOutline.Markdown.Inline

namespace WikiOutline

namespace Markdown

namespace Emphasis

/-- A run that may open emphasis, with the nodes behind it, the latest first. -/
structure Opener where
  run : Delimiters
  inner : List Inline := []

/-- The nodes so far. -/
structure State where
  /-- The nodes before all openers, the latest first. -/
  base : List Inline := []
  /-- The openers, the nearest first. -/
  openers : List Opener := []
  /-- So many openers, from the first one on, no tilde can match any more. -/
  tildeFloor : Nat := 0

namespace State

/-- Adds a node. -/
def push (s : State) (node : Inline) : State :=
  match s.openers with
  | [] => { s with base := node :: s.base }
  | o :: outer => { s with openers := { o with inner := node :: o.inner } :: outer }

/-- The nodes in their order; openers without a match are text. -/
def toList (s : State) : List Inline :=
  s.openers.foldl (fun nodes o => .delimiters o.run :: o.inner.reverse ++ nodes) []
    |> (s.base.reverse ++ ·)

end State

/-- An opening and a closing run make emphasis together. -/
def fits (opener closer : Delimiters) : Bool :=
  opener.mark == closer.mark &&
    (closer.mark != '~' || opener.length == closer.length) &&
    ((!closer.opens && !opener.closes) || (closer.length + opener.length) % 3 != 0 ||
      closer.length % 3 == 0)

/-- The nearest opener that fits, with the nodes behind it, and the openers outside
it.  Openers that are passed over are text. -/
def findOpener? (closer : Delimiters) :
    List Opener → List Inline → Option (Delimiters × List Inline × List Opener)
  | [], _ => none
  | o :: outer, behind =>
    let inner := o.inner.reverse ++ behind
    if fits o.run closer then some (o.run, inner, outer)
    else findOpener? closer outer (.delimiters o.run :: inner)

/-- The element that one or two signs make. -/
def elementOf (mark : Char) (double : Bool) : Element :=
  if mark == '~' then .strikethrough else if double then .strong else .emphasis

/-- Wraps nodes with so many signs on either side, from the inside out and two at
a time.  The signs stand up to `start` and from `stop` on. -/
def wrap (mark : Char) : Nat → Nat → Nat → List Inline → List Inline
  | 0, _, _, nodes => nodes
  | 1, start, stop, nodes => [.nested (elementOf mark false) ⟨start - 1, stop + 1⟩ nodes]
  | n + 2, start, stop, nodes =>
    wrap mark n (start - 2) (stop + 2)
      [.nested (elementOf mark true) ⟨start - 2, stop + 2⟩ nodes]

/-- Closes as much as a run can close; what is left of it opens emphasis or is
text.  Every step takes a sign, so their number is fuel enough. -/
def closeRun : Nat → Delimiters → State → State
  | 0, _, s => s
  | fuel + 1, run, s =>
    let reach := if run.mark == '~' then s.openers.length - s.tildeFloor else s.openers.length
    match if run.closes then findOpener? run (s.openers.take reach) [] else none with
    | some (opener, inner, outer) =>
      let n := min run.count opener.count
      let outer := outer ++ s.openers.drop reach
      let nodes := wrap run.mark n (opener.start + opener.count) run.start inner
      let s := { s with openers := outer, tildeFloor := min s.tildeFloor outer.length }
      let s :=
        if n < opener.count then
          { s with openers := ⟨{ opener with count := opener.count - n }, nodes.reverse⟩ :: outer }
        else nodes.foldl State.push s
      let run := { run with start := run.start + n, count := run.count - n }
      if run.count = 0 then s else closeRun fuel run s
    | none =>
      let s :=
        if run.closes && run.mark == '~' then { s with tildeFloor := s.openers.length } else s
      if run.opens then { s with openers := ⟨run, []⟩ :: s.openers } else s.push (.delimiters run)

/-- Finds the emphasis among nodes. -/
def resolve (nodes : List Inline) : List Inline :=
  (nodes.foldl (fun s node =>
    match node with
    | .delimiters run => closeRun (run.count + 1) run s
    | node => s.push node) ({} : State)).toList

end Emphasis

end Markdown

end WikiOutline
