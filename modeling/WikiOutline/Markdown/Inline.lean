/-
# Inline content

A passage becomes a sequence of inline nodes: text, code, HTML, breaks, and
elements with nodes in them.

Key definitions: `Markdown.Inline`, `Markdown.Inline.events`.
-/
import WikiOutline.Markdown.Event

namespace WikiOutline

namespace Markdown

/-- A run of signs that may open or close emphasis. -/
structure Delimiters where
  mark : Char
  /-- The offset of the first sign. -/
  start : Nat
  /-- How many signs are left. -/
  count : Nat
  /-- How many signs there were. -/
  length : Nat
  opens : Bool
  closes : Bool
  deriving Repr, BEq, DecidableEq, Inhabited

/-- An inline node. -/
inductive Inline where
  /-- A node that is one event. -/
  | leaf (event : Event) (span : Span)
  | delimiters (run : Delimiters)
  | nested (element : Element) (span : Span) (children : List Inline)
  deriving Repr

namespace Delimiters

/-- Signs that mean nothing are text, each on its own. -/
def texts (d : Delimiters) : List (Event × Span) :=
  (List.range d.count).map fun i =>
    (.text (String.singleton d.mark), ⟨d.start + i, d.start + i + 1⟩)

end Delimiters

mutual

/-- The events of a node. -/
def Inline.events : Inline → List (Event × Span)
  | .leaf event span => [(event, span)]
  | .delimiters run => run.texts
  | .nested element span children =>
    (.start element, span) :: Inline.eventsOfList children ++ [(.finish, span)]

/-- The events of nodes in their order. -/
def Inline.eventsOfList : List Inline → List (Event × Span)
  | [] => []
  | node :: nodes => node.events ++ Inline.eventsOfList nodes

end

end Markdown

end WikiOutline
