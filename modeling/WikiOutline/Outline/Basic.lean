/-
# Outlines

An outline is a tree of sections kept in the order they were found.  A section
is named by its place in that order.

Key definitions: `Outline`, `Outline.get`, `Outline.warnings`.
-/
import WikiOutline.Outline.Diagnostic
import WikiOutline.Outline.Section

namespace WikiOutline

/-- A tree of sections, the root first. -/
structure Outline where
  sections : List Section
  title : Option String
  /-- The largest end position of a call. -/
  maxEndPos : Option Nat
  diagnostics : List Diagnostic
  deriving Inhabited

namespace Outline

/-- The section of a number; a number without one gives the root's shape. -/
def get (o : Outline) (id : Nat) : Section := o.sections.getD id .root

/-- The number of sections, the root included. -/
def size (o : Outline) : Nat := o.sections.length

/-- No section but the root. -/
def isEmpty (o : Outline) : Bool := o.sections.length == 1

/-- The warnings in words. -/
def warnings (o : Outline) : List String :=
  (o.diagnostics.filter fun d => d.kind == .warning).map Diagnostic.display

end Outline

end WikiOutline
