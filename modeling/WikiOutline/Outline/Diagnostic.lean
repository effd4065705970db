/-
# Diagnostics

A warning is about what an author wrote and never stops anything.  An internal
finding is about a call sequence that no reader should have produced: it ends a
strict build, and a lenient one notes it and goes on.

Key definitions: `Finding`, `Diagnostic`, `Diagnostic.display`, `Strictness`, `Failure`.
-/

namespace WikiOutline

/-- What a build does at an internal finding. -/
inductive Strictness where
  | strict
  | lenient
  deriving Repr, BEq, DecidableEq

/-- A build is strict unless told otherwise. -/
def Strictness.default : Strictness := .strict

/-- Warnings are about content, internal findings about the call sequence. -/
inductive DiagnosticKind where
  | warning
  | internal
  deriving Repr, BEq, DecidableEq

/-- What was found while building an outline. -/
inductive Finding where
  | invalidLevel (level : Int)
  | skippedLevels (declared current : Nat)
  | missingLevel (current : Nat)
  | noAncestor (level : Nat)
  | strayHeadingExit
  | unclosedHeading
  | titleNotRecorded (reason : String)
  deriving Repr, BEq, DecidableEq

namespace Finding

/-- Which kind of finding it is. -/
def kind : Finding → DiagnosticKind
  | .invalidLevel _ => .warning
  | .skippedLevels _ _ => .warning
  | .titleNotRecorded _ => .warning
  | .missingLevel _ => .internal
  | .noAncestor _ => .internal
  | .strayHeadingExit => .internal
  | .unclosedHeading => .internal

/-- The finding in words. -/
def message : Finding → String
  | .invalidLevel level =>
    "Heading level " ++ toString level ++ " is not valid, using level 1"
  | .skippedLevels declared current =>
    "Heading level " ++ toString declared ++ " skips levels below level " ++
      toString current ++ ", corrected to " ++ toString (current + 1)
  | .missingLevel current =>
    "Heading without level attribute, using level " ++ toString current
  | .noAncestor level =>
    "No ancestor section for heading level " ++ toString level ++ ", attaching to root"
  | .strayHeadingExit => "Heading exit without an open heading"
  | .unclosedHeading => "Heading is not closed at the end of the document"
  | .titleNotRecorded reason => "Failed to record page title: " ++ reason

end Finding

/-- A finding and the source position it is about. -/
structure Diagnostic where
  finding : Finding
  position : Option Nat
  deriving Repr, BEq, DecidableEq

namespace Diagnostic

/-- Which kind of finding it is. -/
def kind (d : Diagnostic) : DiagnosticKind := d.finding.kind

/-- The finding in words, with its position if it has one. -/
def display (d : Diagnostic) : String :=
  match d.position with
  | some p => d.finding.message ++ " (at " ++ toString p ++ ")"
  | none => d.finding.message

/-- What a strict build reports when the finding ends it. -/
def failure (d : Diagnostic) : String := "Internal outline error: " ++ d.display

end Diagnostic

/-- What ends a strict build, with the state its sink is left in. -/
structure Failure (σ : Type) extends Diagnostic where
  sinkState : σ
  deriving Repr, BEq, DecidableEq

instance {σ : Type} : CoeOut (Failure σ) Diagnostic := ⟨Failure.toDiagnostic⟩

end WikiOutline
