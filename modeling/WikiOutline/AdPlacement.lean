/-
# Placing advertisements

Each section offers a slot for an advertisement, and a policy decides.  A policy
may fail; it has a state of its own.

Key definitions: `AdSlot`, `AdPolicy`, `IntervalAdPolicy.wants`.
-/

namespace WikiOutline

/-- A place where an advertisement could go. -/
structure AdSlot where
  /-- The filled lines of the section. -/
  sectionLines : Nat
  /-- The filled lines since the last advertisement, those of the section
  included. -/
  cumulativeLines : Nat
  /-- How many sections were opened before. -/
  sectionOrdinal : Nat
  adsInserted : Nat
  isLastSection : Bool
  deriving Repr, BEq, DecidableEq

/-- Decides about slots. -/
structure AdPolicy (π : Type) where
  decide : AdSlot → π → Except String Bool × π

/-- Keeps a distance between advertisements. -/
structure IntervalAdPolicy where
  minCumulativeLines : Nat := 25
  minSectionLines : Nat := 3
  maxAds : Nat := 4
  skipLastSection : Bool := true
  deriving Repr, BEq, DecidableEq

namespace IntervalAdPolicy

/-- No advertisement comes in the first section, beyond the largest number, or in
the last section if that is to be skipped; elsewhere the lines decide. -/
def wants (p : IntervalAdPolicy) (slot : AdSlot) : Bool :=
  slot.sectionOrdinal != 0 && decide (slot.adsInserted < p.maxAds) &&
    !(p.skipLastSection && slot.isLastSection) &&
    decide (p.minSectionLines ≤ slot.sectionLines) &&
    decide (p.minCumulativeLines ≤ slot.cumulativeLines)

/-- The policy, which never fails and keeps no state. -/
def policy (p : IntervalAdPolicy) : AdPolicy Unit where
  decide slot s := (.ok (p.wants slot), s)

end IntervalAdPolicy

end WikiOutline
