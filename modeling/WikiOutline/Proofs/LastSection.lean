/-
# What a step leaves alone

A call that starts no section changes the section started last only, and does not end it.
A call that starts one adds its own section behind those that are there; it leaves alone
what they hold, and ends those that are not above it (`Builder.Step.adds_or_changesLast`).

Key definitions: `Builder.ChangesLast`, `Builder.Adds`.
Key theorem: `Builder.Step.adds_or_changesLast`.
-/
import WikiOutline.Proofs.Growth

namespace WikiOutline

namespace Outline

namespace Builder

open Reading

/-- The last build differs from the first in the section started last, and not in its
end. -/
def ChangesLast (b b' : Builder) : Prop :=
  b'.current = b.current ∧
    ∃ f : Section → Section, (∀ s, (f s).endPos = s.endPos) ∧
      b'.sections = b.sections.modify b.current f

theorem ChangesLast.of_eq {b b' : Builder} (hc : b'.current = b.current)
    (hs : b'.sections = b.sections) : ChangesLast b b' :=
  ⟨hc, id, fun _ => rfl, hs.trans (List.modify_id _ _).symm⟩

theorem ChangesLast.trans {b b₁ b' : Builder} (h : ChangesLast b b₁) (h' : ChangesLast b₁ b') :
    ChangesLast b b' := by
  obtain ⟨hc, f, hf, hs⟩ := h
  obtain ⟨hc', g, hg, hs'⟩ := h'
  refine ⟨hc'.trans hc, g ∘ f, fun s => (hg (f s)).trans (hf s), ?_⟩
  rw [hs', hs, hc, List.modify_modify_eq]

theorem changesLast_noteEnd (b : Builder) (c : Call) : ChangesLast b (b.noteEnd c) :=
  .of_eq (noteEnd_current b c) (noteEnd_sections b c)

theorem changesLast_endAbsorbing (b : Builder) (c : Call) : ChangesLast b (b.noteEnd c).endAbsorbing :=
  .of_eq (noteEnd_current b c) (noteEnd_sections b c)

theorem changesLast_modifyCurrent (b : Builder) {f : Section → Section}
    (hf : ∀ s, (f s).endPos = s.endPos) : ChangesLast b (b.modifyCurrent f) :=
  ⟨rfl, f, hf, rfl⟩

theorem changesLast_pushContent (b : Builder) (c : Call) : ChangesLast b (b.pushContent c) :=
  changesLast_modifyCurrent b fun _ => rfl

theorem changesLast_pushHeading (b : Builder) (c : Call) : ChangesLast b (b.pushHeading c) :=
  changesLast_modifyCurrent b fun _ => rfl

theorem changesLast_labelCurrent (b : Builder) : ChangesLast b b.labelCurrent :=
  changesLast_modifyCurrent b fun _ => rfl

theorem changesLast_acceptInHeading (b : Builder) (h : OpenHeading) (c : Call) :
    ChangesLast b (b.acceptInHeading h c) := by
  unfold acceptInHeading
  simp only
  split
  · exact ((changesLast_pushHeading b _).trans (changesLast_labelCurrent _)).trans (.of_eq rfl rfl)
  · exact (changesLast_pushHeading b _).trans (.of_eq rfl rfl)

/-! ### A new section -/

/-- The last build has one section more than the first, that of the call, below section
`p`, and stands in it. -/
structure Adds (b : Builder) (c : Call) (p : Nat) (b' : Builder) : Prop where
  below : Below b.nodes (effectiveLevel (b.get b.current).level c) p b.sections.length
  current : b'.current = b.sections.length
  sections : b'.sections = (b.leaveSections c p).sections.modify p
      (fun s => { s with children := s.children ++ [b.sections.length] }) ++
    [startedSection c (levelRead (b.get b.current).level c) p
      (effectiveLevel (b.get b.current).level c)]
  nodes : b'.nodes = grow b.nodes p (startedNode c (b.get b.current).level p)

theorem adds_openSection {b noted : Builder} {c : Call} {p : Nat}
    (hs : noted.sections = b.sections) (hc : noted.current = b.current)
    (hp : Below b.nodes (effectiveLevel (b.get b.current).level c) p b.sections.length) :
    Adds b c p (noted.openSection c (levelRead (b.get b.current).level c) p
      (effectiveLevel (b.get b.current).level c)) := by
  refine ⟨hp, ?_, ?_, ?_⟩
  · rw [openSection_current, hs]
  · rw [openSection_sections, leaveSections_congr hs hc, hs]
  · rw [nodes_openSection, nodes, hs]
    rfl

theorem adds_of_startSection {heads : List Call} {b b' : Builder} {c : Call} (h : Sound heads b)
    (hs : (b.noteEnd c).startSection c = .ok b') : ∃ p, Adds b c p b' := by
  obtain ⟨p, hp, heq⟩ := startSection_eq (h.noteEnd c) c
  rw [hs] at heq
  split at heq
  · cases heq
  · rw [nodes_noteEnd, noteEnd_get, noteEnd_current, length_nodes] at hp
    rw [noteEnd_get, noteEnd_current] at heq
    rw [Except.ok.inj heq]
    exact ⟨p, adds_openSection (noteEnd_sections b c) rfl hp⟩

/-- A new section leaves alone what the sections before it hold. -/
theorem Adds.map_take {b b' : Builder} {c : Call} {p : Nat} (h : Adds b c p b') {β : Type}
    (g : Section → β) (hg : ∀ s children e, g { s with children, endPos := e } = g s) :
    (b'.sections.take b'.current).map g = b.sections.map g := by
  have hlength : b.sections.length = ((b.leaveSections c p).sections.modify p fun s =>
      { s with children := s.children ++ [b.sections.length] }).length := by
    rw [List.length_modify, length_leaveSections]
  rw [h.current, h.sections, List.take_left' hlength.symm, map_modify_eq g _ _ _ fun s _ => hg s _ s.endPos]
  exact (leaveSections_frame b c p).2 g fun s e => hg s s.children e

theorem ChangesLast.take {b b' : Builder} (h : ChangesLast b b') :
    b'.sections.take b'.current = b.sections.take b.current := by
  obtain ⟨hc, f, -, hs⟩ := h
  rw [hc, hs, List.take_modify, List.modify_eq_self (List.length_take_le _ _)]

/-- **A step** starts a section and adds it, or it changes the section started last. -/
theorem Step.adds_or_changesLast {heads : List Call} {b b' : Builder} {taken rest : List Call}
    (h : Step b taken rest b') (hb : Sound heads b) :
    (∃ c p, taken = [c] ∧ b.reading.starts c = true ∧ Adds b c p b') ∨
      Quiet b taken b' ∧ ChangesLast b b' := by
  rcases h.starts_or_quiet hb with ⟨c, rfl, hst, -, heq⟩ | hq
  · obtain ⟨p, hadds⟩ := adds_of_startSection hb heq
    exact .inl ⟨c, p, rfl, hst, hadds⟩
  refine .inr ⟨hq, ?_⟩
  cases h with
  | inHeading _ => exact (changesLast_noteEnd b _).trans (changesLast_acceptInHeading _ _ _)
  | start ho hh hc heq =>
    have hquiet := hq.starts
    rw [startingCalls, if_pos (starts_of_closed ho hh hc)] at hquiet
    cases hquiet
  | stray => exact (changesLast_noteEnd b _).trans (changesLast_pushContent _ _)
  | fold => exact (changesLast_endAbsorbing b _).trans (changesLast_pushHeading _ _)
  | foldPair =>
    exact ((changesLast_endAbsorbing b _).trans (changesLast_pushHeading _ _)).trans (changesLast_pushHeading _ _)
  | content => exact (changesLast_endAbsorbing b _).trans (changesLast_pushContent _ _)

end Builder

end Outline

end WikiOutline
