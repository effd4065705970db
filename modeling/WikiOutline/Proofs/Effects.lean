/-
# What the operations of a build change

Taking a call changes the current section only, and of what the tree knows of it
nothing: the nodes stay as they are.  A new section is one more node below its
parent; the sections it ends keep all but their ends.

Key definitions: `Builder.nodes`, `Builder.startedSection`, `Builder.startedNode`.
Key theorems: `Builder.leaveSections_frame`, `Builder.nodes_acceptInHeading`,
`Builder.openSection_sections`, `Builder.nodes_openSection`.
-/
import WikiOutline.Proofs.Steps
import WikiOutline.Proofs.Tree

namespace WikiOutline

namespace Outline

namespace Builder

open Reading

/-- The nodes of the sections. -/
def nodes (b : Builder) : List Node := b.sections.map Section.node

theorem nodeAt_nodes (b : Builder) (i : Nat) : nodeAt b.nodes i = (b.get i).node :=
  nodeAt_map_node b.sections i

theorem nodeAt_nodes_level (b : Builder) (i : Nat) :
    (nodeAt b.nodes i).level = (b.get i).level := by
  rw [nodeAt_nodes]
  rfl

theorem length_nodes (b : Builder) : b.nodes.length = b.sections.length :=
  List.length_map _

/-! ### What leaves the nodes alone -/

/-- A change that a view of the section does not see. -/
theorem map_modify_eq {α β : Type} (g : α → β) (f : α → α) (l : List α) (i : Nat)
    (h : ∀ a, l[i]? = some a → g (f a) = g a) : (l.modify i f).map g = l.map g := by
  refine List.ext_getElem? fun j => ?_
  simp only [List.getElem?_map, List.getElem?_modify]
  by_cases hij : i = j
  · subst hij
    cases ha : l[i]? with
    | none => rfl
    | some a => simp [h a ha]
  · simp [hij]

/-- A change that maps along a view. -/
theorem map_modify_map {α β : Type} (g : α → β) (f : α → α) (f' : β → β) (l : List α) (i : Nat)
    (h : ∀ a, g (f a) = f' (g a)) : (l.modify i f).map g = (l.map g).modify i f' := by
  refine List.ext_getElem? fun j => ?_
  simp only [List.getElem?_map, List.getElem?_modify]
  by_cases hij : i = j
  · subst hij
    cases l[i]? <;> simp [h]
  · simp [hij]

theorem get_eq_of_getElem? {b : Builder} {i : Nat} {s : Section} (h : b.sections[i]? = some s) :
    b.get i = s := by
  simp [get, h]

theorem nodes_pushContent (b : Builder) (c : Call) : (b.pushContent c).nodes = b.nodes :=
  map_modify_eq _ _ _ _ fun _ _ => rfl

theorem nodes_labelCurrent (b : Builder) : b.labelCurrent.nodes = b.nodes :=
  map_modify_eq _ _ _ _ fun _ _ => rfl

/-- A heading that has begun keeps its first call. -/
theorem nodes_pushHeading {b : Builder} (h : (b.get b.current).headingCalls ≠ []) (c : Call) :
    (b.pushHeading c).nodes = b.nodes :=
  map_modify_eq _ _ _ _ fun s hs => by
    rw [get_eq_of_getElem? hs] at h
    simp only [Section.node, Node.mk.injEq, true_and]
    rw [List.head?_append_of_ne_nil _ h]

theorem nodes_noteEnd (b : Builder) (c : Call) : (b.noteEnd c).nodes = b.nodes := by
  simp [nodes]

/-- Ending sections changes nothing but their ends. -/
theorem closeSpans_frame (start parent : Nat) : ∀ (steps id : Nat) (b : Builder),
    closeSpans start parent steps id b =
        { b with sections := (closeSpans start parent steps id b).sections } ∧
      ∀ {β : Type} (g : Section → β), (∀ s e, g { s with endPos := e } = g s) →
        (closeSpans start parent steps id b).sections.map g = b.sections.map g
  | 0, _, b => ⟨rfl, fun _ _ => rfl⟩
  | steps + 1, id, b => by
    unfold closeSpans
    split
    · exact ⟨rfl, fun _ _ => rfl⟩
    · split
      · exact ⟨rfl, fun _ _ => rfl⟩
      · rename_i next _
        obtain ⟨h1, h2⟩ := closeSpans_frame start parent steps next (b.modify id fun s =>
          { s with endPos := some (s.startPos.elim (start - 1) (max (start - 1))) })
        refine ⟨by rw [h1]; rfl, fun g hg => ?_⟩
        rw [h2 g hg]
        exact map_modify_eq _ _ _ _ fun s _ => hg s _

theorem leaveSections_frame (b : Builder) (c : Call) (parent : Nat) :
    b.leaveSections c parent = { b with sections := (b.leaveSections c parent).sections } ∧
      ∀ {β : Type} (g : Section → β), (∀ s e, g { s with endPos := e } = g s) →
        (b.leaveSections c parent).sections.map g = b.sections.map g := by
  unfold leaveSections
  split
  · exact closeSpans_frame _ _ _ _ _
  · exact ⟨rfl, fun _ _ => rfl⟩

/-- Which sections are ended depends on the sections alone. -/
theorem closeSpans_congr (start parent : Nat) : ∀ (steps id : Nat) {b b' : Builder},
    b'.sections = b.sections →
    (closeSpans start parent steps id b').sections = (closeSpans start parent steps id b).sections
  | 0, _, _, _, h => h
  | steps + 1, id, b, b', h => by
    have hget : b'.get id = b.get id := by rw [get, get, h]
    unfold closeSpans
    rw [hget]
    split
    · exact h
    · split
      · exact h
      · exact closeSpans_congr start parent steps _ (congrArg (List.modify · id _) h)

theorem leaveSections_congr {b b' : Builder} (hs : b'.sections = b.sections)
    (hc : b'.current = b.current) (c : Call) (parent : Nat) :
    (b'.leaveSections c parent).sections = (b.leaveSections c parent).sections := by
  unfold leaveSections
  rw [hs, hc]
  split
  · exact closeSpans_congr _ _ _ _ hs
  · exact hs

theorem length_leaveSections (b : Builder) (c : Call) (parent : Nat) :
    (b.leaveSections c parent).sections.length = b.sections.length := by
  have h := congrArg List.length ((leaveSections_frame b c parent).2 (fun _ => ()) fun _ _ => rfl)
  simpa using h

/-! ### A heading inside -/

theorem depth_after (h : OpenHeading) (c : Call) :
    (OpenHeading.after h c).depth = nesting h.depth c := by
  unfold OpenHeading.after nesting
  cases c.tag.isHeading <;> cases c.state <;> rfl

theorem acceptInHeading_current (b : Builder) (h : OpenHeading) (c : Call) :
    (b.acceptInHeading h c).current = b.current := by
  unfold acceptInHeading
  simp only
  split <;> rfl

theorem acceptInHeading_diagnostics (b : Builder) (h : OpenHeading) (c : Call) :
    (b.acceptInHeading h c).diagnostics = b.diagnostics := by
  unfold acceptInHeading
  simp only
  split <;> rfl

theorem acceptInHeading_strictness (b : Builder) (h : OpenHeading) (c : Call) :
    (b.acceptInHeading h c).strictness = b.strictness := by
  unfold acceptInHeading
  simp only
  split <;> rfl

/-- The heading ends with the call, or goes on with as many headings open as the
call leaves. -/
theorem acceptInHeading_openHeading (b : Builder) (h : OpenHeading) (c : Call) :
    (nesting h.depth c = 0 ∧ (b.acceptInHeading h c).openHeading = none) ∨
      (nesting h.depth c ≠ 0 ∧ ∃ h', (b.acceptInHeading h c).openHeading = some h' ∧
        h'.depth = nesting h.depth c) := by
  unfold acceptInHeading
  rw [← depth_after]
  simp only
  split
  · rename_i h0
    exact .inl ⟨h0, rfl⟩
  · rename_i h0
    exact .inr ⟨h0, _, rfl, rfl⟩

/-- A heading keeps its syntax, which decides what it takes behind its end. -/
theorem acceptInHeading_style (b : Builder) (h : OpenHeading) (c : Call) :
    ((b.acceptInHeading h c).openHeading = none →
        (b.acceptInHeading h c).absorbing = !h.style.isBlock) ∧
      ∀ h', (b.acceptInHeading h c).openHeading = some h' → h'.style = h.style := by
  have hstyle : (OpenHeading.after h c).style = h.style := by
    unfold OpenHeading.after
    cases c.tag.isHeading <;> cases c.state <;> rfl
  unfold acceptInHeading
  simp only
  split
  · exact ⟨fun _ => by rw [hstyle], nofun⟩
  · refine ⟨nofun, fun h' ho => ?_⟩
    rw [← Option.some.inj ho, hstyle]

theorem nodes_acceptInHeading {b : Builder} (hne : (b.get b.current).headingCalls ≠ [])
    (h : OpenHeading) (c : Call) : (b.acceptInHeading h c).nodes = b.nodes := by
  have hp : ∀ c, (b.pushHeading c).nodes = b.nodes := nodes_pushHeading hne
  unfold acceptInHeading
  simp only
  split
  · exact (nodes_labelCurrent _).trans (hp _)
  · exact hp _

/-! ### A new section -/

/-- The node of a new section. -/
def startedNode (c : Call) (previous parent : Nat) : Node where
  level := effectiveLevel previous c
  declaredLevel := levelRead previous c
  parent := some parent
  children := []
  startPos := c.startPos
  lead := some (leveled c (levelRead previous c) (effectiveLevel previous c))

/-- The section of a heading call, labelled at once if the call is all of it. -/
def startedSection (c : Call) (declared parent level : Nat) : Section :=
  let s : Section :=
    { level, declaredLevel := declared, headingCalls := [leveled c declared level]
      parent := some parent, startPos := c.startPos }
  if c.state == .special then { s with label := plainText s.headingCalls } else s

theorem modify_concat {α : Type} (f : α → α) : ∀ (l : List α) (a : α),
    (l ++ [a]).modify l.length f = l ++ [f a]
  | [], _ => rfl
  | x :: l, a => by
    rw [List.cons_append, List.length_cons, List.modify_succ_cons, modify_concat f l a,
      List.cons_append]

theorem openSection_sections (b : Builder) (c : Call) (declared parent level : Nat) :
    (b.openSection c declared parent level).sections =
      (b.leaveSections c parent).sections.modify parent
          (fun s => { s with children := s.children ++ [b.sections.length] }) ++
        [startedSection c declared parent level] := by
  unfold openSection startedSection
  simp only [modify, length_leaveSections]
  split
  · simp only [labelCurrent, modifyCurrent, modify]
    have h := modify_concat (fun s : Section => { s with label := plainText s.headingCalls })
      ((b.leaveSections c parent).sections.modify parent
        fun s => { s with children := s.children ++ [b.sections.length] })
    rw [List.length_modify, length_leaveSections] at h
    exact h _
  · rfl

theorem openSection_current (b : Builder) (c : Call) (declared parent level : Nat) :
    (b.openSection c declared parent level).current = b.sections.length := by
  unfold openSection
  simp only [length_leaveSections]
  split <;> rfl

theorem openSection_openHeading (b : Builder) (c : Call) (declared parent level : Nat) :
    (b.openSection c declared parent level).openHeading =
      if c.state == .special then b.openHeading
      else some ⟨c.headingSyntax?.getD .block, 1⟩ := by
  unfold openSection
  rw [(leaveSections_frame b c parent).1]
  simp only
  split <;> rfl

/-- A heading without content takes a paragraph behind it, if it stands on its own line. -/
theorem openSection_absorbing (b : Builder) {c : Call} (hc : (c.state == .special) = true)
    (declared parent level : Nat) :
    (b.openSection c declared parent level).absorbing =
      !(c.headingSyntax?.getD .block).isBlock := by
  unfold openSection
  simp only [hc, ↓reduceIte]

theorem openSection_diagnostics (b : Builder) (c : Call) (declared parent level : Nat) :
    (b.openSection c declared parent level).diagnostics = b.diagnostics := by
  unfold openSection
  rw [(leaveSections_frame b c parent).1]
  simp only
  split <;> rfl

theorem openSection_strictness (b : Builder) (c : Call) (declared parent level : Nat) :
    (b.openSection c declared parent level).strictness = b.strictness := by
  unfold openSection
  rw [(leaveSections_frame b c parent).1]
  simp only
  split <;> rfl

/-- A new section adds its node. -/
theorem nodes_openSection (b : Builder) (c : Call) (previous parent : Nat) :
    (b.openSection c (levelRead previous c) parent (effectiveLevel previous c)).nodes =
      grow b.nodes parent (startedNode c previous parent) := by
  unfold nodes grow
  rw [openSection_sections, List.map_append, List.length_map,
    map_modify_map Section.node _
      (fun q => { q with children := q.children ++ [b.sections.length] }) _ _ fun _ => rfl,
    (leaveSections_frame b c parent).2 Section.node fun _ _ => rfl]
  congr 1
  unfold startedSection
  simp only [List.map_cons, List.map_nil]
  split <;> rfl

end Builder

end Outline

end WikiOutline
