/-
# A build grows the tree

The nodes of a build change with a starting call only: it adds a node to the
tree, below the nearest section above it (`Builder.startSection_eq`).  So behind
any calls the nodes are the tree of the starting calls among them, and the build
stands where a reading of the calls stands (`Builder.Step.sound`).

Key definitions: `Builder.reading`, `Builder.Sound`, `Builder.levelFindings`.
Key theorems: `Builder.startSection_eq`, `Builder.Step.starts_or_quiet`,
`Builder.Step.sound`, `Builder.Run.grows`, `Builder.buildSections_run`.
-/
import WikiOutline.Proofs.Effects

namespace WikiOutline

namespace Outline

namespace Builder

open Reading

/-- Where a build stands on its page. -/
def reading (b : Builder) : Reading :=
  ⟨b.openHeading.elim 0 OpenHeading.depth, (b.get b.current).level, b.current⟩

/-- The build has the tree of some heading calls, the last one its current section. -/
structure Sound (heads : List Call) (b : Builder) : Prop where
  tree : Tree heads b.nodes
  current : b.current = heads.length
  opened : ∀ h, b.openHeading = some h → h.depth ≠ 0 ∧ 0 < b.current
  absorbing : b.absorbing = true → 0 < b.current

theorem reading_level (b : Builder) : b.reading.level = (nodeAt b.nodes b.current).level := by
  rw [nodeAt_nodes]
  rfl

/-- Builds with the same nodes and headings stand at the same place. -/
theorem reading_congr {b b' : Builder} (hn : b'.nodes = b.nodes) (hc : b'.current = b.current)
    (ho : b'.openHeading.elim 0 OpenHeading.depth = b.openHeading.elim 0 OpenHeading.depth) :
    b'.reading = b.reading := by
  have hl : b'.reading.level = b.reading.level := by
    rw [reading_level, reading_level, hn, hc]
  exact Reading.mk.injEq .. ▸ ⟨ho, hl, hc⟩

/-- Where no heading is open, a heading of the outline starts a section. -/
theorem starts_of_closed {b : Builder} {c : Call} (ho : b.openHeading = none)
    (hh : isOutlineHeading c = true) (hc : c.state = .enter ∨ c.state = .special) :
    b.reading.starts c = true := by
  rcases hc with hc | hc <;> simp [Reading.starts_eq, Builder.reading, ho, hh, hc]

theorem Sound.length {heads : List Call} {b : Builder} (h : Sound heads b) :
    b.sections.length = b.current + 1 := by
  rw [← length_nodes, h.tree.length, h.current]

/-- A section with a heading has a first call. -/
theorem Sound.headingCalls_ne {heads : List Call} {b : Builder} (h : Sound heads b)
    (h0 : 0 < b.current) : (b.get b.current).headingCalls ≠ [] := by
  obtain ⟨i, hi⟩ : ∃ i, b.current = i + 1 := ⟨b.current - 1, by omega⟩
  have hlt : i < heads.length := by
    have := h.current
    omega
  have hl := (h.tree.isFrom i _ (List.getElem?_eq_getElem hlt)).2.2.2
  rw [← hi, nodeAt_nodes] at hl
  intro he
  simp [Section.node, he] at hl

/-! ### Where a section is placed -/

theorem ancestorFrom_eq (b : Builder) (level : Nat) (position : Option Nat) :
    ∀ (steps id a : Nat), ancestor? b.nodes steps id = some a →
      b.ancestorFrom level position steps id = .ok (a, b)
  | 0, id, a, h => by
    cases h
    rfl
  | steps + 1, id, a, h => by
    obtain ⟨p, hp, ha⟩ := Option.bind_eq_some_iff.mp h
    rw [nodeAt_nodes] at hp
    have hp : (b.get id).parent = some p := hp
    simp only [ancestorFrom, hp]
    exact ancestorFrom_eq b level position steps p a ha

/-- The placement is by the levels alone, and never runs past the root. -/
theorem placement_eq {heads : List Call} {b : Builder} (h : Sound heads b) {declared : Nat}
    (hd : 1 ≤ declared) (position : Option Nat) :
    ∃ p, Below b.nodes (min declared ((b.get b.current).level + 1)) p b.nodes.length ∧
      b.placement declared position =
        .ok (p, min declared ((b.get b.current).level + 1),
          if (b.get b.current).level + 1 < declared then
            b.warn (.skippedLevels declared (b.get b.current).level) position
          else b) := by
  set level := (b.get b.current).level with hlevel
  have hat : (nodeAt b.nodes heads.length).level = level := by
    rw [← h.current, nodeAt_nodes]
    rfl
  obtain ⟨p, hp, hb⟩ := h.tree.exists_below (le_min hd (Nat.le_add_left 1 level))
    (by rw [hat]; exact min_le_right _ _)
  rw [hat, ← h.current] at hp
  refine ⟨p, hb, ?_⟩
  unfold placement
  simp only [← hlevel]
  by_cases hlt : level < declared
  · -- the new section lies right below the current one
    have hmin : min declared (level + 1) = level + 1 := by omega
    have hpc : p = b.current := by
      rw [hmin, Nat.sub_self] at hp
      exact (Option.some.inj hp).symm
    rw [if_pos hlt, hmin, hpc]
    by_cases hs : 1 < declared - level
    · rw [if_pos hs, if_pos (by omega)]
    · rw [if_neg hs, if_neg (by omega), show declared = level + 1 by omega]
  · have hmin : min declared (level + 1) = declared := by omega
    rw [if_neg hlt, if_neg (by omega), hmin]
    rw [hmin, show level + 1 - declared = level - declared + 1 by omega] at hp
    rw [ancestorFrom_eq b declared position _ _ p hp]
    rfl

/-- What a build notes about the level of a heading call. -/
def levelFindings (previous : Nat) (c : Call) : List Diagnostic :=
  match c.attributes.getInt? levelAttribute with
  | some level => if 1 ≤ level then [] else [⟨.invalidLevel level, c.startPos⟩]
  | none => [⟨.missingLevel previous, c.startPos⟩]

theorem declaredLevel_eq (b : Builder) (c : Call) :
    b.declaredLevel c =
      if c.attributes.getInt? levelAttribute = none ∧ b.strictness = .strict then
        .error ⟨.missingLevel (b.get b.current).level, c.startPos⟩
      else
        .ok (levelRead (b.get b.current).level c,
          { b with diagnostics := b.diagnostics ++ levelFindings (b.get b.current).level c }) := by
  unfold declaredLevel levelRead levelFindings
  cases hc : c.attributes.getInt? levelAttribute with
  | some level =>
    by_cases h1 : 1 ≤ level
    · simp [h1]
    · simp [h1, warn]
  | none =>
    cases hs : b.strictness with
    | strict => simp [internal, hs, Except.map]
    | lenient => simp [internal, hs, Except.map, warn]

/-- **Starting a section** adds it below the nearest section above its level.  It
fails only where a strict build finds no level. -/
theorem startSection_eq {heads : List Call} {b : Builder} (h : Sound heads b) (c : Call) :
    ∃ p, Below b.nodes (effectiveLevel (b.get b.current).level c) p b.nodes.length ∧
      b.startSection c =
        if c.attributes.getInt? levelAttribute = none ∧ b.strictness = .strict then
          .error ⟨.missingLevel (b.get b.current).level, c.startPos⟩
        else
          .ok ({ b with diagnostics := b.diagnostics ++ levelFindings (b.get b.current).level c ++
                  (skip? (b.get b.current).level c).toList }.openSection c
            (levelRead (b.get b.current).level c) p
            (effectiveLevel (b.get b.current).level c)) := by
  set level := (b.get b.current).level with hlevel
  set noted : Builder := { b with diagnostics := b.diagnostics ++ levelFindings level c }
  have hn : Sound heads noted := ⟨h.tree, h.current, h.opened, h.absorbing⟩
  obtain ⟨p, hb, hp⟩ := placement_eq hn (one_le_levelRead level c) c.startPos
  have hl : (noted.get noted.current).level = level := rfl
  rw [hl] at hb hp
  refine ⟨p, hb, ?_⟩
  unfold startSection
  rw [declaredLevel_eq, ← hlevel]
  split
  · rfl
  · show (noted.placement (levelRead level c) c.startPos >>= _) = _
    rw [hp]
    unfold effectiveLevel skip?
    by_cases hs : level + 1 < levelRead level c
    · rw [if_pos hs, if_pos hs]
      rfl
    · rw [if_neg hs, if_neg hs, Option.toList_none, List.append_nil]
      rfl

/-- Between two builds a call has started a section: it is one more node, and the
build stands in its heading. -/
structure Started (heads : List Call) (b : Builder) (c : Call) (b' : Builder) : Prop where
  sound : Sound (heads ++ [c]) b'
  nodes : ∃ p < b.nodes.length,
    b'.nodes = grow b.nodes p (startedNode c (b.get b.current).level p)
  reading : b'.reading = ⟨if c.state == .special then 0 else 1,
    effectiveLevel (b.get b.current).level c, b.current + 1⟩
  diagnostics : b'.diagnostics = b.diagnostics ++ levelFindings (b.get b.current).level c ++
    (skip? (b.get b.current).level c).toList
  strictness : b'.strictness = b.strictness
  readable : b.strictness = .strict → c.attributes.getInt? levelAttribute ≠ none

theorem startSection_sound {heads : List Call} {b b' : Builder} {c : Call} (h : Sound heads b)
    (ho : b.openHeading = none) (hs : b.startSection c = .ok b') : Started heads b c b' := by
  obtain ⟨p, hb, heq⟩ := startSection_eq h c
  rw [hs] at heq
  split at heq
  · cases heq
  · rename_i hr
    cases heq
    set level := (b.get b.current).level with hlevel
    set noted : Builder :=
      { b with diagnostics := b.diagnostics ++ levelFindings level c ++ (skip? level c).toList }
    have hcur : (noted.openSection c (levelRead level c) p (effectiveLevel level c)).current =
        heads.length + 1 := by
      rw [openSection_current, ← length_nodes]
      exact h.tree.length
    have hnodes := nodes_openSection noted c level p
    have hlast : nodeAt (grow noted.nodes p (startedNode c level p)) (heads.length + 1) =
        startedNode c level p := by
      rw [← h.tree.length]
      exact nodeAt_grow_last _ _ _
    have htree : Tree (heads ++ [c]) (grow noted.nodes p (startedNode c level p)) := by
      refine h.tree.grow ?_ rfl rfl hb
      rw [← h.current, nodeAt_nodes]
      exact ⟨rfl, rfl, rfl, rfl⟩
    have hoh := openSection_openHeading noted c (levelRead level c) p (effectiveLevel level c)
    have hno : noted.openHeading = none := ho
    rw [hno] at hoh
    constructor
    · refine ⟨hnodes ▸ htree, ?_, fun o hoo => ?_, fun _ => by omega⟩
      · rw [hcur, List.length_append, List.length_singleton]
      · rw [hoh] at hoo
        refine ⟨?_, by omega⟩
        split at hoo
        · cases hoo
        · cases hoo
          exact Nat.one_ne_zero
    · exact ⟨p, hb.1, hnodes⟩
    · have hl := reading_level (noted.openSection c (levelRead level c) p (effectiveLevel level c))
      rw [hnodes, hcur, hlast] at hl
      unfold reading at hl ⊢
      simp only at hl
      rw [hl, hcur, hoh, ← h.current]
      simp only [Reading.mk.injEq, and_true]
      refine ⟨?_, rfl⟩
      split <;> rfl
    · exact openSection_diagnostics _ _ _ _ _
    · exact openSection_strictness _ _ _ _ _
    · exact fun hst hc => hr ⟨hc, hst⟩

/-! ### What a step does to the tree -/

/-- Between two builds the tree has not changed: none of the calls taken starts a
section. -/
structure Quiet (b : Builder) (taken : List Call) (b' : Builder) : Prop where
  starts : startingCalls b.reading taken = []
  nodes : b'.nodes = b.nodes
  current : b'.current = b.current
  opened : ∀ h, b'.openHeading = some h → h.depth ≠ 0 ∧ 0 < b.current
  absorbing : b'.absorbing = true → 0 < b.current
  reading : b'.reading = taken.foldl after b.reading
  diagnostics : b'.diagnostics = b.diagnostics ∨
    ∃ p, b'.diagnostics = b.diagnostics ++ [⟨.strayHeadingExit, p⟩]
  strictness : b'.strictness = b.strictness

theorem isOutlineHeading_of_isParagraph {c : Call} (h : c.tag.isParagraph = true) :
    isOutlineHeading c = false := by
  unfold isOutlineHeading
  cases ht : c.tag <;> simp_all [Tag.isParagraph, Tag.isHeading]

/-- Outside a heading, calls that start nothing leave the reading where it is. -/
theorem outside {b : Builder} (ho : b.openHeading = none) {taken : List Call}
    (hs : ∀ c ∈ taken, b.reading.starts c = false) :
    startingCalls b.reading taken = [] ∧ taken.foldl after b.reading = b.reading := by
  have hd : b.reading.depth = 0 := by simp [Builder.reading, ho]
  induction taken with
  | nil => exact ⟨rfl, rfl⟩
  | cons c cs ih =>
    have hc := hs c List.mem_cons_self
    have ha := after_of_outside hc hd
    simp only [startingCalls, List.foldl_cons, hc, ha, Bool.false_eq_true, ↓reduceIte]
    exact ih fun d hd => hs d (List.mem_cons_of_mem c hd)

/-- A build that passes by calls outside a heading. -/
theorem Quiet.of_outside {b b' : Builder} {taken : List Call} (ho : b.openHeading = none)
    (ho' : b'.openHeading = none) (hs : ∀ c ∈ taken, b.reading.starts c = false)
    (hn : b'.nodes = b.nodes) (hc : b'.current = b.current)
    (ha : b'.absorbing = true → 0 < b.current)
    (hd : b'.diagnostics = b.diagnostics ∨
      ∃ p, b'.diagnostics = b.diagnostics ++ [⟨.strayHeadingExit, p⟩])
    (hst : b'.strictness = b.strictness) : Quiet b taken b' where
  starts := (outside ho hs).1
  nodes := hn
  current := hc
  opened := fun h hh => by
    rw [ho'] at hh
    cases hh
  absorbing := ha
  reading := by
    rw [(outside ho hs).2]
    exact reading_congr hn hc (by rw [ho, ho'])
  diagnostics := hd
  strictness := hst

theorem noteEnd_get (b : Builder) (c : Call) (i : Nat) : (b.noteEnd c).get i = b.get i := by
  simp [get]

theorem Sound.noteEnd {heads : List Call} {b : Builder} (h : Sound heads b) (c : Call) :
    Sound heads (b.noteEnd c) := by
  refine ⟨?_, ?_, fun o ho => ?_, fun ha => ?_⟩
  · rw [nodes_noteEnd]
    exact h.tree
  · rw [noteEnd_current]
    exact h.current
  · rw [noteEnd_current]
    exact h.opened o (by rwa [noteEnd_openHeading] at ho)
  · rw [noteEnd_current]
    exact h.absorbing (by rwa [noteEnd_absorbing] at ha)

/-- A heading that has begun has begun wherever the nodes are the same. -/
theorem headingCalls_ne_congr {b b' : Builder} (hn : b'.nodes = b.nodes)
    (hc : b'.current = b.current) (h : (b.get b.current).headingCalls ≠ []) :
    (b'.get b'.current).headingCalls ≠ [] := by
  have hlead : ∀ b : Builder,
      (nodeAt b.nodes b.current).lead = (b.get b.current).headingCalls.head? := fun b => by
    rw [nodeAt_nodes]
    rfl
  intro he
  apply h
  rw [← List.head?_eq_none_iff, ← hlead, ← hn, ← hc, hlead, he]
  rfl

/-- A build that takes a call into an open heading. -/
theorem Quiet.of_inHeading {heads : List Call} {b : Builder} (hb : Sound heads b) {o : OpenHeading}
    (ho : b.openHeading = some o) (c : Call) :
    Quiet b [c] ((b.noteEnd c).acceptInHeading o c) := by
  obtain ⟨hd, h0⟩ := hb.opened o ho
  have hdepth : b.reading.depth = o.depth := by simp [Builder.reading, ho]
  have hst : b.reading.starts c = false := starts_of_depth (by rwa [hdepth]) c
  have hne := headingCalls_ne_congr (nodes_noteEnd b c) (noteEnd_current b c)
    (hb.headingCalls_ne h0)
  have hn : ((b.noteEnd c).acceptInHeading o c).nodes = b.nodes := by
    rw [nodes_acceptInHeading hne, nodes_noteEnd]
  have hc : ((b.noteEnd c).acceptInHeading o c).current = b.current := by
    rw [acceptInHeading_current, noteEnd_current]
  have hnest := acceptInHeading_openHeading (b.noteEnd c) o c
  refine ⟨by simp [startingCalls, hst], hn, hc, fun o' ho' => ⟨?_, h0⟩, fun _ => h0, ?_, ?_, ?_⟩
  · rcases hnest with ⟨-, h1⟩ | ⟨h1, o₁, h2, h3⟩
    · rw [h1] at ho'
      cases ho'
    · rw [h2] at ho'
      cases ho'
      rwa [h3]
  · have hl : ((b.noteEnd c).acceptInHeading o c).reading.level = b.reading.level := by
      rw [reading_level, reading_level, hn, hc]
    have ha : b.reading.after c = { b.reading with depth := nesting o.depth c } := by
      simp only [after, hst, hdepth, hd, Bool.false_eq_true, ↓reduceIte]
    rw [List.foldl_cons, List.foldl_nil, ha]
    refine Reading.mk.injEq .. ▸ ⟨?_, hl, hc⟩
    rcases hnest with ⟨h1, h2⟩ | ⟨h1, o₁, h2, h3⟩
    · rw [h2, h1]
      rfl
    · rw [h2]
      exact h3
  · exact .inl (by rw [acceptInHeading_diagnostics, noteEnd_diagnostics])
  · rw [acceptInHeading_strictness, noteEnd_strictness]

/-- A build that takes calls that are no headings, and no paragraph any more. -/
theorem Quiet.of_plain {b b' : Builder} {c : Call} {taken : List Call} (ho : b.openHeading = none)
    (hs : ∀ d ∈ taken, isOutlineHeading d = false)
    (hf : b' = { (b.noteEnd c).endAbsorbing with sections := b'.sections })
    (hn : b'.nodes = b.nodes) : Quiet b taken b' := by
  apply Quiet.of_outside ho
  · rw [hf]
    exact (noteEnd_openHeading b c).trans ho
  · exact fun d hd => starts_of_not_heading _ (hs d hd)
  · exact hn
  · rw [hf]
    exact noteEnd_current b c
  · intro ha
    rw [hf] at ha
    cases ha
  · rw [hf]
    exact .inl (noteEnd_diagnostics b c)
  · rw [hf]
    exact noteEnd_strictness b c

/-- A build that puts the exit of no heading into the text. -/
theorem Quiet.of_stray {heads : List Call} {b : Builder} (hb : Sound heads b) {c : Call}
    (ho : b.openHeading = none) (h1 : c.state ≠ .enter) (h2 : c.state ≠ .special) :
    Quiet b [c] (((b.noteEnd c).warn .strayHeadingExit c.startPos).pushContent c) := by
  apply Quiet.of_outside ho
  · exact (noteEnd_openHeading b c).trans ho
  · intro d hd
    rw [List.mem_singleton] at hd
    simp [hd, Reading.starts_eq, h1, h2]
  · exact (nodes_pushContent _ _).trans (nodes_noteEnd b c)
  · exact noteEnd_current b c
  · exact fun ha => hb.absorbing ((noteEnd_absorbing b c).symm.trans ha)
  · exact .inr ⟨c.startPos, congrArg (· ++ [_]) (noteEnd_diagnostics b c)⟩
  · exact noteEnd_strictness b c

/-- A heading that can still take a paragraph has begun. -/
theorem Sound.endAbsorbing_headingCalls_ne {heads : List Call} {b : Builder} (h : Sound heads b)
    (ha : b.absorbing = true) (c : Call) :
    ((b.noteEnd c).endAbsorbing.get (b.noteEnd c).endAbsorbing.current).headingCalls ≠ [] :=
  headingCalls_ne_congr (nodes_noteEnd b c) (noteEnd_current b c)
    (h.headingCalls_ne (h.absorbing ha))

/-- **A step** starts a section, or it leaves the tree alone. -/
theorem Step.starts_or_quiet {heads : List Call} {b b' : Builder} {taken rest : List Call}
    (h : Step b taken rest b') (hb : Sound heads b) :
    (∃ c, taken = [c] ∧ b.reading.starts c = true ∧ b.openHeading = none ∧
      (b.noteEnd c).startSection c = .ok b') ∨ Quiet b taken b' := by
  cases h with
  | @inHeading o c _ ho => exact .inr (.of_inHeading hb ho c)
  | @start _ c _ ho hh hs heq =>
    exact .inl ⟨c, rfl, starts_of_closed ho hh hs, ho, heq⟩
  | stray ho _ h1 h2 _ => exact .inr (.of_stray hb ho h1 h2)
  | @fold c _ ho hh ha hp hx =>
    have hne := hb.endAbsorbing_headingCalls_ne ha c
    right
    exact .of_plain ho (by simpa using hh) rfl
      ((nodes_pushHeading hne c).trans (nodes_noteEnd b c))
  | @foldPair c n _ ho hh ha hp hx hnp hnx =>
    have hne := hb.endAbsorbing_headingCalls_ne ha c
    have hn := nodes_pushHeading hne c
    right
    refine .of_plain ho (by simp [hh, isOutlineHeading_of_isParagraph hnp]) rfl ?_
    rw [nodes_pushHeading (headingCalls_ne_congr hn rfl hne), hn]
    exact nodes_noteEnd b c
  | @content c _ ho hh ha =>
    right
    exact .of_plain ho (by simpa using hh) rfl
      ((nodes_pushContent _ _).trans (nodes_noteEnd b c))

theorem Sound.of_quiet {heads : List Call} {b b' : Builder} {taken : List Call}
    (hb : Sound heads b) (h : Quiet b taken b') : Sound heads b' where
  tree := by
    rw [h.nodes]
    exact hb.tree
  current := h.current.trans hb.current
  opened := fun o ho => by
    rw [h.current]
    exact h.opened o ho
  absorbing := fun ha => by
    rw [h.current]
    exact h.absorbing ha

/-- A step keeps the tree, with the section it starts if it does, and reads what it
takes. -/
theorem Step.sound {heads : List Call} {b b' : Builder} {taken rest : List Call}
    (h : Step b taken rest b') (hb : Sound heads b) :
    Sound (heads ++ startingCalls b.reading taken) b' ∧
      b'.reading = taken.foldl after b.reading := by
  rcases h.starts_or_quiet hb with ⟨c, rfl, hst, ho, heq⟩ | hq
  · have hs := startSection_sound (hb.noteEnd c) (by rw [noteEnd_openHeading, ho]) heq
    refine ⟨by simpa [startingCalls, hst] using hs.sound, ?_⟩
    rw [hs.reading, noteEnd_get, noteEnd_current, List.foldl_cons, List.foldl_nil, after,
      if_pos hst]
    simp only [Reading.starts_eq, Bool.and_eq_true, Bool.or_eq_true, beq_iff_eq] at hst
    rcases hst.2 with hs | hs <;> rw [hs] <;> rfl
  · rw [hq.starts, List.append_nil]
    exact ⟨hb.of_quiet hq, hq.reading⟩

theorem Step.strictness {heads : List Call} {b b' : Builder} {taken rest : List Call}
    (h : Step b taken rest b') (hb : Sound heads b) : b'.strictness = b.strictness := by
  rcases h.starts_or_quiet hb with ⟨c, rfl, -, ho, heq⟩ | hq
  · have hs := startSection_sound (hb.noteEnd c) (by rw [noteEnd_openHeading, ho]) heq
    exact hs.strictness.trans (noteEnd_strictness b c)
  · exact hq.strictness

/-- What every step keeps along with the tree, a run keeps. -/
theorem Run.grows {Q : List Call → Builder → Prop}
    (hQ : ∀ {heads : List Call} {b b' : Builder} {taken rest : List Call}, Step b taken rest b' →
      Sound heads b → Q heads b → Q (heads ++ startingCalls b.reading taken) b')
    {heads : List Call} {b b' : Builder} {calls rest : List Call} (h : Run b calls rest b')
    (hb : Sound heads b) (hq : Q heads b) :
    ∃ heads', Sound heads' b' ∧ Q heads' b' ∧
      heads' ++ startingCalls b'.reading rest = heads ++ startingCalls b.reading calls := by
  refine Run.keeps (P := fun b₁ calls₁ => ∃ heads', Sound heads' b₁ ∧ Q heads' b₁ ∧
    heads' ++ startingCalls b₁.reading calls₁ = heads ++ startingCalls b.reading calls)
    (fun {b₁ b₂ taken rest₁} hs ⟨heads₁, h₁, hq₁, heq⟩ => ?_) h ⟨heads, hb, hq, rfl⟩
  obtain ⟨h₂, hr⟩ := hs.sound h₁
  refine ⟨_, h₂, hQ hs h₁ hq₁, ?_⟩
  rw [← heq, startingCalls_append, hr, List.append_assoc]

/-! ### Whole builds -/

/-- A build that has not begun has the tree of no heading. -/
theorem sound_init (strictness : Strictness) : Sound [] { strictness } where
  tree := tree_root
  current := rfl
  opened := fun _ h => by cases h
  absorbing := fun h => by cases h

theorem reading_init (strictness : Strictness) : Builder.reading { strictness } = {} := rfl

/-- Ending a build changes no node. -/
theorem finish_eq {b b' : Builder} (h : b.finish = .ok b') :
    b'.nodes = b.nodes ∧ b'.strictness = b.strictness ∧
      (b'.diagnostics = b.diagnostics ∨
        ∃ p, b'.diagnostics = b.diagnostics ++ [⟨.unclosedHeading, p⟩]) := by
  unfold finish at h
  split at h
  · cases h
    exact ⟨rfl, rfl, .inl rfl⟩
  · obtain ⟨b₁, h₁, rfl⟩ := map_eq_ok h
    obtain ⟨-, rfl⟩ := internal_eq_ok.mp h₁
    exact ⟨nodes_labelCurrent _, rfl, .inr ⟨_, rfl⟩⟩

/-- A strict build ends with no heading open, so its end changes nothing. -/
theorem finish_strict {b b' : Builder} (h : b.finish = .ok b') (hs : b.strictness = .strict) :
    b' = b := by
  unfold finish at h
  split at h
  · exact (Except.ok.inj h).symm
  · obtain ⟨b₁, h₁, -⟩ := map_eq_ok h
    obtain ⟨hl, -⟩ := internal_eq_ok.mp h₁
    rw [show b.strictness = .lenient from hl] at hs
    cases hs

theorem finish_error {b : Builder} {d : Diagnostic} (h : b.finish = .error d) :
    b.strictness = .strict ∧ d.finding = .unclosedHeading := by
  unfold finish at h
  split at h
  · cases h
  · obtain ⟨hs, rfl⟩ := internal_eq_error.mp (map_eq_error h)
    exact ⟨hs, rfl⟩

/-- A build that came to an end is a run that was ended. -/
theorem buildSections_run {strictness : Strictness} {calls : List Call} {b : Builder}
    (h : buildSections strictness calls = .ok b) :
    ∃ b₀, Run { strictness } calls [] b₀ ∧ b₀.finish = .ok b := by
  unfold buildSections at h
  cases ha : acceptAll calls { strictness } with
  | error d =>
    rw [ha] at h
    cases h
  | ok b₀ =>
    rw [ha] at h
    exact ⟨b₀, acceptAll_run ha, h⟩

/-- A build that failed stopped at a call of the page or at its end. -/
theorem buildSections_stop {strictness : Strictness} {calls : List Call} {d : Diagnostic}
    (h : buildSections strictness calls = .error d) :
    (∃ b c rest, Run { strictness } calls (c :: rest) b ∧ b.accept c rest.head? = .error d) ∨
      ∃ b, Run { strictness } calls [] b ∧ b.finish = .error d := by
  unfold buildSections at h
  rcases acceptAll_spec calls { strictness } with ⟨b, ha, hr⟩ | ⟨d', b, c, rest, ha, hr, he⟩
  · rw [ha] at h
    exact .inr ⟨b, hr, h⟩
  · rw [ha] at h
    cases h
    exact .inl ⟨b, c, rest, hr, he⟩

/-- Without a sink no title is told. -/
theorem recordTitle_none {σ : Type} (b : Builder) (s : σ) :
    recordTitle (none : Option (MetadataSink σ)) b s = (b, s) := by
  unfold recordTitle
  cases b.title? <;> rfl

/-- Telling the title changes no section, and of the findings it adds at most its own
failure. -/
theorem recordTitle_eq {σ : Type} (sink : Option (MetadataSink σ)) (b : Builder) (s : σ) :
    (recordTitle sink b s).1.sections = b.sections ∧
      ((recordTitle sink b s).1.diagnostics = b.diagnostics ∨
        ∃ reason, (recordTitle sink b s).1.diagnostics =
          b.diagnostics ++ [⟨.titleNotRecorded reason, none⟩]) := by
  unfold recordTitle
  split
  · split
    · exact ⟨rfl, .inl rfl⟩
    · exact ⟨rfl, .inr ⟨_, rfl⟩⟩
  · exact ⟨rfl, .inl rfl⟩

/-- Sections that have been built are an outline, of which the sink is told the title. -/
theorem buildWith_of_ok {σ : Type} {strictness : Strictness} {calls : List Call} {b : Builder}
    (h : buildSections strictness calls = .ok b) (sink : Option (MetadataSink σ)) (s : σ) :
    buildWith strictness sink calls s =
      .ok (⟨(recordTitle sink b s).1.sections, b.title?, (recordTitle sink b s).1.maxEndPos,
        (recordTitle sink b s).1.diagnostics⟩, (recordTitle sink b s).2) := by
  unfold buildWith
  rw [h]

/-- Where no sections are built, the sink is left as it was. -/
theorem buildWith_of_error {σ : Type} {strictness : Strictness} {calls : List Call}
    {d : Diagnostic} (h : buildSections strictness calls = .error d)
    (sink : Option (MetadataSink σ)) (s : σ) :
    buildWith strictness sink calls s = .error ⟨d, s⟩ := by
  unfold buildWith
  rw [h]

theorem buildWith_ok {σ : Type} {strictness : Strictness} {sink : Option (MetadataSink σ)}
    {calls : List Call} {s s' : σ} {o : Outline}
    (h : buildWith strictness sink calls s = .ok (o, s')) :
    ∃ b, buildSections strictness calls = .ok b ∧ o.sections = b.sections ∧
      (o.diagnostics = b.diagnostics ∨
        ∃ reason, o.diagnostics = b.diagnostics ++ [⟨.titleNotRecorded reason, none⟩]) := by
  cases hb : buildSections strictness calls with
  | error d =>
    rw [buildWith_of_error hb] at h
    cases h
  | ok b =>
    rw [buildWith_of_ok hb] at h
    obtain ⟨rfl, -⟩ := Prod.mk.inj (Except.ok.inj h)
    exact ⟨b, rfl, recordTitle_eq sink b s⟩

/-- What has been built is told to a sink, and is an outline whatever the sink answers. -/
theorem exists_buildWith {σ : Type} {strictness : Strictness} {calls : List Call} {b : Builder}
    (h : buildSections strictness calls = .ok b) (sink : Option (MetadataSink σ)) (s : σ) :
    ∃ o s', buildWith strictness sink calls s = .ok (o, s') ∧ o.sections = b.sections ∧
      (o.diagnostics = b.diagnostics ∨
        ∃ reason, o.diagnostics = b.diagnostics ++ [⟨.titleNotRecorded reason, none⟩]) := by
  obtain ⟨hsections, hdiagnostics⟩ := recordTitle_eq sink b s
  exact ⟨_, _, buildWith_of_ok h sink s, hsections, hdiagnostics⟩

/-- A build that fails does so before its sink is told anything. -/
theorem buildWith_error {σ : Type} {strictness : Strictness} {sink : Option (MetadataSink σ)}
    {calls : List Call} {s : σ} {failure : Failure σ}
    (h : buildWith strictness sink calls s = .error failure) :
    buildSections strictness calls = .error failure.toDiagnostic ∧ failure.sinkState = s := by
  cases hb : buildSections strictness calls with
  | error d =>
    rw [buildWith_of_error hb] at h
    obtain rfl := Except.error.inj h
    exact ⟨rfl, rfl⟩
  | ok b =>
    rw [buildWith_of_ok hb] at h
    cases h

end Builder

end Outline

end WikiOutline
