/-
# Pages behind one another

A page whose first call is a heading of level 1 can stand behind any other page.  Nothing
of the first page reaches into it: the paragraph that a heading would still take does not
come, the sections that go on are ended, and the levels begin anew.  So the outline of both
is that of the first one, with the sections of the second one put in under its root
(`Outline.build_append`).

Key definitions: `Outline.path`, `Outline.endedBefore`, `Outline.graft`, `Outline.grafting`.
Key theorems: `Builder.Run.append`, `Builder.startSection_behind`, `Outline.build_append`.
-/
import WikiOutline.Proofs.Copies

namespace WikiOutline

namespace Outline

open Builder Reading

/-! ### Outlines behind one another -/

/-- The sections from one up to the root. -/
def path (o : Outline) (i : Nat) : List Nat :=
  (List.range ((o.get i).level + 1)).filterMap fun steps => o.sectionAbove? steps i

/-- The sections from one up to the root are those that go on up to it. -/
theorem Tree.mem_path {heads : List Call} {o : Outline} (h : Tree heads o.nodes) {i j : Nat}
    (hj : j < o.size) : i ∈ o.path j ↔ Encloses o.nodes i j := by
  have hj : j < o.nodes.length := by rwa [length_nodes]
  have hiff := h.encloses_iff (a := i) hj
  unfold path
  simp only [List.mem_filterMap, List.mem_range, sectionAbove?_eq]
  constructor
  · rintro ⟨steps, -, hs⟩
    rcases Nat.eq_zero_or_pos steps with rfl | hpos
    · cases hs
      exact .refl _ _
    · exact (hiff.mp ⟨steps, hpos, hs⟩).2
  · intro he
    by_cases hij : i = j
    · exact ⟨0, Nat.succ_pos _, congrArg some hij.symm⟩
    · obtain ⟨steps, -, hs⟩ := hiff.mpr ⟨hij, he⟩
      have hlevel := h.le_level_of_ancestor steps j i hj hs
      rw [nodeAt_nodes] at hlevel
      exact ⟨steps, Nat.lt_succ_of_le hlevel, hs⟩

/-- The root goes on up to every section. -/
theorem Tree.root_encloses {heads : List Call} {ns : List Node} (h : Tree heads ns) {j : Nat}
    (hj : j < ns.length) : Encloses ns 0 j :=
  ⟨Nat.zero_le j, fun m h1 h2 => by
    have := h.one_le_level h1 (by omega)
    rw [h.rootLevel]
    omega⟩

/-- Section `i` in front of a heading behind the page that starts at `start`: on the way from
the last section up to the root, all but the root end there. -/
def endedBy (o : Outline) (start i : Nat) (s : Section) : Section :=
  if 0 < i ∧ i ∈ o.path (o.size - 1) then { s with endPos := some (endBefore start s.startPos) }
  else s

/-- The sections in front of a heading behind the page, which ends none if it has no start. -/
def endedBefore (o : Outline) : Option Nat → List Section
  | none => o.sections
  | some start => o.sections.mapIdx (o.endedBy start)

/-- A section of an outline that is put in behind `n` sections. -/
def movedBehind (n : Nat) (s : Section) : Section :=
  { s with children := s.children.map (further n), parent := s.parent.map (further n) }

/-- The second outline behind the first one, where the page of the second one begins with a
heading that starts at `start`. -/
def graft (x y : Outline) (start : Option Nat) : Outline where
  sections := ((x.endedBefore start).modify 0 fun root =>
      { root with children := root.children ++ (y.get 0).children.map (further (x.size - 1)) }) ++
    y.sections.tail.map (movedBehind (x.size - 1))
  title := if x.isEmpty then y.title else x.title
  maxEndPos := max x.maxEndPos y.maxEndPos
  diagnostics := x.diagnostics ++ y.diagnostics

/-- How a build stands behind an outline. -/
def grafting (x : Outline) (start : Option Nat) : Copying where
  front root := (x.endedBefore start).modify 0 fun r =>
    { r with children := r.children ++ root.children.map (further (x.size - 1)) }
  shift := x.size - 1
  declared := fun declared _ => declared
  mark := fun _ c => c
  write := fun _ c => c
  notes ds := x.diagnostics ++ ds
  maxEndPos := x.maxEndPos

theorem length_endedBefore (x : Outline) (start : Option Nat) :
    (x.endedBefore start).length = x.size := by
  cases start with
  | none => rfl
  | some start => exact List.length_mapIdx

theorem grafting_lawful {x : Outline} (hx : 0 < x.size) (start : Option Nat) :
    (grafting x start).Lawful where
  front_length r := by
    show (List.modify _ _ _).length = x.size - 1 + 1
    rw [List.length_modify, length_endedBefore]
    omega
  front_child r i := by
    show List.modify _ 0 _ = List.modify (List.modify _ 0 _) 0 _
    rw [List.modify_modify_eq]
    congr 1
    funext s
    simp [grafting, Copying.place]
  mark_text _ _ := rfl
  write_eq _ c := by
    cases c
    rfl
  outside _ _ _ _ := rfl
  inside _ _ _ := rfl
  starts r c _ hc := ⟨hc, rfl, rfl, rfl, fun ds => by
    show x.diagnostics ++ (ds ++ _ ++ _) = x.diagnostics ++ ds ++ _ ++ _
    simp only [List.append_assoc]
    rfl⟩

theorem grafting_page (x : Outline) (start : Option Nat) :
    ∀ (r : Reading) (calls : List Call), (grafting x start).page r calls = calls
  | _, [] => rfl
  | r, c :: calls => by
    rw [Copying.page, grafting_page x start (r.after c) calls]
    rfl

/-- The sections of a graft are those of the build that stands behind the first outline. -/
theorem grafting_sections (x y : Outline) (start : Option Nat) :
    (grafting x start).sections y.sections = (graft x y start).sections := by
  have himage : ∀ i s, (grafting x start).image i s = movedBehind (x.size - 1) s := fun i s => by
    have hmark : s.headingCalls.modifyHead ((grafting x start).mark i) = s.headingCalls := by
      cases s.headingCalls <;> rfl
    unfold Copying.image
    rw [hmark]
    rfl
  have hhead : y.sections.headD .root = y.get 0 := by
    unfold Outline.get
    cases y.sections <;> rfl
  have htail : (y.sections.mapIdx (grafting x start).image).tail =
      y.sections.tail.map (movedBehind (x.size - 1)) := by
    refine List.ext_getElem? fun i => ?_
    rw [List.getElem?_tail, List.getElem?_mapIdx, List.getElem?_map, List.getElem?_tail]
    exact congrArg (Option.map · _) (funext (himage (i + 1)))
  unfold Copying.sections
  rw [hhead, htail]
  rfl

theorem graft_get_root {x : Outline} (hx : 0 < x.size) (y : Outline) (start : Option Nat) :
    ((graft x y start).get 0).children =
      (x.get 0).children ++ (y.get 0).children.map (further (x.size - 1)) := by
  obtain ⟨r, ss, hss⟩ : ∃ r ss, x.sections = r :: ss :=
    List.exists_cons_of_ne_nil (List.ne_nil_of_length_pos hx)
  have hr : x.get 0 = r := by rw [Outline.get, hss]; rfl
  rw [hr]
  cases start <;> simp [Outline.get, graft, endedBefore, endedBy, hss]

/-- The sections of the first outline are kept but for their children and ends. -/
theorem graft_get_first {x : Outline} (y : Outline) (start : Option Nat) {β : Type}
    (g : Section → β) (hg : ∀ s children e, g { s with children, endPos := e } = g s) {i : Nat}
    (hi : i < x.size) : g ((graft x y start).get i) = g (x.get i) := by
  have hended : (x.endedBefore start).map g = x.sections.map g := by
    cases start with
    | none => rfl
    | some start =>
      refine List.ext_getElem? fun j => ?_
      simp only [endedBefore, List.getElem?_map, List.getElem?_mapIdx, Option.map_map]
      refine congrArg (Option.map · _) (funext fun s => ?_)
      simp only [Function.comp_apply, endedBy]
      split
      · exact hg s s.children _
      · rfl
  have hmap : ((graft x y start).sections.take x.size).map g = x.sections.map g := by
    rw [graft, List.take_left' (by rw [List.length_modify, length_endedBefore]),
      map_modify_eq g _ _ _ fun s _ => hg s _ s.endPos, hended]
  have hat := congrArg (·[i]?) hmap
  simp only [List.getElem?_map, List.getElem?_take_of_lt hi] at hat
  rw [List.getElem?_eq_getElem (show i < x.sections.length from hi), Option.map_some] at hat
  obtain ⟨s, hs, hgs⟩ := Option.map_eq_some_iff.mp hat
  rw [Outline.get, Outline.get, List.getD_eq_getElem?_getD, hs, List.getD_eq_getElem _ _ hi]
  exact hgs

/-! ### The seam -/

namespace Builder

variable {heads heads' : List Call} {b b' b₁ b₁' : Builder}

/-- What stands behind the last call is looked at only where it can be taken along with
it, so a step is a step with any calls behind it that do not begin with a paragraph. -/
theorem Step.append {taken rest : List Call} (h : Step b taken rest b') {more : List Call}
    (hmore : ∀ n ∈ more.head?, n.tag.isParagraph = false) : Step b taken (rest ++ more) b' := by
  cases h with
  | inHeading ho => exact .inHeading ho
  | start ho hh hs heq => exact .start ho hh hs heq
  | stray ho hh h1 h2 hl => exact .stray ho hh h1 h2 hl
  | fold ho hh ha hp hx => exact .fold ho hh ha hp hx
  | foldPair ho hh ha hp he hnp hnx => exact .foldPair ho hh ha hp he hnp hnx
  | @content c _ ho hh ha =>
    refine .content ho hh ?_
    cases rest with
    | cons n rest => exact ha
    | nil =>
      cases hm : more.head? with
      | none => rwa [List.nil_append, hm]
      | some n =>
        have hn := hmore n hm
        simp only [List.head?_nil] at ha
        rw [List.nil_append, hm, ← ha]
        simp [absorbs, hn]

/-- A run is a run with any calls behind it that do not begin with a paragraph. -/
theorem Run.append {calls rest : List Call} (h : Run b calls rest b') {more : List Call}
    (hmore : ∀ n ∈ more.head?, n.tag.isParagraph = false) :
    Run b (calls ++ more) (rest ++ more) b' := by
  induction h with
  | refl => exact .refl
  | step hs _ ih =>
    rw [List.append_assoc]
    exact .step (hs.append hmore) ih

theorem Run.trans {calls rest rest' : List Call} (h : Run b calls rest b₁)
    (h' : Run b₁ rest rest' b') : Run b calls rest' b' := by
  induction h with
  | refl => exact h'
  | step hs _ ih => exact .step hs (ih h')

/-- Where no heading is open, a heading of the outline begins a section. -/
theorem Run.start {calls : List Call} {c : Call} (h : Run b (c :: calls) [] b')
    (ho : b.openHeading = none) (hh : isOutlineHeading c = true)
    (hc : c.state = .enter ∨ c.state = .special) :
    ∃ b₁, (b.noteEnd c).startSection c = .ok b₁ ∧ Run b₁ calls [] b' := by
  generalize hall : c :: calls = all at h
  cases h with
  | refl => cases hall
  | step hs hr =>
    cases hs with
    | start _ _ _ heq =>
      cases hall
      exact ⟨_, heq, hr⟩
    | inHeading ho' =>
      rw [ho] at ho'
      cases ho'
    | stray _ _ h1 h2 =>
      cases hall
      exact (hc.elim h1 h2).elim
    | fold _ hh' | foldPair _ hh' | content _ hh' =>
      cases hall
      rw [hh] at hh'
      cases hh'

/-- The outline of a build that has come to its end. -/
def outline (b : Builder) : Outline := ⟨b.sections, b.title?, b.maxEndPos, b.diagnostics⟩

theorem levelFindings_congr {c : Call} (hc : c.attributes.getInt? levelAttribute ≠ none)
    (previous previous' : Nat) : levelFindings previous c = levelFindings previous' c := by
  unfold levelFindings
  split
  · rfl
  · contradiction

/-- Behind a section of any level, a heading of level 1 goes below the root. -/
theorem startSection_one (hb : Sound heads b) {c : Call}
    (hc : c.attributes.getInt? levelAttribute ≠ none) (hlevel : levelRead 0 c = 1) :
    b.startSection c = .ok
      ({ b with diagnostics := b.diagnostics ++ levelFindings 0 c }.openSection c 1 0 1) := by
  have hread : levelRead (b.get b.current).level c = 1 :=
    (levelRead_congr hc _ 0).trans hlevel
  have heffective : effectiveLevel (b.get b.current).level c = 1 := by
    rw [effectiveLevel, hread]
    omega
  have hskip : skip? (b.get b.current).level c = none := by
    rw [skip?, hread, if_neg (by omega)]
  obtain ⟨p, hp, heq⟩ := startSection_eq hb c
  obtain rfl : p = 0 := by
    by_contra hpos
    have := hb.tree.one_le_level (Nat.pos_of_ne_zero hpos) hp.1
    have := hp.2.1
    omega
  rw [heq, if_neg fun hn => hc hn.1, hread, heffective, hskip, levelFindings_congr hc _ 0,
    Option.toList_none, List.append_nil]

/-- Of what is ended only the end changes. -/
theorem closeSpans_getElem? (start p steps id : Nat) (b : Builder) (i : Nat) :
    (closeSpans start p steps id b).sections[i]? = b.sections[i]?.map fun s =>
      { s with endPos := ((closeSpans start p steps id b).get i).endPos } := by
  obtain ⟨-, hkept⟩ := closeSpans_frame start p steps id b
  generalize closeSpans start p steps id b = ended at hkept ⊢
  have hat := congrArg (·[i]?) (hkept (fun s : Section => { s with endPos := none })
    fun _ _ => rfl)
  simp only [List.getElem?_map] at hat
  cases hold : b.sections[i]? with
  | none => rwa [hold, Option.map_none, Option.map_eq_none_iff] at hat
  | some s =>
    rw [hold] at hat
    obtain ⟨t, ht, hrest⟩ := Option.map_eq_some_iff.mp hat
    rw [ht, get_eq_of_getElem? ht]
    exact congrArg (fun u : Section => some { u with endPos := t.endPos }) hrest

/-- A heading of level 1 ends what goes on up to the section before it. -/
theorem leaveSections_root (hb : Sound heads b) (c : Call) :
    (b.leaveSections c 0).sections = b.outline.endedBefore c.startPos := by
  have hcurrent : b.outline.size - 1 = b.current := by
    show b.sections.length - 1 = b.current
    rw [hb.length, Nat.add_sub_cancel]
  have hlast : b.current < b.sections.length := by
    rw [hb.length]
    exact Nat.lt_succ_self _
  unfold leaveSections endedBefore
  cases c.startPos with
  | none => rfl
  | some start =>
    refine List.ext_getElem? fun i => ?_
    rw [List.getElem?_mapIdx]
    show (closeSpans start 0 b.sections.length b.current b).sections[i]? =
      Option.map _ b.sections[i]?
    rw [closeSpans_getElem?]
    cases hold : b.sections[i]? with
    | none => rfl
    | some s =>
      have hi : i < b.sections.length := (List.getElem?_eq_some_iff.mp hold).1
      obtain ⟨hmet, hpassed⟩ := closeSpans_endPos start 0 b.sections.length b.current hb.tree hlast
        (hb.tree.root_encloses (by rwa [length_nodes])) (by omega) i hi
      rw [get_eq_of_getElem? hold] at hmet hpassed
      have hpath : i ∈ b.outline.path b.current ↔ Encloses b.nodes i b.current :=
        hb.tree.mem_path (o := b.outline) hlast
      rw [Option.map_some, Option.map_some, endedBy, hcurrent]
      split
      · rename_i hm
        rw [hmet ⟨hm.1, hpath.mp hm.2⟩]
      · rename_i hm
        rw [hpassed fun h => hm ⟨h.1, hpath.mpr h.2⟩]

/-- The section of a heading of level 1 comes behind those that it ends, below the root. -/
theorem openSection_one (hb : Sound heads b) {noted : Builder} (hs : noted.sections = b.sections)
    (hc : noted.current = b.current) (c : Call) :
    (noted.openSection c 1 0 1).sections =
      ((b.outline.endedBefore c.startPos).modify 0 fun s =>
        { s with children := s.children ++ [b.sections.length] }) ++ [startedSection c 1 0 1] := by
  rw [openSection_sections, leaveSections_congr hs hc, leaveSections_root hb, hs]

/-- Before the same call, build `n` has no section yet, and build `n'` has those of `b`; what
`n` has noted, `n'` has noted behind what `b` has. -/
structure Seam (b n n' : Builder) : Prop where
  sections : n.sections = [.root] ∧ n'.sections = b.sections
  current : n.current = 0 ∧ n'.current = b.current
  closed : n.openHeading = none ∧ n'.openHeading = none
  strict : n.strictness = .strict ∧ n'.strictness = .strict
  maxEndPos : n'.maxEndPos = max b.maxEndPos n.maxEndPos
  diagnostics : n'.diagnostics = b.diagnostics ++ n.diagnostics

/-- A section of level 1 begins behind a page as it begins before any other one. -/
theorem Seam.openSection {n n' : Builder} (h : Seam b n n') (hb : Sound heads b) {c : Call}
    (hh : isOutlineHeading c = true) (hs : c.state = .enter ∨ c.state = .special)
    (hc : c.attributes.getInt? levelAttribute ≠ none) (hlevel : levelRead 0 c = 1) :
    Copies (grafting b.outline c.startPos) (n.openSection c 1 0 1) (n'.openSection c 1 0 1) := by
  have hsize : 0 < b.outline.size := hb.tree.size_pos (o := b.outline)
  have hκ := grafting_lawful hsize c.startPos
  have hplace : (grafting b.outline c.startPos).place 1 = b.sections.length := by
    rw [Copying.place_of_pos Nat.one_pos]
    show 1 + (b.sections.length - 1) = _
    have := hb.length
    omega
  have hstart : Reading.starts {} c = true :=
    starts_of_closed (b := { strictness := .strict }) rfl hh hs
  have heffective : effectiveLevel 0 c = 1 := by rw [effectiveLevel, hlevel]; rfl
  have himage : (grafting b.outline c.startPos).image 1 (startedSection c 1 0 1) =
      startedSection c 1 0 1 := by
    have h : (grafting b.outline c.startPos).image 1
        (startedSection c (levelRead 0 c) 0 (effectiveLevel 0 c)) =
          startedSection c (levelRead 0 c) 0 (effectiveLevel 0 c) :=
      (hκ.starts {} c hstart hc).image_startedSection hκ 0
    rwa [hlevel, heffective] at h
  have hsections : (n'.openSection c 1 0 1).sections =
      (grafting b.outline c.startPos).sections (n.openSection c 1 0 1).sections := by
    have hroot : (outline { strictness := .strict }).endedBefore c.startPos = [.root] := by
      cases c.startPos <;> rfl
    rw [openSection_one hb h.sections.2 h.current.2,
      openSection_one (sound_init .strict) h.sections.1 h.current.1, hroot,
      Copying.sections_concat (by simp)]
    show _ = (((b.outline.endedBefore c.startPos).modify 0 fun s =>
      { s with children := s.children ++ [(grafting b.outline c.startPos).place 1] }) ++ []) ++
        [(grafting b.outline c.startPos).image 1 (startedSection c 1 0 1)]
    rw [hplace, himage, List.append_nil]
  refine .of_openSection rfl rfl hsections ?_ (h.closed.2.trans h.closed.1.symm) h.strict
    h.maxEndPos h.diagnostics
  rw [h.sections.1, h.sections.2]
  exact hplace.symm

/-- **Behind a page**, a heading of level 1 starts a section like the one that it starts
before any other call. -/
theorem startSection_behind (hb : Sound heads b) (ho : b.openHeading = none)
    (hstrict : b.strictness = .strict) {c : Call} (hh : isOutlineHeading c = true)
    (hs : c.state = .enter ∨ c.state = .special)
    (hc : c.attributes.getInt? levelAttribute ≠ none) (hlevel : levelRead 0 c = 1) :
    ∃ b₁ b₁', (({ strictness := .strict } : Builder).noteEnd c).startSection c = .ok b₁ ∧
      (b.noteEnd c).startSection c = .ok b₁' ∧
      Copies (grafting b.outline c.startPos) b₁ b₁' := by
  set first : Builder := { strictness := .strict }
  refine ⟨_, _, startSection_one ((sound_init .strict).noteEnd c) hc hlevel,
    startSection_one (hb.noteEnd c) hc hlevel, Seam.openSection (b := b) ?_ hb hh hs hc hlevel⟩
  refine ⟨⟨noteEnd_sections first c, noteEnd_sections b c⟩,
    ⟨noteEnd_current first c, noteEnd_current b c⟩,
    ⟨noteEnd_openHeading first c, (noteEnd_openHeading b c).trans ho⟩,
    ⟨noteEnd_strictness first c, (noteEnd_strictness b c).trans hstrict⟩, ?_, ?_⟩
  · show (b.noteEnd c).maxEndPos = max b.maxEndPos (first.noteEnd c).maxEndPos
    rw [noteEnd_maxEndPos, noteEnd_maxEndPos]
    cases c.endPos <;> rfl
  · show (b.noteEnd c).diagnostics ++ _ = b.diagnostics ++ ((first.noteEnd c).diagnostics ++ _)
    rw [noteEnd_diagnostics, noteEnd_diagnostics]
    rfl

/-- The title that a section would give the page as its first one. -/
def titleOf (s : Section) : Option String :=
  if s.declaredLevel = 1 && !s.label.isEmpty then some s.label else none

theorem title?_eq (b : Builder) :
    b.title? = (b.get 0).children.head?.bind fun first => titleOf (b.get first) := by
  unfold title?
  cases (b.get 0).children <;> rfl

theorem Sound.mem_children_root (hb : Sound heads b) {i : Nat} :
    i ∈ (b.get 0).children ↔ i < b.sections.length ∧ (nodeAt b.nodes i).parent = some 0 := by
  have h := hb.tree.mem_children (i := 0) (j := i)
  rw [nodeAt_nodes, length_nodes] at h
  exact h

/-- The children of the root come behind it. -/
theorem Sound.pos_of_child (hb : Sound heads b) {i : Nat} (hi : i ∈ (b.get 0).children) :
    0 < i ∧ i < b.sections.length := by
  obtain ⟨hlt, hparent⟩ := hb.mem_children_root.mp hi
  refine ⟨Nat.pos_of_ne_zero ?_, hlt⟩
  rintro rfl
  rw [hb.tree.rootParent] at hparent
  cases hparent

/-- The first section behind the root is its child. -/
theorem Sound.children_ne (hb : Sound heads b) (h : 1 < b.sections.length) :
    (b.get 0).children ≠ [] := by
  obtain ⟨p, hp, hbelow⟩ := hb.tree.below 1 Nat.one_pos (by rwa [length_nodes])
  obtain rfl : p = 0 := Nat.lt_one_iff.mp hbelow.1
  exact List.ne_nil_of_mem (hb.mem_children_root.mpr ⟨h, hp⟩)

/-- The title is that of the first page, if that has a section. -/
theorem Copies.title? {start : Option Nat} (h : Copies (grafting b.outline start) b₁ b₁')
    (hb : Sound heads b) (hb₁ : Sound heads' b₁) :
    b₁'.title? = (graft b.outline b₁.outline start).title := by
  have hsize : 0 < b.outline.size := hb.tree.size_pos (o := b.outline)
  have hκ := grafting_lawful hsize start
  have hget : ∀ i, b₁'.get i = (graft b.outline b₁.outline start).get i := fun i => by
    rw [Builder.get, Outline.get, h.sections, ← grafting_sections]
    rfl
  have hroot : (b₁'.get 0).children =
      (b.get 0).children ++ (b₁.get 0).children.map (further (b.sections.length - 1)) := by
    rw [hget]
    exact graft_get_root hsize b₁.outline start
  rw [title?_eq, hroot]
  rcases Nat.eq_or_lt_of_le (show 1 ≤ b.sections.length from hsize) with hone | hmore
  · -- the first section is the first one of the second page
    have hnil : (b.get 0).children = [] := List.eq_nil_iff_forall_not_mem.mpr fun i hi => by
      have := hb.pos_of_child hi
      omega
    have htitle : (graft b.outline b₁.outline start).title = b₁.title? :=
      if_pos (beq_iff_eq.mpr hone.symm)
    rw [htitle, title?_eq, hnil, ← hone, List.nil_append, List.head?_map]
    cases hfirst : (b₁.get 0).children.head? with
    | none => rfl
    | some first =>
      obtain ⟨hpos, hlt⟩ := hb₁.pos_of_child (List.mem_of_head? hfirst)
      have hcopy := h.get_eq hκ hpos hlt
      have hshift : (grafting b.outline start).shift = 0 := by
        show b.sections.length - 1 = 0
        omega
      rw [hshift] at hcopy
      rw [Option.map_some, Option.bind_some, Option.bind_some, further, if_neg (by omega), hcopy]
      rfl
  · -- the first section is that of the first page
    obtain ⟨first, more, hchildren⟩ := List.exists_cons_of_ne_nil (hb.children_ne hmore)
    have hlt := (hb.pos_of_child (hchildren ▸ List.mem_cons_self)).2
    have htitle : (graft b.outline b₁.outline start).title = b.title? :=
      if_neg (by simpa [isEmpty, outline] using Nat.ne_of_gt hmore)
    rw [htitle, title?_eq, hchildren, List.cons_append, List.head?_cons, List.head?_cons,
      Option.bind_some, Option.bind_some, hget]
    exact graft_get_first b₁.outline start titleOf (fun _ _ _ => rfl) hlt

end Builder

/-! ### Whole pages -/

/-- A strict build is a run that takes all calls and leaves no heading open. -/
theorem build_strict_iff {calls : List Call} {o : Outline} :
    build .strict calls = .ok o ↔
      ∃ b, Run { strictness := .strict } calls [] b ∧ b.openHeading = none ∧ b.outline = o := by
  have hbuild : build .strict calls = (buildSections .strict calls).map outline := by
    unfold build
    cases hb : buildSections .strict calls with
    | error d => rw [buildWith_of_error hb]; rfl
    | ok b => rw [buildWith_of_ok hb, Builder.recordTitle_none]; rfl
  rw [hbuild]
  constructor
  · intro h
    obtain ⟨b, hb, ho⟩ := map_eq_ok h
    obtain ⟨hr, hopen⟩ := buildSections_strict_iff.mp hb
    exact ⟨b, hr, hopen, ho⟩
  · rintro ⟨b, hr, hopen, rfl⟩
    rw [buildSections_strict_iff.mpr ⟨hr, hopen⟩]
    rfl

/-- **Pages behind one another**: behind any page, a page that begins with a heading of
level 1 gives the outline of the first page with that of the second one put in. -/
theorem build_append {x y : List Call} {c : Call} {ox oy : Outline}
    (hx : build .strict x = .ok ox) (hy : build .strict (c :: y) = .ok oy)
    (hh : isOutlineHeading c = true) (hs : c.state = .enter ∨ c.state = .special)
    (hlevel : levelRead 0 c = 1) :
    build .strict (x ++ c :: y) = .ok (graft ox oy c.startPos) := by
  obtain ⟨bx, hrx, hox, rfl⟩ := build_strict_iff.mp hx
  obtain ⟨yb, hry, hoy, rfl⟩ := build_strict_iff.mp hy
  obtain ⟨heads, hbx, hstrict⟩ := hrx.strict
  obtain ⟨b₁, h₁, hr₁⟩ := hry.start rfl hh hs
  have hinit := (sound_init .strict).noteEnd c
  have hfirst := startSection_sound hinit (noteEnd_openHeading _ c) h₁
  obtain ⟨b₂, b₁', h₂, h₁', hcopies⟩ := startSection_behind hbx hox hstrict hh hs
    (hfirst.readable (noteEnd_strictness _ c)) hlevel
  obtain rfl : b₁ = b₂ := Except.ok.inj (h₁.symm.trans h₂)
  have hbehind := startSection_sound (hbx.noteEnd c) ((noteEnd_openHeading bx c).trans hox) h₁'
  have hκ := grafting_lawful (hbx.tree.size_pos (o := bx.outline)) c.startPos
  obtain ⟨yb', hry', hcopies'⟩ := hr₁.copies hκ hcopies hfirst.sound hbehind.sound
    (.inl (by rw [hfirst.sound.current, List.length_append]; exact Nat.succ_pos _))
  rw [grafting_page, grafting_page] at hry'
  have hseam : Run { strictness := .strict } (x ++ c :: y) (c :: y) bx :=
    hrx.append fun n hn => by
      obtain rfl := Option.some.inj hn
      by_contra hp
      rw [isOutlineHeading_of_isParagraph (by simpa using hp)] at hh
      cases hh
  have hrun : Run { strictness := .strict } (x ++ c :: y) [] yb' :=
    hseam.trans (.step (.start hox hh hs h₁') hry')
  obtain ⟨headsy, hyb, -, -⟩ := hr₁.grows (Q := fun _ _ => True) (fun _ _ _ => trivial)
    hfirst.sound trivial
  refine build_strict_iff.mpr ⟨yb', hrun, hcopies'.openHeading.trans hoy, ?_⟩
  have hsections : yb'.sections = (graft bx.outline yb.outline c.startPos).sections :=
    hcopies'.sections.trans (grafting_sections bx.outline yb.outline c.startPos)
  rw [outline, hsections, hcopies'.title? hbx hyb, hcopies'.maxEndPos, hcopies'.diagnostics]
  rfl

/-- A heading call of some level at some place. -/
def headingAt (level : Int64) (start : Nat) : Call :=
  (((Call.special (.heading .atx)).withContext Call.outlineContext).withAttribute
    levelAttribute (.int level)).withSpan start (start + 9)

/-- The first page skips a level and ends with a section two levels down. -/
theorem build_append_sections :
    ∃ ox oy, build .strict [headingAt 1 0, Call.text "Above", headingAt 3 50] = .ok ox ∧
      build .strict (headingAt 1 100 :: [headingAt 2 150, Call.text "Below"]) = .ok oy ∧
      isOutlineHeading (headingAt 1 100) = true ∧ (headingAt 1 100).state = .special ∧
      levelRead 0 (headingAt 1 100) = 1 ∧
      build .strict ([headingAt 1 0, Call.text "Above", headingAt 3 50] ++
        headingAt 1 100 :: [headingAt 2 150, Call.text "Below"]) = .ok (graft ox oy (some 100)) ∧
      ((graft ox oy (some 100)).sections.map fun s => (s.parent, s.children, s.endPos)) =
        [(none, [1, 3], none), (some 0, [2], some 99), (some 1, [], some 99), (some 0, [4], none),
          (some 3, [], none)] ∧
      (graft ox oy (some 100)).maxEndPos = some 159 ∧
      (graft ox oy (some 100)).diagnostics = [⟨.skippedLevels 3 1, some 50⟩] := by
  have hx : build .strict [headingAt 1 0, Call.text "Above", headingAt 3 50] = .ok _ := rfl
  have hy : build .strict (headingAt 1 100 :: [headingAt 2 150, Call.text "Below"]) = .ok _ := rfl
  have hh : isOutlineHeading (headingAt 1 100) = true := rfl
  have hlevel : levelRead 0 (headingAt 1 100) = 1 := rfl
  exact ⟨_, _, hx, hy, hh, rfl, hlevel, build_append hx hy hh (.inr rfl) hlevel, rfl, rfl, rfl⟩

end Outline

end WikiOutline
