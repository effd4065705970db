/-
# Where a strict build files the calls

A strict build puts every call behind those before it: the heading calls go to the
heading of the section started last while it has no text yet, all others to its
text.  So its sections hold, one behind the other, what becomes of the calls taken
so far (`Builder.Step.filed`), and those of a whole build hold the page
(`buildSections_filed`).

Key definitions: `Section.calls`, `Outline.filed`, `Builder.Clear`, `Builder.Growing`.
Key theorems: `Builder.filed_modifyCurrent`, `Builder.Step.filed`,
`Outline.buildSections_filed`.
-/
import WikiOutline.Proofs.Growth

namespace WikiOutline

/-- The calls of a section, the first one of its heading marked. -/
def Section.calls (mark : Call → Call) (s : Section) : List Call :=
  s.headingCalls.modifyHead mark ++ s.contentCalls

namespace Outline

open Builder Reading

/-- The calls of sections in their order, the headings marked by the numbers of
their sections. -/
def filed (mark : Nat → Call → Call) (ss : List Section) : List Call :=
  ss.zipIdx.flatMap fun s => s.1.calls (mark s.2)

theorem filed_concat (mark : Nat → Call → Call) (ss : List Section) (s : Section) :
    filed mark (ss ++ [s]) = filed mark ss ++ s.calls (mark ss.length) := by
  simp [filed, List.zipIdx_append]

/-- Unmarked, a section holds its heading and its text. -/
theorem calls_unmarked (s : Section) : s.calls (fun c => c) = s.headingCalls ++ s.contentCalls := by
  unfold Section.calls
  cases s.headingCalls <;> rfl

theorem filed_unmarked (ss : List Section) :
    filed (fun _ c => c) ss = ss.flatMap fun s => s.headingCalls ++ s.contentCalls := by
  have hfirst : ss.flatMap (fun s => s.headingCalls ++ s.contentCalls) =
      (ss.zipIdx.map Prod.fst).flatMap fun s => s.headingCalls ++ s.contentCalls := by
    rw [List.zipIdx_map_fst]
  rw [hfirst, List.flatMap_map, filed]
  exact List.flatMap_congr fun s _ => calls_unmarked s.1

/-- Only the calls that the sections hold matter. -/
theorem filed_congr (mark : Nat → Call → Call) {ss ss' : List Section}
    (h : ss'.map (fun s => (s.headingCalls, s.contentCalls)) =
      ss.map fun s => (s.headingCalls, s.contentCalls)) : filed mark ss' = filed mark ss := by
  have hview : ∀ ss : List Section, filed mark ss =
      (ss.map fun s => (s.headingCalls, s.contentCalls)).zipIdx.flatMap fun s =>
        s.1.1.modifyHead (mark s.2) ++ s.1.2 := fun ss => by
    rw [filed, List.zipIdx_map, List.flatMap_map]
    rfl
  rw [hview, hview, h]

namespace Builder

/-! ### The section started last -/

/-- The calls of the last section come behind those of all others. -/
theorem filed_current (mark : Nat → Call → Call) {b : Builder}
    (h : b.sections.length = b.current + 1) :
    ∃ lead, filed mark b.sections = lead ++ (b.get b.current).calls (mark b.current) ∧
      ∀ f, filed mark (b.modifyCurrent f).sections =
        lead ++ (f (b.get b.current)).calls (mark b.current) := by
  obtain ⟨init, last, hs⟩ := (List.eq_nil_or_concat b.sections).resolve_left
    (List.ne_nil_of_length_pos (by omega))
  rw [List.concat_eq_append] at hs
  have hlen : b.current = init.length := by
    rw [hs, List.length_append, List.length_singleton] at h
    omega
  have hget : b.get b.current = last := by simp [get, hs, hlen]
  rw [hget, hlen]
  refine ⟨filed mark init, by rw [hs, filed_concat], fun f => ?_⟩
  show filed mark (b.sections.modify b.current f) = _
  rw [hs, hlen, modify_concat, filed_concat]

/-- What the last section gets comes behind all else. -/
theorem filed_modifyCurrent (mark : Nat → Call → Call) {b : Builder}
    (h : b.sections.length = b.current + 1) {f : Section → Section} {added : List Call}
    (hf : (f (b.get b.current)).calls (mark b.current) =
      (b.get b.current).calls (mark b.current) ++ added) :
    filed mark (b.modifyCurrent f).sections = filed mark b.sections ++ added := by
  obtain ⟨lead, hfiled, hmodified⟩ := filed_current mark h
  rw [hmodified, hfiled, hf, List.append_assoc]

theorem filed_pushContent (mark : Nat → Call → Call) {b : Builder}
    (h : b.sections.length = b.current + 1) (c : Call) :
    filed mark (b.pushContent c).sections = filed mark b.sections ++ [c] :=
  filed_modifyCurrent mark h (List.append_assoc _ _ _).symm

theorem filed_labelCurrent (mark : Nat → Call → Call) (b : Builder) :
    filed mark b.labelCurrent.sections = filed mark b.sections :=
  filed_congr mark (map_modify_eq _ _ _ _ fun _ _ => rfl)

/-- The last section has a heading, and some text behind it. -/
structure Growing (b : Builder) (text : List Call) : Prop where
  last : b.sections.length = b.current + 1
  heading : (b.get b.current).headingCalls ≠ []
  text : (b.get b.current).contentCalls = text

variable {text lead : List Call}

theorem Growing.of_eq {b b' : Builder} (h : Growing b text) (hs : b'.sections = b.sections)
    (hc : b'.current = b.current) : Growing b' text := by
  have hg : b'.get b'.current = b.get b.current := by rw [get, get, hs, hc]
  exact ⟨by rw [hs, hc]; exact h.last, hg ▸ h.heading, hg ▸ h.text⟩

/-- A change to the last section that leaves it its heading. -/
theorem Growing.modifyCurrent {b : Builder} (h : Growing b text) {f : Section → Section}
    {text' : List Call} (hh : (f (b.get b.current)).headingCalls ≠ [])
    (ht : (f (b.get b.current)).contentCalls = text') : Growing (b.modifyCurrent f) text' := by
  have hlt : b.current < b.sections.length := by
    have := h.last
    omega
  have hg : (b.modifyCurrent f).get b.current = f (b.get b.current) := by
    simp [get, Builder.modifyCurrent, modify, hlt]
  constructor
  · exact (List.length_modify _ _ _).trans h.last
  · exact hg ▸ hh
  · exact hg ▸ ht

theorem Growing.pushHeading {b : Builder} (h : Growing b text) (c : Call) :
    Growing (b.pushHeading c) text :=
  h.modifyCurrent (List.append_ne_nil_of_right_ne_nil _ (List.cons_ne_nil _ _)) h.text

theorem Growing.pushContent {b : Builder} (h : Growing b text) (c : Call) :
    Growing (b.pushContent c) (text ++ [c]) :=
  h.modifyCurrent h.heading (congrArg (· ++ [c]) h.text)

theorem Growing.labelCurrent {b : Builder} (h : Growing b text) : Growing b.labelCurrent text :=
  h.modifyCurrent h.heading h.text

/-- What a heading gets comes before the text behind it. -/
theorem Growing.filed_pushHeading {b : Builder} (h : Growing b text) {mark : Nat → Call → Call}
    (hfiled : filed mark b.sections = lead ++ text) (c : Call) :
    filed mark (b.pushHeading c).sections = lead ++ c :: text := by
  obtain ⟨others, hall, hmodified⟩ := filed_current mark h.last
  obtain ⟨first, more, hheading⟩ := List.exists_cons_of_ne_nil h.heading
  rw [Section.calls, hheading, h.text, List.modifyHead_cons] at hall
  have hlead : lead = others ++ mark b.current first :: more := by
    rw [hfiled, ← List.append_assoc] at hall
    exact List.append_cancel_right hall
  show filed mark (b.modifyCurrent _).sections = _
  rw [hmodified, hlead, Section.calls, hheading, h.text]
  simp only [List.cons_append, List.modifyHead_cons, List.append_assoc, List.nil_append]

/-- What comes inside a heading grows it, and leaves it growing. -/
theorem Growing.acceptInHeading {b : Builder} (h : Growing b []) (mark : Nat → Call → Call)
    (o : OpenHeading) (c : Call) :
    Growing (b.acceptInHeading o c) [] ∧
      filed mark (b.acceptInHeading o c).sections = filed mark b.sections ++
        [if c.tag.isMedia then c.withAttribute "linking" (.string "nolink") else c] := by
  have hpush : ∀ d, filed mark (b.pushHeading d).sections = filed mark b.sections ++ [d] :=
    h.filed_pushHeading (List.append_nil _).symm
  unfold Builder.acceptInHeading
  simp only
  split
  · exact ⟨(h.pushHeading _).labelCurrent.of_eq rfl rfl,
      (filed_labelCurrent mark _).trans (hpush _)⟩
  · exact ⟨(h.pushHeading _).of_eq rfl rfl, hpush _⟩

/-! ### A new section -/

/-- A new section holds its heading call only. -/
theorem filed_openSection (mark : Nat → Call → Call) (b : Builder) (c : Call)
    (declared parent level : Nat) :
    filed mark (b.openSection c declared parent level).sections =
      filed mark b.sections ++ [mark b.sections.length (leveled c declared level)] := by
  rw [openSection_sections, filed_concat, List.length_modify, length_leaveSections]
  congr 1
  · refine filed_congr mark (Eq.trans (map_modify_eq _ _ _ _ fun s _ => ?_) ?_)
    · rfl
    · exact (leaveSections_frame b c parent).2 _ fun _ _ => rfl
  · unfold startedSection
    simp only
    split <;> rfl

theorem openSection_contentCalls (b : Builder) (c : Call) (declared parent level : Nat) :
    ((b.openSection c declared parent level).get b.sections.length).contentCalls = [] := by
  have hlast : (b.openSection c declared parent level).sections[b.sections.length]? =
      some (startedSection c declared parent level) := by
    rw [openSection_sections, List.getElem?_append_right, List.length_modify,
      length_leaveSections, Nat.sub_self]
    · rfl
    · rw [List.length_modify, length_leaveSections]
  rw [get_eq_of_getElem? hlast]
  unfold startedSection
  simp only
  split <;> rfl

/-! ### Steps -/

/-- A section whose heading can still grow has no text. -/
def Clear (b : Builder) : Prop :=
  b.openHeading ≠ none ∨ b.absorbing = true → (b.get b.current).contentCalls = []

theorem Sound.growing {heads : List Call} {b : Builder} (h : Sound heads b) (ht : b.Clear)
    (hg : b.openHeading ≠ none ∨ b.absorbing = true) : Growing b [] := by
  have h0 : 0 < b.current := by
    rcases hg with hg | hg
    · obtain ⟨o, ho⟩ := Option.ne_none_iff_exists'.mp hg
      exact (h.opened o ho).2
    · exact h.absorbing hg
  exact ⟨h.length, h.headingCalls_ne h0, ht hg⟩

/-- Outside a heading, calls that start nothing are kept as they are. -/
theorem kept_outside (mark : Nat → Call → Call) {b : Builder} (ho : b.openHeading = none)
    {taken : List Call} (hs : ∀ c ∈ taken, isOutlineHeading c = false) :
    kept mark b.reading taken = taken := by
  have hd : b.reading.depth = 0 := by simp [Builder.reading, ho]
  induction taken with
  | nil => rfl
  | cons c cs ih =>
    have hc := starts_of_not_heading b.reading (hs c List.mem_cons_self)
    rw [kept, written_of_outside mark hc hd, after_of_outside hc hd,
      ih fun d hd => hs d (List.mem_cons_of_mem c hd)]

/-- Nothing can be taken into the heading any more. -/
theorem Clear.of_closed {b : Builder} (ho : b.openHeading = none) (ha : b.absorbing = false) :
    b.Clear := by
  intro h
  rcases h with h | h
  · exact absurd ho h
  · rw [ha] at h
    cases h

/-- A section that starts holds its heading call only. -/
theorem startSection_filed {heads : List Call} {b b' : Builder} (hb : Sound heads b) {c : Call}
    (hs : b.reading.starts c = true) (h : (b.noteEnd c).startSection c = .ok b')
    (mark : Nat → Call → Call) :
    filed mark b'.sections = filed mark b.sections ++ [b.reading.written mark c] ∧
      (b'.get b'.current).contentCalls = [] := by
  obtain ⟨p, -, heq⟩ := startSection_eq (hb.noteEnd c) c
  rw [h] at heq
  split at heq
  · cases heq
  · cases heq
    constructor
    · rw [filed_openSection]
      simp only [noteEnd_sections, noteEnd_get, noteEnd_current, hb.length]
      rw [written_of_starts mark hs]
      rfl
    · rw [openSection_current]
      exact openSection_contentCalls _ _ _ _ _

/-- **A step of a strict build** puts what becomes of the calls it takes behind all
that is filed. -/
theorem Step.filed {heads : List Call} {b b' : Builder} {taken rest : List Call}
    (h : Step b taken rest b') (hb : Sound heads b) (hs : b.strictness = .strict) (ht : b.Clear)
    (mark : Nat → Call → Call) :
    filed mark b'.sections = filed mark b.sections ++ kept mark b.reading taken ∧ b'.Clear := by
  have hsections : ∀ c, (b.noteEnd c).endAbsorbing.sections = b.sections := noteEnd_sections b
  have hcurrent : ∀ c, (b.noteEnd c).endAbsorbing.current = b.current := noteEnd_current b
  have hopen : ∀ c, (b.noteEnd c).endAbsorbing.openHeading = b.openHeading :=
    noteEnd_openHeading b
  cases h with
  | @inHeading o c _ ho =>
    have hd : o.depth ≠ 0 := (hb.opened o ho).1
    have hdepth : b.reading.depth = o.depth := by simp [Builder.reading, ho]
    have hst : b.reading.starts c = false := starts_of_depth (by rwa [hdepth]) c
    have hg := hb.growing ht (.inl (by rw [ho]; exact Option.some_ne_none o))
    obtain ⟨h1, h2⟩ := (hg.of_eq (noteEnd_sections b c) (noteEnd_current b c)).acceptInHeading
      mark o c
    refine ⟨?_, fun _ => h1.text⟩
    rw [h2, noteEnd_sections]
    simp [kept, written_eq, hst, hdepth, hd]
  | @start _ c _ ho hh hc heq =>
    obtain ⟨h1, h2⟩ := startSection_filed hb (starts_of_closed ho hh hc) heq mark
    exact ⟨h1, fun _ => h2⟩
  | stray ho hh h1 h2 hl =>
    rw [hs] at hl
    cases hl
  | @fold c _ ho hh ha hp hx =>
    have hg := (hb.growing ht (.inr ha)).of_eq (hsections c) (hcurrent c)
    refine ⟨?_, .of_closed ((hopen c).trans ho) rfl⟩
    rw [hg.filed_pushHeading (List.append_nil _).symm c, hsections,
      kept_outside mark ho (by simpa using hh)]
  | @foldPair c n _ ho hh ha hp hx hnp hnx =>
    have hg := (hb.growing ht (.inr ha)).of_eq (hsections c) (hcurrent c)
    have hn := isOutlineHeading_of_isParagraph hnp
    refine ⟨?_, .of_closed ((hopen c).trans ho) rfl⟩
    rw [(hg.pushHeading c).filed_pushHeading (List.append_nil _).symm n,
      hg.filed_pushHeading (List.append_nil _).symm c, hsections,
      kept_outside mark ho (by simp [hh, hn]), List.append_assoc]
    rfl
  | @content c _ ho hh ha =>
    refine ⟨?_, .of_closed ((hopen c).trans ho) rfl⟩
    rw [filed_pushContent mark (by rw [hsections, hcurrent, hb.length]), hsections,
      kept_outside mark ho (by simpa using hh)]

end Builder

/-! ### Whole builds -/

/-- **The sections of a strict build hold the page**, every call in its place. -/
theorem buildSections_filed {calls : List Call} {b : Builder}
    (h : buildSections .strict calls = .ok b) (mark : Nat → Call → Call) :
    filed mark b.sections = kept mark {} calls := by
  obtain ⟨b₀, hr, hf⟩ := buildSections_run h
  obtain ⟨heads, hb, hs, -, hall⟩ := hr.keeps
    (P := fun b₁ calls₁ => ∃ heads, Sound heads b₁ ∧ b₁.strictness = .strict ∧ b₁.Clear ∧
      filed mark b₁.sections ++ kept mark b₁.reading calls₁ = kept mark {} calls)
    (fun {b₁ b₂ taken rest} h ⟨heads, hb, hs, ht, hall⟩ => by
      obtain ⟨h1, h2⟩ := h.filed hb hs ht mark
      obtain ⟨h3, h4⟩ := h.sound hb
      refine ⟨_, h3, (h.strictness hb).trans hs, h2, ?_⟩
      rw [h1, h4, ← hall, kept_append, List.append_assoc])
    ⟨[], sound_init .strict, rfl, .of_closed rfl rfl, rfl⟩
  rw [kept, List.append_nil] at hall
  rw [finish_strict hf hs]
  exact hall

end Outline

end WikiOutline
