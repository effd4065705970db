/-
# Where a lenient build files the calls

A lenient build puts a heading exit of no heading into the text, and goes on looking for
a paragraph to take into the heading before it.  So a paragraph right behind such stray
exits comes to stand before them; all else keeps its place (`buildSections_folded`).  The
sections hold the page in its order just when no paragraph is taken so
(`lenient_order`).

What is pending are the stray exits behind the heading closed last: they are its
section's text so far, and a paragraph may still come before them (`Builder.Pending`).
There is one lemma for each thing that a build can do with a call (`Builder.Step`).

Key definitions: `Builder.Pending`, `Builder.Advances`, `Outline.Rewritten`,
`Outline.InOrder`, `Outline.FoldsBehindStray`.
Key theorems: `Builder.Pending.step`, `Outline.buildSections_folded`,
`Outline.lenient_order`.
-/
import WikiOutline.Proofs.Agreement
import WikiOutline.Proofs.Attributes
import WikiOutline.Proofs.Filing
import WikiOutline.Proofs.Trail

namespace WikiOutline

namespace Outline

open Builder Reading

/-! ### What is pending -/

namespace Builder

/-- Where a lenient build stands: some stray exits are pending, which are all the text of
the section whose heading may still take a paragraph. -/
structure Pending (b : Builder) (t : Trail) (strays : List Call) : Prop where
  reading : t.reading = b.reading
  opened : ∀ h, b.openHeading = some h → t.inline = !h.style.isBlock
  absorbing : b.openHeading = none → t.absorbing = b.absorbing
  outside : t.Outside
  text : t.absorbing = true ∨ b.openHeading ≠ none → (b.get b.current).contentCalls = strays
  stray : ∀ c ∈ strays, isStray c = true
  settled : t.absorbing = false → strays = []

variable {heads : List Call} {b b' : Builder} {t : Trail} {strays taken rest lead : List Call}

/-- Outside of headings nothing is open. -/
theorem depth_of_closed (ho : b.openHeading = none) : b.reading.depth = 0 := by
  rw [Builder.reading, ho]
  rfl

/-- A section that starts leaves its heading open, or has all of it. -/
theorem startSection_opened (hb : Sound heads b) (ho : b.openHeading = none) {c : Call}
    (h : b.startSection c = .ok b') :
    (b'.openHeading =
        if c.state == .special then none else some ⟨c.headingSyntax?.getD .block, 1⟩) ∧
      ((c.state == .special) = true → b'.absorbing = !(c.headingSyntax?.getD .block).isBlock) := by
  obtain ⟨p, -, heq⟩ := startSection_eq hb c
  rw [h] at heq
  split at heq
  · cases heq
  · cases heq
    refine ⟨?_, fun hspecial => openSection_absorbing _ hspecial _ _ _⟩
    rw [openSection_openHeading, show ({ b with diagnostics := _ } : Builder).openHeading = _ from ho]

/-- Outside of headings a call that begins nothing is kept as it is. -/
theorem kept_cons_outside (mark : Nat → Call → Call) {r : Reading} {c : Call}
    (hs : r.starts c = false) (hd : r.depth = 0) (cs : List Call) :
    kept mark r (c :: cs) = c :: kept mark r cs := by
  rw [kept, written_of_outside mark hs hd, after_of_outside hs hd]

/-- Stray exits are kept as they are. -/
theorem Pending.kept_strays (h : Pending b t strays) (mark : Nat → Call → Call)
    (cs : List Call) : kept mark b.reading (strays ++ cs) = strays ++ kept mark b.reading cs := by
  by_cases ha : t.absorbing = true
  · have hd : b.reading.depth = 0 := h.reading ▸ h.outside ha
    have hpassed : ∀ ss : List Call, (∀ c ∈ ss, isStray c = true) →
        kept mark b.reading (ss ++ cs) = ss ++ kept mark b.reading cs := by
      intro ss hss
      induction ss with
      | nil => rfl
      | cons c ss ih =>
        have hc := starts_of_isStray b.reading (hss c List.mem_cons_self)
        rw [List.cons_append, kept_cons_outside mark hc hd,
          ih fun d hd => hss d (List.mem_cons_of_mem c hd)]
        rfl
    exact hpassed strays h.stray
  · rw [h.settled (by simpa using ha)]
    rfl

/-- Where no paragraph is taken any more, nothing is pending. -/
theorem Pending.of_settled (hr : t.reading = b.reading) (ho : b.openHeading = none)
    (ha : b.absorbing = false) (hat : t.absorbing = false) : Pending b t [] where
  reading := hr
  opened h hh := by
    rw [ho] at hh
    cases hh
  absorbing _ := by rw [ha, hat]
  outside h := by
    rw [hat] at h
    cases h
  text h := by
    rcases h with h | h
    · rw [hat] at h
      cases h
    · exact absurd ho h
  stray c hc := absurd hc List.not_mem_nil
  settled _ := rfl

/-- What a step does to a page of which `lead` is filed before what is pending: `lead'` is
filed then, and the rest of the page comes behind as before. -/
def Advances (mark : Nat → Call → Call) (lead strays : List Call) (b : Builder) (t : Trail)
    (taken rest : List Call) (b' : Builder) : Prop :=
  ∃ lead' strays', Pending b' (taken.foldl Trail.after t) strays' ∧
    filed mark b'.sections = lead' ++ strays' ∧
    lead ++ kept mark b.reading (t.folded strays (taken ++ rest)) =
      lead' ++ kept mark b'.reading ((taken.foldl Trail.after t).folded strays' rest)

section

variable {mark : Nat → Call → Call} {c n : Call} (hb : Sound heads b) (hp : Pending b t strays)
  (hfiled : filed mark b.sections = lead ++ strays)

include hb hp hfiled

/-- Inside a heading nothing is pending. -/
theorem Pending.inHeading {o : OpenHeading} (ho : b.openHeading = some o) :
    Advances mark lead strays b t [c] rest ((b.noteEnd c).acceptInHeading o c) := by
  have hstep : Step b [c] rest ((b.noteEnd c).acceptInHeading o c) := .inHeading ho
  obtain ⟨-, hreading⟩ := hstep.sound hb
  have hd : b.reading.depth ≠ 0 := by
    rw [Builder.reading, ho]
    exact (hb.opened o ho).1
  have hnone : t.absorbing = false := by
    by_contra ha
    exact hd (hp.reading ▸ hp.outside (by simpa using ha))
  obtain rfl := hp.settled hnone
  have hg : Growing b [] := ⟨hb.length, hb.headingCalls_ne (hb.opened o ho).2,
    hp.text (.inr (by rw [ho]; exact Option.some_ne_none o))⟩
  obtain ⟨h1, h2⟩ := (hg.of_eq (noteEnd_sections b c) (noteEnd_current b c)).acceptInHeading mark o c
  obtain ⟨hclosed, hopened⟩ := acceptInHeading_style (b.noteEnd c) o c
  have hafter := Trail.after_inside (t := t) (c := c) (hp.reading ▸ hd)
  have hinline : (t.after c).inline = !o.style.isBlock := by
    rw [hafter]
    exact hp.opened o ho
  have htrail : (t.after c).reading = ((b.noteEnd c).acceptInHeading o c).reading := by
    rw [Trail.reading_after, hp.reading, hreading, List.foldl_cons, List.foldl_nil]
  refine ⟨lead ++ [b.reading.written mark c], [], ?_, ?_, ?_⟩
  · refine ⟨htrail, fun h' ho' => ?_, fun ho' => ?_, t.outside_after c, fun _ => h1.text,
      fun _ hc => absurd hc List.not_mem_nil, fun _ => rfl⟩
    · rw [hopened h' ho']
      exact hinline
    · have hdepth : (t.reading.after c).depth = 0 := by
        rw [← Trail.reading_after, htrail]
        exact depth_of_closed ho'
      rw [hclosed ho', ← hinline, List.foldl_cons, List.foldl_nil, hafter, hdepth]
      rfl
  · rw [h2, noteEnd_sections, hfiled]
    simp [written_eq, starts_of_depth hd, hd]
  · rw [List.cons_append, List.nil_append, Trail.folded_keep (by rw [hnone]; rfl)
      (by rw [hnone]; rfl), List.nil_append, kept, hreading, List.append_assoc]
    rfl

/-- Where a section starts, what is pending stays behind. -/
theorem Pending.start (ho : b.openHeading = none) (hh : isOutlineHeading c = true)
    (hc : c.state = .enter ∨ c.state = .special) (h : (b.noteEnd c).startSection c = .ok b') :
    Advances mark lead strays b t [c] rest b' := by
  have hstep : Step b [c] rest b' := .start ho hh hc h
  obtain ⟨-, hreading⟩ := hstep.sound hb
  have hst : b.reading.starts c = true := starts_of_closed ho hh hc
  have hstray : isStray c = false := by
    rcases hc with hc | hc <;> simp [isStray, hc]
  have habsorbs : absorbs c rest.head? = false := by
    by_contra habsorbs
    have hpar := (absorbs_cases (by simpa using habsorbs)).1
    rw [isOutlineHeading_of_isParagraph hpar] at hh
    cases hh
  obtain ⟨h1, h2⟩ := startSection_filed hb hst h mark
  obtain ⟨hopened, habsorbing⟩ := startSection_opened (hb.noteEnd c)
    ((noteEnd_openHeading b c).trans ho) h
  have hafter := Trail.after_start (t := t) (c := c) (hp.reading ▸ hst)
  have htrail : (t.after c).reading = b'.reading := by
    rw [Trail.reading_after, hp.reading, hreading, List.foldl_cons, List.foldl_nil]
  refine ⟨lead ++ strays ++ [b.reading.written mark c], [], ?_, ?_, ?_⟩
  · refine ⟨htrail, fun h' ho' => ?_, fun ho' => ?_, t.outside_after c, fun _ => h2,
      fun _ hc => absurd hc List.not_mem_nil, fun _ => rfl⟩
    · rw [hopened] at ho'
      split at ho'
      · cases ho'
      · rw [← Option.some.inj ho', List.foldl_cons, List.foldl_nil, hafter]
    · rw [hopened] at ho'
      split at ho'
      · rename_i hspecial
        rw [habsorbing hspecial, List.foldl_cons, List.foldl_nil, hafter, hspecial]
        rfl
      · cases ho'
  · rw [h1, hfiled, List.append_nil]
  · rw [List.cons_append, List.nil_append, Trail.folded_keep (by rw [hstray, Bool.and_false])
      (by rw [habsorbs, Bool.and_false]), hp.kept_strays, kept, hreading]
    simp only [List.append_assoc, List.cons_append, List.nil_append, List.foldl_cons,
      List.foldl_nil]

/-- A stray exit is pending too, if a paragraph may still come. -/
theorem Pending.passStray (ho : b.openHeading = none) (hh : isOutlineHeading c = true)
    (h1 : c.state ≠ .enter) (h2 : c.state ≠ .special) :
    Advances mark lead strays b t [c] rest
      (((b.noteEnd c).warn .strayHeadingExit c.startPos).pushContent c) := by
  set warned := (b.noteEnd c).warn .strayHeadingExit c.startPos
  have hsections : warned.sections = b.sections := noteEnd_sections b c
  have hcurrent : warned.current = b.current := noteEnd_current b c
  have hclosed : (warned.pushContent c).openHeading = none := (noteEnd_openHeading b c).trans ho
  have habsorbing : (warned.pushContent c).absorbing = b.absorbing := noteEnd_absorbing b c
  have hstray : isStray c = true := by simp [isStray, hh, h1, h2]
  have hd : b.reading.depth = 0 := depth_of_closed ho
  have hs := starts_of_isStray b.reading hstray
  have hafter : t.after c = t := by
    rw [Trail.after_outside (starts_of_isStray _ hstray) (hp.reading ▸ hd), hstray, Bool.and_true]
  have hpushed : filed mark (warned.pushContent c).sections = filed mark b.sections ++ [c] := by
    rw [filed_pushContent mark (by rw [hsections, hcurrent, hb.length]), hsections]
  have hreading : (warned.pushContent c).reading = b.reading := by
    rw [(Quiet.of_stray hb ho h1 h2).reading, List.foldl_cons, List.foldl_nil,
      after_of_outside hs hd]
  by_cases ha : t.absorbing = true
  · have hg : Growing b strays := ⟨hb.length,
      hb.headingCalls_ne (hb.absorbing ((hp.absorbing ho).symm.trans ha)), hp.text (.inl ha)⟩
    have hg' := (hg.of_eq hsections hcurrent).pushContent c
    refine ⟨lead, strays ++ [c], ?_, ?_, ?_⟩
    · rw [List.foldl_cons, List.foldl_nil, hafter]
      refine ⟨hp.reading.trans hreading.symm, fun h hh => ?_,
        fun _ => (hp.absorbing ho).trans habsorbing.symm, hp.outside, fun _ => hg'.text, ?_, ?_⟩
      · rw [hclosed] at hh
        cases hh
      · intro d hd
        rcases List.mem_append.mp hd with hd | hd
        · exact hp.stray d hd
        · rw [List.mem_singleton.mp hd, hstray]
      · intro hnone
        rw [ha] at hnone
        cases hnone
    · rw [hpushed, hfiled, List.append_assoc]
    · rw [List.cons_append, List.nil_append, Trail.folded_stray ha hstray, hreading]
      rfl
  · have hnone : t.absorbing = false := by simpa using ha
    obtain rfl := hp.settled hnone
    refine ⟨lead ++ [c], [], .of_settled ?_ hclosed ?_ ?_, ?_, ?_⟩
    · rw [List.foldl_cons, List.foldl_nil, hafter, hp.reading, hreading]
    · rw [habsorbing, ← hp.absorbing ho, hnone]
    · rw [List.foldl_cons, List.foldl_nil, hafter, hnone]
    · rw [hpushed, hfiled, List.append_nil, List.append_nil]
    · rw [List.cons_append, List.nil_append, Trail.folded_keep (by rw [hnone]; rfl)
        (by rw [hnone]; rfl), List.nil_append, kept_cons_outside mark hs hd, hreading,
        List.append_assoc]
      rfl

/-- A paragraph that is taken comes before what is pending. -/
theorem Pending.fold (ho : b.openHeading = none) (hh : isOutlineHeading c = false)
    (ha : b.absorbing = true) (hpar : c.tag.isParagraph = true) (hx : c.isExit = true) :
    Advances mark lead strays b t [c] rest ((b.noteEnd c).endAbsorbing.pushHeading c) := by
  have hstep : Step b [c] rest ((b.noteEnd c).endAbsorbing.pushHeading c) :=
    .fold ho hh ha hpar hx
  obtain ⟨-, hreading⟩ := hstep.sound hb
  have hat : t.absorbing = true := (hp.absorbing ho).trans ha
  have hd : b.reading.depth = 0 := depth_of_closed ho
  have hs : b.reading.starts c = false := starts_of_not_heading _ hh
  rw [List.foldl_cons, List.foldl_nil, after_of_outside hs hd] at hreading
  have hafter := Trail.after_paragraph (t := t) (hp.reading ▸ hd) hpar
  have hg : Growing b strays := ⟨hb.length, hb.headingCalls_ne (hb.absorbing ha),
    hp.text (.inl hat)⟩
  have hg' : Growing (b.noteEnd c).endAbsorbing strays :=
    hg.of_eq (noteEnd_sections b c) (noteEnd_current b c)
  have hpushed := hg'.filed_pushHeading ((congrArg _ (noteEnd_sections b c)).trans hfiled) c
  refine ⟨lead ++ c :: strays, [], .of_settled ?_ ((noteEnd_openHeading b c).trans ho) rfl ?_, ?_, ?_⟩
  · rw [List.foldl_cons, List.foldl_nil, hafter, hreading]
    exact hp.reading
  · rw [List.foldl_cons, List.foldl_nil, hafter]
  · rw [hpushed, List.append_nil]
  · rw [List.cons_append, List.nil_append, Trail.folded_exit hat hpar hx,
      kept_cons_outside mark hs hd, hp.kept_strays, hreading]
    simp only [List.append_assoc, List.cons_append, List.foldl_cons, List.foldl_nil]

/-- So does a paragraph without content. -/
theorem Pending.foldPair (ho : b.openHeading = none) (hh : isOutlineHeading c = false)
    (ha : b.absorbing = true) (hpar : c.tag.isParagraph = true) (he : c.isEnter = true)
    (hnp : n.tag.isParagraph = true) (hnx : n.isExit = true) :
    Advances mark lead strays b t [c, n] rest
      (((b.noteEnd c).endAbsorbing.pushHeading c).pushHeading n) := by
  have hstep : Step b [c, n] rest (((b.noteEnd c).endAbsorbing.pushHeading c).pushHeading n) :=
    .foldPair ho hh ha hpar he hnp hnx
  obtain ⟨-, hreading⟩ := hstep.sound hb
  have hat : t.absorbing = true := (hp.absorbing ho).trans ha
  have hd : b.reading.depth = 0 := depth_of_closed ho
  have hs : b.reading.starts c = false := starts_of_not_heading _ hh
  have hsn : b.reading.starts n = false :=
    starts_of_not_heading _ (isOutlineHeading_of_isParagraph hnp)
  rw [List.foldl_cons, List.foldl_cons, List.foldl_nil, after_of_outside hs hd,
    after_of_outside hsn hd] at hreading
  have hafter : (t.after c).after n = { t with absorbing := false } := by
    rw [Trail.after_paragraph (t := t) (hp.reading ▸ hd) hpar,
      Trail.after_paragraph (hp.reading ▸ hd) hnp]
  have hg : Growing b strays := ⟨hb.length, hb.headingCalls_ne (hb.absorbing ha),
    hp.text (.inl hat)⟩
  have hg' : Growing (b.noteEnd c).endAbsorbing strays :=
    hg.of_eq (noteEnd_sections b c) (noteEnd_current b c)
  have hpushed := hg'.filed_pushHeading ((congrArg _ (noteEnd_sections b c)).trans hfiled) c
  have hpushed' := (hg'.pushHeading c).filed_pushHeading
    (hpushed.trans (List.append_cons lead c strays)) n
  refine ⟨lead ++ [c] ++ n :: strays, [],
    .of_settled ?_ ((noteEnd_openHeading b c).trans ho) rfl ?_, ?_, ?_⟩
  · rw [List.foldl_cons, List.foldl_cons, List.foldl_nil, hafter, hreading]
    exact hp.reading
  · rw [List.foldl_cons, List.foldl_cons, List.foldl_nil, hafter]
  · rw [hpushed', List.append_nil]
  · rw [List.cons_append, List.cons_append, List.nil_append,
      Trail.folded_pair hat hpar he hnp hnx, kept_cons_outside mark hs hd,
      kept_cons_outside mark hsn hd, hp.kept_strays, hreading]
    simp only [List.append_assoc, List.cons_append, List.nil_append, List.foldl_cons,
      List.foldl_nil]

/-- All else comes behind what is pending. -/
theorem Pending.content (ho : b.openHeading = none) (hh : isOutlineHeading c = false)
    (ha : (b.absorbing && absorbs c rest.head?) = false) :
    Advances mark lead strays b t [c] rest ((b.noteEnd c).endAbsorbing.pushContent c) := by
  obtain ⟨-, hreading⟩ := (Step.content ho hh ha).sound hb
  have hd : b.reading.depth = 0 := depth_of_closed ho
  have hs : b.reading.starts c = false := starts_of_not_heading _ hh
  rw [List.foldl_cons, List.foldl_nil, after_of_outside hs hd] at hreading
  have hstray : (t.absorbing && isStray c) = false := by
    rw [isStray, hh, Bool.false_and, Bool.and_false]
  have hafter := Trail.after_outside (t := t) (c := c) (hp.reading ▸ hs) (hp.reading ▸ hd)
  have hsections : (b.noteEnd c).endAbsorbing.sections = b.sections := noteEnd_sections b c
  have hcurrent : (b.noteEnd c).endAbsorbing.current = b.current := noteEnd_current b c
  have hpushed := filed_pushContent mark (b := (b.noteEnd c).endAbsorbing)
    (by rw [hsections, hcurrent, hb.length]) c
  refine ⟨lead ++ strays ++ [c], [],
    .of_settled ?_ ((noteEnd_openHeading b c).trans ho) rfl ?_, ?_, ?_⟩
  · rw [List.foldl_cons, List.foldl_nil, hafter, hreading]
    exact hp.reading
  · rw [List.foldl_cons, List.foldl_nil, hafter]
    exact hstray
  · rw [hpushed, hsections, hfiled, List.append_nil]
  · rw [List.cons_append, List.nil_append, Trail.folded_keep hstray (by rw [hp.absorbing ho, ha]),
      hp.kept_strays, kept_cons_outside mark hs hd, hreading]
    simp only [List.append_assoc, List.cons_append, List.nil_append, List.foldl_cons,
      List.foldl_nil]

/-- **A step of a build** puts what it takes behind all that is filed, but for a paragraph
that is taken into a heading, which comes before what is pending. -/
theorem Pending.step (h : Step b taken rest b') : Advances mark lead strays b t taken rest b' := by
  cases h with
  | inHeading ho => exact hp.inHeading hb hfiled ho
  | start ho hh hc h => exact hp.start hb hfiled ho hh hc h
  | stray ho hh h1 h2 _ => exact hp.passStray hb hfiled ho hh h1 h2
  | fold ho hh ha hpar hx => exact hp.fold hb hfiled ho hh ha hpar hx
  | foldPair ho hh ha hpar he hnp hnx => exact hp.foldPair hb hfiled ho hh ha hpar he hnp hnx
  | content ho hh ha => exact hp.content hb hfiled ho hh ha

end

end Builder

/-! ### Whole builds -/

/-- The end of a build files nothing. -/
theorem Builder.finish_filed {b b' : Builder} (h : b.finish = .ok b') (mark : Nat → Call → Call) :
    filed mark b'.sections = filed mark b.sections := by
  unfold finish at h
  split at h
  · rw [← Except.ok.inj h]
  · obtain ⟨b₁, h₁, rfl⟩ := map_eq_ok h
    obtain ⟨-, rfl⟩ := internal_eq_ok.mp h₁
    exact filed_labelCurrent mark _

/-- Where a build stands behind some calls: a reading of them, up to what is pending, and
the page so far. -/
theorem Builder.Run.pending {strictness : Strictness} {calls rest : List Call} {b : Builder}
    (h : Run { strictness } calls rest b) (mark : Nat → Call → Call) :
    ∃ taken heads lead strays, calls = taken ++ rest ∧ Sound heads b ∧
      Pending b (taken.foldl Trail.after {}) strays ∧ filed mark b.sections = lead ++ strays ∧
      lead ++ kept mark b.reading ((taken.foldl Trail.after {}).folded strays rest) =
        kept mark {} (Trail.folded {} [] calls) := by
  have hstart : Pending ({ strictness } : Builder) {} [] := .of_settled rfl rfl rfl rfl
  refine h.keeps
    (P := fun b₁ calls₁ => ∃ taken heads lead strays, calls = taken ++ calls₁ ∧ Sound heads b₁ ∧
      Pending b₁ (taken.foldl Trail.after {}) strays ∧ filed mark b₁.sections = lead ++ strays ∧
      lead ++ kept mark b₁.reading ((taken.foldl Trail.after {}).folded strays calls₁) =
        kept mark {} (Trail.folded {} [] calls)) ?_
    ⟨[], [], [], [], rfl, sound_init strictness, hstart, rfl, rfl⟩
  rintro b₁ b₂ more rest₁ hs ⟨taken, heads, lead, strays, hcalls, hb, hp, hfiled, hall⟩
  obtain ⟨lead', strays', hp', hfiled', hnext⟩ := hp.step hb hfiled hs
  rw [← List.foldl_append] at hp' hnext
  exact ⟨taken ++ more, _, lead', strays', by rw [hcalls, List.append_assoc], (hs.sound hb).1, hp',
    hfiled', hnext ▸ hall⟩

/-- **The sections of a build hold the page**, with every paragraph that is taken into a
heading before the stray exits behind that heading. -/
theorem buildSections_folded {strictness : Strictness} {calls : List Call} {b : Builder}
    (h : buildSections strictness calls = .ok b) (mark : Nat → Call → Call) :
    filed mark b.sections = kept mark {} (Trail.folded {} [] calls) := by
  obtain ⟨b₀, hr, hf⟩ := buildSections_run h
  obtain ⟨taken, heads, lead, strays, -, -, hp, hfiled, hall⟩ := hr.pending mark
  have hkept := hp.kept_strays mark []
  rw [List.append_nil, kept, List.append_nil] at hkept
  rw [Trail.folded, hkept] at hall
  rw [finish_filed hf, hfiled, hall]

/-! ### The order of the page -/

/-- A call as a build writes it: only the levels of a heading and the linking of a medium
may be other ones. -/
structure Rewritten (c d : Call) : Prop where
  tag : d.tag = c.tag
  state : d.state = c.state
  context : d.context = c.context
  startPos : d.startPos = c.startPos
  endPos : d.endPos = c.endPos
  payload : d.payload = c.payload
  attributes : ∀ key, key ≠ levelAttribute → key ≠ declaredLevelAttribute → key ≠ "linking" →
    d.attributes.get? key = c.attributes.get? key

theorem Rewritten.refl (c : Call) : Rewritten c c := ⟨rfl, rfl, rfl, rfl, rfl, rfl, fun _ _ _ _ => rfl⟩

/-- To set one of those attributes is to rewrite. -/
theorem Rewritten.withAttribute {c d : Call} (h : Rewritten c d) {k : String} (v : AttributeValue)
    (hk : k = levelAttribute ∨ k = declaredLevelAttribute ∨ k = "linking") :
    Rewritten c (d.withAttribute k v) where
  tag := h.tag
  state := h.state
  context := h.context
  startPos := h.startPos
  endPos := h.endPos
  payload := h.payload
  attributes key h1 h2 h3 := by
    have hne : key ≠ k := by
      rcases hk with rfl | rfl | rfl
      · exact h1
      · exact h2
      · exact h3
    rw [Call.get?_withAttribute_ne d v hne]
    exact h.attributes key h1 h2 h3

theorem rewritten_leveled (c : Call) (declared level : Nat) :
    Rewritten c (leveled c declared level) := by
  unfold leveled
  refine .withAttribute ?_ _ (.inl rfl)
  split
  · exact .refl c
  · exact (Rewritten.refl c).withAttribute _ (.inr (.inl rfl))

/-- What becomes of a page is the page, call by call. -/
theorem kept_rewritten : ∀ (r : Reading) (cs : List Call),
    List.Forall₂ Rewritten cs (kept (fun _ c => c) r cs)
  | _, [] => .nil
  | r, c :: cs => by
    refine .cons ?_ (kept_rewritten (r.after c) cs)
    rw [written_eq]
    split
    · exact rewritten_leveled c _ _
    · split
      · exact (Rewritten.refl c).withAttribute _ (.inr (.inr rfl))
      · exact .refl c

/-- The calls of an outline, section by section. -/
def held (o : Outline) : List Call :=
  o.sections.flatMap fun s => s.headingCalls ++ s.contentCalls

/-- The sections hold a page in its order. -/
def InOrder (o : Outline) (calls : List Call) : Prop := List.Forall₂ Rewritten calls o.held

/-- Somewhere on a page a paragraph is taken into a heading although a stray exit came
between. -/
def FoldsBehindStray (calls : List Call) : Prop := Trail.Folds {} calls

theorem tags_eq {cs ds : List Call} (h : List.Forall₂ Rewritten cs ds) :
    ds.map Call.tag = cs.map Call.tag := by
  induction h with
  | nil => rfl
  | cons hc _ ih => rw [List.map_cons, List.map_cons, hc.tag, ih]

/-- **A lenient build** always succeeds.  Its sections hold the page with each paragraph
that is taken into a heading before the stray exits behind that heading; so they hold it
in its order just when no paragraph is taken behind a stray exit. -/
theorem lenient_order {σ : Type} (sink : Option (MetadataSink σ)) (calls : List Call) (s : σ) :
    ∃ o s', buildWith .lenient sink calls s = .ok (o, s') ∧
      o.held = kept (fun _ c => c) {} (Trail.folded {} [] calls) ∧
      (Trail.folded {} [] calls).Perm calls ∧
      (o.InOrder calls ↔ ¬ FoldsBehindStray calls) := by
  obtain ⟨b, hb, -⟩ := buildSections_agrees calls
  obtain ⟨o, s', ho, hsections, -⟩ := exists_buildWith hb sink s
  have hheld : o.held = kept (fun _ c => c) {} (Trail.folded {} [] calls) := by
    rw [held, hsections, ← filed_unmarked]
    exact buildSections_folded hb _
  have houtside : Trail.Outside {} := fun h => by cases h
  refine ⟨o, s', ho, hheld, Trail.perm_folded calls {} [], ?_⟩
  constructor
  · intro horder hfolds
    have htags : o.held.map Call.tag = (Trail.folded {} [] calls).map Call.tag := by
      rw [hheld]
      exact tags_eq (kept_rewritten _ _)
    have hmoved : (Trail.folded {} [] calls).map Call.tag ≠ ([] ++ calls).map Call.tag :=
      Trail.folded_ne calls houtside (fun c hc => absurd hc List.not_mem_nil) (.inl hfolds)
    rw [← htags, List.nil_append] at hmoved
    exact hmoved (tags_eq horder)
  · intro hfolds
    have hfolded : Trail.folded {} [] calls = [] ++ calls :=
      Trail.folded_eq calls houtside hfolds fun h => absurd rfl h
    rw [InOrder, hheld, hfolded]
    exact kept_rewritten _ _

/-- A heading, a second exit of it, and the exit of a paragraph. -/
def strayBeforeParagraph : List Call :=
  [((Call.enter (.heading .atx)).withContext Call.outlineContext).withAttribute
      levelAttribute (.int 1),
    Call.text "News", Call.exit (.heading .atx),
    (Call.exit (.heading .atx)).withContext Call.outlineContext, Call.exit .paragraph]

/-- The paragraph comes into the heading, and so before the stray exit. -/
theorem strayBeforeParagraph_out_of_order :
    ∃ o, build .lenient strayBeforeParagraph = .ok o ∧ ¬ o.InOrder strayBeforeParagraph := by
  have hheld : (build .lenient strayBeforeParagraph).toOption.map
      (fun o => (o.held.map Call.tag)[3]?.map Tag.isHeading) = some (some false) := by decide
  obtain ⟨o, ho⟩ : ∃ o, build .lenient strayBeforeParagraph = .ok o := ⟨_, rfl⟩
  refine ⟨o, ho, fun h => ?_⟩
  rw [ho] at hheld
  have hmoved : (o.held.map Call.tag)[3]?.map Tag.isHeading = some false := Option.some.inj hheld
  rw [tags_eq h] at hmoved
  cases hmoved

end Outline

end WikiOutline
