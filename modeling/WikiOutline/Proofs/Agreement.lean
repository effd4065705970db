/-
# Strict and lenient builds agree

A lenient build goes the way of the strict build of the same calls as long as there
is one: what the strict build makes of a call, the lenient one makes of it too, and
where an internal finding ends the strict build, the lenient one notes that finding
and goes on (`Builder.accept_agrees`).  A lenient build always comes to its end and
never takes a finding back.  So the strict build of a page succeeds just when the
lenient one has noted nothing internal, and both give the same outline; else it fails
with the first internal finding that the lenient one has noted.

Key definitions: `Builder.lenient`, `Builder.internals`, `Builder.Agrees`.
Key theorems: `Builder.accept_agrees`, `Builder.acceptAll_agrees`,
`Outline.builds_agree`.
-/
import WikiOutline.Proofs.Growth

namespace WikiOutline

/-- The finding is about the call sequence. -/
def Diagnostic.isInternal (d : Diagnostic) : Bool := d.kind == .internal

theorem Diagnostic.isInternal_iff (d : Diagnostic) : d.isInternal = true ↔ d.kind = .internal := by
  unfold isInternal
  cases d.kind <;> decide

namespace Outline

open Reading

variable {σ : Type}

namespace Builder

/-- The same build, which goes on at internal findings. -/
def lenient (b : Builder) : Builder := { b with strictness := .lenient }

/-- The internal findings noted so far. -/
def internals (b : Builder) : List Diagnostic := b.diagnostics.filter Diagnostic.isInternal

/-- What a strict build makes of a builder, and what a lenient one does: the same, and
nothing internal was noted, or the first internal finding noted ended the strict one. -/
def Agrees : Except Diagnostic Builder → Builder → Prop
  | .ok b, b' => b' = b.lenient ∧ b.strictness = .strict ∧ b.internals = []
  | .error d, b' => b'.internals.head? = some d

/-! ### The operations do not look at the strictness -/

theorem lenient_noteEnd (b : Builder) (c : Call) : (b.noteEnd c).lenient = b.lenient.noteEnd c := by
  unfold noteEnd
  split <;> rfl

theorem lenient_acceptInHeading (b : Builder) (h : OpenHeading) (c : Call) :
    (b.acceptInHeading h c).lenient = b.lenient.acceptInHeading h c := by
  unfold acceptInHeading
  simp only
  split <;> rfl

theorem lenient_leaveSections (b : Builder) (c : Call) (parent : Nat) :
    (b.leaveSections c parent).lenient = b.lenient.leaveSections c parent := by
  have hs : b.lenient.sections = b.sections := rfl
  have hsections : (b.lenient.leaveSections c parent).sections =
      (b.leaveSections c parent).sections := leaveSections_congr hs rfl c parent
  rw [(leaveSections_frame b.lenient c parent).1, hsections, (leaveSections_frame b c parent).1]
  rfl

theorem lenient_openSection (b : Builder) (c : Call) (declared parent level : Nat) :
    (b.openSection c declared parent level).lenient =
      b.lenient.openSection c declared parent level := by
  unfold openSection
  rw [← lenient_leaveSections]
  simp only
  split <;> rfl

theorem Sound.lenient {heads : List Call} {b : Builder} (h : Sound heads b) :
    Sound heads b.lenient :=
  ⟨h.tree, h.current, h.opened, h.absorbing⟩

/-! ### Findings stay noted -/

/-- A finding that stays noted first stays the first one. -/
theorem head?_internals_of_keeps {b b' : Builder} (h : b.diagnostics <+: b'.diagnostics)
    {d : Diagnostic} (hd : b.internals.head? = some d) : b'.internals.head? = some d := by
  obtain ⟨more, hmore⟩ := h.filter Diagnostic.isInternal
  have hall : b'.internals = b.internals ++ more := hmore.symm
  rw [hall, List.head?_append, hd]
  rfl

theorem Step.keeps_findings {heads : List Call} {b b' : Builder} {taken rest : List Call}
    (h : Step b taken rest b') (hb : Sound heads b) : b.diagnostics <+: b'.diagnostics := by
  rcases h.starts_or_quiet hb with ⟨c, rfl, -, ho, heq⟩ | hq
  · have hs := startSection_sound (hb.noteEnd c) (by rw [noteEnd_openHeading, ho]) heq
    rw [hs.diagnostics, noteEnd_diagnostics, List.append_assoc]
    exact List.prefix_append _ _
  · rcases hq.diagnostics with h | ⟨p, h⟩
    · rw [h]
    · rw [h]
      exact List.prefix_append _ _

/-- A lenient build takes every call, and keeps what it has noted. -/
theorem acceptAll_lenient {heads : List Call} {b : Builder} (hb : Sound heads b)
    (hs : b.strictness = .lenient) (calls : List Call) :
    ∃ b', acceptAll calls b = .ok b' ∧ b.diagnostics <+: b'.diagnostics ∧
      b'.strictness = .lenient := by
  have hkeeps : ∀ {b' : Builder} {rest : List Call}, Run b calls rest b' →
      ∃ heads', Sound heads' b' ∧ b.diagnostics <+: b'.diagnostics ∧
        b'.strictness = .lenient := fun hr => by
    obtain ⟨heads', hb', hq, -⟩ := hr.grows
      (Q := fun _ b₁ => b.diagnostics <+: b₁.diagnostics ∧ b₁.strictness = .lenient)
      (fun h h₁ hq => ⟨hq.1.trans (h.keeps_findings h₁), (h.strictness h₁).trans hq.2⟩)
      hb ⟨List.prefix_refl _, hs⟩
    exact ⟨heads', hb', hq⟩
  rcases acceptAll_spec calls b with ⟨b', ha, hr⟩ | ⟨d, b₁, c, rest, -, hr, he⟩
  · obtain ⟨-, -, hq⟩ := hkeeps hr
    exact ⟨b', ha, hq⟩
  · obtain ⟨heads', hb₁, -, hl⟩ := hkeeps hr
    have hnot : ¬ b₁.strictness = .strict := by
      rw [hl]
      exact fun h => by cases h
    -- only a strict build is ended by a call
    obtain ⟨-, he | ⟨hstrict, -⟩⟩ := accept_error he
    · obtain ⟨p, -, heq⟩ := startSection_eq (hb₁.noteEnd c) c
      rw [he, noteEnd_strictness] at heq
      rw [if_neg fun h => hnot h.2] at heq
      cases heq
    · exact absurd hstrict hnot

/-! ### One call -/

theorem levelFindings_internal (previous : Nat) (c : Call) :
    (levelFindings previous c).filter Diagnostic.isInternal =
      if c.attributes.getInt? levelAttribute = none then
        [⟨.missingLevel previous, c.startPos⟩] else [] := by
  unfold levelFindings
  cases c.attributes.getInt? levelAttribute with
  | none => rfl
  | some level =>
    simp only [reduceCtorEq, ↓reduceIte]
    split <;> rfl

theorem skip?_internal (previous : Nat) (c : Call) :
    (skip? previous c).toList.filter Diagnostic.isInternal = [] := by
  unfold skip?
  split <;> rfl

/-- A heading starts the same section, or it has no level. -/
theorem startSection_agrees {heads : List Call} {b : Builder} (hb : Sound heads b)
    (hs : b.strictness = .strict) (hi : b.internals = []) (c : Call) :
    ∃ b', b.lenient.startSection c = .ok b' ∧ Agrees (b.startSection c) b' := by
  obtain ⟨p, hp, heq⟩ := startSection_eq hb c
  obtain ⟨q, hq, heq'⟩ := startSection_eq hb.lenient c
  obtain rfl : p = q := hp.unique hq
  set level := (b.get b.current).level with hlevel
  have hlevel' : (b.lenient.get b.lenient.current).level = level := rfl
  set noted : Builder :=
    { b with diagnostics := b.diagnostics ++ levelFindings level c ++ (skip? level c).toList }
  have hnoted : noted.internals = (levelFindings level c).filter Diagnostic.isInternal := by
    have hall : noted.internals = b.internals ++ (levelFindings level c).filter
        Diagnostic.isInternal ++ (skip? level c).toList.filter Diagnostic.isInternal := by
      simp only [internals, noted, List.filter_append]
    rw [hall, hi, skip?_internal, List.nil_append, List.append_nil]
  have hopened : (noted.openSection c (levelRead level c) p (effectiveLevel level c)).internals =
      noted.internals :=
    congrArg (List.filter Diagnostic.isInternal) (openSection_diagnostics _ _ _ _ _)
  rw [levelFindings_internal] at hnoted
  have hgoes : ¬ (c.attributes.getInt? levelAttribute = none ∧
      b.lenient.strictness = .strict) := fun h => by cases h.2
  rw [hlevel', if_neg hgoes] at heq'
  refine ⟨_, heq', ?_⟩
  have hopen := lenient_openSection noted c (levelRead level c) p (effectiveLevel level c)
  rw [heq]
  by_cases hc : c.attributes.getInt? levelAttribute = none
  · rw [if_pos ⟨hc, hs⟩]
    rw [if_pos hc] at hnoted
    show (Builder.openSection noted.lenient _ _ _ _).internals.head? = _
    rw [← hopen]
    show (Builder.openSection noted _ _ _ _).internals.head? = _
    rw [hopened, hnoted]
    rfl
  · rw [if_neg fun h => hc h.1]
    rw [if_neg hc] at hnoted
    exact ⟨hopen.symm, (openSection_strictness _ _ _ _ _).trans hs, hopened.trans hnoted⟩

/-- A heading of the outline starts a section, if it is not the exit of one. -/
theorem accept_start {b : Builder} (ho : b.openHeading = none) {c : Call}
    (hh : isOutlineHeading c = true) (hc : c.state = .enter ∨ c.state = .special)
    (next : Option Call) :
    b.accept c next = ((b.noteEnd c).startSection c).map fun b => (b, false) := by
  unfold accept
  simp only [noteEnd_openHeading, ho, hh, ↓reduceIte]
  rcases hc with hc | hc <;> rw [hc]

theorem accept_stray {b : Builder} (ho : b.openHeading = none) {c : Call}
    (hh : isOutlineHeading c = true) (h1 : c.state ≠ .enter) (h2 : c.state ≠ .special)
    (next : Option Call) :
    b.accept c next = ((b.noteEnd c).internal .strayHeadingExit c.startPos).map
      fun b => (b.pushContent c, false) := by
  unfold accept
  simp only [noteEnd_openHeading, ho, hh, ↓reduceIte]

/-- All other calls are taken without a finding, by either build alike. -/
theorem accept_plain {b : Builder} {c : Call}
    (hc : b.openHeading ≠ none ∨ isOutlineHeading c = false) (next : Option Call) :
    ∃ b' both, b.accept c next = .ok (b', both) ∧
      b.lenient.accept c next = .ok (b'.lenient, both) ∧
      b'.strictness = b.strictness ∧ b'.diagnostics = b.diagnostics := by
  have hs := noteEnd_strictness b c
  have hd := noteEnd_diagnostics b c
  unfold accept
  rw [← lenient_noteEnd]
  have hopen : (b.noteEnd c).lenient.openHeading = b.openHeading := noteEnd_openHeading b c
  have habsorbing : (b.noteEnd c).lenient.absorbing = b.absorbing := noteEnd_absorbing b c
  simp only [hopen, habsorbing, noteEnd_openHeading, noteEnd_absorbing]
  cases ho : b.openHeading with
  | some h =>
    refine ⟨_, _, rfl, ?_, ?_, ?_⟩
    · rw [lenient_acceptInHeading]
    · rw [acceptInHeading_strictness, hs]
    · rw [acceptInHeading_diagnostics, hd]
  | none =>
    have hh : isOutlineHeading c = false := hc.resolve_left fun h => h ho
    simp only [hh, Bool.false_eq_true, ↓reduceIte]
    split
    · split
      · split
        · exact ⟨_, _, rfl, rfl, hs, hd⟩
        · exact ⟨_, _, rfl, rfl, hs, hd⟩
      · exact ⟨_, _, rfl, rfl, hs, hd⟩
    · exact ⟨_, _, rfl, rfl, hs, hd⟩

/-- **What becomes of a call**: the lenient build takes it as the strict one does, or
notes what ends the strict one. -/
theorem accept_agrees {heads : List Call} {b : Builder} (hb : Sound heads b)
    (hs : b.strictness = .strict) (hi : b.internals = []) (c : Call) (next : Option Call) :
    ∃ b' both, b.lenient.accept c next = .ok (b', both) ∧
      match b.accept c next with
      | .ok (b₁, both₁) => both₁ = both ∧ Agrees (.ok b₁) b'
      | .error d => Agrees (.error d) b' := by
  have hs' : (b.noteEnd c).strictness = .strict := (noteEnd_strictness b c).trans hs
  have hi' : (b.noteEnd c).internals = [] := by
    rw [internals, noteEnd_diagnostics]
    exact hi
  by_cases hc : b.openHeading ≠ none ∨ isOutlineHeading c = false
  · obtain ⟨b₁, both, hok, hok', h1, h2⟩ := accept_plain hc next
    refine ⟨_, _, hok', ?_⟩
    rw [hok]
    refine ⟨rfl, rfl, h1.trans hs, ?_⟩
    rw [internals, h2]
    exact hi
  · simp only [ne_eq, not_or, not_not, Bool.not_eq_false] at hc
    obtain ⟨ho, hh⟩ := hc
    have ho' : b.lenient.openHeading = none := ho
    by_cases hstate : c.state = .enter ∨ c.state = .special
    · obtain ⟨b', hok, hagrees⟩ := startSection_agrees (hb.noteEnd c) hs' hi' c
      rw [accept_start ho hh hstate, accept_start ho' hh hstate, ← lenient_noteEnd, hok]
      refine ⟨b', false, rfl, ?_⟩
      cases hstart : (b.noteEnd c).startSection c with
      | error d =>
        rw [hstart] at hagrees
        exact hagrees
      | ok b₁ =>
        rw [hstart] at hagrees
        exact ⟨rfl, hagrees⟩
    · obtain ⟨h1, h2⟩ := not_or.mp hstate
      rw [accept_stray ho hh h1 h2, accept_stray ho' hh h1 h2, ← lenient_noteEnd,
        internal_eq_error.mpr ⟨hs', rfl⟩, internal_eq_ok.mpr ⟨rfl, rfl⟩]
      refine ⟨_, _, rfl, ?_⟩
      show (List.filter _ ((b.noteEnd c).diagnostics ++ [_])).head? = _
      rw [List.filter_append]
      show ((b.noteEnd c).internals ++ _).head? = _
      rw [hi']
      rfl

/-! ### Whole builds -/

theorem accept_sound {heads : List Call} {b b' : Builder} (hb : Sound heads b) {c : Call}
    {rest : List Call} {both : Bool} (h : b.accept c rest.head? = .ok (b', both)) :
    (∃ heads', Sound heads' b') ∧ b'.strictness = b.strictness := by
  rcases accept_step h with ⟨-, hs⟩ | ⟨-, n, rest', -, hs⟩
  · exact ⟨⟨_, (hs.sound hb).1⟩, hs.strictness hb⟩
  · exact ⟨⟨_, (hs.sound hb).1⟩, hs.strictness hb⟩

/-- **What becomes of calls**: as long as the strict build goes on, the lenient one is
at the same place; when it ends, the lenient one takes the rest by itself. -/
theorem acceptAll_agrees : ∀ (calls : List Call) {heads : List Call} {b : Builder},
    Sound heads b → b.strictness = .strict → b.internals = [] →
    ∃ b', acceptAll calls b.lenient = .ok b' ∧ Agrees (acceptAll calls b) b'
  | [], _, _, _, hs, hi => ⟨_, rfl, rfl, hs, hi⟩
  | c :: rest, _, b, hb, hs, hi => by
    obtain ⟨b', both, hok, hagrees⟩ := accept_agrees hb hs hi c rest.head?
    obtain ⟨⟨heads', hb'⟩, hl⟩ := accept_sound hb.lenient hok
    rw [acceptAll_cons, acceptAll_cons, hok]
    cases haccept : b.accept c rest.head? with
    | error d =>
      rw [haccept] at hagrees
      have hrest : ∀ calls, ∃ b'', acceptAll calls b' = .ok b'' ∧ b''.internals.head? = some d :=
        fun calls => by
          obtain ⟨b'', ha, hp, -⟩ := acceptAll_lenient hb' hl calls
          exact ⟨b'', ha, head?_internals_of_keeps hp hagrees⟩
      cases both with
      | true => exact hrest rest.tail
      | false => exact hrest rest
    | ok r =>
      obtain ⟨b₁, both₁⟩ := r
      rw [haccept] at hagrees
      obtain ⟨rfl, rfl, hs₁, hi₁⟩ := hagrees
      obtain ⟨⟨heads₁, hb₁⟩, -⟩ := accept_sound hb haccept
      cases both₁ with
      | true => exact acceptAll_agrees rest.tail hb₁ hs₁ hi₁
      | false => exact acceptAll_agrees rest hb₁ hs₁ hi₁
  termination_by calls => calls.length
  decreasing_by all_goals simp

/-- Nothing is open at the end of a build, or the end is an internal finding. -/
theorem finish_agrees {b : Builder} (hs : b.strictness = .strict) (hi : b.internals = []) :
    ∃ b', b.lenient.finish = .ok b' ∧ Agrees b.finish b' := by
  have hopen : b.lenient.openHeading = b.openHeading := rfl
  have hget : b.lenient.get b.lenient.current = b.get b.current := rfl
  unfold finish
  rw [hopen, hget]
  cases b.openHeading with
  | none => exact ⟨_, rfl, rfl, hs, hi⟩
  | some h =>
    have hs' : ({ b with openHeading := none } : Builder).strictness = .strict := hs
    simp only [internal_eq_error.mpr ⟨hs', rfl⟩]
    refine ⟨_, rfl, ?_⟩
    show (List.filter _ (b.diagnostics ++ [_])).head? = _
    rw [List.filter_append]
    show (b.internals ++ _).head? = _
    rw [hi]
    rfl

/-- A lenient build comes to its end. -/
theorem finish_lenient {b : Builder} (hs : b.strictness = .lenient) :
    ∃ b', b.finish = .ok b' ∧ b.diagnostics <+: b'.diagnostics := by
  unfold finish
  cases b.openHeading with
  | none => exact ⟨_, rfl, List.prefix_refl _⟩
  | some h =>
    have hs' : ({ b with openHeading := none } : Builder).strictness = .lenient := hs
    simp only [internal_eq_ok.mpr ⟨hs', rfl⟩]
    exact ⟨_, rfl, List.prefix_append _ _⟩

end Builder

open Builder

theorem buildSections_agrees (calls : List Call) :
    ∃ b', buildSections .lenient calls = .ok b' ∧ Agrees (buildSections .strict calls) b' := by
  obtain ⟨b₁, hok, hagrees⟩ := acceptAll_agrees calls (sound_init .strict) rfl rfl
  obtain ⟨b₂, hok', -, hl⟩ := acceptAll_lenient (sound_init .lenient) rfl calls
  have hinit : ({ strictness := .strict } : Builder).lenient = { strictness := .lenient } := rfl
  rw [hinit] at hok
  obtain rfl : b₁ = b₂ := Except.ok.inj (hok.symm.trans hok')
  unfold buildSections
  rw [hok]
  cases ha : acceptAll calls { strictness := .strict } with
  | ok b =>
    rw [ha] at hagrees
    obtain ⟨rfl, hs, hi⟩ := hagrees
    exact finish_agrees hs hi
  | error d =>
    rw [ha] at hagrees
    obtain ⟨b', hf, hp⟩ := finish_lenient hl
    exact ⟨b', hf, head?_internals_of_keeps hp hagrees⟩

theorem recordTitle_keeps (sink : Option (MetadataSink σ)) (b : Builder) (s : σ) :
    b.diagnostics <+: (recordTitle sink b s).1.diagnostics := by
  rcases (recordTitle_eq sink b s).2 with h | ⟨reason, h⟩
  · rw [h]
  · rw [h]
    exact List.prefix_append _ _

/-- What is told to the sink does not depend on the strictness, and nothing internal is
found there. -/
theorem recordTitle_lenient (sink : Option (MetadataSink σ)) (b : Builder) (s : σ) :
    recordTitle sink b.lenient s =
        ((recordTitle sink b s).1.lenient, (recordTitle sink b s).2) ∧
      (recordTitle sink b s).1.internals = b.internals := by
  have htitle : b.lenient.title? = b.title? := rfl
  unfold recordTitle
  rw [htitle]
  split
  · split
    · exact ⟨rfl, rfl⟩
    · refine ⟨rfl, ?_⟩
      show List.filter _ (b.diagnostics ++ [_]) = _
      rw [List.filter_append]
      exact List.append_nil _
  · exact ⟨rfl, rfl⟩

/-- **Strict and lenient builds agree.**  A lenient build always succeeds.  The strict
one succeeds just when the lenient one has noted no internal finding, and then both
give the same outline and leave the sink in the same state.  When the strict one fails,
it is with the first internal finding that the lenient one has noted, and the state of its
sink, which may record all that it is told, is as it was. -/
theorem builds_agree (sink : Option (MetadataSink σ)) (calls : List Call) (s : σ) :
    ∃ o s', buildWith .lenient sink calls s = .ok (o, s') ∧
      ((∃ r, buildWith .strict sink calls s = .ok r) ↔
        ∀ d ∈ o.diagnostics, d.kind ≠ .internal) ∧
      (∀ r, buildWith .strict sink calls s = .ok r → r = (o, s')) ∧
      ∀ failure, buildWith .strict sink calls s = .error failure →
        o.diagnostics.find? Diagnostic.isInternal = some failure.toDiagnostic ∧
          failure.sinkState = s := by
  obtain ⟨b', hok, hagrees⟩ := buildSections_agrees calls
  have hlenient := buildWith_of_ok hok sink s
  have hnone : ∀ ds : List Diagnostic, ds.filter Diagnostic.isInternal = [] ↔
      ∀ d ∈ ds, d.kind ≠ .internal := fun ds => by
    simp only [List.filter_eq_nil_iff, Diagnostic.isInternal_iff, ne_eq]
  refine ⟨_, _, hlenient, ?_⟩
  cases hb : buildSections .strict calls with
  | ok b =>
    rw [hb] at hagrees
    obtain ⟨rfl, -, hi⟩ := hagrees
    obtain ⟨htold, hinternals⟩ := recordTitle_lenient sink b s
    have hstrict : buildWith .strict sink calls s = buildWith .lenient sink calls s := by
      rw [hlenient, htold]
      exact buildWith_of_ok hb sink s
    rw [hstrict, hlenient]
    refine ⟨⟨fun _ => ?_, fun _ => ⟨_, rfl⟩⟩, fun r hr => (Except.ok.inj hr).symm,
      fun d hd => by cases hd⟩
    rw [← hnone, htold]
    exact hinternals.trans hi
  | error d =>
    rw [hb] at hagrees
    have hstrict := buildWith_of_error hb sink s
    have hfound : (recordTitle sink b' s).1.diagnostics.find? Diagnostic.isInternal = some d := by
      rw [← List.head?_filter]
      exact head?_internals_of_keeps (recordTitle_keeps sink b' s) hagrees
    rw [hstrict]
    refine ⟨⟨fun hr => ?_, fun hno => ?_⟩, fun r hr => ?_, fun e he => ?_⟩
    · obtain ⟨r, hr⟩ := hr
      cases hr
    · have hd := List.find?_some hfound
      rw [Diagnostic.isInternal_iff] at hd
      exact absurd hd (hno d (List.mem_of_find?_eq_some hfound))
    · cases hr
    · obtain rfl := Except.error.inj he
      exact ⟨hfound, rfl⟩

end Outline

end WikiOutline
