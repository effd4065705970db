/-
# What a build can do with a call

A build takes a page call by call, at one place two at once.  `Step` says what it
can do with what comes next, `Run` what a build has become behind some of the
calls.  Every build is a run that takes all calls, or one that stops at a call
with an internal finding (`acceptAll_spec`); so what every step keeps, every build
keeps (`Run.keeps`).  And a run that takes all calls is a build (`Run.acceptAll_eq`).

Key definitions: `Builder.Step`, `Builder.Run`.
Key theorems: `Builder.accept_step`, `Builder.acceptAll_spec`, `Builder.Run.keeps`,
`Builder.Run.acceptAll_eq`.
-/
import Mathlib
import WikiOutline.Outline.Builder

namespace WikiOutline

namespace Outline

namespace Builder

/-- From `b`, with `taken ++ rest` to come, a build takes `taken` and becomes the
last one. -/
inductive Step : Builder → List Call → List Call → Builder → Prop
  | inHeading {b : Builder} {h : OpenHeading} {c : Call} {rest : List Call} :
    b.openHeading = some h → Step b [c] rest ((b.noteEnd c).acceptInHeading h c)
  | start {b b' : Builder} {c : Call} {rest : List Call} :
    b.openHeading = none → isOutlineHeading c = true → c.state = .enter ∨ c.state = .special →
    (b.noteEnd c).startSection c = .ok b' → Step b [c] rest b'
  | stray {b : Builder} {c : Call} {rest : List Call} :
    b.openHeading = none → isOutlineHeading c = true → c.state ≠ .enter → c.state ≠ .special →
    b.strictness = .lenient →
    Step b [c] rest (((b.noteEnd c).warn .strayHeadingExit c.startPos).pushContent c)
  | fold {b : Builder} {c : Call} {rest : List Call} :
    b.openHeading = none → isOutlineHeading c = false → b.absorbing = true →
    c.tag.isParagraph = true → c.isExit = true →
    Step b [c] rest ((b.noteEnd c).endAbsorbing.pushHeading c)
  | foldPair {b : Builder} {c n : Call} {rest : List Call} :
    b.openHeading = none → isOutlineHeading c = false → b.absorbing = true →
    c.tag.isParagraph = true → c.isEnter = true → n.tag.isParagraph = true → n.isExit = true →
    Step b [c, n] rest (((b.noteEnd c).endAbsorbing.pushHeading c).pushHeading n)
  | content {b : Builder} {c : Call} {rest : List Call} :
    b.openHeading = none → isOutlineHeading c = false →
    (b.absorbing && absorbs c rest.head?) = false →
    Step b [c] rest ((b.noteEnd c).endAbsorbing.pushContent c)

/-- From `b`, with the first calls to come, a build gets to the last one, with the
second calls to come. -/
inductive Run : Builder → List Call → List Call → Builder → Prop
  | refl {b : Builder} {calls : List Call} : Run b calls calls b
  | step {b b₁ b' : Builder} {taken calls rest : List Call} :
    Step b taken calls b₁ → Run b₁ calls rest b' → Run b (taken ++ calls) rest b'

/-- What every step keeps, every run keeps. -/
theorem Run.keeps {P : Builder → List Call → Prop}
    (hP : ∀ {b b' : Builder} {taken rest : List Call}, Step b taken rest b' →
      P b (taken ++ rest) → P b' rest)
    {b b' : Builder} {calls rest : List Call} (h : Run b calls rest b') (hb : P b calls) :
    P b' rest := by
  induction h with
  | refl => exact hb
  | step hs _ ih => exact ih (hP hs hb)

/-! ### Every build is a run -/

@[simp] theorem noteEnd_openHeading (b : Builder) (c : Call) :
    (b.noteEnd c).openHeading = b.openHeading := by
  unfold noteEnd
  split <;> rfl

@[simp] theorem noteEnd_absorbing (b : Builder) (c : Call) :
    (b.noteEnd c).absorbing = b.absorbing := by
  unfold noteEnd
  split <;> rfl

@[simp] theorem noteEnd_strictness (b : Builder) (c : Call) :
    (b.noteEnd c).strictness = b.strictness := by
  unfold noteEnd
  split <;> rfl

@[simp] theorem noteEnd_sections (b : Builder) (c : Call) :
    (b.noteEnd c).sections = b.sections := by
  unfold noteEnd
  split <;> rfl

@[simp] theorem noteEnd_current (b : Builder) (c : Call) :
    (b.noteEnd c).current = b.current := by
  unfold noteEnd
  split <;> rfl

@[simp] theorem noteEnd_diagnostics (b : Builder) (c : Call) :
    (b.noteEnd c).diagnostics = b.diagnostics := by
  unfold noteEnd
  split <;> rfl

theorem internal_eq_ok {b b' : Builder} {f : Finding} {p : Option Nat} :
    b.internal f p = .ok b' ↔ b.strictness = .lenient ∧ b.warn f p = b' := by
  unfold internal
  cases b.strictness <;> simp

theorem internal_eq_error {b : Builder} {f : Finding} {p : Option Nat} {d : Diagnostic} :
    b.internal f p = .error d ↔ b.strictness = .strict ∧ d = ⟨f, p⟩ := by
  unfold internal
  cases b.strictness <;> simp [eq_comm]

theorem map_eq_ok {ε α β : Type} {f : α → β} {x : Except ε α} {y : β} (h : x.map f = .ok y) :
    ∃ a, x = .ok a ∧ f a = y := by
  cases x with
  | error e => cases h
  | ok a => exact ⟨a, rfl, by cases h; rfl⟩

theorem map_eq_error {ε α β : Type} {f : α → β} {x : Except ε α} {e : ε} (h : x.map f = .error e) :
    x = .error e := by
  cases x with
  | error e' => cases h; rfl
  | ok a => cases h

/-- A paragraph taken into a heading exits, or enters just before one that exits. -/
theorem absorbs_cases {c : Call} {next : Option Call} (h : absorbs c next = true) :
    c.tag.isParagraph = true ∧ (c.isExit = true ∨ c.isEnter = true ∧
      ∃ n, next = some n ∧ n.tag.isParagraph = true ∧ n.isExit = true) := by
  simp only [absorbs, Bool.and_eq_true, Bool.or_eq_true] at h
  refine ⟨h.1, h.2.imp_right fun hn => ⟨hn.1, ?_⟩⟩
  obtain ⟨n, rfl, hn'⟩ := (Option.any_eq_true _ _).mp hn.2
  refine ⟨n, rfl, ?_⟩
  simpa using hn'

/-- What accepting a call does is a step. -/
theorem accept_step {b b' : Builder} {c : Call} {rest : List Call} {both : Bool}
    (h : b.accept c rest.head? = .ok (b', both)) :
    (both = false ∧ Step b [c] rest b') ∨
      (both = true ∧ ∃ n rest', rest = n :: rest' ∧ Step b [c, n] rest' b') := by
  unfold accept at h
  simp only [noteEnd_openHeading, noteEnd_absorbing] at h
  cases hh : b.openHeading with
  | some o =>
    simp only [hh, Except.ok.injEq, Prod.mk.injEq] at h
    obtain ⟨rfl, rfl⟩ := h
    exact .inl ⟨rfl, .inHeading hh⟩
  | none =>
    simp only [hh] at h
    by_cases ho : isOutlineHeading c = true
    · rw [if_pos ho] at h
      left
      split at h
      · rename_i hc
        obtain ⟨b₁, hb, he⟩ := map_eq_ok h
        cases he
        exact ⟨rfl, .start hh ho (.inl hc) hb⟩
      · rename_i hc
        obtain ⟨b₁, hb, he⟩ := map_eq_ok h
        cases he
        exact ⟨rfl, .start hh ho (.inr hc) hb⟩
      · rename_i he hs
        obtain ⟨b₁, hb, hp⟩ := map_eq_ok h
        obtain ⟨hl, rfl⟩ := internal_eq_ok.mp hb
        cases hp
        exact ⟨rfl, .stray hh ho he hs (by simpa using hl)⟩
    · have ho : isOutlineHeading c = false := by simpa using ho
      rw [ho] at h
      simp only [Bool.false_eq_true, ↓reduceIte] at h
      by_cases ha : (b.absorbing && absorbs c rest.head?) = true
      · rw [if_pos ha] at h
        simp only [Bool.and_eq_true] at ha
        obtain ⟨hp, hx⟩ := absorbs_cases ha.2
        by_cases he : c.isEnter = true
        · have hne : ¬ c.isExit = true := fun hc => by
            rw [Call.isEnter, eq_of_beq (show (c.state == .exit) = true from hc)] at he
            cases he
          obtain ⟨-, n, hn, hnp, hnx⟩ := hx.resolve_left hne
          right
          obtain ⟨rest', rfl⟩ := List.head?_eq_some_iff.mp hn
          simp only [List.head?_cons, he, ↓reduceIte, Except.ok.injEq, Prod.mk.injEq] at h
          obtain ⟨rfl, rfl⟩ := h
          exact ⟨rfl, n, rest', rfl, .foldPair hh ho ha.1 hp he hnp hnx⟩
        · have hc : c.isExit = true := hx.resolve_right fun hc => he hc.1
          left
          split at h
          · simp only [he, Bool.false_eq_true, ↓reduceIte, Except.ok.injEq, Prod.mk.injEq] at h
            obtain ⟨rfl, rfl⟩ := h
            exact ⟨rfl, .fold hh ho ha.1 hp hc⟩
          · simp only [Except.ok.injEq, Prod.mk.injEq] at h
            obtain ⟨rfl, rfl⟩ := h
            exact ⟨rfl, .fold hh ho ha.1 hp hc⟩
      · rw [if_neg ha] at h
        simp only [Except.ok.injEq, Prod.mk.injEq] at h
        obtain ⟨rfl, rfl⟩ := h
        exact .inl ⟨rfl, .content hh ho (by simpa using ha)⟩

/-- A call is refused where its section cannot start, or as the exit of a heading
that is not open. -/
theorem accept_error {b : Builder} {c : Call} {next : Option Call} {d : Diagnostic}
    (h : b.accept c next = .error d) :
    b.openHeading = none ∧
      ((b.noteEnd c).startSection c = .error d ∨
        b.strictness = .strict ∧ d = ⟨.strayHeadingExit, c.startPos⟩) := by
  unfold accept at h
  simp only [noteEnd_openHeading, noteEnd_absorbing] at h
  cases hh : b.openHeading with
  | some o =>
    rw [hh] at h
    cases h
  | none =>
    refine ⟨rfl, ?_⟩
    simp only [hh] at h
    split at h
    · split at h
      · exact .inl (map_eq_error h)
      · exact .inl (map_eq_error h)
      · obtain ⟨hs, rfl⟩ := internal_eq_error.mp (map_eq_error h)
        exact .inr ⟨by simpa using hs, rfl⟩
    · split at h
      · split at h
        · split at h <;> cases h
        · cases h
      · cases h

/-- The last call of a page is taken like any other. -/
theorem acceptAll_cons (b : Builder) (c : Call) (rest : List Call) :
    acceptAll (c :: rest) b =
      match b.accept c rest.head? with
      | .error d => .error d
      | .ok (b', both) => if both then acceptAll rest.tail b' else acceptAll rest b' := by
  cases rest with
  | nil =>
    simp only [acceptAll, List.head?_nil, List.tail_nil, ite_self]
    cases b.accept c none <;> rfl
  | cons n rest =>
    simp only [acceptAll, List.head?_cons, List.tail_cons]
    cases b.accept c (some n) <;> rfl

/-- A build takes all calls, or it stops at one of them. -/
theorem acceptAll_spec : ∀ (calls : List Call) (b : Builder),
    (∃ b', acceptAll calls b = .ok b' ∧ Run b calls [] b') ∨
      ∃ d b₁ c rest, acceptAll calls b = .error d ∧ Run b calls (c :: rest) b₁ ∧
        b₁.accept c rest.head? = .error d
  | [], b => .inl ⟨b, rfl, .refl⟩
  | c :: rest, b => by
    rw [acceptAll_cons]
    -- the step may take the next call too, so the recursion is on the number of calls
    cases h : b.accept c rest.head? with
    | error d => exact .inr ⟨d, b, c, rest, rfl, .refl, h⟩
    | ok r =>
      obtain ⟨b₁, both⟩ := r
      rcases accept_step h with ⟨rfl, hs⟩ | ⟨rfl, n, rest', rfl, hs⟩
      · rcases acceptAll_spec rest b₁ with ⟨b', ha, hr⟩ | ⟨d, b₂, c', rest', ha, hr, he⟩
        · exact .inl ⟨b', ha, .step hs hr⟩
        · exact .inr ⟨d, b₂, c', rest', ha, .step hs hr, he⟩
      · rcases acceptAll_spec rest' b₁ with ⟨b', ha, hr⟩ | ⟨d, b₂, c', rest'', ha, hr, he⟩
        · exact .inl ⟨b', ha, .step hs hr⟩
        · exact .inr ⟨d, b₂, c', rest'', ha, .step hs hr, he⟩
  termination_by calls => calls.length
  decreasing_by all_goals simp_wf <;> simp_all

theorem acceptAll_run {calls : List Call} {b b' : Builder} (h : acceptAll calls b = .ok b') :
    Run b calls [] b' := by
  rcases acceptAll_spec calls b with ⟨b₁, h₁, hr⟩ | ⟨d, b₁, c, rest, h₁, -, -⟩
  · rw [h] at h₁
    cases h₁
    exact hr
  · rw [h] at h₁
    cases h₁

/-! ### Every run is a build -/

/-- A step is what accepting its first call does. -/
theorem Step.accept_eq {b b' : Builder} {taken rest : List Call} (h : Step b taken rest b') :
    (∃ c, taken = [c] ∧ b.accept c rest.head? = .ok (b', false)) ∨
      ∃ c n, taken = [c, n] ∧ b.accept c (some n) = .ok (b', true) := by
  cases h with
  | @inHeading h c _ ho =>
    refine .inl ⟨c, rfl, ?_⟩
    unfold accept
    simp only [noteEnd_openHeading, ho]
  | @start _ c _ ho hh hs heq =>
    refine .inl ⟨c, rfl, ?_⟩
    unfold accept
    simp only [noteEnd_openHeading, ho, hh, ↓reduceIte, heq]
    rcases hs with hs | hs <;> rw [hs] <;> rfl
  | @stray c _ ho hh h1 h2 hl =>
    refine .inl ⟨c, rfl, ?_⟩
    have hinternal : (b.noteEnd c).internal .strayHeadingExit c.startPos =
        .ok ((b.noteEnd c).warn .strayHeadingExit c.startPos) :=
      internal_eq_ok.mpr ⟨(noteEnd_strictness b c).trans hl, rfl⟩
    unfold accept
    simp only [noteEnd_openHeading, ho, hh, ↓reduceIte, hinternal]
    cases hs : c.state with
    | enter => exact absurd hs h1
    | special => exact absurd hs h2
    | exit | unmatched => rfl
  | @fold c _ ho hh ha hp hx =>
    refine .inl ⟨c, rfl, ?_⟩
    have hne : c.isEnter = false := by
      rw [Call.isEnter, eq_of_beq (show (c.state == .exit) = true from hx)]
      rfl
    unfold accept
    simp only [noteEnd_openHeading, noteEnd_absorbing, ho, hh, ha, absorbs, hp, hx, hne]
    cases rest <;> rfl
  | @foldPair c n _ ho hh ha hp he hnp hnx =>
    refine .inr ⟨c, n, rfl, ?_⟩
    have habsorbs : absorbs c (some n) = true := by simp [absorbs, hp, he, hnp, hnx]
    unfold accept
    simp only [noteEnd_openHeading, noteEnd_absorbing, ho, hh, ha, habsorbs, he]
    rfl
  | @content c _ ho hh ha =>
    refine .inl ⟨c, rfl, ?_⟩
    unfold accept
    simp only [noteEnd_openHeading, noteEnd_absorbing, ho, hh, ha]
    rfl

/-- What a step has taken need not be taken again. -/
theorem Step.acceptAll_eq {b b' : Builder} {taken rest : List Call} (h : Step b taken rest b') :
    acceptAll (taken ++ rest) b = acceptAll rest b' := by
  rcases h.accept_eq with ⟨c, rfl, ha⟩ | ⟨c, n, rfl, ha⟩
  · rw [List.cons_append, List.nil_append, acceptAll_cons, ha]
    rfl
  · rw [List.cons_append, List.cons_append, List.nil_append, acceptAll_cons, List.head?_cons, ha]
    rfl

/-- A run that takes all calls is a build. -/
theorem Run.acceptAll_eq {b b' : Builder} {calls rest : List Call} (h : Run b calls rest b') :
    acceptAll calls b = acceptAll rest b' := by
  induction h with
  | refl => rfl
  | step hs _ ih => rw [hs.acceptAll_eq, ih]

end Builder

end Outline

end WikiOutline
