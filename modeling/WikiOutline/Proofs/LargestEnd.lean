/-
# The largest end of a page

A build notes the end of every call that it takes by itself.  The exit of a paragraph that is
taken into a heading along with its enter is not looked at (`Trail.Overlooks`), so what an
outline has for the largest end is the largest one of all the other calls
(`largest_end_exact`).  It is the largest of the page just when none of those exits ends
behind all the others.

A step notes its first call (`Builder.Step.heeds`), so what was noted so far and what is to
come have the same largest end all along (`Builder.Run.largestEnd`).

Key definitions: `Trail.heeded`, `Trail.overlooked`, `Trail.Overlooks`, `Outline.endsOf`,
`Outline.IsLargest`.
Key theorems: `Trail.mem_overlooked_iff`, `Builder.Run.largestEnd`,
`Outline.largest_end_exact`.
-/
import WikiOutline.Proofs.Composition
import WikiOutline.Proofs.LenientOrder

namespace WikiOutline

namespace Outline

open Builder Reading

/-! ### The calls that are looked at -/

namespace Trail

/-- With a call that enters a paragraph the next one is taken, which exits it. -/
def pairs (t : Trail) (c : Call) (next : Option Call) : Bool :=
  t.absorbing && c.isEnter && absorbs c next

/-- The calls that a build looks at one by one. -/
def heeded : Trail → List Call → List Call
  | _, [] => []
  | t, c :: cs =>
    match t.pairs c cs.head?, cs with
    | true, n :: rest => c :: heeded ((t.after c).after n) rest
    | _, cs => c :: heeded (t.after c) cs

/-- The calls that are taken along with the ones before them. -/
def overlooked : Trail → List Call → List Call
  | _, [] => []
  | t, c :: cs =>
    match t.pairs c cs.head?, cs with
    | true, n :: rest => n :: overlooked ((t.after c).after n) rest
    | _, cs => overlooked (t.after c) cs

/-- Somewhere in the page a heading can take a paragraph, which enters, and the call exits it
at once. -/
def Overlooks (t : Trail) (cs : List Call) (n : Call) : Prop :=
  ∃ before enter behind, cs = before ++ enter :: n :: behind ∧
    (before.foldl after t).absorbing = true ∧ enter.tag.isParagraph = true ∧
    enter.isEnter = true ∧ n.tag.isParagraph = true ∧ n.isExit = true

variable {t : Trail} {c n : Call} {cs rest : List Call}

theorem pairs_iff : t.pairs c cs.head? = true ↔ t.absorbing = true ∧ c.tag.isParagraph = true ∧
    c.isEnter = true ∧ ∃ n rest, cs = n :: rest ∧ n.tag.isParagraph = true ∧ n.isExit = true := by
  constructor
  · intro h
    simp only [pairs, Bool.and_eq_true] at h
    obtain ⟨⟨ha, he⟩, habsorbs⟩ := h
    obtain ⟨hp, hx | ⟨-, n, hn, hnp, hnx⟩⟩ := absorbs_cases habsorbs
    · rw [Call.isEnter, eq_of_beq (show (c.state == .exit) = true from hx)] at he
      cases he
    · obtain ⟨rest, hcs⟩ := List.head?_eq_some_iff.mp hn
      exact ⟨ha, hp, he, n, rest, hcs, hnp, hnx⟩
  · rintro ⟨ha, hp, he, n, rest, rfl, hnp, hnx⟩
    simp [pairs, absorbs, ha, hp, he, hnp, hnx]

theorem heeded_pair (h : t.pairs c (some n) = true) :
    heeded t (c :: n :: rest) = c :: heeded ((t.after c).after n) rest := by
  conv_lhs => unfold heeded
  rw [List.head?_cons, h]

theorem overlooked_pair (h : t.pairs c (some n) = true) :
    overlooked t (c :: n :: rest) = n :: overlooked ((t.after c).after n) rest := by
  conv_lhs => unfold overlooked
  rw [List.head?_cons, h]

theorem heeded_alone (h : t.pairs c cs.head? = false) :
    heeded t (c :: cs) = c :: heeded (t.after c) cs := by
  conv_lhs => unfold heeded
  rw [h]

theorem overlooked_alone (h : t.pairs c cs.head? = false) :
    overlooked t (c :: cs) = overlooked (t.after c) cs := by
  conv_lhs => unfold overlooked
  rw [h]

/-- A call is looked at, or taken along. -/
theorem perm_heeded : ∀ (cs : List Call) (t : Trail), (heeded t cs ++ overlooked t cs).Perm cs
  | [], _ => .refl _
  | c :: cs, t => by
    -- a pair takes two calls, so the recursion is on the number of calls
    by_cases hpair : t.pairs c cs.head? = true
    · obtain ⟨-, -, -, n, rest, rfl, -, -⟩ := pairs_iff.mp hpair
      rw [heeded_pair hpair, overlooked_pair hpair]
      exact (List.perm_middle.trans ((perm_heeded rest ((t.after c).after n)).cons n)).cons c
    · have halone : t.pairs c cs.head? = false := by simpa using hpair
      rw [heeded_alone halone, overlooked_alone halone]
      exact (perm_heeded cs (t.after c)).cons c
  termination_by cs => cs.length

/-- Such a call comes next but one, or later. -/
theorem overlooks_cons : Overlooks t (c :: cs) n ↔
    (t.pairs c cs.head? = true ∧ ∃ rest, cs = n :: rest) ∨ Overlooks (t.after c) cs n := by
  constructor
  · rintro ⟨before, enter, behind, hcs, ha, hp, he, hnp, hnx⟩
    cases before with
    | nil =>
      obtain ⟨rfl, rfl⟩ := List.cons.inj hcs
      exact .inl ⟨pairs_iff.mpr ⟨ha, hp, he, n, behind, rfl, hnp, hnx⟩, behind, rfl⟩
    | cons d before =>
      obtain ⟨rfl, rfl⟩ := List.cons.inj hcs
      exact .inr ⟨before, enter, behind, rfl, ha, hp, he, hnp, hnx⟩
  · rintro (⟨hpair, rest, rfl⟩ | ⟨before, enter, behind, rfl, h⟩)
    · obtain ⟨ha, hp, he, m, rest', hm, hnp, hnx⟩ := pairs_iff.mp hpair
      obtain ⟨rfl, rfl⟩ := List.cons.inj hm
      exact ⟨[], c, rest, rfl, ha, hp, he, hnp, hnx⟩
    · exact ⟨c :: before, enter, behind, rfl, h⟩

theorem not_overlooks_nil : ¬ Overlooks t [] n := by
  rintro ⟨before, enter, behind, hcs, -⟩
  exact List.append_ne_nil_of_right_ne_nil _ (List.cons_ne_nil _ _) hcs.symm

/-- **The calls that are taken along** are the exits of the paragraphs that are taken at once. -/
theorem mem_overlooked_iff : ∀ {cs : List Call} {t : Trail},
    n ∈ overlooked t cs ↔ Overlooks t cs n
  | [], _ => by
    rw [overlooked]
    exact ⟨fun h => absurd h List.not_mem_nil, fun h => absurd h not_overlooks_nil⟩
  | c :: cs, t => by
    rw [overlooks_cons]
    by_cases hpair : t.pairs c cs.head? = true
    · obtain ⟨-, -, -, m, rest, rfl, -, hmx⟩ := pairs_iff.mp hpair
      -- behind the enter comes the exit, which begins no pair
      have hexit : (t.after c).pairs m rest.head? = false := by
        rw [pairs, Call.isEnter, eq_of_beq (show (m.state == .exit) = true from hmx)]
        simp
      rw [overlooked_pair hpair, List.mem_cons, mem_overlooked_iff, overlooks_cons, hexit]
      constructor
      · rintro (rfl | hlater)
        · exact .inl ⟨hpair, rest, rfl⟩
        · exact .inr (.inr hlater)
      · rintro (⟨-, rest', hn⟩ | ⟨hno, -⟩ | hlater)
        · exact .inl (List.cons.inj hn).1.symm
        · cases hno
        · exact .inr hlater
    · have halone : t.pairs c cs.head? = false := by simpa using hpair
      rw [overlooked_alone halone, mem_overlooked_iff]
      simp [halone]
  termination_by cs => cs.length

end Trail

/-! ### The largest of some ends -/

/-- The ends of some calls. -/
def endsOf (cs : List Call) : Set Nat := {e | ∃ c ∈ cs, c.endPos = some e}

/-- It is the largest of some positions; there is none just when there are no positions. -/
def IsLargest (m : Option Nat) (positions : Set Nat) : Prop :=
  match m with
  | some e => IsGreatest positions e
  | none => positions = ∅

/-- The largest end of some calls. -/
def largestEnd : List Call → Option Nat
  | [] => none
  | c :: cs => max c.endPos (largestEnd cs)

theorem endsOf_cons (c : Call) (cs : List Call) :
    endsOf (c :: cs) = {e | c.endPos = some e} ∪ endsOf cs := by
  ext e
  simp [endsOf]

theorem endsOf_append (cs ds : List Call) : endsOf (cs ++ ds) = endsOf cs ∪ endsOf ds := by
  ext e
  simp only [endsOf, Set.mem_ofPred_eq, Set.mem_union, List.mem_append, or_and_right, exists_or]

theorem endsOf_congr {cs ds : List Call} (h : cs.Perm ds) : endsOf cs = endsOf ds := by
  ext e
  simp only [endsOf, Set.mem_ofPred_eq, h.mem_iff]

/-- The larger one of two largest positions. -/
theorem IsLargest.max {l m : Option Nat} {es fs : Set Nat} (hl : IsLargest l es)
    (hm : IsLargest m fs) : IsLargest (max l m) (es ∪ fs) := by
  cases l with
  | none =>
    have hes : es = ∅ := hl
    rw [hes, Set.empty_union]
    cases m <;> exact hm
  | some e =>
    cases m with
    | none =>
      have hfs : fs = ∅ := hm
      rw [hfs, Set.union_empty]
      exact hl
    | some f => exact IsGreatest.union hl hm

theorem isLargest_endPos (c : Call) : IsLargest c.endPos {e | c.endPos = some e} := by
  cases hc : c.endPos with
  | none =>
    ext e
    simp
  | some e =>
    refine ⟨rfl, fun e' he' => ?_⟩
    exact (Option.some.inj he').ge

theorem isLargest_largestEnd : ∀ cs : List Call, IsLargest (largestEnd cs) (endsOf cs)
  | [] => by
    ext e
    simp [endsOf]
  | c :: cs => by
    rw [endsOf_cons, largestEnd]
    exact (isLargest_endPos c).max (isLargest_largestEnd cs)

/-- More positions have the same largest one just when none of them is beyond the others. -/
theorem IsLargest.union_iff {m : Option Nat} {es fs : Set Nat} (h : IsLargest m es) :
    IsLargest m (es ∪ fs) ↔ ∀ f ∈ fs, ∃ e ∈ es, f ≤ e := by
  cases m with
  | none =>
    have hes : es = ∅ := h
    rw [hes, Set.empty_union]
    constructor
    · intro hfs f hf
      have hfs : fs = ∅ := hfs
      rw [hfs] at hf
      exact absurd hf (Set.notMem_empty f)
    · intro hfs
      apply Set.eq_empty_of_forall_notMem
      intro f hf
      obtain ⟨e, he, -⟩ := hfs f hf
      exact he
  | some e =>
    constructor
    · intro hboth f hf
      exact ⟨e, h.1, hboth.2 (.inr hf)⟩
    · intro hfs
      refine ⟨.inl h.1, fun x hx => ?_⟩
      rcases hx with hx | hx
      · exact h.2 hx
      · obtain ⟨y, hy, hxy⟩ := hfs x hx
        calc x ≤ y := hxy
          _ ≤ e := h.2 hy

/-! ### What a build notes -/

namespace Builder

variable {heads : List Call} {b b' : Builder} {t : Trail} {strays taken rest : List Call}

theorem acceptInHeading_maxEndPos (b : Builder) (h : OpenHeading) (c : Call) :
    (b.acceptInHeading h c).maxEndPos = b.maxEndPos := by
  unfold acceptInHeading
  simp only
  split <;> rfl

theorem startSection_maxEndPos (hb : Sound heads b) {c : Call} (h : b.startSection c = .ok b') :
    b'.maxEndPos = b.maxEndPos := by
  obtain ⟨p, -, heq⟩ := startSection_eq hb c
  rw [h] at heq
  split at heq
  · cases heq
  · cases heq
    rw [openSection_maxEndPos]

/-- What is no paragraph does not take the next call along. -/
theorem pairs_of_outlineHeading {c : Call} (hh : isOutlineHeading c = true) (next : Option Call) :
    t.pairs c next = false := by
  by_contra hpair
  simp only [Trail.pairs, Bool.not_eq_false, Bool.and_eq_true] at hpair
  rw [isOutlineHeading_of_isParagraph (absorbs_cases hpair.2).1] at hh
  cases hh

/-- **A step looks at the first call that it takes**, and notes its end. -/
theorem Step.heeds (h : Step b taken rest b') (hb : Sound heads b) (hp : Pending b t strays) :
    ∃ c, t.heeded (taken ++ rest) = c :: (taken.foldl Trail.after t).heeded rest ∧
      b'.maxEndPos = max b.maxEndPos c.endPos := by
  cases h with
  | @inHeading o c _ ho =>
    have hd : b.reading.depth ≠ 0 := by
      rw [Builder.reading, ho]
      exact (hb.opened o ho).1
    have hnone : t.absorbing = false := by
      by_contra ha
      exact hd (hp.reading ▸ hp.outside (by simpa using ha))
    refine ⟨c, Trail.heeded_alone (by rw [Trail.pairs, hnone]; rfl), ?_⟩
    rw [acceptInHeading_maxEndPos, noteEnd_maxEndPos]
  | @start _ c _ ho hh hc h =>
    refine ⟨c, Trail.heeded_alone (pairs_of_outlineHeading hh _), ?_⟩
    rw [startSection_maxEndPos (hb.noteEnd c) h, noteEnd_maxEndPos]
  | @stray c _ ho hh h1 h2 _ =>
    exact ⟨c, Trail.heeded_alone (pairs_of_outlineHeading hh _), noteEnd_maxEndPos b c⟩
  | @fold c _ ho hh ha hpar hx =>
    have hne : c.isEnter = false := by
      rw [Call.isEnter, eq_of_beq (show (c.state == .exit) = true from hx)]
      rfl
    refine ⟨c, Trail.heeded_alone ?_, noteEnd_maxEndPos b c⟩
    rw [Trail.pairs, hne, Bool.and_false, Bool.false_and]
  | @foldPair c n _ ho hh ha hpar he hnp hnx =>
    have hpair : t.pairs c (n :: rest).head? = true :=
      Trail.pairs_iff.mpr ⟨(hp.absorbing ho).trans ha, hpar, he, n, rest, rfl, hnp, hnx⟩
    exact ⟨c, Trail.heeded_pair hpair, noteEnd_maxEndPos b c⟩
  | @content c _ ho hh ha =>
    have hnone : t.pairs c rest.head? = false := by
      rw [Trail.pairs, hp.absorbing ho, Bool.and_right_comm, ha, Bool.false_and]
    exact ⟨c, Trail.heeded_alone hnone, noteEnd_maxEndPos b c⟩

/-- **Behind some calls** the ends that were noted and those that are still to be noted have
the largest end of all that are noted. -/
theorem Run.largestEnd {strictness : Strictness} {calls : List Call}
    (h : Run { strictness } calls rest b) :
    ∀ taken, calls = taken ++ rest →
      max b.maxEndPos (largestEnd ((taken.foldl Trail.after {}).heeded rest)) =
        Outline.largestEnd (Trail.heeded {} calls) := by
  refine (h.keeps
    (P := fun b₁ calls₁ => Run { strictness } calls calls₁ b₁ ∧ ∀ taken, calls = taken ++ calls₁ →
      max b₁.maxEndPos (Outline.largestEnd ((taken.foldl Trail.after {}).heeded calls₁)) =
        Outline.largestEnd (Trail.heeded {} calls)) ?_ ⟨.refl, fun taken htaken => ?_⟩).2
  · rintro b₁ b₂ more rest₁ hs ⟨hr, heq⟩
    refine ⟨hr.trans (.step hs .refl), fun taken' htaken' => ?_⟩
    obtain ⟨taken, heads, lead, strays, htaken, hb, hp, -⟩ := hr.pending fun _ c => c
    obtain rfl : taken' = taken ++ more := by
      have hboth : taken' ++ rest₁ = (taken ++ more) ++ rest₁ := by
        rw [← htaken', htaken, List.append_assoc]
      exact List.append_cancel_right hboth
    obtain ⟨c, hheeded, hmax⟩ := hs.heeds hb hp
    rw [List.foldl_append]
    calc max b₂.maxEndPos _
        = max b₁.maxEndPos (max c.endPos _) := by rw [hmax, max_ends_assoc]
      _ = Outline.largestEnd (Trail.heeded {} calls) := by
        rw [← heq taken htaken, hheeded]
        rfl
  · obtain rfl : taken = [] := List.self_eq_append_left.mp htaken
    show max none (Outline.largestEnd (Trail.heeded {} calls)) = _
    cases Outline.largestEnd (Trail.heeded {} calls) <;> rfl

/-- The end of a build notes nothing. -/
theorem finish_maxEndPos (h : b.finish = .ok b') : b'.maxEndPos = b.maxEndPos := by
  unfold finish at h
  split at h
  · rw [← Except.ok.inj h]
  · obtain ⟨b₁, h₁, rfl⟩ := map_eq_ok h
    obtain ⟨-, rfl⟩ := internal_eq_ok.mp h₁
    rfl

theorem recordTitle_maxEndPos {σ : Type} (sink : Option (MetadataSink σ)) (b : Builder) (s : σ) :
    (recordTitle sink b s).1.maxEndPos = b.maxEndPos := by
  unfold recordTitle
  split
  · split <;> rfl
  · rfl

end Builder

/-- An outline has the largest end that its build noted. -/
theorem buildWith_maxEndPos {σ : Type} {strictness : Strictness} {sink : Option (MetadataSink σ)}
    {calls : List Call} {s s' : σ} {o : Outline}
    (h : buildWith strictness sink calls s = .ok (o, s')) :
    ∃ b, Run { strictness } calls [] b ∧ o.maxEndPos = b.maxEndPos := by
  cases hb : buildSections strictness calls with
  | error d =>
    rw [buildWith_of_error hb] at h
    cases h
  | ok b =>
    obtain ⟨b₀, hr, hf⟩ := buildSections_run hb
    rw [buildWith_of_ok hb] at h
    obtain ⟨rfl, -⟩ := Prod.mk.inj (Except.ok.inj h)
    exact ⟨b₀, hr, (recordTitle_maxEndPos sink b s).trans (finish_maxEndPos hf)⟩

/-- **The largest end of an outline** is that of all calls but the exits of the paragraphs
that are taken at once.  It is the largest of the page just when none of those ends behind all
the others. -/
theorem largest_end_exact {σ : Type} {strictness : Strictness} {sink : Option (MetadataSink σ)}
    {calls : List Call} {s s' : σ} {o : Outline}
    (hb : buildWith strictness sink calls s = .ok (o, s')) :
    let seen := Trail.heeded {} calls
    let unseen := Trail.overlooked {} calls
    IsLargest o.maxEndPos (endsOf seen) ∧
      (seen ++ unseen).Perm calls ∧ (∀ n, n ∈ unseen ↔ Trail.Overlooks {} calls n) ∧
      (IsLargest o.maxEndPos (endsOf calls) ↔ ∀ e ∈ endsOf unseen, ∃ e' ∈ endsOf seen, e ≤ e') := by
  intro seen unseen
  obtain ⟨b, hr, hmax⟩ := buildWith_maxEndPos hb
  have hnoted : b.maxEndPos = largestEnd seen := by
    rw [← hr.largestEnd calls (List.append_nil calls).symm, Trail.heeded, largestEnd]
    cases b.maxEndPos <;> rfl
  have hseen : IsLargest o.maxEndPos (endsOf seen) := by
    rw [hmax, hnoted]
    exact isLargest_largestEnd seen
  have hperm : (seen ++ unseen).Perm calls := Trail.perm_heeded calls {}
  refine ⟨hseen, hperm, fun n => Trail.mem_overlooked_iff, ?_⟩
  rw [← endsOf_congr hperm, endsOf_append]
  exact hseen.union_iff

/-- A heading up to position 7, a paragraph without content behind it, and a text. -/
def emptyParagraph (behind : List Call) : List Call :=
  (((((Call.special (.heading .atx)).withContext Call.outlineContext).withAttribute
    levelAttribute (.int 1)).withPayload "News").withSpan 0 7) ::
      Call.enter .paragraph :: (Call.exit .paragraph).withSpan 8 9 :: behind

/-- The text ends behind the paragraph. -/
theorem largest_end_exact_emptyParagraph :
    ∃ o, buildWith .strict (none : Option (MetadataSink Unit))
        (emptyParagraph [(Call.text "Rain").withSpan 10 14]) () = .ok (o, ()) ∧
      (Trail.overlooked {} (emptyParagraph [(Call.text "Rain").withSpan 10 14])).map Call.endPos =
        [some 9] ∧
      o.maxEndPos = some 14 ∧
      IsLargest o.maxEndPos (endsOf (emptyParagraph [(Call.text "Rain").withSpan 10 14])) := by
  have hb : buildWith .strict (none : Option (MetadataSink Unit))
      (emptyParagraph [(Call.text "Rain").withSpan 10 14]) () = .ok (_, ()) := rfl
  obtain ⟨hseen, -, -, hiff⟩ := largest_end_exact hb
  refine ⟨_, hb, by decide, rfl, hiff.mpr fun e he => ⟨14, hseen.1, ?_⟩⟩
  obtain ⟨c, hc, hce⟩ := he
  have hends : ∀ c ∈ Trail.overlooked {} (emptyParagraph [(Call.text "Rain").withSpan 10 14]),
      ∀ e ∈ c.endPos, e ≤ 14 := by decide
  exact hends c hc e hce

/-- Without the text the paragraph ends last, which is not noted. -/
theorem emptyParagraph_overlooked :
    ∃ o, build .strict (emptyParagraph []) = .ok o ∧
      ¬ IsLargest o.maxEndPos (endsOf (emptyParagraph [])) := by
  refine ⟨_, rfl, fun h => ?_⟩
  have hmem : 9 ∈ endsOf (emptyParagraph []) := ⟨_, List.mem_cons_of_mem _
    (List.mem_cons_of_mem _ List.mem_cons_self), rfl⟩
  have hle : 9 ≤ 7 := h.2 hmem
  omega

end Outline

end WikiOutline
