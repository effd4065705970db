/-
# Passages without headings

A strict build stops only at a heading of the outline that is not entered or has no level,
and at the end of the page if a heading is still open.  So a page whose headings are all
entered with a level can be taken to its end (`Builder.exists_run_of_entered`).

Where no heading is open, and none takes a paragraph any more, a passage without headings
of the outline goes to the text of the section started last, call by call
(`Builder.exists_run_passage`).  There it stays: whatever comes behind, the text of a
section is never changed, only continued (`Builder.Run.continues`).

Key definitions: `Builder.Entered`, `Builder.Continues`.
Key theorems: `Builder.exists_run_of_entered`, `Builder.exists_run_passage`,
`Builder.Run.continues`.
-/
import WikiOutline.Proofs.Composition
import WikiOutline.Proofs.LastSection
import WikiOutline.Proofs.LenientOrder

namespace WikiOutline

namespace Outline

namespace Builder

open Reading

variable {heads : List Call} {b b' b₁ : Builder} {calls rest taken : List Call} {c : Call}

/-! ### Pages that can be taken -/

/-- Every heading of the outline among the calls is entered, and with a level. -/
def Entered (calls : List Call) : Prop :=
  ∀ c ∈ calls, isOutlineHeading c = true →
    c.state = .enter ∧ c.attributes.getInt? levelAttribute ≠ none

/-- A heading that is entered with a level is taken, and so is all that is no heading. -/
theorem exists_accept (hb : Sound heads b)
    (hc : isOutlineHeading c = true → c.state = .enter ∧ c.attributes.getInt? levelAttribute ≠ none)
    (next : Option Call) : ∃ r, b.accept c next = .ok r := by
  by_cases hstart : b.openHeading = none ∧ isOutlineHeading c = true
  · obtain ⟨ho, hh⟩ := hstart
    obtain ⟨hstate, hlevel⟩ := hc hh
    obtain ⟨p, -, hsection⟩ := startSection_eq (hb.noteEnd c) c
    rw [if_neg fun h => hlevel h.1] at hsection
    rw [accept_start ho hh (.inl hstate), hsection]
    exact ⟨_, rfl⟩
  · have hplain : b.openHeading ≠ none ∨ isOutlineHeading c = false := by
      rw [not_and_or, Bool.not_eq_true] at hstart
      exact hstart
    obtain ⟨b', both, haccept, -⟩ := accept_plain hplain next
    exact ⟨_, haccept⟩

/-- **A page whose headings are entered with a level** is taken to its end. -/
theorem exists_run_of_entered (hcalls : Entered calls) :
    ∃ b, Run { strictness := .strict } calls [] b := by
  rcases acceptAll_spec calls { strictness := .strict } with ⟨b, -, hr⟩ | ⟨d, b, c, rest, -, hr, he⟩
  · exact ⟨b, hr⟩
  · obtain ⟨taken, heads, -, -, hpage, hb, -⟩ := hr.pending fun _ c => c
    have hmem : c ∈ calls := by
      rw [hpage]
      exact List.mem_append_right _ List.mem_cons_self
    obtain ⟨r, hok⟩ := exists_accept hb (hcalls c hmem) rest.head?
    rw [hok] at he
    cases he

/-- Behind a page a build has the sections of its headings, and stands where a reading of
the page stands. -/
theorem Run.sound {strictness : Strictness} (h : Run { strictness } calls [] b) :
    Sound (startingCalls {} calls) b ∧ b.reading = (calls.foldl Trail.after {}).reading ∧
      (b.openHeading = none → b.absorbing = (calls.foldl Trail.after {}).absorbing) := by
  obtain ⟨heads, hb, -, heads_eq⟩ := h.grows (Q := fun _ _ => True) (fun _ _ _ => trivial)
    (sound_init strictness) trivial
  rw [reading_init, List.nil_append, startingCalls, List.append_nil] at heads_eq
  obtain ⟨taken, -, -, strays, htaken, -, hp, -⟩ := h.pending fun _ c => c
  rw [List.append_nil] at htaken
  rw [htaken]
  exact ⟨by rw [← htaken, ← heads_eq]; exact hb, hp.reading.symm, fun ho => (hp.absorbing ho).symm⟩

/-- Where no heading has been begun that was not ended, none is open. -/
theorem Sound.closed (hb : Sound heads b) (hd : b.reading.depth = 0) : b.openHeading = none := by
  by_contra hopen
  obtain ⟨o, ho⟩ := Option.ne_none_iff_exists'.mp hopen
  rw [Builder.reading, ho] at hd
  exact (hb.opened o ho).1 hd

/-! ### The text of the sections -/

/-- The text of every section is there still, and goes on at most. -/
def Continues (b b' : Builder) : Prop :=
  ∀ i, (b.get i).contentCalls <+: (b'.get i).contentCalls

theorem continues_of_eq (h : b'.sections = b.sections) : Continues b b' := fun i => by
  rw [get, get, h]

theorem Continues.trans (h : Continues b b₁) (h' : Continues b₁ b') : Continues b b' :=
  fun i => (h i).trans (h' i)

/-- A change that only continues the text of a section. -/
theorem continues_modify (b : Builder) (id : Nat) {f : Section → Section}
    (hf : ∀ s, s.contentCalls <+: (f s).contentCalls) : Continues b (b.modify id f) := by
  intro i
  simp only [get, modify, List.getD_eq_getElem?_getD, List.getElem?_modify, Option.map_eq_map]
  cases b.sections[i]? with
  | none => exact List.prefix_rfl
  | some s =>
    show s.contentCalls <+: (if id = i then f s else s).contentCalls
    by_cases hid : id = i
    · rw [if_pos hid]
      exact hf s
    · rw [if_neg hid]

theorem continues_pushContent (b : Builder) (c : Call) : Continues b (b.pushContent c) :=
  continues_modify b _ fun s => List.prefix_append s.contentCalls [c]

theorem continues_pushHeading (b : Builder) (c : Call) : Continues b (b.pushHeading c) :=
  continues_modify b _ fun _ => List.prefix_rfl

theorem continues_labelCurrent (b : Builder) : Continues b b.labelCurrent :=
  continues_modify b _ fun _ => List.prefix_rfl

theorem continues_noteEnd (b : Builder) (c : Call) : Continues b (b.noteEnd c) :=
  continues_of_eq (noteEnd_sections b c)

theorem continues_acceptInHeading (b : Builder) (h : OpenHeading) (c : Call) :
    Continues b (b.acceptInHeading h c) := by
  unfold acceptInHeading
  simp only
  split
  · exact ((continues_pushHeading b _).trans (continues_labelCurrent _)).trans (continues_of_eq rfl)
  · exact (continues_pushHeading b _).trans (continues_of_eq rfl)

/-- A new section has no text, and leaves alone that of the others. -/
theorem Adds.continues {p : Nat} (h : Adds b c p b') : Continues b b' := by
  intro i
  by_cases hi : i < b.sections.length
  · have hcurrent : i < b'.current := h.current ▸ hi
    have htexts := h.map_take Section.contentCalls fun _ _ _ => rfl
    have hat : (b'.sections[i]?).map Section.contentCalls =
        (b.sections[i]?).map Section.contentCalls := by
      have hat := congrArg (·[i]?) htexts
      rwa [List.getElem?_map, List.getElem?_map, List.getElem?_take_of_lt hcurrent] at hat
    rw [List.getElem?_eq_getElem hi, Option.map_some] at hat
    obtain ⟨s, hs, htext⟩ := Option.map_eq_some_iff.mp hat
    rw [get_eq_of_getElem? hs, get_eq_of_getElem? (List.getElem?_eq_getElem hi), htext]
  · have hroot : b.get i = .root := List.getD_eq_default _ _ (Nat.le_of_not_lt hi)
    rw [hroot]
    exact List.nil_prefix

theorem Step.continues (h : Step b taken rest b') (hb : Sound heads b) : Continues b b' := by
  have hend : ∀ c, Continues b (b.noteEnd c).endAbsorbing := fun c =>
    continues_of_eq (noteEnd_sections b c)
  cases h with
  | inHeading _ => exact (continues_noteEnd b _).trans (continues_acceptInHeading _ _ _)
  | start _ _ _ heq =>
    obtain ⟨p, hadds⟩ := adds_of_startSection hb heq
    exact hadds.continues
  | stray => exact (continues_noteEnd b _).trans (continues_pushContent _ _)
  | fold => exact (hend _).trans (continues_pushHeading _ _)
  | foldPair =>
    exact ((hend _).trans (continues_pushHeading _ _)).trans (continues_pushHeading _ _)
  | content => exact (hend _).trans (continues_pushContent _ _)

/-- **The text of the sections** is only continued, however the page goes on. -/
theorem Run.continues (h : Run b calls rest b') (hb : Sound heads b) : Continues b b' := by
  induction h generalizing heads with
  | refl => exact fun _ => List.prefix_rfl
  | step hs _ ih => exact (hs.continues hb).trans (ih (hs.sound hb).1)

/-! ### Passages -/

/-- The section started last takes a call into its text. -/
theorem get_pushContent (hlast : b.current < b.sections.length) (c : Call) :
    ((b.pushContent c).get b.current).contentCalls = (b.get b.current).contentCalls ++ [c] := by
  have hold : b.sections[b.current]? = some (b.get b.current) := by
    rw [get, List.getD_eq_getElem _ _ hlast]
    exact List.getElem?_eq_getElem hlast
  have hnew : (b.pushContent c).sections[b.current]? =
      some { b.get b.current with contentCalls := (b.get b.current).contentCalls ++ [c] } := by
    show (b.sections.modify _ _)[b.current]? = _
    rw [List.getElem?_modify, hold, Option.map_eq_map, Option.map_some, if_pos rfl]
  rw [get_eq_of_getElem? hnew]

/-- **A passage without headings** goes to the text of the section started last. -/
theorem exists_run_passage (hlast : b.current < b.sections.length) (ho : b.openHeading = none)
    (ha : b.absorbing = false) (hcalls : ∀ c ∈ calls, isOutlineHeading c = false)
    (rest : List Call) :
    ∃ b', Run b (calls ++ rest) rest b' ∧
      (b'.get b.current).contentCalls = (b.get b.current).contentCalls ++ calls := by
  induction calls generalizing b with
  | nil => exact ⟨b, .refl, (List.append_nil _).symm⟩
  | cons c calls ih =>
    set noted := (b.noteEnd c).endAbsorbing with hnoted
    have hsections : noted.sections = b.sections := noteEnd_sections b c
    have hcurrent : noted.current = b.current := noteEnd_current b c
    have hstep : Step b [c] (calls ++ rest) (noted.pushContent c) := by
      refine .content ho (hcalls c List.mem_cons_self) ?_
      rw [ha, Bool.false_and]
    have hlast' : (noted.pushContent c).current < (noted.pushContent c).sections.length := by
      show noted.current < (noted.sections.modify _ _).length
      rwa [List.length_modify, hsections, hcurrent]
    obtain ⟨b', hr, htext⟩ := ih hlast' ((noteEnd_openHeading b c).trans ho) rfl
      fun d hd => hcalls d (List.mem_cons_of_mem c hd)
    have hpushed := get_pushContent (b := noted) (by rwa [hsections, hcurrent]) c
    have hget : noted.get b.current = b.get b.current := by rw [get, get, hsections]
    rw [hcurrent, hget] at hpushed
    have hrun : Run b ([c] ++ (calls ++ rest)) rest b' := .step hstep hr
    have hcurrent' : (noted.pushContent c).current = b.current := hcurrent
    rw [hcurrent', hpushed, List.append_assoc] at htext
    exact ⟨b', hrun, htext⟩

end Builder

end Outline

end WikiOutline
