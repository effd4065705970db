/-
# Ends are exact, and written once

Where a section ends is known from the levels and the starts of the finished outline: right
before the first section behind it that does not lie deeper, if that one has a start, but
not before its own start.  A build writes these ends while it goes on.  Starting a section
it walks up from the section before, and the sections that it meets on its way are written
one after the other (`Builder.closeSpans_eq_foldl`); each of them still goes on, so it had
no end until then (`Builder.Ended.unset`).  So an end that is written once stays
(`Builder.Run.endPos_stays`).

Key definitions: `Outline.EndLaw`, `Builder.walkedUp`, `Builder.leftBehind`,
`Builder.WritesOnce`.
Key theorems: `Builder.closeSpans_eq_foldl`, `Builder.Ended.unset`,
`Builder.Run.endPos_stays`, `Outline.ends_exact`.
-/
import WikiOutline.Proofs.Ends

namespace WikiOutline

/-- The section, ended before a section that starts at `next`, but not before its own
start. -/
def Section.endedBefore (next : Nat) (s : Section) : Section :=
  { s with endPos := some (s.startPos.elim (next - 1) (max (next - 1))) }

namespace Outline

open Builder Reading

/-- Where the sections of an outline end. -/
structure EndLaw (o : Outline) : Prop where
  root : (o.get 0).endPos = none
  /-- A section behind which all lie deeper does not end. -/
  goesOn : ∀ i, i < o.size → (∀ j, i < j → j < o.size → (o.get i).level < (o.get j).level) →
    (o.get i).endPos = none
  /-- The first section behind that does not lie deeper ends it, if it has a start. -/
  before : ∀ i j, i < o.size →
    IsLeast {j | i < j ∧ j < o.size ∧ (o.get j).level ≤ (o.get i).level} j →
    (o.get i).endPos = (o.get j).startPos.map fun next =>
      (o.get i).startPos.elim (next - 1) (max (next - 1))

namespace Builder

/-! ### The sections that are ended -/

/-- The sections that a walk up to `parent` ends, in the order it meets them. -/
def walkedUp (b : Builder) (parent : Nat) : Nat → Nat → List Nat
  | 0, _ => []
  | steps + 1, id =>
    if id = parent then []
    else
      match (b.get id).parent with
      | none => []
      | some next => id :: b.walkedUp parent steps next

/-- The sections that a heading call below `parent` ends. -/
def leftBehind (b : Builder) (c : Call) (parent : Nat) : List Nat :=
  match c.startPos with
  | some _ => b.walkedUp parent b.sections.length b.current
  | none => []

/-- From `b` a build starts the section of a call; it ends some sections, each one once,
and none that has an end. -/
def WritesOnce (b : Builder) (c : Call) (b' : Builder) : Prop :=
  ∃ (b₀ : Builder) (declared parent level : Nat), b₀.sections = b.sections ∧
    b' = b₀.openSection c declared parent level ∧
    b₀.leaveSections c parent = (b₀.leftBehind c parent).foldl
      (fun b i => b.modify i (Section.endedBefore (c.startPos.getD 0))) b₀ ∧
    (b₀.leftBehind c parent).Nodup ∧
    ∀ i ∈ b₀.leftBehind c parent, i < b.sections.length ∧ (b.get i).endPos = none

/-- Which sections are met depends on the parents only. -/
theorem walkedUp_congr {b b' : Builder} (h : ∀ i, (b'.get i).parent = (b.get i).parent)
    (parent : Nat) : ∀ steps id, b'.walkedUp parent steps id = b.walkedUp parent steps id
  | 0, _ => rfl
  | steps + 1, id => by
    unfold walkedUp
    rw [h id]
    split
    · rfl
    · split
      · rfl
      · rw [walkedUp_congr h parent steps]

/-- To end a section leaves the parents as they are. -/
theorem parent_endedBefore (b : Builder) (id next i : Nat) :
    ((b.modify id (Section.endedBefore next)).get i).parent = (b.get i).parent := by
  rcases Nat.lt_or_ge i b.sections.length with hi | hi
  · rw [get_modify b id _ hi]
    split <;> rfl
  · have hi' : (b.modify id (Section.endedBefore next)).sections.length ≤ i := by
      rw [Builder.modify, List.length_modify]
      exact hi
    rw [get, get, List.getD_eq_default _ _ hi, List.getD_eq_default _ _ hi']

/-- **A walk up** writes the ends of the sections it meets, one after the other, and nothing
else. -/
theorem closeSpans_eq_foldl (start parent : Nat) : ∀ (steps id : Nat) (b : Builder),
    closeSpans start parent steps id b = (b.walkedUp parent steps id).foldl
      (fun b i => b.modify i (Section.endedBefore start)) b
  | 0, _, _ => rfl
  | steps + 1, id, b => by
    unfold closeSpans walkedUp
    split
    · rfl
    · cases (b.get id).parent with
      | none => rfl
      | some next =>
        rw [List.foldl_cons, ← walkedUp_congr (parent_endedBefore b id start) parent steps next]
        exact closeSpans_eq_foldl start parent steps next _

theorem leaveSections_eq_foldl (b : Builder) (c : Call) (parent : Nat) :
    b.leaveSections c parent = (b.leftBehind c parent).foldl
      (fun b i => b.modify i (Section.endedBefore (c.startPos.getD 0))) b := by
  unfold leaveSections leftBehind
  cases c.startPos with
  | none => rfl
  | some start => exact closeSpans_eq_foldl start parent _ _ b

/-- What a walk up meets goes on up to where it begins, and each section that it meets comes
before the last one. -/
theorem walkedUp_encloses {heads : List Call} {b : Builder} (ht : Tree heads b.nodes)
    (parent : Nat) : ∀ steps id, id < b.sections.length →
      (∀ i ∈ b.walkedUp parent steps id, Encloses b.nodes i id) ∧
        (b.walkedUp parent steps id).Pairwise (· > ·)
  | 0, _, _ => ⟨fun _ hi => absurd hi List.not_mem_nil, .nil⟩
  | steps + 1, id, hid => by
    unfold walkedUp
    split
    · exact ⟨fun _ hi => absurd hi List.not_mem_nil, .nil⟩
    · split
      · exact ⟨fun _ hi => absurd hi List.not_mem_nil, .nil⟩
      · rename_i next hparent
        have hbelow : Below b.nodes (nodeAt b.nodes id).level next id :=
          ht.below_of_parent (by rwa [length_nodes]) (by rw [nodeAt_nodes]; exact hparent)
        obtain ⟨hgoes, hsorted⟩ :=
          walkedUp_encloses ht parent steps next (hbelow.1.trans hid)
        refine ⟨fun i hi => ?_, List.pairwise_cons.mpr ⟨fun i hi => ?_, hsorted⟩⟩
        · rw [hbelow.encloses_iff]
          exact (List.mem_cons.mp hi).imp_right (hgoes i)
        · exact (hgoes i hi).1.trans_lt hbelow.1

/-- **A section that is ended had no end**: all behind it lies deeper. -/
theorem Ended.unset {heads : List Call} {b : Builder} (hb : Sound heads b) (he : Ended b) (c : Call)
    (parent : Nat) :
    (b.leftBehind c parent).Nodup ∧
      ∀ i ∈ b.leftBehind c parent, i < b.sections.length ∧ (b.get i).endPos = none := by
  have hlength := hb.length
  unfold leftBehind
  split
  · obtain ⟨hgoes, hsorted⟩ :=
      walkedUp_encloses hb.tree parent b.sections.length b.current (by omega)
    refine ⟨hsorted.imp fun h => Nat.ne_of_gt h, fun i hi => ?_⟩
    have hi' : i < b.sections.length := by
      have := (hgoes i hi).1
      omega
    exact ⟨hi', (he i hi').eq_none (hgoes i hi) (by rw [length_nodes]; exact hlength)⟩
  · exact ⟨.nil, fun _ hi => absurd hi List.not_mem_nil⟩

/-- A section that is started writes each end once. -/
theorem writesOnce_of_startSection {heads : List Call} {b b' : Builder} (hb : Sound heads b)
    (he : Ended b) {c : Call} (h : b.startSection c = .ok b') : WritesOnce b c b' := by
  obtain ⟨p, -, heq⟩ := startSection_eq hb c
  rw [h] at heq
  split at heq
  · cases heq
  · set noted : Builder := { b with
      diagnostics := b.diagnostics ++ levelFindings (b.get b.current).level c ++
        (skip? (b.get b.current).level c).toList }
    have hnoted : Sound heads noted := ⟨hb.tree, hb.current, hb.opened, hb.absorbing⟩
    have hended : Ended noted := he
    exact ⟨noted, _, p, _, rfl, Except.ok.inj heq, leaveSections_eq_foldl noted c p,
      hended.unset hnoted c p⟩

/-! ### Ends stay -/

/-- What a new section does not end keeps its end, and what it ends had none. -/
theorem Adds.endPos_stays {heads : List Call} {b b' : Builder} {c : Call} {p : Nat}
    (h : Adds b c p b') (hb : Sound heads b) (he : Ended b) {i e : Nat}
    (hend : (b.get i).endPos = some e) : (b'.get i).endPos = some e := by
  have hlength := hb.length
  have hi : i < b.sections.length := by
    by_contra hle
    rw [get, List.getD_eq_default _ _ (Nat.le_of_not_lt hle)] at hend
    cases hend
  have hother : ¬ (p < i ∧ Encloses b.nodes i b.current) := by
    rintro ⟨-, hgoes⟩
    have hnone := (he i hi).eq_none hgoes (by rw [length_nodes]; exact hlength)
    rw [hnone] at hend
    cases hend
  rw [h.endPos.2 i hi, (h.leaveSections_endPos hb he hi).2 hother, hend]

theorem ChangesLast.endPos_stays {b b' : Builder} (h : ChangesLast b b') {i e : Nat}
    (hend : (b.get i).endPos = some e) : (b'.get i).endPos = some e := by
  rcases Nat.lt_or_ge i b.sections.length with hi | hi
  · rw [h.get_endPos hi, hend]
  · rw [get, List.getD_eq_default _ _ hi] at hend
    cases hend

theorem Step.endPos_stays {heads : List Call} {b b' : Builder} {taken rest : List Call}
    (h : Step b taken rest b') (hb : Sound heads b) (he : Ended b) {i e : Nat}
    (hend : (b.get i).endPos = some e) : (b'.get i).endPos = some e := by
  rcases h.adds_or_changesLast hb with ⟨c, p, rfl, -, hadds⟩ | ⟨-, hchanges⟩
  · exact hadds.endPos_stays hb he hend
  · exact hchanges.endPos_stays hend

/-- **An end stays**, however the build goes on. -/
theorem Run.endPos_stays {heads : List Call} {b b' : Builder} {calls rest : List Call}
    (h : Run b calls rest b') (hb : Sound heads b) (he : Ended b) {i e : Nat}
    (hend : (b.get i).endPos = some e) : (b'.get i).endPos = some e := by
  obtain ⟨-, -, ⟨-, hend'⟩, -⟩ := h.grows
    (Q := fun _ b => Ended b ∧ (b.get i).endPos = some e)
    (fun hs hb ⟨he, hend⟩ => ⟨hs.ended hb he, hs.endPos_stays hb he hend⟩) hb ⟨he, hend⟩
  exact hend'

/-- Wherever a build has come to, its sections end as they should. -/
theorem Run.sound_ended {strictness : Strictness} {calls rest : List Call} {b : Builder}
    (h : Run { strictness } calls rest b) : ∃ heads, Sound heads b ∧ Ended b := by
  obtain ⟨heads, hb, he, -⟩ := h.grows (Q := fun _ b => Ended b)
    (fun hs hb he => hs.ended hb he) (sound_init strictness) (ended_init strictness)
  exact ⟨heads, hb, he⟩

end Builder

/-- An outline that has the tree of its headings ends its sections by the law. -/
theorem EndLaw.of_ends {heads : List Call} {o : Outline} (ht : Tree heads o.nodes)
    (h : ∀ i < o.size, Ends o.nodes i (o.get i).endPos) : EndLaw o := by
  have hlevel : ∀ i, (nodeAt o.nodes i).level = (o.get i).level := fun i => by
    rw [nodeAt_nodes]
    rfl
  have hstart : ∀ i, (nodeAt o.nodes i).startPos = (o.get i).startPos := fun i => by
    rw [nodeAt_nodes]
    rfl
  have hsize : o.nodes.length = o.size := length_nodes o
  have hopen : ∀ i, i < o.size →
      (∀ j, i < j → j < o.size → (o.get i).level < (o.get j).level) → (o.get i).endPos = none := by
    intro i hi hdeep
    have hgoes : Encloses o.nodes i (o.size - 1) := by
      refine ⟨by omega, fun m h1 h2 => ?_⟩
      rw [hlevel, hlevel]
      exact hdeep m h1 (by omega)
    exact (h i hi).eq_none hgoes (by omega)
  refine ⟨hopen 0 ht.size_pos fun j h1 h2 => ?_, hopen, ?_⟩
  · obtain ⟨p, -, hbelow⟩ := ht.below j h1 (by omega)
    rw [← hlevel, ← hlevel, ht.rootLevel, ← hbelow.2.1]
    exact Nat.succ_pos _
  · rintro i j hi ⟨⟨hij, hj, hle⟩, hleast⟩
    have hnext : Next o.nodes i j := by
      refine ⟨hij, by rwa [hlevel, hlevel], fun m h1 h2 => ?_⟩
      rw [hlevel, hlevel]
      by_contra hdeep
      have := hleast ⟨h1, h2.trans hj, Nat.le_of_not_lt hdeep⟩
      omega
    have hends := h i hi
    generalize (o.get i).endPos = e at hends ⊢
    cases hends with
    | goesOn hdeep =>
      have := hdeep j hij (by omega)
      rw [hlevel, hlevel] at this
      omega
    | @before k _ hnext' =>
      obtain rfl := hnext'.unique hnext
      rw [hstart, hstart]
      rfl

/-- **Ends are exact**, in every outline that is built, whatever positions the calls have.
An end that is set in a build that has come to some call is the one that the outline has,
and no section is ended that has an end. -/
theorem ends_exact {σ : Type} {strictness : Strictness} {sink : Option (MetadataSink σ)}
    {calls : List Call} {s s' : σ} {o : Outline}
    (h : buildWith strictness sink calls s = .ok (o, s')) :
    EndLaw o ∧
      (∀ {b : Builder} {rest : List Call}, Run { strictness } calls rest b →
        ∀ i e, (b.get i).endPos = some e → (o.get i).endPos = some e) ∧
      ∀ {b b' : Builder} {c : Call} {rest : List Call}, Run { strictness } calls (c :: rest) b →
        (b.noteEnd c).startSection c = .ok b' → WritesOnce b c b' := by
  obtain ⟨ht, -⟩ := buildWith_sound h
  refine ⟨.of_ends ht (buildWith_ends h), fun {b rest} hr i e hend => ?_,
    fun {b b' c rest} hr hs => ?_⟩
  · obtain ⟨heads, hb, he⟩ := hr.sound_ended
    obtain ⟨bₙ, hbuild, hsections, -⟩ := buildWith_ok h
    obtain ⟨b₀, hr₀, hf⟩ := buildSections_run hbuild
    have hrest : acceptAll rest b = .ok b₀ := by
      rw [← hr.acceptAll_eq, hr₀.acceptAll_eq]
      rfl
    have hend₀ := (acceptAll_run hrest).endPos_stays hb he hend
    rw [Outline.get, hsections]
    exact (changesLast_finish hf).endPos_stays hend₀
  · obtain ⟨heads, hb, he⟩ := hr.sound_ended
    have he' : Ended (b.noteEnd c) := (changesLast_noteEnd b c).ended (nodes_noteEnd b c) he
    obtain ⟨b₀, declared, parent, level, hsections, heq, hfold, hnodup, hunset⟩ :=
      writesOnce_of_startSection (hb.noteEnd c) he' hs
    refine ⟨b₀, declared, parent, level, hsections.trans (noteEnd_sections b c), heq, hfold, hnodup,
      fun i hi => ?_⟩
    rw [← noteEnd_get b c i, ← noteEnd_sections b c]
    exact hunset i hi

/-- A page whose headings go back and forth in the source, one of them without a start. -/
def scattered : List Call :=
  let heading (level : Int64) : Call :=
    ((Call.special (.heading .atx)).withContext Call.outlineContext).withAttribute
      levelAttribute (.int level)
  [(heading 1).withSpan 40 49, (heading 2).withSpan 70 79, (heading 2).withSpan 60 69, heading 1,
    (heading 1).withSpan 0 9, (heading 1).withSpan 20 29]

theorem ends_exact_scattered :
    ∃ o, buildWith .strict (none : Option (MetadataSink Unit)) scattered () = .ok (o, ()) ∧
      EndLaw o ∧
      o.sections.map Section.endPos = [none, none, some 70, none, some 0, some 19, none] := by
  have hb : buildWith .strict (none : Option (MetadataSink Unit)) scattered () = .ok (_, ()) := rfl
  exact ⟨_, hb, (ends_exact hb).1, rfl⟩

end Outline

end WikiOutline
