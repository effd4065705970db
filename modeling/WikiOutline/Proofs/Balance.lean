/-
# Balance is preserved

Of a balanced page whose sections begin outside all elements, a strict build cuts
balanced parts: up to the beginning of a section all elements are closed, so the heading
and the text of every section are balanced together (`buildSections_balanced`).  A
rendition puts these parts one behind the other, wrapped in divisions and headers, with
calls in between that enter and exit nothing; where the first section is merged into the
root, the text of the root comes between its heading and its text.  So what is rendered
is balanced again.

Key definitions: `Outline.StartsOutside`, `Outline.Builder.Parted`.
Key theorems: `Outline.buildSections_balanced`, `Rendering.portions_balanced`,
`Rendering.Performs.openBehind?`, `Rendering.renditions_balanced`.
-/
import WikiOutline.Proofs.Completion
import WikiOutline.Proofs.LastSection
import WikiOutline.Proofs.Nesting

namespace WikiOutline

namespace Outline

open Reading

/-- Where a section begins, as many elements have been exited as entered. -/
def StartsOutside (calls : List Call) : Prop :=
  ∀ i, (h : i < calls.length) → ((calls.take i).foldl Reading.after {}).starts calls[i] = true →
    (calls.take i).countP Call.isEnter = (calls.take i).countP Call.isExit

instance (calls : List Call) : Decidable (StartsOutside calls) :=
  inferInstanceAs (Decidable (∀ i, (h : i < calls.length) →
    ((calls.take i).foldl Reading.after {}).starts calls[i] = true →
      (calls.take i).countP Call.isEnter = (calls.take i).countP Call.isExit))

namespace Builder

/-- The heading and the text of a section are balanced together. -/
def Closed (s : Section) : Prop := Balanced (s.headingCalls ++ s.contentCalls)

/-- A build that has come so far on a page holds what it has read, and the sections before
the last one are balanced. -/
structure Parted (page : List Call) (b : Builder) (rest : List Call) : Prop where
  strict : b.strictness = .strict
  clear : b.Clear
  filed : ∃ read, page = read ++ rest ∧ b.reading = read.foldl after {} ∧
    filed (fun _ c => c) b.sections = kept (fun _ c => c) {} read
  closed : ∀ s ∈ b.sections.take b.current, Closed s

/-- What is filed is balanced with the calls it comes from. -/
theorem balanced_filed {ss : List Section} {cs : List Call} (h : Balanced cs)
    (hf : Outline.filed (fun _ c => c) ss = kept (fun _ c => c) {} cs) :
    Balanced (ss.flatMap fun s => s.headingCalls ++ s.contentCalls) := by
  rw [← filed_unmarked, hf]
  exact h.congr (map_kept nesting_ignores (fun _ _ => rfl) {} cs)

/-- Where all that is filed is balanced, the last section is too. -/
theorem Parted.all_closed {heads page rest : List Call} {b : Builder} (h : Parted page b rest)
    (hb : Sound heads b)
    (hf : Balanced (b.sections.flatMap fun s => s.headingCalls ++ s.contentCalls)) :
    ∀ s ∈ b.sections, Closed s := by
  have hsplit : b.sections.take b.current ++ b.sections.drop b.current = b.sections :=
    List.take_append_drop _ _
  obtain ⟨last, hlast⟩ : ∃ last, b.sections.drop b.current = [last] :=
    List.length_eq_one_iff.mp (by rw [List.length_drop, hb.length]; omega)
  rw [hlast] at hsplit
  rw [← hsplit, List.flatMap_append, List.flatMap_singleton] at hf
  intro s hs
  rw [← hsplit] at hs
  rcases List.mem_append.mp hs with hs | hs
  · exact h.closed s hs
  · rw [List.mem_singleton.mp hs]
    exact hf.of_append (.flatMap h.closed)

/-- **A step** keeps to balanced parts: where it starts a section, all elements are closed. -/
theorem Step.parted {heads page taken rest : List Call} {b b' : Builder}
    (h : Step b taken rest b') (hb : Sound heads b) (hpage : Balanced page)
    (hout : StartsOutside page) (hp : Parted page b (taken ++ rest)) : Parted page b' rest := by
  obtain ⟨read, hsplit, hread, hf⟩ := hp.filed
  obtain ⟨hfiled, hclear⟩ := h.filed hb hp.strict hp.clear fun _ c => c
  refine ⟨(h.strictness hb).trans hp.strict, hclear, ⟨read ++ taken, ?_, ?_, ?_⟩, ?_⟩
  · rw [hsplit, List.append_assoc]
  · rw [(h.sound hb).2, hread, List.foldl_append]
  · rw [hfiled, hf, hread, kept_append]
  · rcases h.adds_or_changesLast hb with ⟨c, p, rfl, hst, hadds⟩ | ⟨-, hchanges⟩
    · have htake : page.take read.length = read := by rw [hsplit, List.take_left]
      have hcall : page[read.length]? = some c := by
        rw [hsplit, List.getElem?_append_right le_rfl, Nat.sub_self]
        rfl
      obtain ⟨hlt, hget⟩ := List.getElem?_eq_some_iff.mp hcall
      have hcount := hout read.length hlt (by rw [htake, hget, ← hread]; exact hst)
      rw [htake] at hcount
      have hreadBalanced : Balanced read := (hsplit ▸ hpage).take hcount
      have hall := hp.all_closed hb (balanced_filed hreadBalanced hf)
      intro s hs
      have hmap := hadds.map_take (fun s => s.headingCalls ++ s.contentCalls) fun _ _ _ => rfl
      obtain ⟨s₀, hs₀, heq⟩ := List.mem_map.mp (hmap ▸ List.mem_map_of_mem hs)
      unfold Closed
      rw [← heq]
      exact hall s₀ hs₀
    · rw [hchanges.take]
      exact hp.closed

end Builder

open Builder in
/-- **The sections of a strict build** are balanced, each for itself. -/
theorem buildSections_balanced {calls : List Call} {b : Builder}
    (h : buildSections .strict calls = .ok b) (hbalanced : Balanced calls)
    (hout : StartsOutside calls) : ∀ s ∈ b.sections, Closed s := by
  obtain ⟨b₀, hr, hf⟩ := buildSections_run h
  obtain ⟨heads, hb, hp⟩ := hr.keeps
    (P := fun b₁ calls₁ => ∃ heads, Sound heads b₁ ∧ Parted calls b₁ calls₁)
    (fun h ⟨heads, hb, hp⟩ => ⟨_, (h.sound hb).1, h.parted hb hbalanced hout hp⟩)
    ⟨[], sound_init .strict, ⟨rfl, .of_closed rfl rfl, ⟨[], rfl, rfl, rfl⟩, fun s hs => by cases hs⟩⟩
  rw [finish_strict hf hp.strict]
  obtain ⟨read, hsplit, -, hfiled⟩ := hp.filed
  rw [List.append_nil] at hsplit
  exact hp.all_closed hb (balanced_filed (hsplit ▸ hbalanced) hfiled)

end Outline

namespace Rendering

open Outline

variable {π σ τ : Type} {setup : Setup π σ} {target : Target}

/-! ### What is written where a section is opened -/

/-- Balanced calls stay balanced with what is arranged around them. -/
theorem balanced_arrange {hasChildren : Bool} {heading content : List Call}
    {marker button : Option Call} (h : Balanced (heading ++ content))
    (hm : ∀ c, marker = some c → c.state = .special)
    (hb : ∀ c, button = some c → c.state = .special) :
    Balanced (arrange target hasChildren heading content marker button) := by
  have hmarker : Balanced marker.toList := .of_special hm
  have hbutton : Balanced button.toList := .of_special hb
  have hown : Balanced (heading ++ content ++ marker.toList ++ button.toList) :=
    (h.append hmarker).append hbutton
  unfold arrange
  cases hasChildren with
  | false =>
    simp only [Bool.not_false, ↓reduceIte]
    rw [List.append_assoc marker.toList]
    exact (hmarker.append h).append hbutton
  | true =>
    simp only [Bool.not_true, Bool.false_eq_true, ↓reduceIte]
    split
    · exact hown.wrap .header
    · exact hown

/-- **What the portions of a section hold** is balanced: its own heading and text are, and
so are those of a section merged into the root, with the text of the root between them. -/
theorem portions_balanced (hclosed : ∀ i, Builder.Closed (setup.outline.get i))
    (hroot : ∀ i, (setup.outline.get i).isRoot = true → (setup.outline.get i).headingCalls = [])
    (s : State π σ) (id : Nat) :
    Balanced ((openSection setup target s id).1.portions.flatMap Portion.heading ++
      (openSection setup target s id).1.portions.flatMap Portion.content) := by
  cases hf : flattenedChild? setup target (setup.outline.get id) with
  | none =>
    obtain ⟨s₀, -, hportions, -⟩ := openSection_alone (s := s) hf
    rw [hportions, List.flatMap_singleton, List.flatMap_singleton]
    refine (hclosed id).congr ?_
    rw [List.map_append, List.map_append, map_ownHeading nesting_ignores s₀ (hroot id)]
  | some k =>
    obtain ⟨s₀, s₁, hportions⟩ := openSection_together (s := s) hf
    have hmerged : Balanced ((s₀.heading (setup.outline.get k)).1 ++
        (captureFeaturedImage setup s₁ (setup.outline.get k)).1) := by
      refine (hclosed k).congr ?_
      rw [List.map_append, List.map_append, map_heading nesting_ignores,
        map_captureFeaturedImage nesting_ignores]
    have htext : Balanced (setup.outline.get id).contentCalls := by
      have h := hclosed id
      rw [Builder.Closed, hroot id (isRoot_of_flattenedChild? hf), List.nil_append] at h
      exact h
    rw [hportions]
    simp only [List.flatMap_cons, List.flatMap_nil, List.append_nil, List.nil_append]
    exact hmerged.insert htext

/-- Where a section is opened its division stays open, and nothing else. -/
theorem openBehind?_opening (hclosed : ∀ i, Builder.Closed (setup.outline.get i))
    (hroot : ∀ i, (setup.outline.get i).isRoot = true → (setup.outline.get i).headingCalls = [])
    (s : State π σ) (id : Nat) (outer : List String) :
    openBehind? outer ((openSection setup target s id).1.calls target) =
      some (Tag.division.name :: outer) := by
  obtain ⟨hasChildren, marker, button, hcalls, hmarker, hbutton⟩ :=
    openSection_calls setup target s id
  have hinner : Balanced (arrange target hasChildren
      ((openSection setup target s id).1.portions.flatMap Portion.heading)
      ((openSection setup target s id).1.portions.flatMap Portion.content) marker button) :=
    balanced_arrange (portions_balanced hclosed hroot s id) (fun c hc => (hmarker c hc).2)
      fun c hc => (hbutton c hc).2
  have henter : (divisionOf setup.outline id).openBehind? outer =
      some (Tag.division.name :: outer) := rfl
  rw [hcalls, openBehind?_cons, henter, Option.bind_some, hinner.openBehind?]

/-- **The steps of a rendition** close the divisions that wait to be closed, and all that
they open. -/
theorem Performs.openBehind? (hclosed : ∀ i, Builder.Closed (setup.outline.get i))
    (hroot : ∀ i, (setup.outline.get i).isRoot = true → (setup.outline.get i).headingCalls = [])
    {todo : List Step} {s s' : State π σ} {es : List Event}
    (h : Performs setup target todo s es s') :
    openBehind? (List.replicate (todo.count .closing) Tag.division.name)
      (es.flatMap (Event.calls target)) = some [] := by
  induction h with
  | done => rfl
  | @opening id todo s s' es h ih =>
    have hcount : ((openSection setup target s id).1.children.map Step.opening ++
        .closing :: todo).count .closing = todo.count .closing + 1 := by
      rw [List.count_append, List.count_cons_self, List.count_eq_zero.mpr (by simp), Nat.zero_add]
    have hopen : (Step.opening id :: todo).count .closing = todo.count .closing :=
      List.count_cons_of_ne (fun h => by cases h)
    rw [hcount, List.replicate_succ] at ih
    rw [hopen, List.flatMap_cons, openBehind?_append]
    rw [show Event.calls target (.opened (openSection setup target s id).1) =
      (openSection setup target s id).1.calls target from rfl,
      openBehind?_opening hclosed hroot, Option.bind_some]
    exact ih
  | @closing todo s s' es h ih =>
    rw [List.count_cons_self, List.replicate_succ, List.flatMap_cons, openBehind?_append]
    exact ih

/-! ### Whole renditions -/

/-- **Renditions keep balance**: of a balanced page whose sections begin outside all
elements, every rendition is balanced, whatever the options, the policy and the sink. -/
theorem renditions_balanced {sink : Option (MetadataSink τ)} {calls : List Call} {t t' : τ}
    {o : Outline} (h : buildWith .strict sink calls t = .ok (o, t'))
    (hbalance : checkBalance calls = .ok ()) (hout : StartsOutside calls) (options : Options)
    (policy : Option (AdPolicy π)) (sink' : Option (MetadataSink σ)) (target : Target) (p : π)
    (s : σ) :
    checkBalance (run ⟨o, options, policy, sink'⟩ target p s).1.calls = .ok () := by
  obtain ⟨b, hb, hsections, -⟩ := Builder.buildWith_ok h
  obtain ⟨ht, -⟩ := buildWith_sound h
  have hbalanced : Balanced calls := (checkBalance_eq_ok calls).mp hbalance
  have hclosed : ∀ i, Builder.Closed (o.get i) := by
    intro i
    rcases Nat.lt_or_ge i o.size with hi | hi
    · exact buildSections_balanced hb hbalanced hout _ (hsections ▸ get_mem hi)
    · rw [get_eq_root hi]
      exact .nil
  set setup : Setup π σ := ⟨o, options, policy, sink'⟩
  have hperforms := events_performs (show Tree _ setup.outline.nodes from ht) target p s
  exact (checkBalance_eq_ok _).mpr
    (hperforms.openBehind? hclosed fun i hroot => ht.headingCalls_of_isRoot hroot)

/-- A page with paragraphs before and behind its only heading. -/
def paragraphs : List Call :=
  [Call.enter .paragraph, Call.text "Welcome", Call.exit .paragraph,
    ((Call.enter (.heading .atx)).withContext Call.outlineContext).withAttribute levelAttribute
      (.int 1),
    Call.text "News", Call.exit (.heading .atx), Call.enter .paragraph, Call.text "Today",
    Call.exit .paragraph]

theorem renditions_balanced_of_paragraphs :
    ∃ o, buildWith .strict (none : Option (MetadataSink Unit)) paragraphs () = .ok (o, ()) ∧
      checkBalance paragraphs = .ok () ∧ StartsOutside paragraphs ∧
      checkBalance (run ⟨o, {}, some (IntervalAdPolicy.policy {}), some PageMetadata.sink⟩
        .full () {}).1.calls = .ok () := by
  have hb : buildWith .strict (none : Option (MetadataSink Unit)) paragraphs () =
      .ok (_, ()) := rfl
  have hbalance : checkBalance paragraphs = .ok () := rfl
  have hout : StartsOutside paragraphs := by decide
  exact ⟨_, hb, hbalance, hout, renditions_balanced hb hbalance hout {}
    (some (IntervalAdPolicy.policy {})) (some PageMetadata.sink) .full () {}⟩

end Rendering

end WikiOutline
