/-
# Where the calls of a rendition come from

A rendition falls into stretches of calls that come from one place each: the heading of a
section, its text, its edit button, or the rendition itself, which adds divisions, headers
and advertisements.  What two parts of a rendition are composed of, they are composed of
together (`Composes.append`), and an edit button may come behind the heading of its own
section (`Composes.button`).  So it is enough to look at one section that is opened
(`Opens.composes`), to see that a whole rendition has the heading of every section once, in
order, with its id (`composes_run`).

Key definitions: `Rendering.Stretch`, `Rendering.Edits`, `Rendering.Stretch.Stems`,
`Rendering.Composed`, `Rendering.Composes`.
Key theorems: `Rendering.Composes.append`, `Rendering.Opens.composes`,
`Rendering.composes_run`.
-/
import WikiOutline.Proofs.Markers
import WikiOutline.Proofs.Shape

namespace WikiOutline

namespace Rendering

open Outline

/-- Where calls of a rendition come from. -/
inductive Origin where
  | heading (i : Nat)
  | text (i : Nat)
  | button (i : Nat)
  /-- The rendition itself. -/
  | frame

namespace Origin

/-- The section whose heading it is. -/
def heading? : Origin → Option Nat
  | .heading i => some i
  | _ => none

/-- The section whose text it is. -/
def text? : Origin → Option Nat
  | .text i => some i
  | _ => none

end Origin

/-- Calls that stand together in a rendition and come from one place. -/
structure Stretch where
  origin : Origin
  calls : List Call

/-- A call is the edit button of section `i`, the `k`-th one: its payload reads back as a
button with the id of the section, as long as the number is one that a machine word can
hold.  No number is larger than the number of sections. -/
structure Edits (o : Outline) (options : Options) (ids : Nat → String) (c : Call) (i k : Nat) :
    Prop where
  special : c.tag = .editButton ∧ c.state = .special
  number : k ≤ o.size
  secid : c.attributes.get? "secid" = some (.ofNat k)
  exact : (k : Int) ≤ Word.maxInt → c.attributes.getInt? "secid" = some (k : Int)
  payload : ∃ start json, (o.get i).startPos = some start ∧ c.payload = some json ∧
    (k ≤ Word.maxNat → EditButton.ofJson json = .ok
      { target := "section", wikiId := options.wikiId, formId := "edit-section-" ++ toString k
        message := (o.get i).label
        range := match (o.get i).endPos with
          | some e => toString start ++ "-" ++ toString e
          | none => toString start ++ "-"
        headingId := some (ids i), sectionId := k })

/-- A call that a rendition writes of its own: of a division, a header or an advertisement. -/
def IsFrame (c : Call) : Prop := c.tag = .division ∨ c.tag = .header ∨ c.tag = .adMarker

/-- The calls of a stretch are those of the place that it comes from: a heading has the id of
its section on its first call, and in a text one medium may be hidden. -/
inductive Stretch.Stems (o : Outline) (options : Options) (ids : Nat → String) : Stretch → Prop
  | heading (i : Nat) {c : Call} {cs : List Call} (h : (o.get i).headingCalls = c :: cs) :
    Stems o options ids ⟨.heading i, c.giving "id" (.string (ids i)) :: cs⟩
  | text (i : Nat) : Stems o options ids ⟨.text i, (o.get i).contentCalls⟩
  | hidden (i : Nat) {place : Nat} {c : Call} (h : (o.get i).contentCalls[place]? = some c)
    (hmedia : c.tag.isMedia = true) : Stems o options ids
      ⟨.text i, (o.get i).contentCalls.modify place fun c => c.giving "display" (.string "none")⟩
  | button (i : Nat) {c : Call} {k : Nat} (h : Edits o options ids c i k) :
    Stems o options ids ⟨.button i, [c]⟩
  | frame {c : Call} (h : IsFrame c) : Stems o options ids ⟨.frame, [c]⟩

/-- Calls of a rendition in stretches: the headings of some sections once each, the texts of
some once each, and edit buttons, each behind the heading of its own section and before the
next one. -/
structure Composed (o : Outline) (options : Options) (ids : Nat → String)
    (headings texts : List Nat) (calls : List Call) (stretches : List Stretch) : Prop where
  calls : calls = stretches.flatMap Stretch.calls
  stems : ∀ st ∈ stretches, st.Stems o options ids
  headings : stretches.filterMap (fun st => st.origin.heading?) = headings
  texts : stretches.filterMap (fun st => st.origin.text?) = texts
  own : ∀ before st behind i, stretches = before ++ st :: behind → st.origin = .button i →
    (before.filterMap fun st => st.origin.heading?).getLast? = some i

/-- Calls of a rendition are the headings and the texts of some sections, each once and in
order, with their edit buttons, and what the rendition adds itself. -/
def Composes (o : Outline) (options : Options) (ids : Nat → String) (headings texts : List Nat)
    (calls : List Call) : Prop :=
  ∃ stretches, Composed o options ids headings texts calls stretches

variable {π σ : Type} {o : Outline} {options : Options} {ids : Nat → String}
  {hs hs' ts ts' : List Nat} {calls calls' : List Call}

/-! ### Putting stretches together -/

theorem Composes.nil : Composes o options ids [] [] [] := by
  refine ⟨[], rfl, fun st hst => ?_, rfl, rfl, fun before st behind i hsplit => ?_⟩
  · cases hst
  · cases before <;> cases hsplit

theorem Composes.append (h : Composes o options ids hs ts calls)
    (h' : Composes o options ids hs' ts' calls') :
    Composes o options ids (hs ++ hs') (ts ++ ts') (calls ++ calls') := by
  obtain ⟨stretches, h⟩ := h
  obtain ⟨stretches', h'⟩ := h'
  refine ⟨stretches ++ stretches', ?_, fun st hst => ?_, ?_, ?_,
    fun before st behind i hsplit hst => ?_⟩
  · rw [List.flatMap_append, ← h.calls, ← h'.calls]
  · rcases List.mem_append.mp hst with hst | hst
    · exact h.stems st hst
    · exact h'.stems st hst
  · rw [List.filterMap_append, h.headings, h'.headings]
  · rw [List.filterMap_append, h.texts, h'.texts]
  · rcases List.append_eq_append_iff.mp hsplit with ⟨before', rfl, hbehind⟩ | ⟨rest, hfirst, hrest⟩
    · rw [List.filterMap_append, List.getLast?_append, h'.own before' st behind i hbehind hst]
      rfl
    · cases rest with
      | nil => cases h'.own [] st behind i hrest.symm hst
      | cons st' rest =>
        obtain ⟨rfl, -⟩ := List.cons.inj hrest
        exact h.own before st rest i hfirst hst

/-- A stretch that is no edit button may stand by itself. -/
theorem Composes.single {st : Stretch} (h : st.Stems o options ids)
    (hbutton : ∀ i, st.origin ≠ .button i) :
    Composes o options ids st.origin.heading?.toList st.origin.text?.toList st.calls := by
  refine ⟨[st], ?_, fun st' hst' => ?_, ?_, ?_, fun before st' behind i hsplit hst' => ?_⟩
  · rw [List.flatMap_singleton]
  · rw [List.mem_singleton.mp hst']
    exact h
  · rw [List.filterMap_cons]
    cases st.origin.heading? <;> rfl
  · rw [List.filterMap_cons]
    cases st.origin.text? <;> rfl
  · have hmem : st' ∈ [st] := hsplit ▸ List.mem_append_right before List.mem_cons_self
    rw [List.mem_singleton.mp hmem] at hst'
    exact absurd hst' (hbutton i)

/-- An edit button may come behind the heading of its own section. -/
theorem Composes.button (h : Composes o options ids hs ts calls) {i k : Nat} {c : Call}
    (hlast : hs.getLast? = some i) (hc : Edits o options ids c i k) :
    Composes o options ids hs ts (calls ++ [c]) := by
  obtain ⟨stretches, h⟩ := h
  refine ⟨stretches ++ [⟨.button i, [c]⟩], ?_, fun st hst => ?_, ?_, ?_,
    fun before st behind j hsplit hst => ?_⟩
  · rw [List.flatMap_append, ← h.calls, List.flatMap_singleton]
  · rcases List.mem_append.mp hst with hst | hst
    · exact h.stems st hst
    · rw [List.mem_singleton.mp hst]
      exact .button i hc
  · rw [List.filterMap_append, h.headings]
    exact List.append_nil _
  · rw [List.filterMap_append, h.texts]
    exact List.append_nil _
  · rcases List.eq_nil_or_concat behind with rfl | ⟨behind, last, rfl⟩
    · -- it is the button put last
      obtain ⟨rfl, hlast'⟩ := List.append_inj' hsplit rfl
      rw [← (List.cons.inj hlast').1] at hst
      obtain rfl := Origin.button.inj hst
      rw [h.headings]
      exact hlast
    · rw [List.concat_eq_append, ← List.cons_append, ← List.append_assoc] at hsplit
      obtain ⟨hfirst, -⟩ := List.append_inj' hsplit rfl
      exact h.own before st behind j hfirst hst

theorem Composes.frames : ∀ {cs : List Call}, (∀ c ∈ cs, IsFrame c) →
    Composes o options ids [] [] cs
  | [], _ => .nil
  | c :: _, h => (Composes.single (.frame (h c List.mem_cons_self)) fun _ hbutton => by
      cases hbutton).append (frames fun d hd => h d (List.mem_cons_of_mem c hd))

/-- The sections of some that have a heading. -/
def headedAmong (o : Outline) (sections : List Nat) : List Nat :=
  sections.filter fun i => !(o.get i).headingCalls.isEmpty

/-- A heading has its id on its first call. -/
theorem Composes.heading (o : Outline) (options : Options) (i : Nat) :
    Composes o options o.anchor (headedAmong o [i]) [] (o.headed i) := by
  cases hcalls : (o.get i).headingCalls with
  | nil =>
    rw [headedAmong, List.filter_cons_of_neg (by simp [hcalls]), headed, hcalls]
    exact .nil
  | cons c cs =>
    have hheaded : o.headed i = c.giving "id" (.string (o.anchor i)) :: cs := by
      rw [headed, hcalls, List.modifyHead_cons, Call.withAttribute_eq_giving]
    rw [headedAmong, List.filter_cons_of_pos (by simp [hcalls]), hheaded]
    exact .single (.heading i hcalls) fun _ hbutton => by cases hbutton

theorem Composes.text (o : Outline) (options : Options) (ids : Nat → String) (i : Nat) :
    Composes o options ids [] [i] (o.get i).contentCalls :=
  .single (.text i) fun _ hbutton => by cases hbutton

/-- A text may be searched for an image. -/
theorem Composes.captured (setup : Setup π σ) (options : Options) (ids : Nat → String)
    (s : State π σ) (i : Nat) : Composes setup.outline options ids [] [i]
      (captureFeaturedImage setup s (setup.outline.get i)).1 := by
  rcases captureFeaturedImage_calls setup s (setup.outline.get i) with
    h | ⟨place, c, hc, hmedia, h⟩
  · rw [h]
    exact .text _ _ _ i
  · simp only [Call.withAttribute_eq_giving] at h
    rw [h]
    exact .single (.hidden i hc hmedia) fun _ hbutton => by cases hbutton

/-! ### Opening a section -/

theorem headedAmong_cons (o : Outline) (i : Nat) (sections : List Nat) :
    headedAmong o (i :: sections) = headedAmong o [i] ++ headedAmong o sections :=
  List.filter_append [i] sections

/-- Portions have the headings of their sections. -/
theorem Composes.headings : ∀ {qs : List Portion}, (∀ q ∈ qs, q.heading = o.headed q.id) →
    Composes o options o.anchor (headedAmong o (qs.map Portion.id)) []
      (qs.flatMap Portion.heading)
  | [], _ => .nil
  | q :: qs, h => by
    have hq := Composes.heading o options q.id
    have hrest : Composes o options o.anchor (headedAmong o (qs.map Portion.id)) []
        (qs.flatMap Portion.heading) :=
      Composes.headings fun q' hq' => h q' (List.mem_cons_of_mem q hq')
    rw [List.map_cons, headedAmong_cons, List.flatMap_cons, h q List.mem_cons_self]
    exact hq.append hrest

theorem Composes.texts : ∀ {qs : List Portion},
    (∀ q ∈ qs, Composes o options ids [] [q.id] q.content) →
    Composes o options ids [] (qs.map Portion.id) (qs.flatMap Portion.content)
  | [], _ => .nil
  | q :: _, h => (h q List.mem_cons_self).append
      (texts fun q' hq' => h q' (List.mem_cons_of_mem q hq'))

/-- What a portion holds comes from its section. -/
theorem Opens.stems {setup : Setup π σ} {target : Target} {most i : Nat} {op : Opening}
    (ho : Opens setup target most i op) {q : Portion} (hq : q ∈ op.portions) :
    q.heading = setup.outline.headed q.id ∧
      Composes setup.outline setup.options setup.outline.anchor [] [q.id] q.content := by
  have hown : q = op.own → q.heading = setup.outline.headed q.id ∧
      Composes setup.outline setup.options setup.outline.anchor [] [q.id] q.content := by
    rintro rfl
    rw [ho.own]
    exact ⟨rfl, .text _ _ _ i⟩
  rcases List.mem_cons.mp hq with hq | hq
  · exact hown hq
  · rcases ho.merged with hm | ⟨-, -, s₀, hm⟩
    · rw [hm] at hq
      cases hq
    · rw [hm] at hq
      obtain rfl := List.mem_singleton.mp hq
      exact ⟨rfl, .captured setup _ _ s₀ 1⟩

/-- A section is opened with the headings and the texts of its portions, in this order; its
edit button comes behind them. -/
theorem Opening.calls_split (target : Target) (op : Opening)
    (hmarker : ∀ c, op.marker = some c → c.tag = .adMarker) :
    ∃ before between behind : List Call,
      op.calls target = before ++ op.portions.flatMap Portion.heading ++
        op.portions.flatMap Portion.content ++ between ++ op.button.toList ++ behind ∧
      (∀ c ∈ before, IsFrame c) ∧ (∀ c ∈ between, IsFrame c) ∧ ∀ c ∈ behind, IsFrame c := by
  set division := (Call.enter .division).withAttribute levelAttribute (.ofNat op.level)
  have hdivision : IsFrame division := .inl rfl
  have hheader : ∀ c ∈ [division, Call.enter .header], IsFrame c :=
    List.forall_mem_cons.mpr ⟨hdivision, List.forall_mem_singleton.mpr (.inr (.inl rfl))⟩
  have hadvertised : ∀ c ∈ op.marker.toList, IsFrame c := fun c hc =>
    .inr (.inr (hmarker c (Option.mem_toList.mp hc)))
  unfold Opening.calls arrange
  simp only
  split
  · exact ⟨division :: op.marker.toList, [], [], by simp [division],
      List.forall_mem_cons.mpr ⟨hdivision, hadvertised⟩, by simp, by simp⟩
  · split
    · exact ⟨[division, Call.enter .header], op.marker.toList, [Call.exit .header],
        by simp [division], hheader, hadvertised, List.forall_mem_singleton.mpr (.inr (.inl rfl))⟩
    · exact ⟨[division], op.marker.toList, [], by simp [division],
        List.forall_mem_singleton.mpr hdivision, hadvertised, by simp⟩

/-- The button of a section is read back as one for it. -/
theorem edits_buttonCall {i start k : Nat} (hstart : (o.get i).startPos = some start)
    (hk : k ≤ o.size) : Edits o options o.anchor (buttonCall o options i k) i k := by
  have hsecid : (buttonCall o options i k).attributes.get? "secid" = some (.ofNat k) :=
    Attributes.get?_set_self _ _ _
  refine ⟨⟨rfl, rfl⟩, hk, hsecid, fun hk => ?_, start, _, hstart, rfl, fun hk => ?_⟩
  · obtain ⟨w, hw, hint⟩ := AttributeValue.ofNat_eq_int hk
    rw [Attributes.getInt?, hsecid, Option.bind_some, hw, AttributeValue.asInt?, hint]
  · have hread := EditButton.ofJson_toJson (b := sectionButton o options i k) hk
    rw [hread, sectionButton, hstart]
    rfl

/-- **A section that is opened** gives its heading and its text, with what is merged into it,
and a button for its own heading. -/
theorem Opens.composes {heads : List Call} {setup : Setup π σ} {target : Target} {i : Nat}
    {op : Opening} (ho : Opens setup target setup.outline.size i op)
    (h : Tree heads setup.outline.nodes) (hi : i < setup.outline.size) :
    Composes setup.outline setup.options setup.outline.anchor
      (headedAmong setup.outline (op.portions.map Portion.id)) (op.portions.map Portion.id)
      (op.calls target) := by
  obtain ⟨before, between, behind, hcalls, hbefore, hbetween, hbehind⟩ :=
    op.calls_split target ho.marker
  have hheadings : Composes setup.outline setup.options setup.outline.anchor
      (headedAmong setup.outline (op.portions.map Portion.id)) []
      (op.portions.flatMap Portion.heading) :=
    .headings fun q hq => (ho.stems hq).1
  have htexts := Composes.texts fun q hq => (ho.stems hq).2
  have hown : Composes setup.outline setup.options setup.outline.anchor
      (headedAmong setup.outline (op.portions.map Portion.id)) (op.portions.map Portion.id)
      (before ++ op.portions.flatMap Portion.heading ++ op.portions.flatMap Portion.content ++
        between) := by
    simpa using (((Composes.frames hbefore).append hheadings).append htexts).append
      (.frames hbetween)
  rw [hcalls]
  cases hbutton : op.button with
  | none => simpa using hown.append (.frames hbehind)
  | some c =>
    obtain ⟨hne, start, k, hk, hstart, rfl⟩ := ho.button c hbutton
    -- what has a button has a heading, and nothing is merged into it
    have hlast : (headedAmong setup.outline (op.portions.map Portion.id)).getLast? = some i := by
      have hm : op.merged = none := ho.merged.resolve_right fun hm => hne hm.1
      have hheading := mt (h.headingCalls_eq_nil hi).mp hne
      rw [ho.portions hm]
      simp [headedAmong, hheading]
    simpa using (hown.button hlast (edits_buttonCall hstart hk)).append (.frames hbehind)

/-! ### Whole renditions -/

theorem headedAmong_range {heads : List Call} (h : Tree heads o.nodes) :
    headedAmong o (List.range o.size) = o.headedSections := by
  rw [headedSections, preOrder_eq h]
  refine List.filter_congr fun i hi => congrArg not ?_
  have hsize := List.mem_range.mp hi
  rw [h.isRoot hsize, Bool.eq_iff_iff, List.isEmpty_iff, beq_iff_eq]
  exact h.headingCalls_eq_nil hsize

/-- What is opened and closed is composed of what the openings are. -/
theorem composes_events {target : Target} : ∀ es : List Event,
    (∀ op ∈ openings es, Composes o options ids (headedAmong o (op.portions.map Portion.id))
      (op.portions.map Portion.id) (op.calls target)) →
    Composes o options ids (headedAmong o ((portions es).map Portion.id))
      ((portions es).map Portion.id) (es.flatMap (Event.calls target))
  | [], _ => .nil
  | .opened op :: es, h => by
    have hrest := composes_events es fun op' hop' => h op' (List.mem_cons_of_mem op hop')
    have hportions : (portions (.opened op :: es)).map Portion.id =
        op.portions.map Portion.id ++ (portions es).map Portion.id := List.map_append
    have hall := (h op List.mem_cons_self).append hrest
    rw [hportions, headedAmong, List.filter_append]
    exact hall
  | .closed :: es, h =>
    (Composes.frames (List.forall_mem_singleton.mpr (.inl rfl))).append (composes_events es h)

/-- **Where the calls of a rendition come from**: it has the heading of every section but the
root once, in order, each with its id, the text of every section once, and edit buttons, each
behind the heading of its section. -/
theorem composes_run {heads : List Call} {setup : Setup π σ} (h : Tree heads setup.outline.nodes)
    (target : Target) (p : π) (s : σ) :
    Composes setup.outline setup.options setup.outline.anchor setup.outline.headedSections
      (List.range setup.outline.size) (run setup target p s).1.calls := by
  obtain ⟨hheadings, hopens⟩ := events_headings h target p s
  have hids : (portions (events setup target p s).1).map Portion.id =
      List.range setup.outline.size := by
    have hfst := congrArg (List.map Prod.fst) hheadings
    rw [List.map_map, List.map_map] at hfst
    exact hfst.trans (List.map_id _)
  have hall : Composes setup.outline setup.options setup.outline.anchor
      (headedAmong setup.outline ((portions (events setup target p s).1).map Portion.id))
      ((portions (events setup target p s).1).map Portion.id) (run setup target p s).1.calls :=
    composes_events _ fun op hop => by
      obtain ⟨i, hi, ho⟩ := hopens op hop
      exact ho.composes h hi
  rw [hids, headedAmong_range h] at hall
  exact hall

end Rendering

end WikiOutline
