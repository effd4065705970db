/-
# A build in another one

One build may stand in another one, with its sections moved by some places behind others,
what they are given rewritten, and something else in the place of the root.  If what the
second build takes is rewritten accordingly, every step of the first build is a step of
the second one (`Builder.Step.copies`): a paragraph is taken into a heading in both or in
neither, a section is started below the copy of the parent, and the sections that are
ended are the copies of those that are.  So a whole run is a run there
(`Builder.Run.copies`).

Key definitions: `Outline.Copying`, `Copying.image`, `Copying.sections`, `Copying.Lawful`,
`Builder.Copies`.
Key theorems: `Copying.sections_modify`, `Builder.closeSpans_copies`,
`Builder.Step.copies`, `Builder.Run.copies`.
-/
import WikiOutline.Proofs.Ends

namespace WikiOutline

namespace Outline

open Builder Reading

/-- The number of a section when `n` sections are put in behind the root. -/
def further (n i : Nat) : Nat := if i = 0 then 0 else i + n

/-- How a build stands in another one. -/
structure Copying where
  /-- What stands there for the root. -/
  front : Section → List Section
  /-- How much further on the other sections stand. -/
  shift : Nat
  /-- The level that a section counts as given, from the given one and its own. -/
  declared : Nat → Nat → Nat
  /-- What becomes of the first call of a section's heading. -/
  mark : Nat → Call → Call
  /-- What becomes of a call of the page. -/
  write : Reading → Call → Call
  /-- What becomes of the findings. -/
  notes : List Diagnostic → List Diagnostic
  /-- The largest end position of what stands before. -/
  maxEndPos : Option Nat

/-- Only the root lies at level 0. -/
theorem Tree.one_le_level {heads : List Call} {ns : List Node} (h : Tree heads ns) {i : Nat}
    (hi : 0 < i) (hlt : i < ns.length) : 1 ≤ (nodeAt ns i).level := by
  obtain ⟨p, -, -, hlevel, -⟩ := h.below i hi hlt
  omega

namespace Copying

variable (κ : Copying)

/-- The place of a section. -/
def place (i : Nat) : Nat := further κ.shift i

/-- What becomes of a section. -/
def image (i : Nat) (s : Section) : Section :=
  { s with
    declaredLevel := κ.declared s.declaredLevel s.level
    headingCalls := s.headingCalls.modifyHead (κ.mark i)
    children := s.children.map κ.place
    parent := s.parent.map κ.place }

/-- What becomes of the sections. -/
def sections (ss : List Section) : List Section :=
  κ.front (ss.headD .root) ++ (ss.mapIdx κ.image).tail

/-- What becomes of calls. -/
def page : Reading → List Call → List Call
  | _, [] => []
  | r, c :: cs => κ.write r c :: page (r.after c) cs

/-- The root stands for itself, and the other sections where they are. -/
def Plain : Prop := κ.shift = 0 ∧ ∀ r, κ.front r = [r]

/-- A call that begins a section begins the copy of it. -/
structure Starts (r : Reading) (c : Call) : Prop where
  readable : (κ.write r c).attributes.getInt? levelAttribute ≠ none
  level : effectiveLevel r.level (κ.write r c) = effectiveLevel r.level c
  declared : levelRead r.level (κ.write r c) =
    κ.declared (levelRead r.level c) (effectiveLevel r.level c)
  call : leveled (κ.write r c) (levelRead r.level (κ.write r c)) (effectiveLevel r.level c) =
    κ.mark (r.number + 1) (leveled c (levelRead r.level c) (effectiveLevel r.level c))
  notes : ∀ ds, κ.notes (ds ++ levelFindings r.level c ++ (skip? r.level c).toList) =
    κ.notes ds ++ levelFindings r.level (κ.write r c) ++ (skip? r.level (κ.write r c)).toList

/-- A call as it stands in a heading: media do not link there. -/
def unlinked (c : Call) : Call :=
  if c.tag.isMedia then c.withAttribute "linking" (.string "nolink") else c

/-- A build can stand in another one like this. -/
structure Lawful : Prop where
  front_length : ∀ r, (κ.front r).length = κ.shift + 1
  front_child : ∀ r i, κ.front { r with children := r.children ++ [i] } =
    (κ.front r).modify 0 fun s => { s with children := s.children ++ [κ.place i] }
  mark_text : ∀ i c, (κ.mark i c).labelText = c.labelText
  /-- Only attributes are rewritten, -/
  write_eq : ∀ r c, κ.write r c = { c with attributes := (κ.write r c).attributes }
  /-- none outside the headings, -/
  outside : ∀ r c, r.depth = 0 → r.starts c = false → κ.write r c = c
  /-- and inside only what is written anew there. -/
  inside : ∀ r c, r.depth ≠ 0 → unlinked (κ.write r c) = unlinked c
  starts : ∀ r c, r.starts c = true → c.attributes.getInt? levelAttribute ≠ none →
    κ.Starts r c

variable {κ}

/-! ### Places -/

@[simp] theorem place_zero : κ.place 0 = 0 := rfl

theorem place_of_pos {i : Nat} (h : 0 < i) : κ.place i = i + κ.shift :=
  if_neg (Nat.ne_of_gt h)

theorem place_lt {i j : Nat} : κ.place i < κ.place j ↔ i < j := by
  unfold place further
  split_ifs <;> omega

theorem page_append : ∀ (r : Reading) (cs ds : List Call),
    κ.page r (cs ++ ds) = κ.page r cs ++ κ.page (cs.foldl after r) ds
  | _, [], _ => rfl
  | r, c :: cs, ds => by
    rw [List.cons_append, page, page, page_append (r.after c) cs ds]
    rfl

/-! ### Sections -/

/-- Behind the front stand the images of the sections. -/
theorem getElem?_sections (h : κ.Lawful) (ss : List Section) {i : Nat} (hi : 0 < i) :
    (κ.sections ss)[i + κ.shift]? = ss[i]?.map (κ.image i) := by
  have hfront := h.front_length (ss.headD .root)
  rw [sections, List.getElem?_append_right (by omega), hfront, List.getElem?_tail,
    show i + κ.shift - (κ.shift + 1) + 1 = i by omega, List.getElem?_mapIdx]

theorem getElem?_sections_front (h : κ.Lawful) (ss : List Section) {i : Nat} (hi : i ≤ κ.shift) :
    (κ.sections ss)[i]? = (κ.front (ss.headD .root))[i]? := by
  have hfront := h.front_length (ss.headD .root)
  rw [sections, List.getElem?_append_left (by omega)]

theorem length_sections (h : κ.Lawful) {ss : List Section} (hne : ss ≠ []) :
    (κ.sections ss).length = ss.length + κ.shift := by
  have := List.length_pos_iff.mpr hne
  rw [sections, List.length_append, h.front_length, List.length_tail, List.length_mapIdx]
  omega

/-- A list that has the front and the images is the list of what becomes of the sections. -/
theorem eq_sections (h : κ.Lawful) {ss ts : List Section}
    (hfront : ∀ i ≤ κ.shift, ts[i]? = (κ.front (ss.headD .root))[i]?)
    (himage : ∀ i, 0 < i → ts[i + κ.shift]? = ss[i]?.map (κ.image i)) : ts = κ.sections ss := by
  refine List.ext_getElem? fun j => ?_
  rcases Nat.lt_or_ge κ.shift j with hj | hj
  · have h1 := himage (j - κ.shift) (by omega)
    have h2 := getElem?_sections h ss (show 0 < j - κ.shift by omega)
    rw [Nat.sub_add_cancel hj.le] at h1 h2
    rw [h1, h2]
  · rw [hfront j hj, getElem?_sections_front h ss hj]

/-- A change of a section but the root changes its image. -/
theorem sections_modify (h : κ.Lawful) {f f' : Section → Section} {ss : List Section} {i : Nat}
    (hi : 0 < i) (hf : ∀ s, ss[i]? = some s → κ.image i (f s) = f' (κ.image i s)) :
    (κ.sections ss).modify (i + κ.shift) f' = κ.sections (ss.modify i f) := by
  have hhead : (ss.modify i f).headD .root = ss.headD .root := by
    obtain ⟨k, rfl⟩ : ∃ k, i = k + 1 := ⟨i - 1, by omega⟩
    cases ss <;> rfl
  refine eq_sections h (fun j hj => ?_) fun j hj => ?_
  · have hne : i + κ.shift ≠ j := by omega
    rw [hhead, ← getElem?_sections_front h ss hj, List.getElem?_modify]
    simp [hne]
  · rw [List.getElem?_modify, getElem?_sections h ss hj, List.getElem?_modify]
    by_cases hij : i = j
    · subst hij
      cases hs : ss[i]? with
      | none => simp
      | some s => simp [hf s hs]
    · simp [hij]

/-- A new child of the root is a new child of what stands for it. -/
theorem sections_modify_zero (h : κ.Lawful) {ss : List Section} (hne : ss ≠ []) (i : Nat) :
    (κ.sections ss).modify 0 (fun s => { s with children := s.children ++ [κ.place i] }) =
      κ.sections (ss.modify 0 fun s => { s with children := s.children ++ [i] }) := by
  obtain ⟨r, ss, rfl⟩ := List.exists_cons_of_ne_nil hne
  have hlength := h.front_length r
  obtain ⟨t, ts, ht⟩ : ∃ t ts, κ.front r = t :: ts :=
    List.exists_cons_of_ne_nil (List.ne_nil_of_length_pos (by omega))
  have hfront := h.front_child r i
  unfold sections
  simp only [List.headD_cons, List.modify_zero_cons, List.mapIdx_cons, List.tail_cons]
  rw [hfront, ht]
  rfl

/-- A new section behind the others is a new one there. -/
theorem sections_concat {ss : List Section} (hne : ss ≠ []) (s : Section) :
    κ.sections (ss ++ [s]) = κ.sections ss ++ [κ.image ss.length s] := by
  obtain ⟨r, ss, rfl⟩ := List.exists_cons_of_ne_nil hne
  unfold sections
  rw [List.mapIdx_concat]
  simp

/-- In a plain copy the root is changed like the others. -/
theorem Plain.sections_modify_zero (h : κ.Plain) (f : Section → Section) {ss : List Section}
    (hne : ss ≠ []) : (κ.sections ss).modify 0 f = κ.sections (ss.modify 0 f) := by
  obtain ⟨r, ss, rfl⟩ := List.exists_cons_of_ne_nil hne
  unfold sections
  rw [h.2, h.2]
  simp

theorem Lawful.plainText_modifyHead (hκ : κ.Lawful) (i : Nat) (cs : List Call) :
    plainText (cs.modifyHead (κ.mark i)) = plainText cs := by
  cases cs with
  | nil => rfl
  | cons c cs => simp [plainText, hκ.mark_text]

/-- A call looks ahead to a paragraph just where it does so in the page as it was. -/
theorem Lawful.absorbs_page (hκ : κ.Lawful) (c : Call) (r : Reading) :
    ∀ calls : List Call, absorbs c (κ.page r calls).head? = absorbs c calls.head?
  | [] => rfl
  | n :: calls => by
    have hwrite := hκ.write_eq r n
    have htag : (κ.write r n).tag = n.tag := by rw [hwrite]
    have hexit : (κ.write r n).isExit = n.isExit := by rw [hwrite]; rfl
    simp only [page, List.head?_cons, absorbs, Option.any_some, htag, hexit]

/-- The copy of a new section is a new section. -/
theorem Starts.image_startedSection (hκ : κ.Lawful) {r : Reading} {c : Call}
    (h : κ.Starts r c) (p : Nat) :
    κ.image (r.number + 1)
        (startedSection c (levelRead r.level c) p (effectiveLevel r.level c)) =
      startedSection (κ.write r c) (levelRead r.level (κ.write r c)) (κ.place p)
        (effectiveLevel r.level c) := by
  have hwrite := hκ.write_eq r c
  have hstate : (κ.write r c).state = c.state := by rw [hwrite]
  have hstart : (κ.write r c).startPos = c.startPos := by rw [hwrite]
  have htext : plainText [κ.mark (r.number + 1)
      (leveled c (levelRead r.level c) (effectiveLevel r.level c))] =
        plainText [leveled c (levelRead r.level c) (effectiveLevel r.level c)] :=
    hκ.plainText_modifyHead (r.number + 1) [_]
  unfold startedSection
  simp only [hstate, hstart, h.call, htext]
  split
  · simp [Copying.image, h.declared]
  · simp [Copying.image, h.declared]

end Copying

namespace Builder

/-- The second build holds the sections of the first one as they stand there. -/
structure Copies (κ : Copying) (b b' : Builder) : Prop where
  sections : b'.sections = κ.sections b.sections
  current : b'.current = κ.place b.current
  openHeading : b'.openHeading = b.openHeading
  /-- Inside a heading nothing is taken into it, so what is noted there does not count. -/
  absorbing : b.openHeading = none → b'.absorbing = b.absorbing
  strict : b.strictness = .strict ∧ b'.strictness = .strict
  maxEndPos : b'.maxEndPos = max κ.maxEndPos b.maxEndPos
  diagnostics : b'.diagnostics = κ.notes b.diagnostics

variable {κ : Copying} {heads heads' : List Call} {b b' : Builder}

/-- The current section is not the root, or the root is copied like the others. -/
def Rooted (κ : Copying) (b : Builder) : Prop := 0 < b.current ∨ κ.Plain

theorem Sound.sections_ne (h : Sound heads b) : b.sections ≠ [] :=
  List.ne_nil_of_length_pos (by rw [h.length]; exact Nat.succ_pos _)

/-! ### Changes of the current section -/

/-- A change that goes along with copying changes the copy. -/
theorem Copies.modifyCurrent (h : Copies κ b b') (hκ : κ.Lawful) (hb : b.sections ≠ [])
    (hroot : Rooted κ b) {f : Section → Section}
    (hf : ∀ s, b.sections[b.current]? = some s →
      κ.image b.current (f s) = f (κ.image b.current s)) :
    Copies κ (b.modifyCurrent f) (b'.modifyCurrent f) := by
  refine ⟨?_, h.current, h.openHeading, h.absorbing, h.strict, h.maxEndPos, h.diagnostics⟩
  show b'.sections.modify b'.current f = κ.sections (b.sections.modify b.current f)
  rw [h.sections, h.current]
  rcases Nat.eq_zero_or_pos b.current with h0 | hpos
  · have hplain : κ.Plain := hroot.resolve_left (by omega)
    rw [h0, Copying.place_zero, hplain.sections_modify_zero f hb]
  · rw [Copying.place_of_pos hpos, Copying.sections_modify hκ hpos hf]

theorem Copies.pushContent (h : Copies κ b b') (hκ : κ.Lawful) (hb : b.sections ≠ [])
    (hroot : Rooted κ b) (c : Call) : Copies κ (b.pushContent c) (b'.pushContent c) :=
  h.modifyCurrent hκ hb hroot fun _ _ => rfl

/-- What a heading takes behind its first call, its copy takes. -/
theorem Copies.pushHeading (h : Copies κ b b') (hκ : κ.Lawful) (hb : b.sections ≠ [])
    (hroot : Rooted κ b) (hne : (b.get b.current).headingCalls ≠ []) (c : Call) :
    Copies κ (b.pushHeading c) (b'.pushHeading c) :=
  h.modifyCurrent hκ hb hroot fun s hs => by
    rw [get_eq_of_getElem? hs] at hne
    obtain ⟨d, ds, hd⟩ := List.exists_cons_of_ne_nil hne
    simp [Copying.image, hd]

theorem Copies.labelCurrent (h : Copies κ b b') (hκ : κ.Lawful) (hb : b.sections ≠ [])
    (hroot : Rooted κ b) : Copies κ b.labelCurrent b'.labelCurrent :=
  h.modifyCurrent hκ hb hroot fun s _ => by
    simp [Copying.image, hκ.plainText_modifyHead]

theorem noteEnd_maxEndPos (b : Builder) (c : Call) :
    (b.noteEnd c).maxEndPos = max b.maxEndPos c.endPos := by
  unfold Builder.noteEnd
  cases c.endPos <;> cases b.maxEndPos <;> simp [max_comm]

theorem max_ends_assoc (l m n : Option Nat) : max (max l m) n = max l (max m n) := by
  cases l <;> cases m <;> cases n <;> simp [max_assoc]

theorem Copies.noteEnd (h : Copies κ b b') {c c' : Call} (hc : c'.endPos = c.endPos) :
    Copies κ (b.noteEnd c) (b'.noteEnd c') where
  sections := by rw [noteEnd_sections, noteEnd_sections, h.sections]
  current := by rw [noteEnd_current, noteEnd_current, h.current]
  openHeading := by rw [noteEnd_openHeading, noteEnd_openHeading, h.openHeading]
  absorbing := fun ho => by
    rw [noteEnd_absorbing, noteEnd_absorbing, h.absorbing ((noteEnd_openHeading b c).symm.trans ho)]
  strict := by
    rw [noteEnd_strictness, noteEnd_strictness]
    exact h.strict
  maxEndPos := by rw [noteEnd_maxEndPos, noteEnd_maxEndPos, hc, h.maxEndPos, max_ends_assoc]
  diagnostics := by rw [noteEnd_diagnostics, noteEnd_diagnostics, h.diagnostics]

theorem Copies.endAbsorbing (h : Copies κ b b') : Copies κ b.endAbsorbing b'.endAbsorbing :=
  ⟨h.sections, h.current, h.openHeading, fun _ => rfl, h.strict, h.maxEndPos, h.diagnostics⟩

/-- A call inside a heading goes on with the heading in both builds. -/
theorem Copies.acceptInHeading (h : Copies κ b b') (hκ : κ.Lawful) (hb : b.sections ≠ [])
    (hroot : Rooted κ b) (hne : (b.get b.current).headingCalls ≠ []) (o : OpenHeading) {c c' : Call}
    (htag : c'.tag = c.tag) (hstate : c'.state = c.state)
    (hcall : Copying.unlinked c' = Copying.unlinked c) :
    Copies κ (b.acceptInHeading o c) (b'.acceptInHeading o c') := by
  have hafter : OpenHeading.after o c' = OpenHeading.after o c := by
    unfold OpenHeading.after
    rw [htag, hstate]
  have heq : ∀ (b : Builder) (c : Call), b.acceptInHeading o c =
      if (OpenHeading.after o c).depth = 0 then
        { (b.pushHeading (Copying.unlinked c)).labelCurrent with
            openHeading := none, absorbing := !(OpenHeading.after o c).style.isBlock }
      else
        { b.pushHeading (Copying.unlinked c) with openHeading := some (OpenHeading.after o c) } :=
    fun _ _ => rfl
  have hpushed := h.pushHeading hκ hb hroot hne (Copying.unlinked c)
  have hlabeled := hpushed.labelCurrent hκ (fun hnil => hb (List.modify_eq_nil_iff.mp hnil)) hroot
  rw [heq, heq, hafter, hcall]
  split
  · exact ⟨hlabeled.sections, hlabeled.current, rfl, fun _ => rfl, hlabeled.strict,
      hlabeled.maxEndPos, hlabeled.diagnostics⟩
  · exact ⟨hpushed.sections, hpushed.current, rfl, (fun ho => by cases ho), hpushed.strict,
      hpushed.maxEndPos, hpushed.diagnostics⟩

/-! ### Ending sections -/

theorem closeSpans_self (start p : Nat) (steps : Nat) (b : Builder) :
    closeSpans start p steps p b = b := by
  cases steps with
  | zero => rfl
  | succ steps => rw [closeSpans, if_pos rfl]

/-- **The walk up** from the copy of a section to the copy of one above it ends the copies
of those that the walk up there ends. -/
theorem closeSpans_copies (hκ : κ.Lawful) (start p : Nat) :
    ∀ (steps steps' id : Nat) {b b' : Builder}, Tree heads b.nodes → id < b.sections.length →
      Encloses b.nodes p id → id ≤ p + steps → κ.place id ≤ κ.place p + steps' →
      b'.sections = κ.sections b.sections →
      (closeSpans start (κ.place p) steps' (κ.place id) b').sections =
        κ.sections (closeSpans start p steps id b).sections
  | 0, steps', id, b, b', _, _, hp, hs, _, h => by
    obtain rfl : id = p := Nat.le_antisymm hs hp.1
    rw [closeSpans_self, closeSpans_self, h]
  | steps + 1, steps', id, b, b', ht, hid, hp, hs, hs', h => by
    rcases Nat.eq_or_lt_of_le hp.1 with rfl | hlt
    · rw [closeSpans_self, closeSpans_self, h]
    have hpos : 0 < id := by omega
    have hplaces : κ.place p < κ.place id := Copying.place_lt.mpr hlt
    obtain ⟨steps', rfl⟩ : ∃ k, steps' = k + 1 := ⟨steps' - 1, by omega⟩
    obtain ⟨q, hq, hbelow⟩ := ht.below id hpos (by rwa [length_nodes])
    have hparent : (b.get id).parent = some q := by
      rw [nodeAt_nodes] at hq
      exact hq
    have hparent' : (b'.get (κ.place id)).parent = some (κ.place q) := by
      have hget : b'.sections[κ.place id]? = some (κ.image id (b.get id)) := by
        rw [h, Copying.place_of_pos hpos, Copying.getElem?_sections hκ _ hpos,
          List.getElem?_eq_getElem hid]
        simp [get, hid]
      rw [get_eq_of_getElem? hget]
      simp [Copying.image, hparent]
    have hpq : Encloses b.nodes p q := (hbelow.encloses_iff.mp hp).resolve_left (by omega)
    have hqid : κ.place q < κ.place id := Copying.place_lt.mpr hbelow.1
    set ended : Section → Section := fun s =>
      { s with endPos := some (s.startPos.elim (start - 1) (max (start - 1))) } with hended
    have hnodes : (b.modify id ended).nodes = b.nodes := map_modify_eq _ _ _ _ fun _ _ => rfl
    have hlength : (b.modify id ended).sections.length = b.sections.length :=
      List.length_modify _ _ _
    have hsections : (b'.modify (κ.place id) ended).sections =
        κ.sections (b.modify id ended).sections := by
      show b'.sections.modify _ _ = κ.sections (b.sections.modify _ _)
      rw [h, Copying.place_of_pos hpos]
      exact Copying.sections_modify hκ hpos fun _ _ => rfl
    have hne : ¬ id = p := by omega
    have hne' : ¬ κ.place id = κ.place p := by omega
    rw [closeSpans, closeSpans, if_neg hne, if_neg hne', hparent, hparent']
    exact closeSpans_copies hκ start p steps steps' q (hnodes ▸ ht)
      (by rw [hlength]; have := hbelow.1; omega) (hnodes ▸ hpq) (by have := hbelow.1; omega)
      (by omega) hsections

/-- Leaving sections is copied. -/
theorem Copies.leaveSections (h : Copies κ b b') (hκ : κ.Lawful) (hb : Sound heads b) {c c' : Call}
    {p : Nat} (hstart : c'.startPos = c.startPos) (hp : Encloses b.nodes p b.current) :
    (b'.leaveSections c' (κ.place p)).sections = κ.sections (b.leaveSections c p).sections := by
  have hlength := hb.length
  have hlength' : b'.sections.length = b.sections.length + κ.shift := by
    rw [h.sections, Copying.length_sections hκ hb.sections_ne]
  have hplace : κ.place b.current ≤ b.current + κ.shift := by
    unfold Copying.place further
    split <;> omega
  unfold Builder.leaveSections
  rw [hstart]
  cases c.startPos with
  | none => exact h.sections
  | some start =>
    simp only
    rw [h.current]
    exact closeSpans_copies hκ start p _ _ b.current hb.tree (by omega) hp (by omega) (by omega)
      h.sections

/-! ### Starting a section -/

theorem openSection_maxEndPos (b : Builder) (c : Call) (declared parent level : Nat) :
    (b.openSection c declared parent level).maxEndPos = b.maxEndPos := by
  unfold openSection
  rw [(leaveSections_frame b c parent).1]
  simp only
  split <;> rfl

theorem Copies.length (h : Copies κ b b') (hκ : κ.Lawful) (hb : Sound heads b) :
    b'.sections.length = b.sections.length + κ.shift := by
  rw [h.sections, Copying.length_sections hκ hb.sections_ne]

theorem Copies.get_eq (h : Copies κ b b') (hκ : κ.Lawful) {i : Nat} (hi : 0 < i)
    (hlt : i < b.sections.length) : b'.get (i + κ.shift) = κ.image i (b.get i) := by
  have hget : b'.sections[i + κ.shift]? = some (κ.image i (b.get i)) := by
    rw [h.sections, Copying.getElem?_sections hκ _ hi, List.getElem?_eq_getElem hlt]
    simp [get, hlt]
  exact get_eq_of_getElem? hget

theorem Copies.level_eq (h : Copies κ b b') (hκ : κ.Lawful) (hb : Sound heads b)
    (hb' : Sound heads' b') {i : Nat} (hlt : i < b.sections.length) :
    (nodeAt b'.nodes (κ.place i)).level = (nodeAt b.nodes i).level := by
  rcases Nat.eq_zero_or_pos i with rfl | hi
  · rw [Copying.place_zero, hb.tree.rootLevel, hb'.tree.rootLevel]
  · rw [Copying.place_of_pos hi, nodeAt_nodes_level, nodeAt_nodes_level, h.get_eq hκ hi hlt]
    rfl

/-- The copy of the nearest section above is the nearest one above the copy. -/
theorem Copies.below (h : Copies κ b b') (hκ : κ.Lawful) (hb : Sound heads b)
    (hb' : Sound heads' b') {level p : Nat} (hp : Below b.nodes level p b.nodes.length) :
    Below b'.nodes level (κ.place p) b'.nodes.length := by
  obtain ⟨hlt, hlevel, hbetween⟩ := hp
  have hlength := h.length hκ hb
  rw [length_nodes] at hlt hbetween ⊢
  refine ⟨?_, ?_, fun j h1 h2 => ?_⟩
  · unfold Copying.place further
    split <;> omega
  · rw [h.level_eq hκ hb hb' hlt, hlevel]
  · rcases Nat.eq_zero_or_pos p with rfl | hpos
    · rw [hb.tree.rootLevel] at hlevel
      have := hb'.tree.one_le_level (i := j) (by simpa using h1) (by rwa [length_nodes])
      omega
    · rw [Copying.place_of_pos hpos] at h1
      have hj := h.level_eq hκ hb hb' (i := j - κ.shift) (by omega)
      rw [Copying.place_of_pos (by omega), Nat.sub_add_cancel (by omega)] at hj
      rw [hj]
      exact hbetween (j - κ.shift) (by omega) (by omega)

/-- Where the sections are copied, a build that starts one is copied. -/
theorem Copies.of_openSection {n n' : Builder} {c c' : Call} {d p l d' p' l' : Nat}
    (hstate : c'.state = c.state) (hstyle : c'.headingSyntax? = c.headingSyntax?)
    (hsections : (n'.openSection c' d' p' l').sections = κ.sections (n.openSection c d p l).sections)
    (hlength : n'.sections.length = κ.place n.sections.length)
    (hopen : n'.openHeading = n.openHeading)
    (hstrict : n.strictness = .strict ∧ n'.strictness = .strict)
    (hmax : n'.maxEndPos = max κ.maxEndPos n.maxEndPos)
    (hdiagnostics : n'.diagnostics = κ.notes n.diagnostics) :
    Copies κ (n.openSection c d p l) (n'.openSection c' d' p' l') := by
  refine ⟨hsections, ?_, ?_, fun hnone => ?_, ?_, ?_, ?_⟩
  · rw [openSection_current, openSection_current, hlength]
  · rw [openSection_openHeading, openSection_openHeading, hstate, hstyle, hopen]
  · rw [openSection_openHeading] at hnone
    split at hnone
    · rename_i hspecial
      rw [openSection_absorbing _ hspecial, openSection_absorbing _ (hstate ▸ hspecial), hstyle]
    · cases hnone
  · rw [openSection_strictness, openSection_strictness]
    exact hstrict
  · rw [openSection_maxEndPos, openSection_maxEndPos, hmax]
  · rw [openSection_diagnostics, openSection_diagnostics, hdiagnostics]

/-- A new section is copied, and what it leaves. -/
theorem Copies.openSection (h : Copies κ b b') (hκ : κ.Lawful) (hb : Sound heads b) {c : Call}
    {p : Nat} (hp : Below b.nodes (effectiveLevel b.reading.level c) p b.nodes.length)
    (hc : κ.Starts b.reading c) :
    Copies κ
      (b.openSection c (levelRead b.reading.level c) p (effectiveLevel b.reading.level c))
      (b'.openSection (κ.write b.reading c) (levelRead b.reading.level (κ.write b.reading c))
        (κ.place p) (effectiveLevel b.reading.level c)) := by
  have hwrite := hκ.write_eq b.reading c
  have hstate : (κ.write b.reading c).state = c.state := by rw [hwrite]
  have hstyle : (κ.write b.reading c).headingSyntax? = c.headingSyntax? := by rw [hwrite]; rfl
  have hstart : (κ.write b.reading c).startPos = c.startPos := by rw [hwrite]
  have himage := hc.image_startedSection hκ p
  have hnumber : b.reading.number + 1 = b.sections.length := hb.length.symm
  obtain ⟨hlt, hlevel, hbetween⟩ := hp
  rw [length_nodes] at hlt hbetween
  have hlength := hb.length
  have hgoes : Encloses b.nodes p b.current :=
    ⟨by omega, fun m h1 h2 => by have := hbetween m h1 (by omega); omega⟩
  have hplace : κ.place b.sections.length = b'.sections.length := by
    rw [Copying.place_of_pos (by omega), h.length hκ hb]
  set L := (b.leaveSections c p).sections with hL
  have hlengthL : L.length = b.sections.length := length_leaveSections b c p
  have hneL : L ≠ [] := List.ne_nil_of_length_pos (by omega)
  have hchild : (κ.sections L).modify (κ.place p)
        (fun s => { s with children := s.children ++ [κ.place b.sections.length] }) =
      κ.sections (L.modify p fun s =>
        { s with children := s.children ++ [b.sections.length] }) := by
    rcases Nat.eq_zero_or_pos p with rfl | hpos
    · exact Copying.sections_modify_zero hκ hneL _
    · rw [Copying.place_of_pos hpos]
      exact Copying.sections_modify hκ hpos fun s _ => by simp [Copying.image]
  refine .of_openSection hstate hstyle ?_ hplace.symm h.openHeading h.strict h.maxEndPos
    h.diagnostics
  rw [openSection_sections, openSection_sections, h.leaveSections hκ hb hstart hgoes, ← hL,
    ← hplace, hchild, Copying.sections_concat (by simpa using hneL), List.length_modify, hlengthL,
    ← hnumber, himage]

/-- **A section that is started** is copied to one that is started. -/
theorem Copies.startSection (h : Copies κ b b') (hκ : κ.Lawful) (hb : Sound heads b)
    (hb' : Sound heads' b') (ho : b.openHeading = none) {c : Call}
    (hst : b.reading.starts c = true) {b₁ : Builder} (hs : b.startSection c = .ok b₁) :
    ∃ b₁', b'.startSection (κ.write b.reading c) = .ok b₁' ∧ Copies κ b₁ b₁' := by
  have hc := hκ.starts b.reading c hst ((startSection_sound hb ho hs).readable h.strict.1)
  have hlevel : (b'.get b'.current).level = b.reading.level := by
    have hlt : b.current < b.sections.length := by
      rw [hb.length]
      exact Nat.lt_succ_self _
    have heq := h.level_eq hκ hb hb' hlt
    rwa [← h.current, nodeAt_nodes_level, nodeAt_nodes_level] at heq
  obtain ⟨p, hp, heq⟩ := startSection_eq hb c
  obtain ⟨p', hp', heq'⟩ := startSection_eq hb' (κ.write b.reading c)
  rw [hlevel, hc.level] at hp' heq'
  have hcopy := h.below hκ hb hb' hp
  obtain rfl : p' = κ.place p := hp'.unique hcopy
  rw [hs] at heq
  split at heq
  · cases heq
  rw [if_neg fun hn => hc.readable hn.1] at heq'
  refine ⟨_, heq', ?_⟩
  rw [Except.ok.inj heq]
  -- the findings are noted before the section is opened
  have hnoted : Copies κ
      { b with diagnostics := b.diagnostics ++ levelFindings b.reading.level c ++
          (skip? b.reading.level c).toList }
      { b' with diagnostics := b'.diagnostics ++
          levelFindings b.reading.level (κ.write b.reading c) ++
          (skip? b.reading.level (κ.write b.reading c)).toList } :=
    ⟨h.sections, h.current, h.openHeading, h.absorbing, h.strict, h.maxEndPos, by
      rw [hc.notes, h.diagnostics]⟩
  exact hnoted.openSection hκ ⟨hb.tree, hb.current, hb.opened, hb.absorbing⟩ hp hc

/-! ### Steps and runs -/

theorem Copies.pushHeading_noteEnd (h : Copies κ b b') (hκ : κ.Lawful) (hb : Sound heads b)
    (hroot : Rooted κ b) (ha : b.absorbing = true) (c : Call) :
    Copies κ ((b.noteEnd c).endAbsorbing.pushHeading c)
      ((b'.noteEnd c).endAbsorbing.pushHeading c) := by
  have hnoted : Copies κ (b.noteEnd c).endAbsorbing (b'.noteEnd c).endAbsorbing :=
    (h.noteEnd rfl).endAbsorbing
  refine hnoted.pushHeading hκ ?_ ?_ (hb.endAbsorbing_headingCalls_ne ha c) c
  · exact (noteEnd_sections b c).symm ▸ hb.sections_ne
  · exact hroot.imp_left fun hpos => (noteEnd_current b c).symm ▸ hpos

/-- **Every step** is a step of the build that copies. -/
theorem Step.copies {b₁ : Builder} {taken rest : List Call} (h : Step b taken rest b₁)
    (hκ : κ.Lawful) (hc : Copies κ b b') (hb : Sound heads b) (hb' : Sound heads' b')
    (hroot : Rooted κ b) :
    ∃ b₁', Step b' (κ.page b.reading taken) (κ.page b₁.reading rest) b₁' ∧ Copies κ b₁ b₁' := by
  have hne : ∀ c, (b.noteEnd c).sections ≠ [] := fun c =>
    (noteEnd_sections b c).symm ▸ hb.sections_ne
  have hrooted : ∀ c, Rooted κ (b.noteEnd c) := fun c =>
    hroot.imp_left fun hpos => (noteEnd_current b c).symm ▸ hpos
  have hwrite := hκ.write_eq b.reading
  have htag : ∀ c, (κ.write b.reading c).tag = c.tag := fun c => by rw [hwrite]
  have hstate : ∀ c, (κ.write b.reading c).state = c.state := fun c => by rw [hwrite]
  have hend : ∀ c, (κ.write b.reading c).endPos = c.endPos := fun c => by rw [hwrite]
  -- outside a heading, what begins no section is taken as it is
  have houtside : b.openHeading = none → ∀ c, isOutlineHeading c = false →
      κ.write b.reading c = c ∧ b.reading.after c = b.reading := fun ho c hh => by
    have hdepth : b.reading.depth = 0 := by simp [Builder.reading, ho]
    have hst := starts_of_not_heading b.reading hh
    exact ⟨hκ.outside _ _ hdepth hst, after_of_outside hst hdepth⟩
  cases h with
  | @inHeading o c _ ho =>
    obtain ⟨hd, h0⟩ := hb.opened o ho
    have hdepth : b.reading.depth ≠ 0 := by simpa [Builder.reading, ho] using hd
    refine ⟨_, .inHeading (hc.openHeading.trans ho), ?_⟩
    exact (hc.noteEnd (hend c)).acceptInHeading hκ (hne c) (hrooted c)
      (headingCalls_ne_congr (nodes_noteEnd b c) (noteEnd_current b c) (hb.headingCalls_ne h0)) o
      (htag c) (hstate c) (hκ.inside _ _ hdepth)
  | @start _ c _ ho hh hs heq =>
    have hreading : (b.noteEnd c).reading = b.reading :=
      reading_congr (nodes_noteEnd b c) (noteEnd_current b c) (by rw [noteEnd_openHeading])
    obtain ⟨b₁', heq', hcopies⟩ := (hc.noteEnd (hend c)).startSection hκ (hb.noteEnd c)
      (hb'.noteEnd _) (by rw [noteEnd_openHeading, ho])
      (by rw [hreading]; exact starts_of_closed ho hh hs) heq
    rw [hreading] at heq'
    have hh' : isOutlineHeading (κ.write b.reading c) = true := by
      rw [hwrite]
      exact hh
    exact ⟨b₁', .start (hc.openHeading.trans ho) hh' (by rwa [hstate]) heq', hcopies⟩
  | stray _ _ _ _ hl =>
    rw [hc.strict.1] at hl
    cases hl
  | @fold c _ ho hh ha hp hx =>
    have hcall : κ.page b.reading [c] = [c] := by
      rw [Copying.page, (houtside ho c hh).1]
      rfl
    rw [hcall]
    exact ⟨_, .fold (hc.openHeading.trans ho) hh ((hc.absorbing ho).trans ha) hp hx,
      hc.pushHeading_noteEnd hκ hb hroot ha c⟩
  | @foldPair c n _ ho hh ha hp he hnp hnx =>
    have hn := isOutlineHeading_of_isParagraph hnp
    have hcall : κ.page b.reading [c, n] = [c, n] := by
      rw [Copying.page, Copying.page, (houtside ho c hh).1, (houtside ho c hh).2,
        (houtside ho n hn).1]
      rfl
    have hfirst := hc.pushHeading_noteEnd hκ hb hroot ha c
    have hheading := hb.endAbsorbing_headingCalls_ne ha c
    rw [hcall]
    have habsorbing : b'.absorbing = true := (hc.absorbing ho).trans ha
    refine ⟨_, .foldPair (hc.openHeading.trans ho) hh habsorbing hp he hnp hnx, ?_⟩
    refine hfirst.pushHeading hκ ?_ (hrooted c) ?_ n
    · exact fun hnil => hne c (List.modify_eq_nil_iff.mp hnil)
    · exact headingCalls_ne_congr (nodes_pushHeading hheading c) rfl hheading
  | @content c _ ho hh ha =>
    have hcall : κ.page b.reading [c] = [c] := by
      rw [Copying.page, (houtside ho c hh).1]
      rfl
    rw [hcall]
    refine ⟨_, .content (hc.openHeading.trans ho) hh ?_, ?_⟩
    · rw [hc.absorbing ho, hκ.absorbs_page]
      exact ha
    · exact (hc.noteEnd rfl).endAbsorbing.pushContent hκ (hne c) (hrooted c) c

/-- **Every run** is a run of the build that copies. -/
theorem Run.copies {b₁ : Builder} {calls rest : List Call} (h : Run b calls rest b₁)
    (hκ : κ.Lawful) : ∀ {heads heads' : List Call} {b' : Builder}, Copies κ b b' →
      Sound heads b → Sound heads' b' → Rooted κ b →
      ∃ b₁', Run b' (κ.page b.reading calls) (κ.page b₁.reading rest) b₁' ∧ Copies κ b₁ b₁' := by
  induction h with
  | refl => exact fun hc _ _ _ => ⟨_, .refl, hc⟩
  | @step b b₁ b₂ taken calls rest hs _ ih =>
    intro heads heads' b' hc hb hb' hroot
    obtain ⟨b₁', hs', hc₁⟩ := hs.copies hκ hc hb hb' hroot
    obtain ⟨hb₁, hreading⟩ := hs.sound hb
    obtain ⟨hb₁', -⟩ := hs'.sound hb'
    have hroot₁ : Rooted κ b₁ := hroot.imp_left fun hpos => by
      have h1 := hb.current
      have h2 := hb₁.current
      rw [List.length_append] at h2
      omega
    obtain ⟨b₂', hr', hc₂⟩ := ih hc₁ hb₁ hb₁' hroot₁
    refine ⟨b₂', ?_, hc₂⟩
    rw [Copying.page_append, ← hreading]
    exact .step hs' hr'

/-! ### Strict builds -/

/-- A run that begins a strict build goes on strictly. -/
theorem Run.strict {calls rest : List Call} (h : Run { strictness := .strict } calls rest b) :
    ∃ heads, Sound heads b ∧ b.strictness = .strict := by
  obtain ⟨heads, hb, hs, -⟩ := h.grows (Q := fun _ b => b.strictness = .strict)
    (fun h hb hq => (h.strictness hb).trans hq) (sound_init .strict) rfl
  exact ⟨heads, hb, hs⟩

/-- A strict build is a run that takes all calls and leaves no heading open. -/
theorem buildSections_strict_iff {calls : List Call} {b : Builder} :
    buildSections .strict calls = .ok b ↔
      Run { strictness := .strict } calls [] b ∧ b.openHeading = none := by
  constructor
  · intro h
    obtain ⟨b₀, hr, hf⟩ := buildSections_run h
    obtain ⟨-, -, hs⟩ := hr.strict
    obtain rfl := finish_strict hf hs
    refine ⟨hr, ?_⟩
    unfold finish at hf
    split at hf
    · assumption
    · obtain ⟨b₁, h₁, -⟩ := map_eq_ok hf
      obtain ⟨hl, -⟩ := internal_eq_ok.mp h₁
      rw [show b.strictness = .lenient from hl] at hs
      cases hs
  · rintro ⟨hr, ho⟩
    have ha : acceptAll calls { strictness := .strict } = .ok b := hr.acceptAll_eq
    unfold buildSections
    rw [ha]
    show b.finish = .ok b
    rw [finish, ho]

end Builder

end Outline

end WikiOutline
