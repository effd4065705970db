/-
# Markers survive the page

Every marker of a page is found again and its button read back, whatever stands in the
button and around the marker.  A button's text has no angle bracket, so the closing of its
marker cannot be found inside it; and the opening of a marker has one at its very
beginning only, so no text that stands before a marker can share a part of it.

Key definitions: `EditButton.page`, `EditButton.rendered`.
Key theorems: `EditButton.cutAt_append`, `EditButton.firstMarker?_marker`,
`EditButton.splitMarkersUpTo_page`, `EditButton.ofJson_toJson`, `EditButton.markers_survive`.
-/
import Mathlib
import WikiOutline.EditButton.Marker
import WikiOutline.Proofs.Decoding

namespace WikiOutline

namespace EditButton

/-! ### The text of a button -/

/-- Angle brackets are spelled as escapes. -/
theorem respelling_escapeBracket : Json.Respelling escapeBracket where
  other c hl hr := by
    unfold escapeBracket
    rw [if_neg hl, if_neg hr]
  less := Json.Spelled.byNumber (n := 0x3c) (by decide) .nil
  greater := Json.Spelled.byNumber (n := 0x3e) (by decide) .nil

theorem escapeBracket_bracketless (c : Char) : Json.Bracketless (escapeBracket c) := by
  unfold escapeBracket
  split_ifs with hl hr
  · simp [Json.Bracketless]
  · simp [Json.Bracketless]
  · intro d hd
    rw [List.mem_singleton.mp hd]
    exact ⟨hl, hr⟩

/-- No angle bracket is in the text of a button. -/
theorem toJsonChars_bracketless (b : EditButton) : Json.Bracketless b.toJsonChars := fun c hc => by
  obtain ⟨d, -, hd⟩ := List.mem_flatMap.mp hc
  exact escapeBracket_bracketless d c hd

/-- The members of the tree of a button. -/
def members (b : EditButton) : List (String × Json) :=
  [("target", .string b.target), ("wiki-id", .string b.wikiId), ("form-id", .string b.formId),
    ("message", .string b.message), ("range", .string b.range)] ++
    (b.headingId.map fun id => ("hid", Json.string id)).toList ++ [("secid", .ofNat b.sectionId)]

theorem tree_eq (b : EditButton) : b.tree = .record b.members := by
  unfold tree members Json.recordOf
  cases b.headingId <;> rfl

theorem exact_tree {b : EditButton} (h : b.sectionId ≤ Word.maxNat) : b.tree.Exact := by
  rw [tree_eq]
  refine .record fun m hm => ?_
  unfold members at hm
  simp only [List.mem_append, List.mem_cons, List.not_mem_nil, or_false, Option.mem_toList,
    Option.map_eq_some_iff] at hm
  rcases hm with ((rfl | rfl | rfl | rfl | rfl) | ⟨id, -, rfl⟩) | rfl
  · exact .string _
  · exact .string _
  · exact .string _
  · exact .string _
  · exact .string _
  · exact .string _
  · exact .natural h

/-- The text of a button stands in braces. -/
theorem exists_toJsonChars_eq (b : EditButton) :
    ∃ body, b.toJsonChars = '{' :: (body ++ ['}']) := by
  have htext : b.toJsonChars = Json.text escapeBracket (.record b.members) := by
    rw [← tree_eq]
    rfl
  unfold members at htext
  rw [List.append_assoc, List.cons_append, respelling_escapeBracket.text_record_cons] at htext
  exact ⟨_, htext.trans (congrArg _ (by rw [← List.append_assoc, ← List.cons_append]))⟩

/-- A button reads back from its tree. -/
theorem decoder_tree (b : EditButton) (depth : Nat) : decoder (depth + 2) b.tree = .ok b := by
  obtain ⟨target, wikiId, formId, message, range, headingId, sectionId⟩ := b
  cases headingId <;> rfl

/-- **A button reads back from its text.** -/
theorem ofJson_toJson {b : EditButton} (h : b.sectionId ≤ Word.maxNat) :
    ofJson b.toJson = .ok b := by
  have hread : Json.read b.toJson = ⟨b.tree, true⟩ :=
    Json.read_text respelling_escapeBracket (exact_tree h)
  unfold ofJson Json.decode
  rw [hread]
  show (decoder (126 + 2) b.tree >>= _) = _
  rw [decoder_tree]
  rfl

/-! ### Searching -/

theorem afterPattern?_append (rest : List Char) : ∀ p : List Char,
    afterPattern? p (p ++ rest) = some rest
  | [] => rfl
  | c :: p => by
    rw [List.cons_append, afterPattern?, if_pos rfl, afterPattern?_append rest p]

theorem afterPattern?_eq_none : ∀ {p cs : List Char}, ¬ p <+: cs → afterPattern? p cs = none
  | [], cs, h => absurd (List.nil_prefix) h
  | _ :: _, [], _ => rfl
  | q :: p, c :: cs, h => by
    by_cases hq : q = c
    · rw [afterPattern?, if_pos hq]
      exact afterPattern?_eq_none fun hp => h (List.cons_prefix_cons.mpr ⟨hq, hp⟩)
    · rw [afterPattern?, if_neg hq]

theorem cutAt_here (p rest : List Char) : cutAt p (p ++ rest) = some ([], rest) := by
  have hp := afterPattern?_append rest p
  cases heq : p ++ rest with
  | nil =>
    rw [heq] at hp
    rw [cutAt, hp]
    rfl
  | cons c cs =>
    rw [heq] at hp
    rw [cutAt, hp]

theorem cutAt_later {p cs : List Char} {c : Char} (h : ¬ p <+: c :: cs) :
    cutAt p (c :: cs) = (cutAt p cs).map fun r => (c :: r.1, r.2) := by
  rw [cutAt, afterPattern?_eq_none h]

/-- A search finds nothing where the pattern does not stand. -/
theorem cutAt_eq_none {p : List Char} : ∀ {cs : List Char}, ¬ p <:+: cs → cutAt p cs = none
  | [], h => by
    rw [cutAt, afterPattern?_eq_none fun hp => h hp.isInfix]
    rfl
  | c :: cs, h => by
    rw [cutAt_later fun hp => h hp.isInfix, cutAt_eq_none fun hi => h (List.infix_cons hi)]
    rfl

/-- A search cuts where the pattern stands for the first time: the pattern must not stand
anywhere before its last character has come. -/
theorem cutAt_append {p : List Char} {q : Char} (rest : List Char) : ∀ {before : List Char},
    ¬ p ++ [q] <:+: before ++ p →
      cutAt (p ++ [q]) (before ++ (p ++ q :: rest)) = some (before, rest)
  | [], _ => by
    have hhere := cutAt_here (p ++ [q]) rest
    rwa [List.append_assoc] at hhere
  | c :: before, h => by
    have hfirst : ¬ p ++ [q] <+: c :: (before ++ (p ++ q :: rest)) := fun hp => by
      have hshort : p ++ [q] <+: c :: before ++ p := by
        refine List.prefix_of_prefix_length_le hp ?_ ?_
        · exact ⟨q :: rest, by simp⟩
        · simp
      exact h hshort.isInfix
    have hrest := cutAt_append rest fun hi => h (List.infix_cons hi)
    rw [List.cons_append, cutAt_later hfirst, hrest]
    rfl

/-- A word whose first letter comes once in it stands in no text that goes on with a part
of it, if it does not stand in the text. -/
theorem not_infix_append {a : Char} {p xs ys : List Char} (ha : a ∉ p)
    (hlen : ys.length < p.length) (h : ¬ a :: p <:+: xs) : ¬ a :: p <:+: xs ++ a :: ys := by
  rintro ⟨s, t, hst⟩
  rcases List.append_eq_append_iff.mp hst with ⟨u, hxs, -⟩ | ⟨u, hword, hys⟩
  · exact h ⟨s, u, hxs.symm⟩
  have hu : u.length ≤ ys.length + 1 := by
    have hl := congrArg List.length hys
    simp only [List.length_append, List.length_cons] at hl
    omega
  rcases List.append_eq_append_iff.mp hword with ⟨v, hxs, hv⟩ | ⟨v, -, hv⟩
  · cases v with
    | nil =>
      -- the word would lie in what comes behind the text
      have hl := congrArg List.length hv
      simp only [List.length_append, List.length_cons, List.length_nil] at hl
      omega
    | cons c v =>
      obtain ⟨-, hp⟩ := List.cons.inj hv
      cases u with
      | nil => exact h ⟨s, [], by rw [hxs, hv, List.append_nil, List.append_nil]⟩
      | cons d u =>
        -- the first letter of what comes behind the text lies inside the word
        obtain ⟨rfl, -⟩ := List.cons.inj hys
        exact ha (by rw [hp]; simp)
  · have hl := congrArg List.length hv
    simp only [List.length_append, List.length_cons] at hl
    omega

/-! ### Markers -/

theorem markerOpen_eq : markerOpen = '<' :: ['!', '-', '-', ' ', 'E', 'D', 'I', 'T'] := rfl

theorem bracedOpen_eq : bracedOpen = '<' :: ['!', '-', '-', ' ', 'E', 'D', 'I', 'T', '{'] := rfl

theorem bracedClose_eq : bracedClose = ['}', ' ', '-', '-'] ++ ['>'] := rfl

theorem not_infix_markerOpen {before : List Char} (h : ¬ bracedOpen <:+: before) :
    ¬ bracedOpen <:+: before ++ markerOpen := by
  rw [bracedOpen_eq, markerOpen_eq] at *
  exact not_infix_append (by decide) (by decide) h

theorem not_infix_close {body : List Char} (h : Json.Bracketless body) :
    ¬ ['}', ' ', '-', '-'] ++ ['>'] <:+: body ++ ['}', ' ', '-', '-'] := fun hi => by
  have hmem : '>' ∈ body ++ ['}', ' ', '-', '-'] := hi.subset (by decide)
  rcases List.mem_append.mp hmem with hm | hm
  · exact (h '>' hm).2 rfl
  · exact absurd hm (by decide)

/-- A marker is found where it stands, if no marker opens in the text before it. -/
theorem firstMarker?_marker {before : List Char} (b : EditButton) (rest : List Char)
    (h : ¬ bracedOpen <:+: before) :
    firstMarker? (before ++ (b.markerChars ++ rest)) = some (before, b.toJsonChars, rest) := by
  obtain ⟨body, hbody⟩ := b.exists_toJsonChars_eq
  have hbracketless : Json.Bracketless body := fun c hc =>
    b.toJsonChars_bracketless c (by rw [hbody]; simp [hc])
  -- the page up to the brace, the body, and the closing up to its last character
  have hpage : before ++ (b.markerChars ++ rest) =
      before ++ (markerOpen ++ '{' :: (body ++ (['}', ' ', '-', '-'] ++ '>' :: rest))) := by
    have hclose : markerClose = [' ', '-', '-', '>'] := rfl
    simp [markerChars, hbody, hclose]
  have hopen : cutAt bracedOpen (before ++ (b.markerChars ++ rest)) =
      some (before, body ++ (['}', ' ', '-', '-'] ++ '>' :: rest)) := by
    rw [hpage]
    exact cutAt_append _ (not_infix_markerOpen h)
  have hclose : cutAt bracedClose (body ++ (['}', ' ', '-', '-'] ++ '>' :: rest)) =
      some (body, rest) := by
    rw [bracedClose_eq]
    exact cutAt_append rest (not_infix_close hbracketless)
  unfold firstMarker?
  rw [hopen]
  show (cutAt bracedClose _ >>= _) = _
  rw [hclose, hbody]
  rfl

/-- A page with buttons in it, each shown behind the text before it. -/
def page (shown : EditButton → List Char) (parts : List (List Char × EditButton))
    (last : List Char) : List Char :=
  parts.flatMap (fun p => p.1 ++ shown p.2) ++ last

theorem page_cons (shown : EditButton → List Char) (p : List Char × EditButton)
    (parts : List (List Char × EditButton)) (last : List Char) :
    page shown (p :: parts) last = p.1 ++ (shown p.2 ++ page shown parts last) := by
  simp [page]

/-- **The markers of a page are found**, and nothing else is. -/
theorem splitMarkersUpTo_page {last : List Char} (hlast : ¬ bracedOpen <:+: last) :
    ∀ (parts : List (List Char × EditButton)) (fuel : Nat), parts.length < fuel →
      (∀ p ∈ parts, ¬ bracedOpen <:+: p.1) →
      splitMarkersUpTo fuel (page markerChars parts last) =
        (parts.map fun p => (p.1, p.2.toJsonChars), last)
  | _, 0, h, _ => absurd h (Nat.not_lt_zero _)
  | [], fuel + 1, _, _ => by
    have hnone : firstMarker? last = none := by
      unfold firstMarker?
      rw [cutAt_eq_none hlast]
      rfl
    show splitMarkersUpTo (fuel + 1) last = _
    rw [splitMarkersUpTo, hnone]
    rfl
  | p :: parts, fuel + 1, hfuel, htexts => by
    have hfirst := firstMarker?_marker p.2 (page markerChars parts last)
      (htexts p List.mem_cons_self)
    have hrest := splitMarkersUpTo_page hlast parts fuel (by simpa using hfuel)
      fun q hq => htexts q (List.mem_cons_of_mem p hq)
    rw [page_cons, splitMarkersUpTo, hfirst]
    simp only [hrest]
    rfl

theorem length_le_page (last : List Char) : ∀ parts : List (List Char × EditButton),
    parts.length ≤ (page markerChars parts last).length
  | [] => Nat.zero_le _
  | p :: parts => by
    have hrest := length_le_page last parts
    have hmarker : 1 ≤ p.2.markerChars.length := by
      unfold markerChars
      rw [markerOpen_eq]
      simp
    rw [page_cons]
    simp only [List.length_cons, List.length_append]
    omega

variable {σ : Type}

/-- A page with its buttons rendered in order; the state goes from one rendering to the
next. -/
def rendered (render : EditButton → σ → List Char × σ) :
    List (List Char × EditButton) → List Char → σ → List Char × σ
  | [], last, s => (last, s)
  | (before, b) :: parts, last, s =>
    let (shown, s) := render b s
    let (text, s) := rendered render parts last s
    (before ++ (shown ++ text), s)

/-- Without a state every button is shown by itself. -/
theorem rendered_stateless (shown : EditButton → List Char) (last : List Char) (s : σ) :
    ∀ parts : List (List Char × EditButton),
      rendered (fun b s => (shown b, s)) parts last s = (page shown parts last, s)
  | [] => rfl
  | p :: parts => by
    simp only [rendered, rendered_stateless shown last s parts, page_cons]

/-- The buttons that were found are read and rendered in order. -/
theorem renderMarkers_parts (render : EditButton → σ → List Char × σ) (last : List Char) :
    ∀ (parts : List (List Char × EditButton)) (s : σ),
      (∀ p ∈ parts, p.2.sectionId ≤ Word.maxNat) →
      ∃ text, renderMarkers render (parts.map fun p => (p.1, p.2.toJsonChars)) s =
          (.ok text, (rendered render parts last s).2) ∧
        text ++ last = (rendered render parts last s).1
  | [], s, _ => ⟨[], rfl, rfl⟩
  | (before, b) :: parts, s, h => by
    obtain ⟨text, hrest, htext⟩ := renderMarkers_parts render last parts (render b s).2
      fun q hq => h q (List.mem_cons_of_mem _ hq)
    have hbutton : ofJson (String.ofList b.toJsonChars) = .ok b :=
      ofJson_toJson (h (before, b) List.mem_cons_self)
    refine ⟨before ++ (render b s).1 ++ text, ?_, ?_⟩
    · rw [List.map_cons, renderMarkers, hbutton]
      simp only [hrest]
      rfl
    · rw [List.append_assoc, htext, List.append_assoc]
      rfl

/-- A page in which no text opens a marker is rendered button by button. -/
theorem replaceMarkers_page (render : EditButton → σ → List Char × σ)
    {parts : List (List Char × EditButton)} {last : List Char} (s : σ)
    (hparts : ∀ p ∈ parts, ¬ bracedOpen <:+: p.1 ∧ p.2.sectionId ≤ Word.maxNat)
    (hlast : ¬ bracedOpen <:+: last) :
    replaceMarkers render (page markerChars parts last) s =
      (.ok (rendered render parts last s).1, (rendered render parts last s).2) := by
  have hsplit : splitMarkers (page markerChars parts last) =
      (parts.map fun p => (p.1, p.2.toJsonChars), last) :=
    splitMarkersUpTo_page hlast parts _ (Nat.lt_succ_of_le (length_le_page last parts))
      fun p hp => (hparts p hp).1
  obtain ⟨text, hrender, htext⟩ :=
    renderMarkers_parts render last parts s fun p hp => (hparts p hp).2
  unfold replaceMarkers
  rw [hsplit]
  simp only [hrender, htext]

/-- **Markers survive the page.**  A page in which no text opens a marker is rendered
button by button, whatever is shown for the buttons, also where one rendering depends on
those before it.  And a button reads back from its text, which has no angle bracket. -/
theorem markers_survive :
    (∀ (render : EditButton → σ → List Char × σ) (parts : List (List Char × EditButton))
      (last : List Char) (s : σ),
      (∀ p ∈ parts, ¬ bracedOpen <:+: p.1 ∧ p.2.sectionId ≤ Word.maxNat) →
      ¬ bracedOpen <:+: last →
      replaceMarkers render (page markerChars parts last) s =
        (.ok (rendered render parts last s).1, (rendered render parts last s).2)) ∧
    (∀ (shown : EditButton → List Char) (parts : List (List Char × EditButton))
      (last : List Char) (s : σ),
      (∀ p ∈ parts, ¬ bracedOpen <:+: p.1 ∧ p.2.sectionId ≤ Word.maxNat) →
      ¬ bracedOpen <:+: last →
      replaceMarkers (fun b s => (shown b, s)) (page markerChars parts last) s =
        (.ok (page shown parts last), s)) ∧
    ∀ b : EditButton, b.sectionId ≤ Word.maxNat →
      ofJson b.toJson = .ok b ∧ '<' ∉ b.toJson.toList ∧ '>' ∉ b.toJson.toList := by
  refine ⟨?_, ?_, ?_⟩
  · intro render parts last s hparts hlast
    exact replaceMarkers_page render s hparts hlast
  · intro shown parts last s hparts hlast
    rw [replaceMarkers_page _ s hparts hlast, rendered_stateless]
  · intro b hb
    have hchars : b.toJson.toList = b.toJsonChars := String.toList_ofList
    rw [hchars]
    exact ⟨ofJson_toJson hb, fun h => (b.toJsonChars_bracketless _ h).1 rfl,
      fun h => (b.toJsonChars_bracketless _ h).2 rfl⟩

/-- A button whose label looks like the ends of a marker and like an escape. -/
def disguised : EditButton where
  target := "section"
  wikiId := "\"\\"
  formId := ""
  message := "\x7d --> <!-- EDIT\x7b \\u003c\n"
  range := "0-"
  headingId := some "\x7d"
  sectionId := Word.maxNat

theorem markers_survive_disguised :
    ¬ bracedOpen <:+: markerOpen ∧ ¬ bracedOpen <:+: bracedClose ∧
      replaceMarkers (fun b n => (if n = 0 then b.message.toList else ['!'], n + 1))
          (page markerChars [(markerOpen, disguised), ([], disguised)] bracedClose) 0 =
        (.ok (markerOpen ++ disguised.message.toList ++ ['!'] ++ bracedClose), 2) ∧
      ofJson disguised.toJson = .ok disguised := by
  have hopen : ¬ bracedOpen <:+: markerOpen := by decide
  have hclose : ¬ bracedOpen <:+: bracedClose := by decide
  obtain ⟨hstate, -, hform⟩ := markers_survive (σ := Nat)
  have hparts : ∀ p ∈ [(markerOpen, disguised), ([], disguised)],
      ¬ bracedOpen <:+: p.1 ∧ p.2.sectionId ≤ Word.maxNat := by
    refine List.forall_mem_cons.mpr ⟨⟨hopen, le_refl _⟩, List.forall_mem_singleton.mpr ⟨?_, le_refl _⟩⟩
    decide
  exact ⟨hopen, hclose, hstate _ _ _ 0 hparts hclose, (hform disguised (le_refl _)).1⟩

end EditButton

end WikiOutline
