/-
# The nesting of the calls of any events

Events may start elements that never finish, and may finish what was never started.  The
calls made of them exit nothing but what is open: the tags that are open behind the events
are, name by name and innermost first, the stack that the balance check ends with
(`Tracks`).  So the check never meets an exit that closes nothing or another element.  It
accepts the calls if no tag is open behind the events, and otherwise names the call that
entered the innermost open tag.

An exit repeats the whole tag of its enter, not only the name by which the check pairs
them: of a heading also how it was written.

Key definitions: `Markdown.Tracks`, `Markdown.TranscriptLaw`.
Key theorems: `Markdown.Tracks.transcribeEvent`, `Markdown.Tracks.transcribe`,
`Markdown.transcribe_transcriptLaw`.
-/
import WikiOutline.Proofs.Partners
import WikiOutline.Proofs.Elements

namespace WikiOutline

namespace Markdown

/-- The name of an open tag and the place of the call that entered it. -/
def openName (e : Tag × Nat) : String × Nat := (e.1.name, e.2)

/-- The open tags with the places of the calls that entered them are the stack of the calls
read, and what was exited was exited by its own tag. -/
structure Tracks (opened : List (Tag × Nat)) (read : List Call) : Prop where
  stack : OpenStack (opened.map openName) read
  tags : ∀ e ∈ opened, read[e.2]?.map Call.tag = some e.1
  exits : ∀ j b, read[j]? = some b → b.state = .exit →
    ∃ i, IsElement read i j ∧ read[i]?.map Call.tag = some b.tag

/-- What the balance check says of calls behind which some tags are open, the innermost
first, and what the exits close. -/
structure TranscriptLaw (calls : List Call) (tags : List Tag) : Prop where
  /-- The calls are balanced if no tag is open behind them. -/
  accepted : checkBalance calls = .ok () ↔ tags = []
  /-- Otherwise the enter of the innermost open tag is named, and that is the last enter
  which no call exits. -/
  unclosed : ∀ tag outer, tags = tag :: outer → ∃ i,
    checkBalance calls = .error (.noClosingCall tag.name i) ∧
      IsGreatest {i | LeftOpen calls i} i ∧ calls[i]?.map Call.tag = some tag
  /-- No exit closes nothing. -/
  opened : ∀ name k, checkBalance calls ≠ .error (.noOpeningCall name k)
  /-- No exit closes another element than the innermost one. -/
  matched : ∀ k expected found, checkBalance calls ≠ .error (.unbalanced k expected found)
  /-- Every exit ends an element. -/
  exits : ∀ j b, calls[j]? = some b → b.state = .exit → ∃ i, IsElement calls i j
  /-- The ends of an element have one tag. -/
  tags : ∀ i j, IsElement calls i j → calls[i]?.map Call.tag = calls[j]?.map Call.tag

variable {opened outer : List (Tag × Nat)} {read : List Call} {c : Call} {i : Nat}

/-! ### One call more -/

theorem tag_append {tag : Tag} (h : read[i]?.map Call.tag = some tag) (more : List Call) :
    (read ++ more)[i]?.map Call.tag = some tag := by
  obtain ⟨a, ha, rfl⟩ := Option.map_eq_some_iff.mp h
  rw [List.getElem?_append_left (List.getElem?_eq_some_iff.mp ha).1, ha]
  rfl

/-- What has been exited stays so. -/
theorem Tracks.exits_append (h : Tracks opened read)
    (hc : c.state = .exit →
      ∃ i, IsElement (read ++ [c]) i read.length ∧ (read ++ [c])[i]?.map Call.tag = some c.tag) :
    ∀ j b, (read ++ [c])[j]? = some b → b.state = .exit →
      ∃ i, IsElement (read ++ [c]) i j ∧ (read ++ [c])[i]?.map Call.tag = some b.tag := by
  intro j b hget hb
  rcases Nat.lt_trichotomy j read.length with hj | rfl | hj
  · rw [List.getElem?_append_left hj] at hget
    obtain ⟨i, helement, htag⟩ := h.exits j b hget hb
    exact ⟨i, helement.append_right [c], tag_append htag [c]⟩
  · obtain rfl : c = b := by simpa using hget
    exact hc hb
  · rw [List.getElem?_eq_none (by simp; omega)] at hget
    cases hget

/-- Text and elements without content leave open what is open. -/
theorem Tracks.leaf (h : Tracks opened read) (hc : c.state = .special ∨ c.state = .unmatched) :
    Tracks opened (read ++ [c]) where
  stack := h.stack.leaf hc
  tags e he := tag_append (h.tags e he) [c]
  exits := h.exits_append fun hexit => by simp [hexit] at hc

/-- An enter opens its tag. -/
theorem Tracks.enter (h : Tracks opened read) (hc : c.state = .enter) :
    Tracks ((c.tag, read.length) :: opened) (read ++ [c]) where
  stack := h.stack.enter hc
  tags e he := by
    rcases List.mem_cons.mp he with rfl | he
    · simp
    · exact tag_append (h.tags e he) [c]
  exits := h.exits_append fun hexit => by simp [hexit] at hc

/-- A call that exits the innermost open name ends the element which was entered last. -/
theorem isElement_of_innermost {stack : List (String × Nat)}
    (h : OpenStack ((c.name, i) :: stack) read) (hc : c.state = .exit) :
    IsElement (read ++ [c]) i read.length := by
  obtain ⟨before, a, inner, rfl, rfl, ha, hname, hinner, -⟩ := h
  refine ⟨before, a, inner, c, [], by simp, rfl, ?_, ha, hc, hname.symm, hinner⟩
  simp only [List.length_append, List.length_cons]
  omega

/-- An exit of the innermost open tag closes it. -/
theorem Tracks.exit (h : Tracks ((c.tag, i) :: outer) read) (hc : c.state = .exit) :
    Tracks outer (read ++ [c]) where
  stack := OpenStack.exit h.stack hc
  tags e he := tag_append (h.tags e (List.mem_cons_of_mem _ he)) [c]
  exits := h.exits_append fun _ =>
    ⟨i, isElement_of_innermost h.stack hc, tag_append (h.tags _ List.mem_cons_self) [c]⟩

/-! ### Events -/

/-- **One event** keeps the open tags and the stack of the calls together. -/
theorem Tracks.transcribeEvent (h : Tracks opened read) (source : List Char) (event : Event)
    (span : Span) :
    let r := transcribeEvent source (opened.map Prod.fst) event span
    ∃ opened', opened'.map Prod.fst = r.2 ∧ Tracks opened' (read ++ r.1) := by
  cases event with
  | start e =>
    have hstate := (enterElement_fits source (opened.map Prod.fst) span e).2
    exact ⟨_, rfl, h.enter (c := spanned (enterElement source (opened.map Prod.fst) span e) span)
      hstate⟩
  | finish =>
    cases opened with
    | nil => exact ⟨[], rfl, by simpa [Markdown.transcribeEvent] using h⟩
    | cons e outer =>
      obtain ⟨tag, i⟩ := e
      exact ⟨outer, rfl, Tracks.exit (c := spanned (Call.exit tag) span) h rfl⟩
  | code content =>
    -- the code is entered and exited at once, with its text in between
    have henter := h.enter (c := spanned (Call.enter (.other "code")) span) rfl
    have htext := henter.leaf (c := Call.text content) (.inr rfl)
    have hexit := Tracks.exit (c := spanned (Call.exit (.other "code")) span) htext rfl
    exact ⟨opened, rfl, by simpa [Markdown.transcribeEvent] using hexit⟩
  | text => exact ⟨opened, rfl, h.leaf (.inr rfl)⟩
  | softBreak => exact ⟨opened, rfl, h.leaf (.inr rfl)⟩
  | html | math | footnoteReference | hardBreak | rule | taskMarker =>
    exact ⟨opened, rfl, h.leaf (.inl rfl)⟩

/-- **All events** keep them together, whether or not they nest. -/
theorem Tracks.transcribe (source : List Char) : ∀ (events : List (Event × Span))
    {opened : List (Tag × Nat)} {read : List Call}, Tracks opened read →
    let r := transcribe source (opened.map Prod.fst) events
    ∃ opened', opened'.map Prod.fst = r.2 ∧ Tracks opened' (read ++ r.1)
  | [], opened, read, h => ⟨opened, rfl, by simpa [Markdown.transcribe] using h⟩
  | (event, span) :: events, opened, read, h => by
    obtain ⟨opened', htags, hnext⟩ := h.transcribeEvent source event span
    obtain ⟨opened'', htags', hend⟩ := Tracks.transcribe source events hnext
    rw [htags] at htags' hend
    rw [List.append_assoc] at hend
    exact ⟨opened'', htags', hend⟩

theorem tracks_nil : Tracks [] [] where
  stack := .nil
  tags e he := by cases he
  exits j b hget := by cases hget

/-! ### The law -/

/-- Calls whose exits close what is open can be completed, so the check does not stop at
any of them. -/
theorem Tracks.not_stopsAt (h : Tracks opened read) (k : Nat) : ¬ StopsAt read k :=
  fun hstop => hstop.not_completable h.stack.completable

/-- The check names the innermost open tag. -/
theorem Tracks.unclosed {tag : Tag} (h : Tracks ((tag, i) :: outer) read) :
    checkBalance read = .error (.noClosingCall tag.name i) ∧
      IsGreatest {i | LeftOpen read i} i := by
  have hstack : OpenStack ((tag.name, i) :: outer.map openName) read := h.stack
  have hgreatest := hstack.innermost.isGreatest
  exact ⟨((checkBalance_balanceLaw read).unclosed i tag.name).mpr
    ⟨hstack.completable, hstack.not_bracketed, hgreatest, hstack.name_eq⟩, hgreatest⟩

/-- An exit has one enter, so it has the tag of that one. -/
theorem Tracks.tag_eq {j : Nat} (h : Tracks opened read) (helement : IsElement read i j) :
    read[i]?.map Call.tag = read[j]?.map Call.tag := by
  obtain ⟨-, b, -, hget, -, hb, -⟩ := helement.ends
  obtain ⟨i', helement', htag⟩ := h.exits j b hget hb
  obtain rfl := helement.partners.enter_unique helement'.partners
  rw [htag, hget]
  rfl

/-- **The calls of any events** exit nothing but what is open, each tag by itself: the check
accepts them if no tag is open behind the events, and else names the innermost one. -/
theorem transcribe_transcriptLaw (source : List Char) (events : List (Event × Span)) :
    TranscriptLaw (transcribe source [] events).1 (transcribe source [] events).2 := by
  obtain ⟨opened, htags, h⟩ := Tracks.transcribe source events tracks_nil
  rw [List.map_nil, List.nil_append] at h
  rw [List.map_nil] at htags
  rw [← htags]
  have hlaw := checkBalance_balanceLaw (transcribe source [] events).1
  refine ⟨?_, ?_, ?_, ?_, ?_, fun i j => h.tag_eq⟩
  · rw [hlaw.accepted]
    cases opened with
    | nil => exact ⟨fun _ => rfl, fun _ => h.stack⟩
    | cons e outer => exact ⟨fun hb => absurd hb (OpenStack.not_bracketed h.stack), nofun⟩
  · intro tag outer hcons
    obtain ⟨⟨tag', i⟩, outer', rfl, rfl, -⟩ := List.map_eq_cons_iff.mp hcons
    exact ⟨i, h.unclosed.1, h.unclosed.2, h.tags _ List.mem_cons_self⟩
  · exact fun name k hk => h.not_stopsAt k ((hlaw.stopped k).mp (.inl ⟨name, hk⟩))
  · exact fun k expected found hk =>
      h.not_stopsAt k ((hlaw.stopped k).mp (.inr ⟨expected, found, hk⟩))
  · intro j b hget hb
    obtain ⟨i, helement, -⟩ := h.exits j b hget hb
    exact ⟨i, helement⟩

end Markdown

end WikiOutline
