/-
# The cursor stays in its sequence

Whatever is asked of a call sequence, the cursor stands on one of its calls or on
neither (`CallSequence.InRange`).  So no operation asks for an index that is not
there, and what it does index by index is what it does without indices
(`CallSequence.perform_eq`).  Moves leave the calls alone, and a move along the
elements that finds nothing leaves the cursor alone too.

Key definitions: `CallSequence.InRange`.
Key theorems: `CallSequence.seekBack_eq`, `CallSequence.seekForward_eq`,
`CallSequence.perform_eq`, `CallSequence.InRange.outcome`,
`CallSequence.cursor_safe`.
-/
import Mathlib
import WikiOutline.CallSequence.Operation

namespace WikiOutline

/-! ### Searching -/

/-- What is found is there. -/
theorem matchOffset?_lt (nests closes : CallState) (named : Option String) :
    ∀ (cs : List Call) (depth k : Nat), matchOffset? nests closes named depth cs = some k →
      k < cs.length
  | [], _, _, h => by simp [matchOffset?] at h
  | c :: cs, depth, k, h => by
    have hlater : ∀ d, (matchOffset? nests closes named d cs).map (· + 1) = some k →
        k < (c :: cs).length := by
      intro d hd
      obtain ⟨k', hk', rfl⟩ := Option.map_eq_some_iff.mp hd
      exact Nat.succ_lt_succ (matchOffset?_lt nests closes named cs d k' hk')
    unfold matchOffset? at h
    split_ifs at h
    · exact hlater _ h
    · exact hlater _ h
    · cases depth with
      | zero => cases h; exact Nat.succ_pos _
      | succ d => exact hlater _ h
    · exact hlater _ h

theorem openingIndex?_lt {calls : List Call} {i j : Nat} {named : Option String}
    (hi : i ≤ calls.length) (h : openingIndex? calls i named = some j) : j < calls.length := by
  obtain ⟨k, hk, rfl⟩ := Option.map_eq_some_iff.mp h
  have := matchOffset?_lt _ _ _ _ _ _ hk
  rw [List.length_reverse, List.length_take] at this
  omega

theorem closingIndex?_lt {calls : List Call} {i j : Nat} {named : Option String}
    (h : closingIndex? calls i named = some j) : j < calls.length := by
  obtain ⟨k, hk, rfl⟩ := Option.map_eq_some_iff.mp h
  have := matchOffset?_lt _ _ _ _ _ _ hk
  rw [List.length_drop] at this
  omega

theorem nextTagIndex?_lt {calls : List Call} {i j : Nat} (h : nextTagIndex? calls i = some j) :
    j < calls.length := by
  unfold nextTagIndex? at h
  simp only at h
  split at h
  · cases h
  · rename_i k hk
    split at h
    · cases h
    · cases h
      have := (List.findIdx?_eq_some_iff_findIdx_eq.mp hk).1
      rw [List.length_drop] at this
      omega

namespace CallSequence

/-! ### Searching index by index -/

theorem fetch_eq {calls : List Call} {i : Nat} (h : i < calls.length) :
    fetch calls i = .ok calls[i] := by
  simp [fetch, h]

theorem removeAt_eq {calls : List Call} {i : Nat} (h : i < calls.length) :
    removeAt calls i = .ok (calls[i], calls.eraseIdx i) := by
  rw [removeAt, fetch_eq h]
  rfl

theorem insertAt_eq {calls : List Call} {i : Nat} (h : i ≤ calls.length) (c : Call) :
    insertAt calls i c = .ok (calls.insertIdx i c) := if_pos h

/-- The search back looks at the calls before the index, the nearest first. -/
theorem seekBack_eq {calls : List Call} (named : Option String) :
    ∀ (i depth : Nat), i ≤ calls.length →
      seekBack calls named i depth =
        .ok ((matchOffset? .exit .enter named depth (calls.take i).reverse).map (i - 1 - ·))
  | 0, _, _ => by simp [seekBack, matchOffset?]
  | i + 1, depth, h => by
    have hi : i < calls.length := h
    have hrev : (calls.take (i + 1)).reverse = calls[i] :: (calls.take i).reverse := by
      rw [List.take_succ_eq_append_getElem hi, List.reverse_append]
      rfl
    have hlater : ∀ d, seekBack calls named i d =
        .ok (((matchOffset? .exit .enter named d (calls.take i).reverse).map (· + 1)).map
          (i + 1 - 1 - ·)) := by
      intro d
      rw [seekBack_eq named i d hi.le, Option.map_map]
      congr 2
      funext k
      show i - 1 - k = i + 1 - 1 - (k + 1)
      omega
    unfold seekBack
    rw [fetch_eq hi, hrev]
    unfold matchOffset?
    show (if _ then _ else _) = _
    split_ifs
    · exact hlater _
    · exact hlater _
    · cases depth with
      | zero => rfl
      | succ d => exact hlater _
    · exact hlater _

/-- The search forward looks at the calls from the index on. -/
theorem seekForward_eq {calls : List Call} (named : Option String) (i depth : Nat) :
    seekForward calls named i depth =
      .ok ((matchOffset? .enter .exit named depth (calls.drop i)).map (i + ·)) := by
  induction hn : calls.length - i generalizing i depth with
  | zero =>
    have hi : ¬ i < calls.length := by omega
    unfold seekForward
    rw [if_neg hi, List.drop_eq_nil_of_le (by omega)]
    rfl
  | succ n ih =>
    have hi : i < calls.length := by omega
    have hlater : ∀ d, seekForward calls named (i + 1) d =
        .ok (((matchOffset? .enter .exit named d (calls.drop (i + 1))).map (· + 1)).map
          (i + ·)) := by
      intro d
      rw [ih (i + 1) d (by omega), Option.map_map]
      congr 2
      funext k
      show i + 1 + k = i + (k + 1)
      omega
    unfold seekForward
    rw [if_pos hi, fetch_eq hi, List.drop_eq_getElem_cons hi]
    unfold matchOffset?
    show (if _ then _ else _) = _
    split_ifs
    · exact hlater _
    · exact hlater _
    · cases depth with
      | zero => rfl
      | succ d => exact hlater _
    · exact hlater _

/-! ### The cursor -/

/-- The cursor stands on a call of the sequence, or on none. -/
def InRange (s : CallSequence) : Prop := ∀ i, s.cursor = .at i → i < s.calls.length

variable {s : CallSequence}

theorem inRange_ofList (calls : List Call) : (ofList calls).InRange := by
  intro i h
  cases h

theorem inRange_moveTo {i : Nat} (h : i < s.calls.length) : (s.moveTo i).InRange := by
  intro j hj
  cases hj
  exact h

theorem inRange_toStart (s : CallSequence) : s.toStart.InRange := by
  intro i h
  cases h

theorem inRange_toEnd (s : CallSequence) : s.toEnd.InRange := by
  intro i h
  cases h

theorem current?_moveTo {i : Nat} (h : i < s.calls.length) :
    (s.moveTo i).current? = some s.calls[i] := List.getElem?_eq_getElem h

/-- The cursor stands on a call, or there is no index to look at. -/
theorem index?_cases (s : CallSequence) :
    s.index? = none ∨
      ∃ i, ∃ h : i < s.calls.length,
        s.index? = some i ∧ s.current? = some s.calls[i] ∧ s.cursor = .at i := by
  unfold index? current?
  cases s.cursor with
  | beforeStart => exact .inl rfl
  | afterEnd => exact .inl rfl
  | «at» i =>
    by_cases h : i < s.calls.length
    · exact .inr ⟨i, h, if_pos h, List.getElem?_eq_getElem h, rfl⟩
    · exact .inl (if_neg h)

/-! ### Moves along the elements -/

theorem landed_eq (s : CallSequence) (found? : Option Nat) :
    s.landed found? = s.movedTo (found?.map s.moveTo) := by
  cases found? <;> rfl

theorem InRange.exitIndex?_lt (h : s.InRange) {i : Nat} (hi : s.exitIndex? = some i) :
    i < s.calls.length := by
  unfold exitIndex? at hi
  cases hc : s.cursor with
  | beforeStart => simp [hc] at hi
  | «at» j =>
    simp only [hc, Option.some.injEq] at hi
    exact h i (hi ▸ hc)
  | afterEnd =>
    simp only [hc, Option.ite_none_left_eq_some, Option.some.injEq] at hi
    have : 0 < s.calls.length := List.length_pos_iff.mpr (by simpa using hi.1)
    omega

theorem InRange.innerIndex?_le (h : s.InRange) {i : Nat} (hi : s.innerIndex? = some i) :
    i ≤ s.calls.length := by
  unfold innerIndex? at hi
  cases hc : s.cursor with
  | beforeStart => simp [hc] at hi
  | «at» j =>
    simp only [hc, Option.some.injEq] at hi
    exact (h i (hi ▸ hc)).le
  | afterEnd =>
    simp only [hc, Option.some.injEq] at hi
    exact hi.ge

/-- The enter of an exit is looked for from the exit. -/
theorem toOpening_eq (s : CallSequence) :
    s.toOpening = match s.exitIndex? with
      | none => .error .notOnExit
      | some i =>
        match s.calls[i]? with
        | none => .error .notOnExit
        | some c =>
          if !c.isExit then .error .notOnExit
          else
            match openingIndex? s.calls i (some c.name) with
            | some j => .ok (s.moveTo j)
            | none => .error (.noOpeningCall c.name i) := rfl

theorem InRange.performOpening_eq (h : s.InRange) :
    s.performOpening = .ok (s.followed s.toOpening) := by
  rw [toOpening_eq, performOpening]
  cases hfrom : s.exitIndex? with
  | none => rfl
  | some i =>
    have hi := h.exitIndex?_lt hfrom
    simp only [fetch_eq hi, List.getElem?_eq_getElem hi]
    show (if _ then _ else _) = _
    split_ifs with hexit
    · rfl
    · rw [seekBack_eq _ i 0 hi.le]
      show (match openingIndex? s.calls i _ with | some j => _ | none => _) = _
      cases hj : openingIndex? s.calls i (some s.calls[i].name) with
      | none => rfl
      | some j =>
        have hlt := openingIndex?_lt hi.le hj
        show (fetch s.calls j >>= _) = Except.ok (Except.ok (s.moveTo j).current?, s.moveTo j)
        rw [fetch_eq hlt, current?_moveTo hlt]
        rfl

theorem performClosing_eq (s : CallSequence) :
    s.performClosing = .ok (s.followed s.toClosing) := by
  unfold performClosing toClosing
  rcases index?_cases s with hnone | ⟨i, hi, hindex, hcurrent, -⟩
  · rw [hnone]
    rfl
  · simp only [hindex, hcurrent, fetch_eq hi]
    show (if _ then _ else _) = _
    split_ifs with henter
    · rfl
    · rw [seekForward_eq]
      show (match closingIndex? s.calls i _ with | some j => _ | none => _) = _
      cases hj : closingIndex? s.calls i (some s.calls[i].name) with
      | none => rfl
      | some j =>
        have hlt := closingIndex?_lt hj
        show (fetch s.calls j >>= _) = Except.ok (Except.ok (s.moveTo j).current?, s.moveTo j)
        rw [fetch_eq hlt, current?_moveTo hlt]
        rfl

/-- The search for the element around an index starts at the enter of an exit, and
elsewhere at the index itself. -/
def searchStart? (calls : List Call) (i : Nat) : Option Nat :=
  match calls[i]? with
  | some c => if c.isExit then openingIndex? calls i (some c.name) else some i
  | none => some i

theorem parentStart_eq {calls : List Call} {i : Nat} (h : i ≤ calls.length) :
    parentStart calls i = .ok (searchStart? calls i) := by
  unfold parentStart searchStart?
  cases calls[i]? with
  | none => rfl
  | some c =>
    show (if _ then _ else _) = Except.ok (if _ then _ else _)
    split_ifs
    · exact seekBack_eq _ i 0 h
    · rfl

theorem searchStart?_le {calls : List Call} {i start : Nat} (h : i ≤ calls.length)
    (hs : searchStart? calls i = some start) : start ≤ calls.length := by
  unfold searchStart? at hs
  split at hs
  · split_ifs at hs
    · exact (openingIndex?_lt h hs).le
    · cases hs
      exact h
  · cases hs
    exact h

/-- The enter around the cursor is looked for from where the search starts. -/
theorem toParent_eq (s : CallSequence) :
    s.toParent = (s.innerIndex?.bind fun i =>
      (searchStart? s.calls i).bind fun start => openingIndex? s.calls start none).map s.moveTo := by
  refine congrArg (Option.map s.moveTo) ?_
  unfold parentIndex? innerIndex? searchStart?
  cases s.cursor with
  | beforeStart => rfl
  | «at» i =>
    simp only [Option.bind_eq_bind, Option.bind_some]
    cases s.calls[i]? with
    | none => rfl
    | some c => cases hc : c.isExit <;> simp [hc]
  | afterEnd =>
    simp only [Option.bind_eq_bind, Option.bind_some, List.getElem?_eq_none le_rfl]

theorem InRange.performParent_eq (h : s.InRange) :
    s.performParent = .ok (s.movedTo s.toParent) := by
  rw [toParent_eq, performParent]
  cases hfrom : s.innerIndex? with
  | none => rfl
  | some i =>
    have hi := h.innerIndex?_le hfrom
    simp only [Option.bind_some, parentStart_eq hi]
    cases hstart : searchStart? s.calls i with
    | none => rfl
    | some start =>
      show (seekBack s.calls none start 0 >>= _) = _
      rw [seekBack_eq none start 0 (searchStart?_le hi hstart)]
      exact congrArg Except.ok (landed_eq s _)

theorem performFirstChild_eq (s : CallSequence) :
    s.performFirstChild = .ok (s.movedTo s.toFirstChild) := by
  unfold performFirstChild toFirstChild
  rcases index?_cases s with hnone | ⟨i, hi, hindex, hcurrent, -⟩
  · rw [hnone]
    rfl
  · simp only [hindex, hcurrent, fetch_eq hi]
    show Except.ok (s.landed _) = _
    rw [landed_eq]
    show _ = Except.ok (s.movedTo (if s.calls[i].isEnter then _ else none))
    split_ifs <;> rfl

theorem performNextSibling_eq (s : CallSequence) :
    s.performNextSibling = .ok (s.movedTo s.toNextSibling) := by
  unfold performNextSibling toNextSibling
  rcases index?_cases s with hnone | ⟨i, hi, hindex, hcurrent, -⟩
  · rw [hnone]
    rfl
  · simp only [hindex, hcurrent, fetch_eq hi, seekForward_eq]
    show (if s.calls[i].isEnter = true then _ else _) =
      Except.ok (s.movedTo (if s.calls[i].isEnter = true then _ else _))
    split_ifs
    · show Except.ok (s.landed _) = _
      rw [landed_eq, Option.map_bind]
      rfl
    · show Except.ok (s.landed _) = _
      rw [landed_eq]
      rfl

/-! ### Splices -/

theorem performInsert_eq {i : Nat} (h : i ≤ s.calls.length) (c : Call) (cursor : Cursor) :
    s.performInsert i c cursor = .ok (.ok none, { calls := s.calls.insertIdx i c, cursor }) := by
  rw [performInsert, insertAt_eq h]
  rfl

theorem performDelete_eq (s : CallSequence) :
    s.performDelete = .ok (s.without s.delete?) := by
  unfold performDelete delete?
  rcases index?_cases s with hnone | ⟨i, hi, hindex, hcurrent, -⟩
  · rw [hnone]
    rfl
  · simp only [hindex, hcurrent, removeAt_eq hi]
    rfl

theorem performDeletePair_eq (s : CallSequence) :
    s.performDeletePair = .ok (s.without s.deletePair?) := by
  unfold performDeletePair deletePair?
  rcases index?_cases s with hnone | ⟨i, hi, hindex, hcurrent, -⟩
  · rw [hnone]
    rfl
  · simp only [hindex, hcurrent]
    show (if _ then _ else _) = Except.ok (s.without (if _ then _ else _))
    split_ifs with h0
    · rfl
    · -- one call is gone when the second one is removed
      have hrest : i - 1 < (s.calls.eraseIdx i).length := by
        rw [List.length_eraseIdx_of_lt hi]
        omega
      rw [removeAt_eq hi]
      show (removeAt (s.calls.eraseIdx i) (i - 1) >>= _) = _
      rw [removeAt_eq hrest]
      rfl

/-- **With the cursor in range no operation asks for an index that is not there**:
index by index it does what it does without indices. -/
theorem perform_eq (h : s.InRange) (op : Operation) : s.perform op = .ok (s.outcome op) := by
  cases op with
  | toOpening => exact h.performOpening_eq
  | toClosing => exact performClosing_eq s
  | toParent => exact h.performParent_eq
  | toFirstChild => exact performFirstChild_eq s
  | toNextSibling => exact performNextSibling_eq s
  | insertBefore c =>
    unfold perform outcome insertBefore
    cases hc : s.cursor with
    | beforeStart => exact performInsert_eq (Nat.zero_le _) c .beforeStart
    | «at» i => exact performInsert_eq (h i hc).le c (.at (i + 1))
    | afterEnd => exact congrArg (fun cursor => Except.ok (Except.ok none, CallSequence.mk _ cursor)) hc
  | insertAfter c =>
    unfold perform outcome insertAfter
    cases hc : s.cursor with
    | beforeStart => exact performInsert_eq (Nat.zero_le _) c .beforeStart
    | «at» i => exact performInsert_eq (h i hc) c (.at i)
    | afterEnd => exact congrArg (fun cursor => Except.ok (Except.ok none, CallSequence.mk _ cursor)) hc
  | delete => exact performDelete_eq s
  | deletePair => exact performDeletePair_eq s
  | next | previous | toStart | toEnd | append c | appendAll cs | clear | change f => rfl

/-! ### What an operation keeps -/

theorem inRange_next (s : CallSequence) : s.next.InRange := by
  unfold next
  split
  · split_ifs with h
    · exact inRange_toEnd s
    · exact inRange_moveTo (List.length_pos_iff.mpr (by simpa using h))
  · split_ifs with h
    · exact inRange_moveTo h
    · exact inRange_toEnd s
  · exact inRange_toEnd s

theorem InRange.previous (h : s.InRange) : s.previous.InRange := by
  unfold CallSequence.previous
  split
  · split_ifs with hempty
    · exact inRange_toStart s
    · have : 0 < s.calls.length := List.length_pos_iff.mpr (by simpa using hempty)
      exact inRange_moveTo (Nat.sub_lt this Nat.one_pos)
  · rename_i i hc
    have := h i hc
    split_ifs
    · exact inRange_moveTo (by omega)
    · exact inRange_toStart s
  · exact inRange_toStart s

/-- A move goes to a call of the sequence and gives it, or it gives none and leaves
the sequence as it is. -/
def Lands (s : CallSequence) (r : Reply × CallSequence) : Prop :=
  (∃ j, ∃ h : j < s.calls.length, r = (.ok (some s.calls[j]), s.moveTo j)) ∨
    r.1.isEmpty = true ∧ r.2 = s

theorem lands_moveTo {j : Nat} (h : j < s.calls.length) :
    s.Lands (.ok (s.moveTo j).current?, s.moveTo j) :=
  .inl ⟨j, h, by rw [current?_moveTo h]⟩

theorem lands_movedTo {found? : Option Nat} (h : ∀ j, found? = some j → j < s.calls.length) :
    s.Lands (s.movedTo (found?.map s.moveTo)) := by
  cases found? with
  | none => exact .inr ⟨rfl, rfl⟩
  | some j => exact lands_moveTo (h j rfl)

theorem InRange.lands_toOpening (h : s.InRange) : s.Lands (s.followed s.toOpening) := by
  rw [toOpening_eq]
  cases hfrom : s.exitIndex? with
  | none => exact .inr ⟨rfl, rfl⟩
  | some i =>
    have hi := h.exitIndex?_lt hfrom
    simp only [List.getElem?_eq_getElem hi]
    split_ifs
    · exact .inr ⟨rfl, rfl⟩
    · cases hj : openingIndex? s.calls i (some s.calls[i].name) with
      | none => exact .inr ⟨rfl, rfl⟩
      | some j => exact lands_moveTo (openingIndex?_lt hi.le hj)

theorem lands_toClosing (s : CallSequence) : s.Lands (s.followed s.toClosing) := by
  unfold toClosing
  rcases index?_cases s with hnone | ⟨i, hi, hindex, hcurrent, -⟩
  · rw [hnone]
    exact .inr ⟨rfl, rfl⟩
  · simp only [hindex, hcurrent]
    split_ifs
    · exact .inr ⟨rfl, rfl⟩
    · cases hj : closingIndex? s.calls i (some s.calls[i].name) with
      | none => exact .inr ⟨rfl, rfl⟩
      | some j => exact lands_moveTo (closingIndex?_lt hj)

theorem InRange.lands_toParent (h : s.InRange) : s.Lands (s.movedTo s.toParent) := by
  rw [toParent_eq]
  apply lands_movedTo
  intro j hj
  obtain ⟨i, hi, hj⟩ := Option.bind_eq_some_iff.mp hj
  obtain ⟨start, hstart, hj⟩ := Option.bind_eq_some_iff.mp hj
  exact openingIndex?_lt (searchStart?_le (h.innerIndex?_le hi) hstart) hj

theorem lands_toFirstChild (s : CallSequence) : s.Lands (s.movedTo s.toFirstChild) := by
  unfold toFirstChild
  rcases index?_cases s with hnone | ⟨i, hi, hindex, hcurrent, -⟩
  · rw [hnone]
    exact .inr ⟨rfl, rfl⟩
  · simp only [hindex, hcurrent, Option.bind_eq_bind, Option.bind_some]
    split_ifs
    · exact lands_movedTo fun j => nextTagIndex?_lt
    · exact .inr ⟨rfl, rfl⟩

theorem lands_toNextSibling (s : CallSequence) : s.Lands (s.movedTo s.toNextSibling) := by
  unfold toNextSibling
  rcases index?_cases s with hnone | ⟨i, hi, hindex, hcurrent, -⟩
  · rw [hnone]
    exact .inr ⟨rfl, rfl⟩
  · simp only [hindex, hcurrent, Option.bind_eq_bind, Option.bind_some]
    split_ifs
    · cases closingIndex? s.calls i (some s.calls[i].name) with
      | none => exact .inr ⟨rfl, rfl⟩
      | some last => exact lands_movedTo fun j => nextTagIndex?_lt
    · exact lands_movedTo fun j => nextTagIndex?_lt

/-- The moves along the elements go to a call of the sequence, or nowhere. -/
theorem InRange.lands (h : s.InRange) {op : Operation} (hop : op.isStructural = true) :
    s.Lands (s.outcome op) := by
  cases op with
  | toOpening => exact h.lands_toOpening
  | toClosing => exact lands_toClosing s
  | toParent => exact h.lands_toParent
  | toFirstChild => exact lands_toFirstChild s
  | toNextSibling => exact lands_toNextSibling s
  | _ => cases hop

theorem Lands.inRange (h : s.InRange) {r : Reply × CallSequence} (hr : s.Lands r) :
    r.2.InRange := by
  rcases hr with ⟨j, hj, rfl⟩ | ⟨-, hs⟩
  · exact inRange_moveTo hj
  · rw [hs]
    exact h

theorem Lands.calls_eq {r : Reply × CallSequence} (hr : s.Lands r) : r.2.calls = s.calls := by
  rcases hr with ⟨j, -, rfl⟩ | ⟨-, hs⟩
  · rfl
  · rw [hs]

/-- A move that gives no call leaves the sequence as it is. -/
theorem Lands.eq_of_isEmpty {r : Reply × CallSequence} (hr : s.Lands r)
    (hempty : r.1.isEmpty = true) : r.2 = s := by
  rcases hr with ⟨j, hj, rfl⟩ | ⟨-, hs⟩
  · cases hempty
  · exact hs

/-- Calls that are added leave the cursor in range. -/
theorem InRange.of_le (h : s.InRange) {calls : List Call} (hlen : s.calls.length ≤ calls.length) :
    InRange { calls, cursor := s.cursor } :=
  fun i hi => (h i hi).trans_le hlen

theorem InRange.insertBefore (h : s.InRange) (c : Call) : (s.insertBefore c).InRange := by
  unfold CallSequence.insertBefore
  cases hc : s.cursor with
  | «at» i =>
    intro j hj
    cases hj
    have := h i hc
    show i + 1 < (s.calls.insertIdx i c).length
    rw [List.length_insertIdx_of_le_length this.le]
    omega
  | beforeStart | afterEnd =>
    intro j hj
    cases hj

theorem InRange.insertAfter (h : s.InRange) (c : Call) : (s.insertAfter c).InRange := by
  unfold CallSequence.insertAfter
  cases hc : s.cursor with
  | «at» i =>
    intro j hj
    cases hj
    have := h i hc
    show i < (s.calls.insertIdx (i + 1) c).length
    rw [List.length_insertIdx_of_le_length this]
    omega
  | beforeStart | afterEnd =>
    intro j hj
    cases hj

/-- Behind `n` calls that are gone, the cursor is `n` calls back. -/
theorem inRange_cursorBefore {i n : Nat} {calls : List Call} (h : i < calls.length + n) :
    InRange { calls, cursor := cursorBefore i n } := by
  intro j hj
  show j < calls.length
  simp only [cursorBefore] at hj
  split_ifs at hj
  cases hj
  omega

theorem InRange.delete (h : s.InRange) : (s.without s.delete?).2.InRange := by
  unfold delete?
  rcases index?_cases s with hnone | ⟨i, hi, hindex, hcurrent, -⟩
  · rw [hnone]
    exact h
  · simp only [hindex, hcurrent]
    show InRange { calls := s.calls.eraseIdx i, cursor := cursorBefore i 1 }
    apply inRange_cursorBefore
    rw [List.length_eraseIdx_of_lt hi]
    omega

theorem InRange.deletePair (h : s.InRange) : (s.without s.deletePair?).2.InRange := by
  unfold deletePair?
  rcases index?_cases s with hnone | ⟨i, hi, hindex, hcurrent, -⟩
  · rw [hnone]
    exact h
  · simp only [hindex, hcurrent, Option.bind_eq_bind, Option.bind_some]
    split_ifs with h0
    · exact h
    · show InRange { calls := (s.calls.eraseIdx i).eraseIdx (i - 1), cursor := cursorBefore i 2 }
      apply inRange_cursorBefore
      have hfirst := List.length_eraseIdx_of_lt hi
      rw [List.length_eraseIdx_of_lt (by omega), hfirst]
      omega

theorem InRange.modifyCurrent (h : s.InRange) (f : Call → Call) :
    (s.modifyCurrent f).InRange := by
  unfold CallSequence.modifyCurrent
  split
  · exact h.of_le (List.length_modify _ _ _).ge
  · exact h

/-- **Every operation keeps the cursor in range.** -/
theorem InRange.outcome (h : s.InRange) (op : Operation) : (s.outcome op).2.InRange := by
  cases op with
  | next => exact inRange_next s
  | previous => exact h.previous
  | toStart => exact inRange_toStart s
  | toEnd => exact inRange_toEnd s
  | toOpening | toClosing | toParent | toFirstChild | toNextSibling => exact (h.lands rfl).inRange h
  | insertBefore c => exact h.insertBefore c
  | insertAfter c => exact h.insertAfter c
  | delete => exact h.delete
  | deletePair => exact h.deletePair
  | append c => exact h.of_le (by simp)
  | appendAll cs => exact h.of_le (by simp)
  | clear => exact inRange_ofList []
  | change f => exact h.modifyCurrent f

theorem next_calls (s : CallSequence) : s.next.calls = s.calls := by
  unfold next
  split
  · split_ifs <;> rfl
  · split_ifs <;> rfl
  · rfl

theorem previous_calls (s : CallSequence) : s.previous.calls = s.calls := by
  unfold previous
  split
  · split_ifs <;> rfl
  · split_ifs <;> rfl
  · rfl

/-- A move leaves the calls alone. -/
theorem InRange.calls_eq (h : s.InRange) {op : Operation} (hop : op.isNavigation = true) :
    (s.outcome op).2.calls = s.calls := by
  cases op with
  | next => exact next_calls s
  | previous => exact previous_calls s
  | toStart | toEnd => rfl
  | toOpening | toClosing | toParent | toFirstChild | toNextSibling => exact (h.lands rfl).calls_eq
  | _ => cases hop

/-! ### Runs -/

/-- Operations one after the other, from a sequence with its cursor in range, end in
such a sequence. -/
theorem InRange.performAll (h : s.InRange) (ops : List Operation) :
    ∃ s', CallSequence.performAll ops s = .ok s' ∧ s'.InRange := by
  induction ops generalizing s with
  | nil => exact ⟨s, rfl, h⟩
  | cons op ops ih =>
    obtain ⟨s', hs', hin⟩ := ih (h.outcome op)
    refine ⟨s', ?_, hin⟩
    rw [CallSequence.performAll, perform_eq h op]
    exact hs'

/-- **The cursor is safe.** Whatever operations are done on a call sequence, none asks
for an index that is not there, and the cursor ends on a call or on none.  Whatever
is done next does, index by index, what it does without indices; a move leaves the
calls alone; and a move along the elements that gives no call leaves the cursor alone
too. -/
theorem cursor_safe (calls : List Call) (ops : List Operation) :
    ∃ s, CallSequence.performAll ops (ofList calls) = .ok s ∧ s.InRange ∧
      ∀ op, ∃ reply s', s.perform op = .ok (reply, s') ∧ (reply, s') = s.outcome op ∧
        (op.isNavigation = true → s'.calls = s.calls) ∧
        (op.isStructural = true → reply.isEmpty = true →
          s'.calls = s.calls ∧ s'.cursor = s.cursor) := by
  obtain ⟨s, hs, hin⟩ := (inRange_ofList calls).performAll ops
  refine ⟨s, hs, hin, fun op => ⟨(s.outcome op).1, (s.outcome op).2, perform_eq hin op, rfl,
    fun hop => hin.calls_eq hop, fun hop hempty => ?_⟩⟩
  rw [(hin.lands hop).eq_of_isEmpty hempty]
  exact ⟨rfl, rfl⟩

end CallSequence

end WikiOutline
