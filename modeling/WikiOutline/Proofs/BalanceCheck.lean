/-
# What a balance check finds

Which calls are balanced, a grammar says (`Bracketed`): text and elements without content
may stand anywhere, and what is entered is exited by a call of the same name with
bracketed calls in between.  The check reads the calls once, from left to right, with the
elements that are open on a stack.  The grammar says what is on that stack as well
(`OpenStack`): the calls between two of its enters are bracketed, and so are the calls
behind the innermost one.  Hence the check accepts what the grammar generates; where it
stops at a call, the calls before can be completed to bracketed ones, but not together
with that call; and what it names as innermost is the last enter that no call exits.

Key definitions: `Bracketed`, `IsElement`, `LeftOpen`, `InnermostOpen`, `Completable`,
`OpenStack`, `Verdict`, `BalanceLaw`.
Key theorems: `verdict_checkBalance`, `balanced_iff_bracketed`,
`InnermostOpen.isGreatest`, `checkBalance_balanceLaw`.
-/
import Mathlib
import WikiOutline.Proofs.Nesting

namespace WikiOutline

/-- The grammar of balanced calls. -/
inductive Bracketed : List Call → Prop
  | nil : Bracketed []
  | leaf {c : Call} {cs : List Call} (hstate : c.state = .special ∨ c.state = .unmatched)
      (hcs : Bracketed cs) : Bracketed (c :: cs)
  | element {a b : Call} {inner rest : List Call} (ha : a.state = .enter) (hb : b.state = .exit)
      (hname : b.name = a.name) (hinner : Bracketed inner) (hrest : Bracketed rest) :
      Bracketed (a :: (inner ++ b :: rest))

/-- Calls `i` and `j` enter and exit one element. -/
def IsElement (calls : List Call) (i j : Nat) : Prop :=
  ∃ before a inner b behind, calls = before ++ a :: (inner ++ b :: behind) ∧
    before.length = i ∧ i + 1 + inner.length = j ∧ a.state = .enter ∧ b.state = .exit ∧
    b.name = a.name ∧ Bracketed inner

/-- Call `i` enters an element that no call exits. -/
def LeftOpen (calls : List Call) (i : Nat) : Prop :=
  (∃ a, calls[i]? = some a ∧ a.state = .enter) ∧ ∀ j, ¬ IsElement calls i j

/-- Call `i` enters the element that is innermost behind the calls: the calls behind it are
bracketed. -/
def InnermostOpen (calls : List Call) (i : Nat) : Prop :=
  ∃ before a inner, calls = before ++ a :: inner ∧ before.length = i ∧ a.state = .enter ∧
    Bracketed inner

/-- The calls begin some bracketed calls. -/
def Completable (calls : List Call) : Prop := ∃ more, Bracketed (calls ++ more)

/-- Call `k` is the first one with which the calls cannot be completed. -/
def StopsAt (calls : List Call) (k : Nat) : Prop :=
  Completable (calls.take k) ∧ ¬ Completable (calls.take (k + 1))

/-! ### Bracketed calls -/

variable {calls cs ds read more : List Call} {c : Call} {i j k : Nat} {name : String}
  {opened outer : List (String × Nat)}

theorem Bracketed.append (hc : Bracketed cs) (hd : Bracketed ds) : Bracketed (cs ++ ds) := by
  induction hc with
  | nil => exact hd
  | leaf hstate _ ih => exact .leaf hstate ih
  | element ha hb hname hinner _ _ ih =>
    rw [List.cons_append, List.append_assoc, List.cons_append]
    exact .element ha hb hname hinner ih

/-- What the grammar generates closes all that it enters. -/
theorem Bracketed.balanced (h : Bracketed cs) : Balanced cs := by
  induction h with
  | nil => exact .nil
  | leaf hstate _ ih =>
    unfold Balanced
    rw [openBehind?_cons, Call.openBehind?_leaf hstate]
    exact ih
  | @element a b inner rest ha hb hname _ _ ihinner ihrest =>
    unfold Balanced
    rw [openBehind?_cons, Call.openBehind?_enter ha, Option.bind_some, openBehind?_append,
      ihinner.openBehind?, Option.bind_some, openBehind?_cons, Call.openBehind?_exit hb,
      if_pos hname.symm]
    exact ihrest

/-- Bracketed calls do not begin with an exit behind bracketed calls. -/
theorem Bracketed.not_exit (hc : Bracketed cs) {b : Call} (hb : b.state = .exit) :
    ¬ Bracketed (cs ++ b :: ds) := by
  intro h
  have hopen := h.balanced
  unfold Balanced at hopen
  rw [openBehind?_append, hc.balanced, Option.bind_some, openBehind?_cons,
    Call.openBehind?_exit_nil hb] at hopen
  cases hopen

/-! ### The stack of the check -/

/-- On the stack are, innermost first, the enters that are open behind the calls read, with
their places. -/
def OpenStack : List (String × Nat) → List Call → Prop
  | [], read => Bracketed read
  | (name, i) :: outer, read =>
    ∃ before a inner, read = before ++ a :: inner ∧ before.length = i ∧ a.state = .enter ∧
      a.name = name ∧ Bracketed inner ∧ OpenStack outer before

theorem OpenStack.append (h : OpenStack opened read) (hmore : Bracketed more) :
    OpenStack opened (read ++ more) := by
  cases opened with
  | nil => exact Bracketed.append h hmore
  | cons e outer =>
    obtain ⟨before, a, inner, rfl, hi, ha, hname, hinner, hout⟩ := h
    exact ⟨before, a, inner ++ more, by simp, hi, ha, hname, hinner.append hmore, hout⟩

theorem OpenStack.enter (h : OpenStack opened read) (hc : c.state = .enter) :
    OpenStack ((c.name, read.length) :: opened) (read ++ [c]) :=
  ⟨read, c, [], rfl, rfl, hc, rfl, .nil, h⟩

theorem OpenStack.leaf (h : OpenStack opened read)
    (hc : c.state = .special ∨ c.state = .unmatched) : OpenStack opened (read ++ [c]) :=
  h.append (.leaf hc .nil)

theorem OpenStack.exit (h : OpenStack ((c.name, i) :: outer) read) (hc : c.state = .exit) :
    OpenStack outer (read ++ [c]) := by
  obtain ⟨before, a, inner, rfl, -, ha, hname, hinner, hout⟩ := h
  have helement : Bracketed (a :: (inner ++ [c])) := .element ha hc hname.symm hinner .nil
  simpa using hout.append helement

/-- The stack names what is open. -/
theorem OpenStack.openBehind? (h : OpenStack opened read) :
    openBehind? [] read = some (opened.map Prod.fst) := by
  induction opened generalizing read with
  | nil => exact Bracketed.balanced h
  | cons e outer ih =>
    obtain ⟨before, a, inner, rfl, -, ha, hname, hinner, hout⟩ := h
    rw [openBehind?_append, ih hout, Option.bind_some, openBehind?_cons,
      Call.openBehind?_enter ha, Option.bind_some, hinner.balanced.openBehind?, hname]
    rfl

/-- What a check says of some calls, and why. -/
inductive Verdict (calls : List Call) : Except SequenceError Unit → Prop
  | accepted (h : Bracketed calls) : Verdict calls (.ok ())
  | unclosed {name : String} {i : Nat} {outer : List (String × Nat)}
      (h : OpenStack ((name, i) :: outer) calls) :
      Verdict calls (.error (.noClosingCall name i))
  | unopened {read rest : List Call} {c : Call} (hcalls : calls = read ++ c :: rest)
      (h : Bracketed read) (hc : c.state = .exit) :
      Verdict calls (.error (.noOpeningCall c.name read.length))
  | mismatched {read rest : List Call} {c : Call} {name : String} {i : Nat}
      {outer : List (String × Nat)} (hcalls : calls = read ++ c :: rest)
      (h : OpenStack ((name, i) :: outer) read) (hc : c.state = .exit) (hname : name ≠ c.name) :
      Verdict calls (.error (.unbalanced read.length name c.name))

/-- Behind the calls read, with their stack, the check says what it says of all calls. -/
theorem verdict_checkBalanceFrom : ∀ (cs : List Call) {read : List Call}
    {opened : List (String × Nat)}, OpenStack opened read →
      Verdict (read ++ cs) (checkBalanceFrom read.length opened cs)
  | [], read, opened, h => by
    rw [List.append_nil]
    cases opened with
    | nil => exact .accepted h
    | cons e outer => exact .unclosed h
  | c :: cs, read, opened, h => by
    have hnext : ∀ {opened' : List (String × Nat)}, OpenStack opened' (read ++ [c]) →
        Verdict (read ++ c :: cs) (checkBalanceFrom (read.length + 1) opened' cs) := by
      intro opened' h'
      have hrest := verdict_checkBalanceFrom cs h'
      rwa [List.append_assoc, List.length_append] at hrest
    unfold checkBalanceFrom
    cases hc : c.state with
    | enter => exact hnext (h.enter hc)
    | exit =>
      cases opened with
      | nil => exact .unopened rfl h hc
      | cons e outer =>
        obtain ⟨name, i⟩ := e
        by_cases hname : name = c.name
        · subst hname
          simp only [beq_self_eq_true, ↓reduceIte]
          exact hnext (h.exit hc)
        · simp only [beq_iff_eq, if_neg hname]
          exact .mismatched rfl h hc hname
    | special => exact hnext (h.leaf (.inl hc))
    | unmatched => exact hnext (h.leaf (.inr hc))

/-- **The check is right** about what it says of calls. -/
theorem verdict_checkBalance (calls : List Call) : Verdict calls (checkBalance calls) :=
  verdict_checkBalanceFrom calls (show OpenStack [] [] from .nil)

/-- **Balanced calls** are those that the grammar generates. -/
theorem balanced_iff_bracketed : Balanced calls ↔ Bracketed calls := by
  refine ⟨fun h => ?_, Bracketed.balanced⟩
  have hv := verdict_checkBalance calls
  rw [(checkBalance_eq_ok calls).mpr h] at hv
  cases hv with
  | accepted h => exact h

/-! ### Calls that can be completed -/

/-- Calls with a stack can be completed: what is on it can still be exited. -/
theorem OpenStack.completable (h : OpenStack opened read) : Completable read := by
  induction opened generalizing read with
  | nil => exact ⟨[], by rwa [List.append_nil]⟩
  | cons e outer ih =>
    obtain ⟨before, a, inner, rfl, -, ha, -, hinner, hout⟩ := h
    obtain ⟨more, hmore⟩ := ih hout
    have helement : Bracketed (a :: (inner ++ [Call.exit a.tag])) :=
      .element ha rfl rfl hinner .nil
    have hinsert := (hmore.balanced.insert helement.balanced)
    refine ⟨Call.exit a.tag :: more, balanced_iff_bracketed.mp ?_⟩
    simpa using hinsert

theorem Bracketed.completable (h : Bracketed cs) : Completable cs :=
  OpenStack.completable (show OpenStack [] cs from h)

theorem Completable.of_append (h : Completable (cs ++ ds)) : Completable cs := by
  obtain ⟨more, hmore⟩ := h
  exact ⟨ds ++ more, by rwa [← List.append_assoc]⟩

theorem Completable.take (h : Completable calls) (k : Nat) : Completable (calls.take k) := by
  rw [← List.take_append_drop k calls] at h
  exact h.of_append

/-- Of calls that can be completed it can be said what is open. -/
theorem Completable.openBehind?_ne_none (h : Completable cs) : openBehind? [] cs ≠ none := by
  obtain ⟨more, hmore⟩ := h
  have hopen := hmore.balanced
  unfold Balanced at hopen
  rw [openBehind?_append] at hopen
  obtain ⟨inner, hinner, -⟩ := Option.bind_eq_some_iff.mp hopen
  rw [hinner]
  exact Option.some_ne_none inner

theorem StopsAt.not_completable (h : StopsAt calls k) : ¬ Completable calls :=
  fun hmore => h.2 (hmore.take (k + 1))

/-- The calls stop at one place at most. -/
theorem StopsAt.unique (hj : StopsAt calls j) (hk : StopsAt calls k) : j = k := by
  have hle : ∀ {j k}, StopsAt calls j → StopsAt calls k → k ≤ j := by
    intro j k hj hk
    by_contra hlt
    have htake : (calls.take k).take (j + 1) = calls.take (j + 1) := by
      rw [List.take_take, Nat.min_eq_left (by omega)]
    exact hj.2 (htake ▸ hk.1.take (j + 1))
  exact le_antisymm (hle hk hj) (hle hj hk)

/-- Calls stop at a call that cannot come behind those on whose stack it comes. -/
theorem OpenStack.stopsAt {rest : List Call} (h : OpenStack opened read)
    (hc : c.openBehind? (opened.map Prod.fst) = none) :
    StopsAt (read ++ c :: rest) read.length := by
  have htake : (read ++ c :: rest).take (read.length + 1) = read ++ [c] := by
    rw [List.take_length_add_append]
    rfl
  refine ⟨by rw [List.take_left]; exact h.completable, fun hmore => ?_⟩
  rw [htake] at hmore
  apply hmore.openBehind?_ne_none
  rw [openBehind?_append, h.openBehind?, Option.bind_some, openBehind?_cons, hc]
  rfl

/-! ### Elements that are left open -/

theorem IsElement.append (h : IsElement cs i j) (before behind : List Call) :
    IsElement (before ++ cs ++ behind) (before.length + i) (before.length + j) := by
  obtain ⟨before', a, inner, b, behind', rfl, rfl, rfl, ha, hb, hname, hinner⟩ := h
  refine ⟨before ++ before', a, inner, b, behind' ++ behind, by simp, by simp, ?_, ha, hb, hname,
    hinner⟩
  omega

theorem IsElement.append_right (h : IsElement cs i j) (behind : List Call) :
    IsElement (cs ++ behind) i j := by
  simpa using h.append [] behind

/-- The calls of an element, by their places. -/
theorem IsElement.lt (h : IsElement calls i j) : i < j ∧ j < calls.length := by
  obtain ⟨before, a, inner, b, behind, rfl, rfl, rfl, -⟩ := h
  simp only [List.length_append, List.length_cons]
  omega

theorem IsElement.ends (h : IsElement calls i j) :
    ∃ a b, calls[i]? = some a ∧ calls[j]? = some b ∧ a.state = .enter ∧ b.state = .exit ∧
      b.name = a.name := by
  obtain ⟨before, a, inner, b, behind, rfl, rfl, rfl, ha, hb, hname, -⟩ := h
  refine ⟨a, b, by simp, ?_, ha, hb, hname⟩
  rw [List.getElem?_append_right (by omega),
    show before.length + 1 + inner.length - before.length = inner.length + 1 by omega]
  simp

/-- In bracketed calls every enter and every exit is one end of an element. -/
theorem Bracketed.exists_element (h : Bracketed cs) : ∀ {k : Nat} {c : Call}, cs[k]? = some c →
    c.state = .enter ∨ c.state = .exit → ∃ i j, IsElement cs i j ∧ (k = i ∨ k = j) := by
  induction h with
  | nil =>
    intro k c hget _
    simp at hget
  | @leaf d cs hstate hcs ih =>
    intro k c hget hc
    cases k with
    | zero =>
      obtain rfl : d = c := by simpa using hget
      rcases hstate with hstate | hstate <;> simp [hstate] at hc
    | succ k =>
      obtain ⟨i, j, hij, hk⟩ := ih (by simpa using hget) hc
      have hshift := hij.append [d] []
      rw [List.append_nil] at hshift
      exact ⟨1 + i, 1 + j, hshift, by omega⟩
  | @element a b inner rest ha hb hname hinner hrest ihinner ihrest =>
    intro k c hget hc
    have hself : IsElement (a :: (inner ++ b :: rest)) 0 (0 + 1 + inner.length) :=
      ⟨[], a, inner, b, rest, rfl, rfl, rfl, ha, hb, hname, hinner⟩
    cases k with
    | zero => exact ⟨_, _, hself, .inl rfl⟩
    | succ k =>
      rw [List.getElem?_cons_succ] at hget
      rcases Nat.lt_trichotomy k inner.length with hk | rfl | hk
      · rw [List.getElem?_append_left hk] at hget
        obtain ⟨i, j, hij, hk⟩ := ihinner hget hc
        exact ⟨1 + i, 1 + j, hij.append [a] (b :: rest), by omega⟩
      · exact ⟨_, _, hself, .inr (by omega)⟩
      · obtain ⟨d, rfl⟩ : ∃ d, k = inner.length + 1 + d := ⟨k - inner.length - 1, by omega⟩
        have hget' : rest[d]? = some c := by
          rw [List.getElem?_append_right (by omega),
            show inner.length + 1 + d - inner.length = d + 1 by omega] at hget
          simpa using hget
        obtain ⟨i, j, hij, hk⟩ := ihrest hget' hc
        have hshift := hij.append (a :: (inner ++ [b])) []
        have hcalls : a :: (inner ++ [b]) ++ rest ++ [] = a :: (inner ++ b :: rest) := by simp
        rw [hcalls] at hshift
        refine ⟨_, _, hshift, ?_⟩
        simp only [List.length_cons, List.length_append, List.length_nil]
        omega

/-- Bracketed calls exit what they enter. -/
theorem Bracketed.exists_exit (h : Bracketed cs) {i : Nat} {a : Call} (hget : cs[i]? = some a)
    (ha : a.state = .enter) : ∃ j, IsElement cs i j := by
  obtain ⟨i', j, hij, rfl | rfl⟩ := h.exists_element hget (.inl ha)
  · exact ⟨j, hij⟩
  · obtain ⟨-, b, -, hget', -, hb, -⟩ := hij.ends
    obtain rfl : a = b := Option.some.inj (hget.symm.trans hget')
    rw [ha] at hb
    cases hb

/-- Bracketed calls enter what they exit. -/
theorem Bracketed.exists_enter (h : Bracketed cs) {j : Nat} {b : Call} (hget : cs[j]? = some b)
    (hb : b.state = .exit) : ∃ i, IsElement cs i j := by
  obtain ⟨i, j', hij, rfl | rfl⟩ := h.exists_element hget (.inr hb)
  · obtain ⟨a, -, hget', -, ha, -⟩ := hij.ends
    obtain rfl : b = a := Option.some.inj (hget.symm.trans hget')
    rw [hb] at ha
    cases ha
  · exact ⟨i, hij⟩

/-- Bracketed calls leave nothing open. -/
theorem Bracketed.not_leftOpen (h : Bracketed cs) : ¬ LeftOpen cs i := by
  rintro ⟨⟨a, hget, ha⟩, hno⟩
  obtain ⟨j, hj⟩ := h.exists_exit hget ha
  exact hno j hj

/-- **The innermost element** is entered by the last call that enters one left open. -/
theorem InnermostOpen.isGreatest (h : InnermostOpen calls i) :
    IsGreatest {i | LeftOpen calls i} i := by
  obtain ⟨before, a, inner, rfl, rfl, ha, hinner⟩ := h
  refine ⟨⟨⟨a, by simp, ha⟩, fun j hj => ?_⟩, fun k hk => ?_⟩
  · -- an exit of the element would stand alone in the calls behind the enter
    obtain ⟨before', a', inner', b, behind, heq, hlen, -, -, hb, -, hinner'⟩ := hj
    obtain ⟨-, htail⟩ := List.append_inj heq hlen.symm
    obtain ⟨-, rfl⟩ := List.cons_eq_cons.mp htail
    exact hinner'.not_exit hb hinner
  · by_contra hlt
    obtain ⟨d, rfl⟩ : ∃ d, k = before.length + 1 + d := ⟨k - before.length - 1, by omega⟩
    obtain ⟨⟨a', hget, ha'⟩, hno⟩ := hk
    have hget' : inner[d]? = some a' := by
      rw [List.getElem?_append_right (by omega),
        show before.length + 1 + d - before.length = d + 1 by omega] at hget
      simpa using hget
    obtain ⟨j, hj⟩ := hinner.exists_exit hget' ha'
    apply hno (before.length + 1 + j)
    simpa using hj.append (before ++ [a]) []

theorem OpenStack.innermost (h : OpenStack ((name, i) :: outer) read) : InnermostOpen read i := by
  obtain ⟨before, a, inner, hread, hi, ha, -, hinner, -⟩ := h
  exact ⟨before, a, inner, hread, hi, ha, hinner⟩

theorem InnermostOpen.append (h : InnermostOpen read i) (hmore : Bracketed more) :
    InnermostOpen (read ++ more) i := by
  obtain ⟨before, a, inner, rfl, hi, ha, hinner⟩ := h
  exact ⟨before, a, inner ++ more, by simp, hi, ha, hinner.append hmore⟩

theorem OpenStack.not_bracketed (h : OpenStack ((name, i) :: outer) read) : ¬ Bracketed read :=
  fun hread => hread.not_leftOpen h.innermost.isGreatest.1

theorem OpenStack.name_eq (h : OpenStack ((name, i) :: outer) read) :
    read[i]?.map Call.name = some name := by
  obtain ⟨before, a, inner, rfl, rfl, -, hname, -⟩ := h
  simpa using hname

/-! ### The law -/

/-- What the check says, and when. -/
structure BalanceLaw (calls : List Call) : Prop where
  /-- It accepts the calls that the grammar generates. -/
  accepted : checkBalance calls = .ok () ↔ Bracketed calls
  /-- It stops at the first call with which the calls cannot be completed. -/
  stopped : ∀ k, ((∃ name, checkBalance calls = .error (.noOpeningCall name k)) ∨
      (∃ expected found, checkBalance calls = .error (.unbalanced k expected found))) ↔
    StopsAt calls k
  /-- The call where it stops closes nothing: the calls before are bracketed. -/
  unopened : ∀ k name, checkBalance calls = .error (.noOpeningCall name k) ↔
    StopsAt calls k ∧ Bracketed (calls.take k) ∧ calls[k]?.map Call.name = some name
  /-- The call where it stops closes another element than the innermost one. -/
  mismatched : ∀ k expected found,
    checkBalance calls = .error (.unbalanced k expected found) ↔
      StopsAt calls k ∧ ¬ Bracketed (calls.take k) ∧
        (∃ i, IsGreatest {i | LeftOpen (calls.take k) i} i ∧
          calls[i]?.map Call.name = some expected) ∧
        calls[k]?.map Call.name = some found
  /-- The calls end too early: the last enter that is not exited is named. -/
  unclosed : ∀ k name, checkBalance calls = .error (.noClosingCall name k) ↔
    Completable calls ∧ ¬ Bracketed calls ∧ IsGreatest {i | LeftOpen calls i} k ∧
      calls[k]?.map Call.name = some name

/-- An exit behind bracketed calls stops the check. -/
theorem Bracketed.stopsAt {rest : List Call} (h : Bracketed read) (hc : c.state = .exit) :
    StopsAt (read ++ c :: rest) read.length :=
  OpenStack.stopsAt (show OpenStack [] read from h) (Call.openBehind?_exit_nil hc)

/-- An exit that does not belong to the innermost element stops the check. -/
theorem OpenStack.stopsAt_of_ne {rest : List Call} (h : OpenStack ((name, i) :: outer) read)
    (hc : c.state = .exit) (hname : name ≠ c.name) :
    StopsAt (read ++ c :: rest) read.length :=
  h.stopsAt (by rw [List.map_cons, Call.openBehind?_exit hc, if_neg hname])

theorem Verdict.unopened_iff {r : Except SequenceError Unit} (hv : Verdict calls r) :
    r = .error (.noOpeningCall name k) ↔
      StopsAt calls k ∧ Bracketed (calls.take k) ∧ calls[k]?.map Call.name = some name := by
  cases hv with
  | accepted h =>
    exact ⟨fun hr => (by cases hr), fun hk => absurd h.completable hk.1.not_completable⟩
  | unclosed h =>
    exact ⟨fun hr => (by cases hr), fun hk => absurd h.completable hk.1.not_completable⟩
  | @unopened read rest c hcalls h hc =>
    subst hcalls
    have hstop : StopsAt (read ++ c :: rest) read.length := h.stopsAt hc
    constructor
    · intro hr
      cases hr
      exact ⟨hstop, by rwa [List.take_left], by simp⟩
    · rintro ⟨hk, -, hname⟩
      obtain rfl := hstop.unique hk
      obtain rfl : c.name = name := by simpa using hname
      rfl
  | @mismatched read rest c name i outer hcalls h hc hname =>
    subst hcalls
    refine ⟨fun hr => (by cases hr), fun ⟨hk, hread, _⟩ => ?_⟩
    obtain rfl := (h.stopsAt_of_ne hc hname).unique hk
    rw [List.take_left] at hread
    exact absurd hread h.not_bracketed

theorem Verdict.mismatched_iff {r : Except SequenceError Unit} (hv : Verdict calls r)
    {expected found : String} :
    r = .error (.unbalanced k expected found) ↔
      StopsAt calls k ∧ ¬ Bracketed (calls.take k) ∧
        (∃ i, IsGreatest {i | LeftOpen (calls.take k) i} i ∧
          calls[i]?.map Call.name = some expected) ∧
        calls[k]?.map Call.name = some found := by
  cases hv with
  | accepted h =>
    exact ⟨fun hr => (by cases hr), fun hk => absurd h.completable hk.1.not_completable⟩
  | unclosed h =>
    exact ⟨fun hr => (by cases hr), fun hk => absurd h.completable hk.1.not_completable⟩
  | @unopened read rest c hcalls h hc =>
    subst hcalls
    refine ⟨fun hr => (by cases hr), fun ⟨hk, hread, _⟩ => ?_⟩
    obtain rfl := (h.stopsAt hc).unique hk
    rw [List.take_left] at hread
    exact absurd h hread
  | @mismatched read rest c name i outer hcalls h hc hname =>
    subst hcalls
    have hstop : StopsAt (read ++ c :: rest) read.length := h.stopsAt_of_ne hc hname
    have hi : i < read.length := by
      obtain ⟨before, a, inner, rfl, rfl, -⟩ := h
      simp
    have hiname : (read ++ c :: rest)[i]?.map Call.name = some name := by
      rw [List.getElem?_append_left hi]
      exact h.name_eq
    constructor
    · intro hr
      cases hr
      rw [List.take_left]
      exact ⟨hstop, h.not_bracketed, ⟨i, h.innermost.isGreatest, hiname⟩, by simp⟩
    · rintro ⟨hk, -, ⟨i', hi', hexpected⟩, hfound⟩
      obtain rfl := hstop.unique hk
      rw [List.take_left] at hi'
      obtain rfl := h.innermost.isGreatest.unique hi'
      obtain rfl : name = expected := by simpa [hiname] using hexpected
      obtain rfl : c.name = found := by simpa using hfound
      rfl

theorem Verdict.unclosed_iff {r : Except SequenceError Unit} (hv : Verdict calls r) :
    r = .error (.noClosingCall name k) ↔
      Completable calls ∧ ¬ Bracketed calls ∧ IsGreatest {i | LeftOpen calls i} k ∧
        calls[k]?.map Call.name = some name := by
  cases hv with
  | accepted h => exact ⟨fun hr => (by cases hr), fun hk => absurd h hk.2.1⟩
  | unclosed h =>
    constructor
    · intro hr
      cases hr
      exact ⟨h.completable, h.not_bracketed, h.innermost.isGreatest, h.name_eq⟩
    · rintro ⟨-, -, hk, hname⟩
      obtain rfl := h.innermost.isGreatest.unique hk
      rw [h.name_eq] at hname
      obtain rfl := Option.some.inj hname
      rfl
  | unopened hcalls h hc =>
    subst hcalls
    exact ⟨fun hr => (by cases hr), fun hk => absurd hk.1 (h.stopsAt hc).not_completable⟩
  | mismatched hcalls h hc hname =>
    subst hcalls
    exact ⟨fun hr => (by cases hr), fun hk => absurd hk.1 (h.stopsAt_of_ne hc hname).not_completable⟩

theorem Verdict.stopped_iff {r : Except SequenceError Unit} (hv : Verdict calls r) :
    ((∃ name, r = .error (.noOpeningCall name k)) ∨
      (∃ expected found, r = .error (.unbalanced k expected found))) ↔ StopsAt calls k := by
  constructor
  · rintro (⟨name, h⟩ | ⟨expected, found, h⟩)
    · exact (hv.unopened_iff.mp h).1
    · exact (hv.mismatched_iff.mp h).1
  · intro hk
    cases hv with
    | accepted h => exact absurd h.completable hk.not_completable
    | unclosed h => exact absurd h.completable hk.not_completable
    | unopened hcalls h hc =>
      subst hcalls
      obtain rfl := (h.stopsAt hc).unique hk
      exact .inl ⟨_, rfl⟩
    | mismatched hcalls h hc hname =>
      subst hcalls
      obtain rfl := (h.stopsAt_of_ne hc hname).unique hk
      exact .inr ⟨_, _, rfl⟩

/-- **The balance check** accepts the calls that the grammar generates; it stops at the
first call with which they cannot be completed, and says whether nothing is open there or
another element; and of calls that only end too early it names the last enter that no call
exits. -/
theorem checkBalance_balanceLaw (calls : List Call) : BalanceLaw calls := by
  have hv := verdict_checkBalance calls
  constructor
  · exact (checkBalance_eq_ok calls).trans balanced_iff_bracketed
  · exact fun k => hv.stopped_iff
  · exact fun k name => hv.unopened_iff
  · exact fun k expected found => hv.mismatched_iff
  · exact fun k name => hv.unclosed_iff

end WikiOutline
