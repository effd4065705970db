/-
# A rewriting pass comes to every call once

A pass goes over the calls from before the first one, from call to call, and keeps or
deletes the call that it has come to, deletes it together with the one before it, or
inserts calls before it (`Edit`).  What is done may depend on all that has been done
before.

Behind every edit the calls are those written so far and those still to come, with the
cursor on the last one written (`passing`).  So the next call is the first one to come,
whatever has been inserted or deleted: a pass comes to the calls that were there at the
start, one after the other, and what it leaves is a fold over them.

Key definitions: `CallSequence.Edit`, `CallSequence.passWithin`, `CallSequence.rewritten`,
`CallSequence.passing`, `CallSequence.arrived`.
Key theorems: `CallSequence.performAll_operations`, `CallSequence.passWithin_passing`,
`CallSequence.pass_visits_every_call_once`.
-/
import WikiOutline.Proofs.CursorSafety

namespace WikiOutline

namespace CallSequence

/-- What a pass does to the call that it has come to. -/
inductive Edit where
  | keep
  | delete
  | deletePair
  | insertBefore (cs : List Call)

/-- The operations of an edit. -/
def Edit.operations : Edit → List Operation
  | .keep => []
  | .delete => [.delete]
  | .deletePair => [.deletePair]
  | .insertBefore cs => cs.map .insertBefore

/-- The calls written when a call is edited behind the calls written before it. -/
def Edit.write (written : List Call) (c : Call) : Edit → List Call
  | .keep => written ++ [c]
  | .delete => written
  | .deletePair => if written.isEmpty then [c] else written.dropLast
  | .insertBefore cs => written ++ cs ++ [c]

/-- The calls that a pass has come to, each with what was done to it. -/
abbrev History := List (Call × Edit)

/-- Goes on from call to call until there is none, and edits each one.  Gives the history
and the sequence that is left, if there are not more than `n` moves. -/
def passWithin (choose : History → Call → Edit) :
    Nat → History → CallSequence → Except OutOfRange (Option (History × CallSequence))
  | 0, _, _ => .ok none
  | n + 1, history, s =>
    match s.next.current? with
    | none => .ok (some (history, s.next))
    | some c => do
      let edit := choose history c
      let s ← performAll edit.operations s.next
      passWithin choose n (history ++ [(c, edit)]) s

/-- The history and the written calls with one more call edited. -/
def rewrite (choose : History → Call → Edit) (done : History × List Call) (c : Call) :
    History × List Call :=
  let edit := choose done.1 c
  (done.1 ++ [(c, edit)], edit.write done.2 c)

/-- The history and the written calls with all calls edited, one after the other. -/
def rewritten (choose : History → Call → Edit) (calls : List Call) : History × List Call :=
  calls.foldl (rewrite choose) ([], [])

/-- Some calls are written and some are still to come; the cursor is on the last one
written. -/
def passing (written coming : List Call) : CallSequence :=
  { calls := written ++ coming, cursor := cursorBefore written.length 1 }

/-- Some calls are written and some are still to come; the cursor is on a call in
between. -/
def arrived (written : List Call) (c : Call) (coming : List Call) : CallSequence :=
  { calls := written ++ c :: coming, cursor := .at written.length }

variable {choose : History → Call → Edit} {written coming : List Call} {c : Call}

/-! ### To the next call -/

theorem passing_nil (calls : List Call) : passing [] calls = ofList calls := rfl

theorem passing_concat (written : List Call) (c : Call) (coming : List Call) :
    passing (written ++ [c]) coming =
      { calls := written ++ c :: coming, cursor := .at written.length } := by
  simp [passing, cursorBefore]

/-- The next call is the first one to come. -/
theorem next_passing_cons (written : List Call) (c : Call) (coming : List Call) :
    (passing written (c :: coming)).next = arrived written c coming := by
  rcases List.eq_nil_or_concat written with rfl | ⟨before, last, rfl⟩
  · rfl
  · rw [List.concat_eq_append, passing_concat]
    have hmore : before.length + 1 < (before ++ last :: c :: coming).length := by
      rw [List.length_append, List.length_cons, List.length_cons]
      omega
    have hnext : CallSequence.next
        { calls := before ++ last :: c :: coming, cursor := .at before.length } =
          { calls := before ++ last :: c :: coming, cursor := .at (before.length + 1) } :=
      if_pos hmore
    rw [hnext]
    simp [arrived]

/-- When no call is to come, the cursor goes behind the end. -/
theorem next_passing_nil (written : List Call) :
    (passing written []).next = { calls := written, cursor := .afterEnd } := by
  rcases List.eq_nil_or_concat written with rfl | ⟨before, last, rfl⟩
  · rfl
  · rw [List.concat_eq_append, passing_concat]
    have hlast : ¬ before.length + 1 < (before ++ [last]).length := by simp
    exact if_neg hlast

theorem current?_arrived (written : List Call) (c : Call) (coming : List Call) :
    (arrived written c coming).current? = some c := by
  show (written ++ c :: coming)[written.length]? = some c
  simp

/-! ### One edit -/

theorem inRange_arrived (written : List Call) (c : Call) (coming : List Call) :
    (arrived written c coming).InRange := by
  intro i hi
  cases hi
  show written.length < (written ++ c :: coming).length
  simp

theorem arrived_eq_passing (written : List Call) (c : Call) (coming : List Call) :
    arrived written c coming = passing (written ++ [c]) coming :=
  (passing_concat written c coming).symm

/-- With the cursor in range, operations are done one by one. -/
theorem InRange.performAll_cons {s : CallSequence} (h : s.InRange) (op : Operation)
    (ops : List Operation) :
    CallSequence.performAll (op :: ops) s = CallSequence.performAll ops (s.outcome op).2 := by
  rw [CallSequence.performAll, perform_eq h op]
  rfl

theorem InRange.performAll_singleton {s : CallSequence} (h : s.InRange) (op : Operation) :
    CallSequence.performAll [op] s = .ok (s.outcome op).2 := h.performAll_cons op []

theorem outcome_delete {s : CallSequence} {i : Nat} (hindex : s.index? = some i)
    (hcurrent : s.current? = some c) :
    (s.outcome .delete).2 = { calls := s.calls.eraseIdx i, cursor := cursorBefore i 1 } := by
  simp only [outcome, delete?, hindex, hcurrent]
  rfl

theorem outcome_deletePair {s : CallSequence} {i : Nat} (hindex : s.index? = some i)
    (hcurrent : s.current? = some c) :
    (s.outcome .deletePair).2 =
      if i = 0 then s
      else { calls := (s.calls.eraseIdx i).eraseIdx (i - 1), cursor := cursorBefore i 2 } := by
  simp only [outcome, deletePair?, hindex, hcurrent, Option.bind_eq_bind, Option.bind_some]
  split_ifs <;> rfl

theorem index?_arrived (written : List Call) (c : Call) (coming : List Call) :
    (arrived written c coming).index? = some written.length :=
  if_pos (inRange_arrived written c coming _ rfl)

theorem eraseIdx_length_append (written : List Call) (c : Call) (coming : List Call) :
    (written ++ c :: coming).eraseIdx written.length = written ++ coming := by
  rw [List.eraseIdx_append_of_length_le le_rfl, Nat.sub_self]
  rfl

theorem insertIdx_length_append (written coming : List Call) (c : Call) :
    (written ++ coming).insertIdx written.length c = written ++ c :: coming := by
  induction written with
  | nil => rfl
  | cons d written ih => exact congrArg (d :: ·) ih

/-- A deleted call is not written. -/
theorem delete_arrived (written : List Call) (c : Call) (coming : List Call) :
    ((arrived written c coming).outcome .delete).2 = passing written coming := by
  rw [outcome_delete (index?_arrived written c coming) (current?_arrived written c coming)]
  show CallSequence.mk ((written ++ c :: coming).eraseIdx written.length) _ = _
  rw [eraseIdx_length_append]
  rfl

/-- On the first call there is no pair to delete. -/
theorem deletePair_arrived_nil (c : Call) (coming : List Call) :
    ((arrived [] c coming).outcome .deletePair).2 = passing [c] coming := by
  rw [outcome_deletePair (index?_arrived [] c coming) (current?_arrived [] c coming)]
  exact arrived_eq_passing [] c coming

/-- With its call the last one written goes. -/
theorem deletePair_arrived_concat (before : List Call) (last c : Call) (coming : List Call) :
    ((arrived (before ++ [last]) c coming).outcome .deletePair).2 = passing before coming := by
  have hlength : (before ++ [last]).length = before.length + 1 := List.length_append
  have hfirst := eraseIdx_length_append (before ++ [last]) c coming
  have hcursor : cursorBefore (before.length + 1) 2 = cursorBefore before.length 1 := by
    have hshift : before.length + 1 < 2 ↔ before.length < 1 := by omega
    simp only [cursorBefore, hshift]
    rfl
  rw [outcome_deletePair (index?_arrived (before ++ [last]) c coming)
    (current?_arrived (before ++ [last]) c coming)]
  rw [hlength] at hfirst ⊢
  rw [if_neg (Nat.succ_ne_zero _), arrived, hfirst, hcursor, Nat.add_sub_cancel,
    List.append_assoc, List.singleton_append, eraseIdx_length_append]
  rfl

/-- An inserted call is written before the one that the cursor stays on. -/
theorem insertBefore_arrived (written : List Call) (d c : Call) (coming : List Call) :
    (arrived written c coming).insertBefore d = arrived (written ++ [d]) c coming := by
  show CallSequence.mk ((written ++ c :: coming).insertIdx written.length d)
    (.at (written.length + 1)) = arrived (written ++ [d]) c coming
  rw [insertIdx_length_append, arrived, List.length_append, List.append_assoc]
  rfl

theorem performAll_insertBefore (c : Call) (coming : List Call) :
    ∀ (cs written : List Call),
      CallSequence.performAll (cs.map .insertBefore) (arrived written c coming) =
        .ok (arrived (written ++ cs) c coming)
  | [], written => by rw [List.append_nil]; rfl
  | d :: cs, written => by
    rw [List.map_cons, (inRange_arrived written c coming).performAll_cons]
    show CallSequence.performAll _ ((arrived written c coming).insertBefore d) = _
    rw [insertBefore_arrived, performAll_insertBefore c coming cs, List.append_assoc]
    rfl

/-- **An edit writes what it says and touches nothing that is still to come.** -/
theorem performAll_operations (edit : Edit) (written : List Call) (c : Call)
    (coming : List Call) :
    CallSequence.performAll edit.operations (arrived written c coming) =
      .ok (passing (edit.write written c) coming) := by
  have hin := inRange_arrived written c coming
  cases edit with
  | keep => exact congrArg Except.ok (arrived_eq_passing written c coming)
  | delete =>
    rw [Edit.operations, hin.performAll_singleton, delete_arrived]
    rfl
  | deletePair =>
    rw [Edit.operations, hin.performAll_singleton]
    rcases List.eq_nil_or_concat written with rfl | ⟨before, last, rfl⟩
    · rw [deletePair_arrived_nil]
      rfl
    · rw [List.concat_eq_append, deletePair_arrived_concat, Edit.write, if_neg (by simp),
        List.dropLast_concat]
  | insertBefore cs =>
    rw [Edit.operations, performAll_insertBefore, arrived_eq_passing]
    rfl

/-! ### A whole pass -/

/-- One more move comes to the first call to come, and edits it. -/
theorem passWithin_passing_cons (n : Nat) (history : History) :
    passWithin choose (n + 1) history (passing written (c :: coming)) =
      passWithin choose n (rewrite choose (history, written) c).1
        (passing (rewrite choose (history, written) c).2 coming) := by
  rw [passWithin, next_passing_cons, current?_arrived]
  show (CallSequence.performAll (choose history c).operations (arrived written c coming) >>= _) = _
  rw [performAll_operations]
  rfl

theorem passWithin_passing_nil (n : Nat) (history : History) :
    passWithin choose (n + 1) history (passing written []) =
      .ok (some (history, { calls := written, cursor := .afterEnd })) := by
  rw [passWithin, next_passing_nil]
  rfl

/-- From any place, a pass makes one move for each call to come and one to the end. -/
theorem passWithin_passing (choose : History → Call → Edit) :
    ∀ (coming : List Call) (n : Nat) (done : History × List Call),
      passWithin choose n done.1 (passing done.2 coming) =
        .ok (if coming.length < n then
            some ((coming.foldl (rewrite choose) done).1,
              { calls := (coming.foldl (rewrite choose) done).2, cursor := .afterEnd })
          else none)
  | _, 0, _ => rfl
  | [], n + 1, done => by
    rw [passWithin_passing_nil, List.length_nil, if_pos (Nat.succ_pos n)]
    rfl
  | c :: coming, n + 1, done => by
    have hmoves : (c :: coming).length < n + 1 ↔ coming.length < n := Nat.succ_lt_succ_iff
    rw [passWithin_passing_cons, passWithin_passing choose coming n, List.foldl_cons]
    simp only [hmoves]

/-- The history has the edited calls, in their order. -/
theorem map_fst_foldl_rewrite (choose : History → Call → Edit) :
    ∀ (calls : List Call) (done : History × List Call),
      (calls.foldl (rewrite choose) done).1.map Prod.fst = done.1.map Prod.fst ++ calls
  | [], done => (List.append_nil _).symm
  | c :: calls, done => by
    rw [List.foldl_cons, map_fst_foldl_rewrite choose calls, rewrite, List.map_append,
      List.append_assoc]
    rfl

/-- **A rewriting pass comes to every call exactly once**, however it chooses what to do:
it asks for no index that is not there; it is at its end after one move more than there are
calls; it has then come to the calls that were there at the start, each once and in their
order; and it leaves the cursor behind the end and the calls that are written when one call
after the other is edited. -/
theorem pass_visits_every_call_once (choose : History → Call → Edit) (calls : List Call) :
    (∀ n, passWithin choose n [] (ofList calls) =
      .ok (if calls.length < n then
          some ((rewritten choose calls).1,
            { calls := (rewritten choose calls).2, cursor := .afterEnd })
        else none)) ∧
      (rewritten choose calls).1.map Prod.fst = calls := by
  constructor
  · intro n
    rw [← passing_nil]
    exact passWithin_passing choose calls n ([], [])
  · exact map_fst_foldl_rewrite choose calls ([], [])

/-- The first call goes with the second one, and then there is none before the third. -/
example (a b c : Call) :
    (rewritten (fun history _ => if history.isEmpty then .keep else .deletePair) [a, b, c]).2 =
      [c] := rfl

end CallSequence

end WikiOutline
