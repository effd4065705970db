/-
# Setting and reading attributes

An entry that was set is the one found, and the other keys read as before.  An
integer attribute is always one of the signed 64-bit range, so a counter made
from one comes back unchanged.  To set an attribute of a call is to give it one and
to leave everything else (`Call.withAttribute_eq_giving`).

Key definitions: `Attributes.given`, `Call.giving`.
Key theorems: `Attributes.get?_set_self`, `Attributes.get?_set_ne`,
`Attributes.set_eq_self`, `Attributes.getInt?_le`, `AttributeValue.ofNat_eq_int`,
`Call.withAttribute_eq_giving`.
-/
import Mathlib
import WikiOutline.Call

namespace WikiOutline

namespace Word

theorem checked_le {i j : Int} (h : checked i = some j) : j ≤ maxInt := by
  unfold checked at h
  split at h
  · rename_i hr
    simp only [inRange, Bool.and_eq_true, decide_eq_true_eq] at hr
    cases h
    exact hr.2
  · cases h

/-- A text never names an integer beyond the range. -/
theorem readInt?_le {cs : List Char} {i : Int} (h : readInt? cs = some i) : i ≤ maxInt := by
  unfold readInt? at h
  split at h <;>
  · obtain ⟨n, -, hn⟩ := Option.bind_eq_some_iff.mp h
    exact checked_le hn

end Word

namespace AttributeValue

theorem asInt?_le {v : AttributeValue} {i : Int} (h : v.asInt? = some i) : i ≤ Word.maxInt := by
  cases v with
  | bool b => cases h
  | int w =>
    cases h
    exact Int.le_of_lt_add_one w.toInt_lt
  | string s => exact Word.readInt?_le h
  | list vs => cases h

/-- A counter up to the largest integer is kept as it is. -/
theorem ofNat_eq_int {n : Nat} (h : (n : Int) ≤ Word.maxInt) :
    ∃ w : Int64, ofNat n = .int w ∧ w.toInt = n := by
  refine ⟨_, rfl, ?_⟩
  have hc : Word.clampNat n = n := min_eq_left h
  have hm : Word.maxInt = 2 ^ 63 - 1 := rfl
  rw [hc, Int64.toInt_ofInt_of_le (by omega) (by omega)]

end AttributeValue

namespace Attributes

theorem find?_exchangeItem_self (k : String) (v : AttributeValue) :
    ∀ es : List (String × AttributeValue),
      (exchangeItem k v es).2.find? (fun e => e.1 == k) = some (k, v)
  | [] => by simp [exchangeItem]
  | e :: es => by
    unfold exchangeItem
    split
    · rename_i h
      simp [eq_of_beq h]
    · rename_i h
      simp only [List.find?_cons, h, find?_exchangeItem_self k v es]

theorem find?_exchangeItem_ne {k j : String} (v : AttributeValue) (hj : j ≠ k) :
    ∀ es : List (String × AttributeValue),
      (exchangeItem k v es).2.find? (fun e => e.1 == j) = es.find? fun e => e.1 == j
  | [] => by simp [exchangeItem, hj.symm]
  | e :: es => by
    unfold exchangeItem
    split
    · rename_i h
      have he : (e.1 == j) = false := by
        rw [eq_of_beq h]
        exact beq_false_of_ne hj.symm
      simp only [List.find?_cons, he]
    · simp only [List.find?_cons, find?_exchangeItem_ne v hj es]

/-- The value set is the value found. -/
@[simp] theorem get?_set_self (a : Attributes) (k : String) (v : AttributeValue) :
    (a.set k v).get? k = some v := by
  simp [get?, set, exchange, find?_exchangeItem_self]

/-- Setting a key leaves the others. -/
theorem get?_set_ne (a : Attributes) {k j : String} (v : AttributeValue) (hj : j ≠ k) :
    (a.set k v).get? j = a.get? j := by
  simp [get?, set, exchange, find?_exchangeItem_ne v hj]

@[simp] theorem getString?_set_string (a : Attributes) (k s : String) :
    (a.set k (.string s)).getString? k = some s := by
  simp [getString?, AttributeValue.asString?]

theorem exchangeItem_eq_self {k : String} {v : AttributeValue} :
    ∀ {es : List (String × AttributeValue)} {e : String × AttributeValue},
      es.find? (fun e => e.1 == k) = some e → e.2 = v → (exchangeItem k v es).2 = es
  | [], _, h, _ => by cases h
  | e :: es, _, h, hv => by
    unfold exchangeItem
    rw [List.find?_cons] at h
    split at h
    · rename_i hk
      rw [Option.some.inj h, if_pos (Option.some.inj h ▸ hk), ← hv]
    · rename_i hk
      rw [if_neg (by simpa using hk)]
      exact congrArg (e :: ·) (exchangeItem_eq_self h hv)

/-- A key that has the value already is set to no effect. -/
theorem set_eq_self {a : Attributes} {k : String} {v : AttributeValue} (h : a.get? k = some v) :
    a.set k v = a := by
  obtain ⟨e, he, hv⟩ := Option.map_eq_some_iff.mp h
  exact congrArg Attributes.mk (exchangeItem_eq_self he hv)

/-- Entries of which one gives a key its value: the first one with the key gives way to
it, and where no entry has the key it comes behind them all. -/
def given (key : String) (value : AttributeValue) (entries : List (String × AttributeValue)) :
    List (String × AttributeValue) :=
  match entries.findIdx? fun e => e.1 == key with
  | some i => entries.set i (key, value)
  | none => entries ++ [(key, value)]

theorem exchangeItem_eq_given (key : String) (value : AttributeValue) :
    ∀ entries : List (String × AttributeValue),
      (exchangeItem key value entries).2 = given key value entries
  | [] => rfl
  | e :: entries => by
    have ih := exchangeItem_eq_given key value entries
    unfold exchangeItem given
    rw [List.findIdx?_cons]
    cases hk : e.1 == key with
    | true =>
      have he : e.1 = key := eq_of_beq hk
      simp only [↓reduceIte, he, List.set_cons_zero]
    | false =>
      simp only [Bool.false_eq_true, ↓reduceIte, ih, given]
      cases entries.findIdx? fun e => e.1 == key <;> rfl

theorem getInt?_le {a : Attributes} {k : String} {i : Int} (h : a.getInt? k = some i) :
    i ≤ Word.maxInt := by
  obtain ⟨v, -, hv⟩ := Option.bind_eq_some_iff.mp h
  exact AttributeValue.asInt?_le hv

end Attributes

namespace Call

/-- A call that has the attribute already stays as it is. -/
theorem withAttribute_eq_self {c : Call} {k : String} {v : AttributeValue}
    (h : c.attributes.get? k = some v) : c.withAttribute k v = c := by
  have hset : c.attributes.set k v = c.attributes := Attributes.set_eq_self h
  rw [withAttribute, hset]
  cases c
  rfl

theorem get?_withAttribute_self (c : Call) (k : String) (v : AttributeValue) :
    (c.withAttribute k v).attributes.get? k = some v :=
  Attributes.get?_set_self c.attributes k v

theorem get?_withAttribute_ne (c : Call) {k j : String} (v : AttributeValue) (h : j ≠ k) :
    (c.withAttribute k v).attributes.get? j = c.attributes.get? j :=
  Attributes.get?_set_ne c.attributes v h

/-- The call with one attribute given a value, and with all else that it has. -/
def giving (c : Call) (key : String) (value : AttributeValue) : Call :=
  { c with attributes := ⟨Attributes.given key value c.attributes.items⟩ }

theorem withAttribute_eq_giving (c : Call) (key : String) (value : AttributeValue) :
    c.withAttribute key value = c.giving key value := by
  have hentries := Attributes.exchangeItem_eq_given key value c.attributes.items
  rw [giving, ← hentries]
  rfl

/-- To set an attribute twice is to set it once. -/
@[simp] theorem withAttribute_twice (c : Call) (k : String) (v : AttributeValue) :
    (c.withAttribute k v).withAttribute k v = c.withAttribute k v :=
  withAttribute_eq_self (get?_withAttribute_self c k v)

end Call

end WikiOutline
