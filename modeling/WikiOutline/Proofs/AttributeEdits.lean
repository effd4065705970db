/-
# An attribute bag and its history

A bag is made and changed by setting and removing keys.  What it holds can be told from the
edits alone: a key has the value it was last set to, unless it was removed behind that, and the
entries stand in the order in which their keys were set for the first time behind their last
removal.  For this no key may have two entries.  The edits keep that, and a bag in which a key
has two entries does not behave as a map: the second entry comes to light when the first one is
removed.

Key definitions: `Attributes.Edit`, `Attributes.performAll`, `Attributes.LastSet`,
`Attributes.FirstSetAt`, `Attributes.HistoryLaw`.
Key theorems: `Attributes.keys_set`, `Attributes.keys_remove`, `Attributes.HistoryLaw.perform`,
`Attributes.historyLaw_of_edits`, `Attributes.nodup_iff_get?_performAll`.
-/
import Mathlib
import WikiOutline.Proofs.Attributes

namespace WikiOutline

namespace Attributes

/-- The keys of the entries, in order. -/
def keys (a : Attributes) : List String := a.items.map (·.1)

theorem get?_eq_none_iff {a : Attributes} {k : String} : a.get? k = none ↔ k ∉ a.keys := by
  rw [get?, Option.map_eq_none_iff, List.find?_eq_none, keys, List.mem_map]
  simp only [beq_iff_eq, not_exists, not_and]

theorem contains_iff {a : Attributes} {k : String} : a.contains k = true ↔ k ∈ a.keys := by
  rw [contains, Option.isSome_iff_ne_none, ne_eq, get?_eq_none_iff, not_not]

theorem exists_get?_iff {a : Attributes} {k : String} : (∃ v, a.get? k = some v) ↔ k ∈ a.keys := by
  rw [← Option.isSome_iff_exists]
  exact contains_iff

/-! ### Setting -/

theorem exchangeItem_fst (k : String) (v : AttributeValue) :
    ∀ es : List (String × AttributeValue),
      (exchangeItem k v es).1 = (es.find? fun e => e.1 == k).map (·.2)
  | [] => rfl
  | e :: es => by
    unfold exchangeItem
    by_cases h : e.1 == k
    · simp [h]
    · have hrest : (e :: es).find? (fun e => e.1 == k) = es.find? fun e => e.1 == k :=
        List.find?_cons_of_neg h
      rw [if_neg h, hrest]
      exact exchangeItem_fst k v es

/-- To set a key gives the value found before. -/
theorem exchange_fst (a : Attributes) (k : String) (v : AttributeValue) :
    (a.exchange k v).1 = a.get? k :=
  exchangeItem_fst k v a.items

theorem exchangeItem_keys (k : String) (v : AttributeValue) :
    ∀ es : List (String × AttributeValue), (exchangeItem k v es).2.map (·.1) =
      if k ∈ es.map (·.1) then es.map (·.1) else es.map (·.1) ++ [k]
  | [] => rfl
  | e :: es => by
    unfold exchangeItem
    by_cases h : e.1 = k
    · simp [h]
    · have hk : ¬k = e.1 := fun hk => h hk.symm
      rw [if_neg (by simpa using h), List.map_cons, List.map_cons, exchangeItem_keys k v es]
      by_cases hmem : k ∈ es.map (·.1)
      · rw [if_pos hmem, if_pos (List.mem_cons_of_mem _ hmem)]
      · rw [if_neg hmem, if_neg (by simp only [List.mem_cons, hk, hmem, or_self, not_false_eq_true])]
        rfl

/-- Setting a key keeps the order of the keys and puts a new one last. -/
theorem keys_set (a : Attributes) (k : String) (v : AttributeValue) :
    (a.set k v).keys = if k ∈ a.keys then a.keys else a.keys ++ [k] :=
  exchangeItem_keys k v a.items

theorem map_of_notMem {k : String} {v : AttributeValue} :
    ∀ {es : List (String × AttributeValue)}, k ∉ es.map (·.1) →
      es.map (fun e => if e.1 = k then (k, v) else e) = es
  | [], _ => rfl
  | e :: es, h => by
    rw [List.map_cons, List.mem_cons, not_or] at h
    rw [List.map_cons, if_neg fun he => h.1 he.symm, map_of_notMem h.2]

theorem exchangeItem_of_mem {k : String} {v : AttributeValue} :
    ∀ {es : List (String × AttributeValue)}, k ∈ es.map (·.1) → (es.map (·.1)).Nodup →
      (exchangeItem k v es).2 = es.map fun e => if e.1 = k then (k, v) else e
  | e :: es, hmem, hnodup => by
    rw [List.map_cons, List.nodup_cons] at hnodup
    unfold exchangeItem
    by_cases h : e.1 = k
    · have hrest : k ∉ es.map (·.1) := h ▸ hnodup.1
      rw [if_pos (by simpa using h), List.map_cons, if_pos h, map_of_notMem hrest, h]
    · have hrest : k ∈ es.map (·.1) := by
        rcases List.mem_cons.mp hmem with hk | hrest
        · exact absurd hk.symm h
        · exact hrest
      rw [if_neg (by simpa using h), List.map_cons, if_neg h]
      exact congrArg (e :: ·) (exchangeItem_of_mem hrest hnodup.2)

/-- If no key has two entries, setting a key that is there changes its entry only. -/
theorem items_set_of_mem {a : Attributes} {k : String} (v : AttributeValue) (hmem : k ∈ a.keys)
    (hnodup : a.keys.Nodup) :
    (a.set k v).items = a.items.map fun e => if e.1 = k then (k, v) else e :=
  exchangeItem_of_mem hmem hnodup

/-! ### Removing -/

/-- To remove a key gives the value found before. -/
theorem remove_fst (a : Attributes) (k : String) : (a.remove k).1 = a.get? k := by
  unfold remove get?
  cases h : a.items.findIdx? fun e => e.1 == k with
  | none =>
    have hnone : a.items.find? (fun e => e.1 == k) = none :=
      List.find?_eq_none.mpr fun e he => by simpa using List.findIdx?_eq_none_iff.mp h e he
    rw [hnone]
    rfl
  | some i =>
    obtain ⟨hi, hkey, hbefore⟩ := List.findIdx?_eq_some_iff_getElem.mp h
    have hsome : a.items.find? (fun e => e.1 == k) = some a.items[i] :=
      List.find?_eq_some_iff_getElem.mpr
        ⟨hkey, i, hi, rfl, fun j hj => by simpa using hbefore j hj⟩
    rw [hsome]
    simp [hi]

theorem items_remove (a : Attributes) (k : String) :
    (a.remove k).2.items = a.items.eraseP fun e => e.1 == k := by
  rw [List.eraseP_eq_eraseIdx]
  unfold remove
  split <;> rename_i h <;> rw [h]

/-- Removing a key takes its first place out. -/
theorem keys_remove (a : Attributes) (k : String) : (a.remove k).2.keys = a.keys.erase k := by
  have hkey : (fun e : String × AttributeValue => e.1 == k) = (fun j => k == j) ∘ (·.1) := by
    funext e
    exact Bool.beq_comm
  rw [keys, keys, items_remove, List.erase_eq_eraseP, List.eraseP_map, hkey]

theorem find?_eraseP_ne {k j : String} (hj : j ≠ k) : ∀ es : List (String × AttributeValue),
    (es.eraseP fun e => e.1 == k).find? (fun e => e.1 == j) = es.find? fun e => e.1 == j
  | [] => rfl
  | e :: es => by
    by_cases h : e.1 = k
    · have hne : ¬e.1 = j := fun he => hj (he ▸ h)
      rw [List.eraseP_cons_of_pos (by simpa using h), List.find?_cons_of_neg (by simpa using hne)]
    · rw [List.eraseP_cons_of_neg (by simpa using h), List.find?_cons, List.find?_cons,
        find?_eraseP_ne hj es]

/-- Removing a key leaves the others. -/
theorem get?_remove_ne (a : Attributes) {k j : String} (hj : j ≠ k) :
    (a.remove k).2.get? j = a.get? j := by
  rw [get?, get?, items_remove, find?_eraseP_ne hj]

/-- A key is still there behind its removal just if it had two entries. -/
theorem contains_remove_iff (a : Attributes) (k : String) :
    (a.remove k).2.contains k = true ↔ 2 ≤ a.keys.count k := by
  rw [contains_iff, keys_remove, ← List.count_pos_iff, List.count_erase_self]
  omega

/-- A key that is removed is gone just if no key has two entries. -/
theorem nodup_iff_contains_remove (a : Attributes) :
    a.keys.Nodup ↔ ∀ k, (a.remove k).2.contains k = false := by
  rw [List.nodup_iff_count_le_one]
  refine forall_congr' fun k => ?_
  rw [← Bool.not_eq_true, contains_remove_iff]
  omega

/-! ### Edits -/

/-- One change of a bag. -/
inductive Edit where
  | set (key : String) (value : AttributeValue)
  | remove (key : String)

namespace Edit

/-- The key that is set or removed. -/
def key : Edit → String
  | .set k _ => k
  | .remove k => k

/-- What an edit answers, and the bag behind it. -/
def perform : Edit → Attributes → Option AttributeValue × Attributes
  | .set k v, a => a.exchange k v
  | .remove k, a => a.remove k

/-- The value of the key behind the edit. -/
def value? : Edit → Option AttributeValue
  | .set _ v => some v
  | .remove _ => none

/-- The edit of a map from keys to values. -/
def update (e : Edit) (m : String → Option AttributeValue) : String → Option AttributeValue :=
  Function.update m e.key e.value?

end Edit

/-- The bag behind some edits. -/
def performAll (edits : List Edit) (a : Attributes) : Attributes :=
  edits.foldl (fun a e => (e.perform a).2) a

theorem performAll_concat (edits : List Edit) (e : Edit) (a : Attributes) :
    performAll (edits ++ [e]) a = (e.perform (performAll edits a)).2 := by
  simp [performAll]

theorem performAll_append (edits more : List Edit) (a : Attributes) :
    performAll (edits ++ more) a = performAll more (performAll edits a) :=
  List.foldl_append

/-- The bag made of pairs is the empty one with each of them set. -/
theorem ofList_eq_performAll (pairs : List (String × AttributeValue)) :
    ofList pairs = performAll (pairs.map fun p => .set p.1 p.2) empty := by
  rw [ofList, performAll, List.foldl_map]
  rfl

theorem perform_fst (e : Edit) (a : Attributes) : (e.perform a).1 = a.get? e.key := by
  cases e with
  | set k v => exact exchange_fst a k v
  | remove k => exact remove_fst a k

/-- An edit looks at its own key only. -/
theorem get?_perform_ne (e : Edit) (a : Attributes) {j : String} (hj : j ≠ e.key) :
    (e.perform a).2.get? j = a.get? j := by
  cases e with
  | set k v => exact get?_set_ne a v hj
  | remove k => exact get?_remove_ne a hj

theorem nodup_perform {a : Attributes} (h : a.keys.Nodup) (e : Edit) :
    (e.perform a).2.keys.Nodup := by
  cases e with
  | set k v =>
    show (a.set k v).keys.Nodup
    rw [keys_set]
    by_cases hmem : k ∈ a.keys
    · rwa [if_pos hmem]
    · rw [if_neg hmem]
      exact List.nodup_append.mpr ⟨h, List.nodup_singleton k, fun j hj l hl hjl =>
        hmem (List.mem_singleton.mp hl ▸ hjl ▸ hj)⟩
  | remove k =>
    show (a.remove k).2.keys.Nodup
    rw [keys_remove]
    exact h.erase k

/-- If no key has two entries, an edit decides what its key reads as. -/
theorem get?_perform_self {a : Attributes} (h : a.keys.Nodup) (e : Edit) :
    (e.perform a).2.get? e.key = e.value? := by
  cases e with
  | set k v => exact get?_set_self a k v
  | remove k =>
    show (a.remove k).2.get? k = none
    rw [get?_eq_none_iff, keys_remove]
    exact h.not_mem_erase

theorem get?_perform_eq_update {a : Attributes} (h : a.keys.Nodup) (e : Edit) :
    (e.perform a).2.get? = e.update a.get? := by
  funext j
  by_cases hj : j = e.key
  · rw [hj, get?_perform_self h, Edit.update, Function.update_self]
  · rw [get?_perform_ne e a hj, Edit.update, Function.update_of_ne hj]

/-- **A bag is a map just if no key has two entries**: then, and only then, it reads behind all
edits as a map behind the same edits. -/
theorem nodup_iff_get?_performAll (a : Attributes) :
    a.keys.Nodup ↔
      ∀ edits, (performAll edits a).get? = edits.foldl (fun m e => e.update m) a.get? := by
  constructor
  · intro h edits
    induction edits generalizing a with
    | nil => rfl
    | cons e edits ih =>
      rw [List.foldl_cons, ← get?_perform_eq_update h e]
      exact ih _ (nodup_perform h e)
  · intro h
    rw [nodup_iff_contains_remove]
    intro k
    -- a second entry would show behind the removal of the first one
    have hremove : (a.remove k).2.get? k = none :=
      (congrFun (h [.remove k]) k).trans (Function.update_self k _ _)
    rw [contains, hremove]
    rfl

/-! ### Histories -/

/-- A key is set and not removed behind that. -/
def Lasts (history : List Edit) (k : String) : Prop :=
  ∃ before v after, history = before ++ .set k v :: after ∧ Edit.remove k ∉ after

/-- A key is set to a value, and neither set nor removed behind that. -/
def LastSet (history : List Edit) (k : String) (v : AttributeValue) : Prop :=
  ∃ before after, history = before ++ .set k v :: after ∧ ∀ e ∈ after, e.key ≠ k

/-- The edit at a place sets a key for the first time behind its last removal. -/
def FirstSetAt (history : List Edit) (k : String) (i : Nat) : Prop :=
  ∃ before v after, history = before ++ .set k v :: after ∧ before.length = i ∧
    Edit.remove k ∉ after ∧ ¬Lasts before k

/-- What can be told of a bag from its history. -/
structure HistoryLaw (history : List Edit) (a : Attributes) : Prop where
  /-- No key has two entries. -/
  nodup : a.keys.Nodup
  /-- A key has the value it was last set to, if it was not removed behind that. -/
  get?_iff : ∀ k v, a.get? k = some v ↔ LastSet history k v
  /-- A key is there if it was set and not removed behind that. -/
  present : ∀ k, k ∈ a.keys ↔ Lasts history k
  /-- An edit answers what a lookup gives just before it. -/
  answer : ∀ e : Edit, (e.perform a).1 = a.get? e.key
  /-- Every key that is there was set for the first time behind its last removal. -/
  placed : ∀ k ∈ a.keys, ∃ i, FirstSetAt history k i
  /-- The entries stand in the order of these places. -/
  ordered : a.keys.Pairwise fun k l =>
    ∀ i j, FirstSetAt history k i → FirstSetAt history l j → i < j
  /-- Setting a key that is there changes the value of its entry and nothing else. -/
  replaced : ∀ k v, k ∈ a.keys →
    (a.set k v).items = a.items.map fun e => if e.1 = k then (k, v) else e

theorem concat_eq_split_iff {α : Type} {l before after : List α} {x y : α} :
    l ++ [y] = before ++ x :: after ↔
      (after = [] ∧ l = before ∧ y = x) ∨ ∃ rest, after = rest ++ [y] ∧ l = before ++ x :: rest := by
  constructor
  · intro h
    rcases List.eq_nil_or_concat after with rfl | ⟨rest, z, rfl⟩
    · obtain ⟨h1, h2⟩ := List.append_inj' h rfl
      exact .inl ⟨rfl, h1, List.singleton_inj.mp h2⟩
    · rw [List.concat_eq_append, ← List.cons_append, ← List.append_assoc] at h
      obtain ⟨h1, h2⟩ := List.append_inj' h rfl
      rw [List.singleton_inj.mp h2]
      exact .inr ⟨rest, List.concat_eq_append, h1⟩
  · rintro (⟨rfl, rfl, rfl⟩ | ⟨rest, rfl, rfl⟩)
    · rfl
    · simp

theorem not_lasts_nil (k : String) : ¬Lasts [] k := by
  rintro ⟨before, v, after, h, -⟩
  simp at h

theorem lasts_concat_iff {history : List Edit} {e : Edit} {k : String} :
    Lasts (history ++ [e]) k ↔ (∃ v, e = .set k v) ∨ Lasts history k ∧ e ≠ .remove k := by
  constructor
  · rintro ⟨before, v, after, h, hafter⟩
    rcases concat_eq_split_iff.mp h with ⟨-, -, rfl⟩ | ⟨rest, rfl, rfl⟩
    · exact .inl ⟨v, rfl⟩
    · rw [List.mem_append, not_or, List.mem_singleton] at hafter
      exact .inr ⟨⟨before, v, rest, rfl, hafter.1⟩, fun he => hafter.2 he.symm⟩
  · rintro (⟨v, rfl⟩ | ⟨⟨before, v, after, rfl, hafter⟩, he⟩)
    · exact ⟨history, v, [], rfl, List.not_mem_nil⟩
    · refine ⟨before, v, after ++ [e], by simp, ?_⟩
      rw [List.mem_append, not_or, List.mem_singleton]
      exact ⟨hafter, fun h => he h.symm⟩

theorem not_lastSet_nil (k : String) (v : AttributeValue) : ¬LastSet [] k v := by
  rintro ⟨before, after, h, -⟩
  simp at h

theorem lastSet_concat_iff {history : List Edit} {e : Edit} {k : String} {v : AttributeValue} :
    LastSet (history ++ [e]) k v ↔ e = .set k v ∨ LastSet history k v ∧ e.key ≠ k := by
  constructor
  · rintro ⟨before, after, h, hafter⟩
    rcases concat_eq_split_iff.mp h with ⟨-, -, rfl⟩ | ⟨rest, rfl, rfl⟩
    · exact .inl rfl
    · rw [List.forall_mem_append, List.forall_mem_singleton] at hafter
      exact .inr ⟨⟨before, rest, rfl, hafter.1⟩, hafter.2⟩
  · rintro (rfl | ⟨⟨before, after, rfl, hafter⟩, he⟩)
    · exact ⟨history, [], rfl, fun _ h => absurd h List.not_mem_nil⟩
    · refine ⟨before, after ++ [e], by simp, ?_⟩
      rw [List.forall_mem_append, List.forall_mem_singleton]
      exact ⟨hafter, he⟩

theorem FirstSetAt.lt_length {history : List Edit} {k : String} {i : Nat}
    (h : FirstSetAt history k i) : i < history.length := by
  obtain ⟨before, v, after, rfl, rfl, -⟩ := h
  simp

theorem firstSetAt_concat_iff {history : List Edit} {e : Edit} {k : String} {i : Nat} :
    FirstSetAt (history ++ [e]) k i ↔
      (FirstSetAt history k i ∧ e ≠ .remove k) ∨
        i = history.length ∧ (∃ v, e = .set k v) ∧ ¬Lasts history k := by
  constructor
  · rintro ⟨before, v, after, h, rfl, hafter, hbefore⟩
    rcases concat_eq_split_iff.mp h with ⟨-, rfl, rfl⟩ | ⟨rest, rfl, rfl⟩
    · exact .inr ⟨rfl, ⟨v, rfl⟩, hbefore⟩
    · rw [List.mem_append, not_or, List.mem_singleton] at hafter
      exact .inl ⟨⟨before, v, rest, rfl, rfl, hafter.1, hbefore⟩, fun he => hafter.2 he.symm⟩
  · rintro (⟨⟨before, v, after, rfl, rfl, hafter, hbefore⟩, he⟩ | ⟨rfl, ⟨v, rfl⟩, hlasts⟩)
    · refine ⟨before, v, after ++ [e], by simp, rfl, ?_, hbefore⟩
      rw [List.mem_append, not_or, List.mem_singleton]
      exact ⟨hafter, fun h => he h.symm⟩
    · exact ⟨history, v, [], rfl, rfl, List.not_mem_nil, hlasts⟩

theorem FirstSetAt.lasts {history : List Edit} {k : String} {i : Nat}
    (h : FirstSetAt history k i) : Lasts history k := by
  obtain ⟨before, v, after, rfl, -, hafter, -⟩ := h
  exact ⟨before, v, after, rfl, hafter⟩

/-! ### A bag against its history -/

theorem mem_keys_perform_iff {a : Attributes} (h : a.keys.Nodup) {e : Edit} {k : String} :
    k ∈ (e.perform a).2.keys ↔ (∃ v, e = .set k v) ∨ k ∈ a.keys ∧ e ≠ .remove k := by
  by_cases hk : k = e.key
  · subst hk
    rw [← exists_get?_iff, get?_perform_self h]
    cases e with
    | set k v => simp [Edit.value?, Edit.key]
    | remove k => simp [Edit.value?, Edit.key]
  · rw [← exists_get?_iff, get?_perform_ne e a hk, exists_get?_iff]
    cases e with
    | set j v => simp [show ¬j = k from fun hj => hk hj.symm]
    | remove j => simp [show ¬j = k from fun hj => hk hj.symm]

namespace HistoryLaw

theorem nil : HistoryLaw [] empty where
  nodup := List.nodup_nil
  get?_iff k v := iff_of_false nofun (not_lastSet_nil k v)
  present k := iff_of_false List.not_mem_nil (not_lasts_nil k)
  answer e := perform_fst e empty
  placed _ h := absurd h List.not_mem_nil
  ordered := List.Pairwise.nil
  replaced _ _ h := absurd h List.not_mem_nil

variable {history : List Edit} {a : Attributes} (law : HistoryLaw history a) (e : Edit)

include law

theorem get?_perform_iff (k : String) (v : AttributeValue) :
    (e.perform a).2.get? k = some v ↔ LastSet (history ++ [e]) k v := by
  rw [lastSet_concat_iff]
  by_cases hk : k = e.key
  · subst hk
    rw [get?_perform_self law.nodup]
    cases e with
    | set k w => simp [Edit.value?, Edit.key]
    | remove k => simp [Edit.value?, Edit.key]
  · have hset : ¬e = .set k v := by
      rintro rfl
      exact hk rfl
    rw [get?_perform_ne e a hk, law.get?_iff]
    simp only [hset, false_or, ne_eq, show ¬e.key = k from fun h => hk h.symm, not_false_eq_true,
      and_true]

theorem present_perform (k : String) :
    k ∈ (e.perform a).2.keys ↔ Lasts (history ++ [e]) k := by
  rw [mem_keys_perform_iff law.nodup, lasts_concat_iff, law.present]

/-- An edit does not move the places of the keys that are there. -/
theorem firstSetAt_of_concat {k : String} {i : Nat} (hk : k ∈ a.keys)
    (h : FirstSetAt (history ++ [e]) k i) : FirstSetAt history k i := by
  rcases firstSetAt_concat_iff.mp h with h | ⟨-, -, hlasts⟩
  · exact h.1
  · exact absurd ((law.present k).mp hk) hlasts

theorem placed_perform (k : String) (hk : k ∈ (e.perform a).2.keys) :
    ∃ i, FirstSetAt (history ++ [e]) k i := by
  by_cases hold : k ∈ a.keys
  · obtain ⟨i, hi⟩ := law.placed k hold
    have he : e ≠ .remove k := by
      rintro rfl
      rcases (mem_keys_perform_iff law.nodup).mp hk with ⟨v, hv⟩ | ⟨-, hne⟩
      · cases hv
      · exact hne rfl
    exact ⟨i, firstSetAt_concat_iff.mpr (.inl ⟨hi, he⟩)⟩
  · rcases (mem_keys_perform_iff law.nodup).mp hk with hset | ⟨hmem, -⟩
    · have hlasts : ¬Lasts history k := fun h => hold ((law.present k).mpr h)
      exact ⟨history.length, firstSetAt_concat_iff.mpr (.inr ⟨rfl, hset, hlasts⟩)⟩
    · exact absurd hmem hold

theorem ordered_perform : (e.perform a).2.keys.Pairwise fun k l =>
    ∀ i j, FirstSetAt (history ++ [e]) k i → FirstSetAt (history ++ [e]) l j → i < j := by
  have hold : a.keys.Pairwise fun k l =>
      ∀ i j, FirstSetAt (history ++ [e]) k i → FirstSetAt (history ++ [e]) l j → i < j := by
    refine law.ordered.imp_of_mem fun hk hl hlt i j hi hj => hlt i j ?_ ?_
    · exact law.firstSetAt_of_concat e hk hi
    · exact law.firstSetAt_of_concat e hl hj
  cases e with
  | set k v =>
    show (a.set k v).keys.Pairwise _
    rw [keys_set]
    by_cases hmem : k ∈ a.keys
    · rwa [if_pos hmem]
    · rw [if_neg hmem, List.pairwise_append]
      refine ⟨hold, List.pairwise_singleton _ _, fun l hl m hm i j hi hj => ?_⟩
      -- the new key is set at the end, every other one before it
      have hlt : i < history.length := (law.firstSetAt_of_concat _ hl hi).lt_length
      rw [List.mem_singleton.mp hm] at hj
      rcases firstSetAt_concat_iff.mp hj with ⟨hj, -⟩ | ⟨rfl, -⟩
      · exact absurd ((law.present k).mpr hj.lasts) hmem
      · exact hlt
  | remove k =>
    show (a.remove k).2.keys.Pairwise _
    rw [keys_remove]
    exact hold.sublist List.erase_sublist

/-- An edit keeps the law, for the history with the edit behind it. -/
theorem perform : HistoryLaw (history ++ [e]) (e.perform a).2 where
  nodup := nodup_perform law.nodup e
  get?_iff := law.get?_perform_iff e
  present := law.present_perform e
  answer d := perform_fst d _
  placed := law.placed_perform e
  ordered := law.ordered_perform e
  replaced _ v hk := items_set_of_mem v hk (nodup_perform law.nodup e)

end HistoryLaw

/-- **What any edits leave of an empty bag** is known from the edits. -/
theorem historyLaw_performAll (edits : List Edit) : HistoryLaw edits (performAll edits empty) := by
  induction edits using List.reverseRecOn with
  | nil => exact HistoryLaw.nil
  | append_singleton edits e ih =>
    rw [performAll_concat]
    exact ih.perform e

/-- **A bag is an insertion-ordered map.**  Made of pairs and edited, it is known from the pairs
and the edits: what each key reads as, what each edit answers, and the order of the entries. -/
theorem historyLaw_of_edits (pairs : List (String × AttributeValue)) (edits : List Edit) :
    HistoryLaw (pairs.map (fun p => .set p.1 p.2) ++ edits) (performAll edits (ofList pairs)) := by
  rw [ofList_eq_performAll, ← performAll_append]
  exact historyLaw_performAll _

-- a key that comes back goes behind those that stayed
example : (performAll [.remove "id", .set "level" (.int 2), .set "id" (.string "news")]
    (ofList [("id", .string "usage"), ("level", .int 1)])).keys = ["level", "id"] := by decide

end Attributes

end WikiOutline
