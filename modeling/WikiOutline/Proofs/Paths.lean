/-
# Paths and what they denote

Going up from a path is a matter of its text: the last component goes.  What a path
denotes is found in the tree, and the components alone decide it, as long as a
folder is found.  So the path above denotes the folder that is passed before the
last component, be that a name or two points.

Key definitions: `Path.components`, `FileTree.IsFolder`, `FileTree.World.locate?`.
Key theorems: `Path.parent?_eq_none_iff`, `Path.components_of_parent?`,
`FileTree.follow?_components_iff`.
-/
import Mathlib
import WikiOutline.FileTree

namespace WikiOutline

namespace Path

/-- The first segment counts unless it is void; a point counts if the path is
relative. -/
def countsFirst (absolute : Bool) (s : List Char) : Bool :=
  s == ['.'] && !absolute || !isVoid s

/-- The segments that count. -/
def counting (absolute : Bool) : List (List Char) → List (List Char)
  | [] => []
  | s :: ss => [s].filter (countsFirst absolute) ++ ss.filter fun t => !isVoid t

/-- The components of a path: its segments that are not void, and a point at the
start of a relative path. -/
def components (p : Path) : List (List Char) := counting p.isAbsolute p.segments

/-! ### Segments -/

theorem splitSlash_eq_splitOn (cs : List Char) : splitSlash cs = cs.splitOn '/' := by
  induction cs with
  | nil => rfl
  | cons c cs ih =>
    obtain ⟨s, ss, hss⟩ := List.exists_cons_of_ne_nil (List.splitOn_ne_nil '/' cs)
    rw [List.splitOn_cons_eq_if_modifyHead]
    by_cases hc : c = '/'
    · rw [hc, if_pos (beq_self_eq_true '/'), splitSlash, ih]
    · have hbeq : ¬ (c == '/') = true := by rwa [beq_iff_eq]
      rw [if_neg hbeq, splitSlash, ih, hss, List.modifyHead_cons]
      exact hc

theorem splitSlash_ne_nil (cs : List Char) : splitSlash cs ≠ [] :=
  splitSlash_eq_splitOn cs ▸ List.splitOn_ne_nil '/' cs

theorem splitSlash_cons_of_ne {c : Char} (hc : c ≠ '/') {cs s : List Char}
    {ss : List (List Char)} (h : splitSlash cs = s :: ss) :
    splitSlash (c :: cs) = (c :: s) :: ss := by
  rw [splitSlash, h]
  exact hc

theorem slash_notMem_splitSlash (cs : List Char) : ∀ s ∈ splitSlash cs, '/' ∉ s := by
  induction cs with
  | nil => simp [splitSlash]
  | cons c cs ih =>
    by_cases hc : c = '/'
    · rw [hc, splitSlash]
      exact List.forall_mem_cons.mpr ⟨List.not_mem_nil, ih⟩
    · obtain ⟨s, ss, hss⟩ := List.exists_cons_of_ne_nil (splitSlash_ne_nil cs)
      rw [hss] at ih
      rw [splitSlash_cons_of_ne hc hss]
      obtain ⟨hs, hss⟩ := List.forall_mem_cons.mp ih
      exact List.forall_mem_cons.mpr ⟨List.not_mem_cons_of_ne_of_not_mem (Ne.symm hc) hs, hss⟩

/-- Segments with slashes between them are the segments of what results. -/
theorem segments_joinSlash {ss : List (List Char)} (hne : ss ≠ []) (hslash : ∀ s ∈ ss, '/' ∉ s) :
    (⟨String.ofList (joinSlash ss)⟩ : Path).segments = ss := by
  rw [segments, String.toList_ofList, splitSlash_eq_splitOn, joinSlash,
    List.splitOn_intercalate '/' hslash hne]

/-- A path starts at the top when nothing stands before its first slash. -/
theorem isAbsolute_iff (p : Path) :
    p.isAbsolute = true ↔ ∃ s ss, p.segments = [] :: s :: ss := by
  rw [isAbsolute, segments, beq_iff_eq]
  cases p.text.toList with
  | nil => simp [splitSlash]
  | cons c cs =>
    obtain ⟨s, ss, hss⟩ := List.exists_cons_of_ne_nil (splitSlash_ne_nil cs)
    by_cases hc : c = '/'
    · rw [hc, splitSlash, hss]
      simp
    · rw [splitSlash_cons_of_ne hc hss]
      simp [hc]

theorem countP_splitSlash_le (cs : List Char) :
    (splitSlash cs).countP (fun s => !s.isEmpty) ≤ cs.length := by
  induction cs with
  | nil => simp [splitSlash]
  | cons c cs ih =>
    by_cases hc : c = '/'
    · rw [hc, splitSlash, List.countP_cons_of_neg (by simp)]
      exact ih.trans (Nat.le_succ _)
    · obtain ⟨s, ss, hss⟩ := List.exists_cons_of_ne_nil (splitSlash_ne_nil cs)
      rw [hss, List.countP_cons] at ih
      rw [splitSlash_cons_of_ne hc hss, List.countP_cons_of_pos (by simp), List.length_cons]
      omega

theorem not_isEmpty_of_countsFirst {absolute : Bool} {s : List Char}
    (h : countsFirst absolute s = true) : (!s.isEmpty) = true := by
  cases s with
  | nil => exact absurd h (by simp [countsFirst, isVoid])
  | cons c s => rfl

theorem not_isEmpty_of_not_isVoid {s : List Char} (h : (!isVoid s) = true) :
    (!s.isEmpty) = true := by
  cases s with
  | nil => exact absurd h (by decide)
  | cons c s => rfl

theorem length_counting_le (absolute : Bool) (ss : List (List Char)) :
    (counting absolute ss).length ≤ ss.countP fun s => !s.isEmpty := by
  cases ss with
  | nil => exact Nat.le_refl 0
  | cons s ss =>
    calc (counting absolute (s :: ss)).length
        = [s].countP (countsFirst absolute) + ss.countP fun t => !isVoid t := by
          rw [counting, List.length_append, List.countP_eq_length_filter,
            List.countP_eq_length_filter]
      _ ≤ [s].countP (fun t => !t.isEmpty) + ss.countP fun t => !t.isEmpty :=
          Nat.add_le_add (List.countP_mono_left fun _ _ => not_isEmpty_of_countsFirst)
            (List.countP_mono_left fun _ _ => not_isEmpty_of_not_isVoid)
      _ = ([s] ++ ss).countP fun t => !t.isEmpty := List.countP_append.symm

/-- No path has more components than characters. -/
theorem length_components_le (p : Path) : p.components.length ≤ p.text.length := by
  calc p.components.length
      ≤ p.segments.countP fun s => !s.isEmpty := length_counting_le p.isAbsolute p.segments
    _ ≤ p.text.toList.length := countP_splitSlash_le p.text.toList
    _ = p.text.length := String.length_toList

/-- The segments that count are those that are not void, but for a point at the start
of a relative path. -/
theorem counting_cons (absolute : Bool) (s : List Char) (ss : List (List Char)) :
    counting absolute (s :: ss) = ((s :: ss).filter fun t => !isVoid t) ∨
      (absolute = false ∧ s = ['.']) ∧
        counting absolute (s :: ss) = s :: ss.filter fun t => !isVoid t := by
  by_cases hpoint : absolute = false ∧ s = ['.']
  · refine .inr ⟨hpoint, ?_⟩
    rw [counting, hpoint.1, hpoint.2]
    rfl
  · refine .inl ?_
    have hno : (s == ['.'] && !absolute) = false := by
      rw [Bool.eq_false_iff, Ne, Bool.and_eq_true, beq_iff_eq, Bool.not_eq_true']
      exact fun h => hpoint h.symm
    have hfirst : countsFirst absolute s = !isVoid s := by rw [countsFirst, hno, Bool.false_or]
    rw [counting, ← List.singleton_append (l := ss), List.filter_append]
    simp only [List.filter_singleton, hfirst]

/-! ### The path above -/

theorem counting_append (absolute : Bool) {ss : List (List Char)} (h : ss ≠ [])
    (s : List Char) :
    counting absolute (ss ++ [s]) = counting absolute ss ++ [s].filter fun t => !isVoid t := by
  obtain ⟨t, ts, rfl⟩ := List.exists_cons_of_ne_nil h
  rw [List.cons_append, counting, counting, List.filter_append, List.append_assoc]

theorem dropVoid_singleton (absolute : Bool) (s : List Char) :
    dropVoid absolute [s] = [s].filter (countsFirst absolute) := by
  unfold dropVoid countsFirst
  cases hpoint : s == ['.'] && !absolute <;> cases hvoid : isVoid s <;> simp [hpoint, hvoid]

theorem dropVoid_cons (absolute : Bool) (s : List Char) {rest : List (List Char)}
    (h : rest ≠ []) :
    dropVoid absolute (s :: rest) = if isVoid s then dropVoid absolute rest else s :: rest := by
  obtain ⟨t, ts, rfl⟩ := List.exists_cons_of_ne_nil h
  rw [dropVoid]
  exact List.cons_ne_nil t ts

/-- What is left when the void segments at the end are dropped: nothing if no
segment counts, and else a segment that counts with all before it. -/
inductive Dropped (absolute : Bool) (ss : List (List Char)) : List (List Char) → Prop where
  | all (none : counting absolute ss = []) : Dropped absolute ss []
  | upTo (before voids : List (List Char)) (s : List Char) (split : ss = before ++ s :: voids)
      (last : counting absolute (before ++ [s]) = counting absolute before ++ [s])
      (same : counting absolute ss = counting absolute (before ++ [s])) :
      Dropped absolute ss (s :: before.reverse)

/-- A segment behind the others that does not count is dropped first. -/
theorem Dropped.append_void {absolute : Bool} {ss l : List (List Char)} {s : List Char}
    (h : Dropped absolute ss l) (hs : counting absolute (ss ++ [s]) = counting absolute ss) :
    Dropped absolute (ss ++ [s]) l := by
  cases h with
  | all none => exact .all (hs.trans none)
  | upTo before voids t split last same =>
    refine .upTo before (voids ++ [s]) t ?_ last (hs.trans same)
    rw [split, List.append_assoc, List.cons_append]

theorem dropped_dropVoid (absolute : Bool) (ss : List (List Char)) :
    Dropped absolute ss (dropVoid absolute ss.reverse) := by
  induction ss using List.reverseRecOn with
  | nil => exact .all rfl
  | append_singleton ss s ih =>
    rw [List.reverse_append, List.reverse_singleton, List.singleton_append]
    rcases eq_or_ne ss [] with rfl | hne
    · -- the first segment: here a point may count
      have hcounting : counting absolute [s] = [s].filter (countsFirst absolute) :=
        List.append_nil _
      rw [List.reverse_nil, dropVoid_singleton]
      by_cases hs : countsFirst absolute s = true
      · rw [List.filter_cons_of_pos hs, List.filter_nil] at hcounting ⊢
        exact .upTo [] [] s rfl hcounting rfl
      · rw [List.filter_cons_of_neg hs, List.filter_nil] at hcounting ⊢
        exact .all hcounting
    · have hcounting := counting_append absolute hne s
      rw [dropVoid_cons absolute s (List.reverse_ne_nil_iff.mpr hne)]
      by_cases hs : isVoid s = true
      · rw [if_pos hs]
        rw [List.filter_cons_of_neg (by rw [hs]; decide), List.filter_nil,
          List.append_nil] at hcounting
        exact ih.append_void hcounting
      · rw [if_neg hs]
        rw [List.filter_cons_of_pos (by rw [Bool.not_eq_true] at hs; rw [hs]; decide), List.filter_nil] at hcounting
        exact .upTo ss [] s rfl hcounting rfl

/-- The top of the tree and the empty path have no component. -/
theorem components_top (absolute : Bool) :
    (⟨if absolute then "/" else ""⟩ : Path).isAbsolute = absolute ∧
      (⟨if absolute then "/" else ""⟩ : Path).components = [] := by
  cases absolute <;> decide

theorem exists_cons_cons_iff {s : List Char} {ss : List (List Char)} (h : ss ≠ []) :
    (∃ t ts, s :: ss = [] :: t :: ts) ↔ s = [] := by
  obtain ⟨t, ts, rfl⟩ := List.exists_cons_of_ne_nil h
  constructor
  · rintro ⟨_, _, heq⟩
    exact (List.cons.inj heq).1
  · rintro rfl
    exact ⟨t, ts, rfl⟩

/-- The segments up to a component start at the top if all of them do. -/
theorem isAbsolute_eq_of_segments {p q : Path} {before rest : List (List Char)} {s : List Char}
    (hp : p.segments = before ++ s :: rest) (hq : q.segments = before ++ [s])
    (hs : counting p.isAbsolute (before ++ [s]) = counting p.isAbsolute before ++ [s]) :
    q.isAbsolute = p.isAbsolute := by
  cases before with
  | nil =>
    rw [Bool.eq_iff_iff, isAbsolute_iff q, hq]
    constructor
    · rintro ⟨t, ts, ⟨⟩⟩
    · -- nothing stands before the first slash, so the first segment is no component
      intro habsolute
      obtain ⟨t, ts, hts⟩ := (isAbsolute_iff p).mp habsolute
      rw [hp, List.nil_append, List.cons.injEq] at hts
      rw [habsolute, hts.1] at hs
      exact absurd hs (by decide)
  | cons b before =>
    rw [Bool.eq_iff_iff, isAbsolute_iff, isAbsolute_iff, hq, hp, List.cons_append,
      List.cons_append, exists_cons_cons_iff (by simp), exists_cons_cons_iff (by simp)]

/-- Going up drops the last component and fails where there is none. -/
theorem parent?_cases (p : Path) :
    p.parent? = none ∧ p.components = [] ∨
      ∃ q c, p.parent? = some q ∧ q.isAbsolute = p.isAbsolute ∧
        p.components = q.components ++ [c] := by
  have hdropped := dropped_dropVoid p.isAbsolute p.segments
  rw [parent?]
  generalize dropVoid p.isAbsolute p.segments.reverse = l at hdropped
  cases hdropped with
  | all none => exact .inl ⟨rfl, none⟩
  | upTo before voids c split last same =>
    have hcomponents : p.components = counting p.isAbsolute before ++ [c] := same.trans last
    have habove := dropped_dropVoid p.isAbsolute before
    simp only
    generalize dropVoid p.isAbsolute before.reverse = above at habove
    cases habove with
    | all none =>
      obtain ⟨habsolute, htop⟩ := components_top p.isAbsolute
      exact .inr ⟨_, c, rfl, habsolute, by rw [hcomponents, none, htop]⟩
    | upTo before' voids' s split' last' same' =>
      have hslash : ∀ t ∈ before' ++ [s], '/' ∉ t := by
        intro t ht
        refine slash_notMem_splitSlash p.text.toList t ?_
        rw [← segments, split, split']
        simp only [List.mem_append, List.mem_cons, List.not_mem_nil, or_false] at ht ⊢
        tauto
      have hsegments : (⟨String.ofList (joinSlash (s :: before'.reverse).reverse)⟩ : Path).segments =
          before' ++ [s] := by
        rw [List.reverse_cons, List.reverse_reverse]
        exact segments_joinSlash (by simp) hslash
      have habsolute := isAbsolute_eq_of_segments
        (split.trans (by rw [split', List.append_assoc, List.cons_append])) hsegments last'
      refine .inr ⟨_, c, rfl, habsolute, ?_⟩
      rw [hcomponents, same', components, habsolute, hsegments]

theorem parent?_eq_none_iff (p : Path) : p.parent? = none ↔ p.components = [] := by
  rcases parent?_cases p with ⟨hnone, hnil⟩ | ⟨q, c, hsome, -, hcomponents⟩
  · exact ⟨fun _ => hnil, fun _ => hnone⟩
  · rw [hsome, hcomponents]
    simp

/-- The path above has the components but the last, and starts where the path does. -/
theorem components_of_parent? {p q : Path} (h : p.parent? = some q) :
    q.isAbsolute = p.isAbsolute ∧ ∃ c, p.components = q.components ++ [c] := by
  rcases parent?_cases p with ⟨hnone, -⟩ | ⟨q', c, hsome, habsolute, hcomponents⟩
  · rw [hnone] at h
    cases h
  · rw [hsome] at h
    cases h
    exact ⟨habsolute, c, hcomponents⟩

/-! ### A segment behind a path -/

theorem join_of_empty {p : Path} (h : p.text.toList = []) (name : String) :
    (p.join name).text.toList = name.toList := by
  have hempty : p.text = "" := String.toList_inj.mp h
  rw [join, hempty]
  rfl

theorem join_of_slash {p : Path} {cs : List Char} (h : p.text.toList = cs ++ ['/'])
    (name : String) : (p.join name).text.toList = cs ++ '/' :: name.toList := by
  have hlast : (p.text.isEmpty || p.text.toList.getLast? == some '/') = true := by
    rw [h, List.getLast?_concat, beq_self_eq_true, Bool.or_true]
  rw [join, if_pos hlast, String.toList_append, h, List.append_assoc, List.singleton_append]

theorem join_of_ne_slash {p : Path} {cs : List Char} {c : Char} (h : p.text.toList = cs ++ [c])
    (hc : c ≠ '/') (name : String) :
    (p.join name).text.toList = p.text.toList ++ '/' :: name.toList := by
  have hlast : ¬ (p.text.isEmpty || p.text.toList.getLast? == some '/') = true := by
    rw [Bool.or_eq_true, not_or]
    constructor
    · rw [String.isEmpty_iff]
      rintro hempty
      rw [hempty] at h
      exact absurd h (by simp)
    · rw [h, List.getLast?_concat, beq_iff_eq]
      exact fun heq => hc (Option.some.inj heq)
  rw [join, if_neg hlast, String.toList_append, String.toList_append, List.append_assoc]
  rfl

/-- A name is joined to a path as its last segment; of the path only an empty segment
at the end goes. -/
theorem segments_join (p : Path) {name : String} (hslash : '/' ∉ name.toList) :
    ∃ front, (p.join name).segments = front ++ [name.toList] ∧
      (p.segments = front ∨ p.segments = front ++ [[]]) := by
  have hname : splitSlash name.toList = [name.toList] := by
    rw [splitSlash_eq_splitOn, List.splitOn_eq_singleton hslash]
  have hcut : ∀ xs ys, splitSlash (xs ++ '/' :: ys) = splitSlash xs ++ splitSlash ys := by
    intro xs ys
    rw [splitSlash_eq_splitOn, splitSlash_eq_splitOn, splitSlash_eq_splitOn]
    exact List.splitOnP_append_cons xs ys (beq_self_eq_true '/')
  rcases List.eq_nil_or_concat' p.text.toList with hnil | ⟨cs, c, hcs⟩
  · refine ⟨[], ?_, .inr ?_⟩
    · rw [segments, join_of_empty hnil, hname, List.nil_append]
    · rw [segments, hnil]
      rfl
  · by_cases hc : c = '/'
    · rw [hc] at hcs
      refine ⟨splitSlash cs, ?_, .inr ?_⟩
      · rw [segments, join_of_slash hcs, hcut, hname]
      · rw [segments, hcs, hcut]
        rfl
    · refine ⟨p.segments, ?_, .inl rfl⟩
      rw [segments, join_of_ne_slash hcs hc, hcut, hname, segments]

theorem isAbsolute_join (p : Path) {name : String} (hslash : '/' ∉ name.toList) :
    (p.join name).isAbsolute = p.isAbsolute := by
  rw [isAbsolute, isAbsolute]
  rcases List.eq_nil_or_concat' p.text.toList with hnil | ⟨cs, c, hcs⟩
  · rw [join_of_empty hnil, hnil]
    cases hname : name.toList with
    | nil => rfl
    | cons d ds =>
      have hd : d ≠ '/' := fun heq => hslash (by rw [hname, heq]; exact List.mem_cons_self)
      simpa using hd
  · by_cases hc : c = '/'
    · rw [hc] at hcs
      rw [join_of_slash hcs, hcs]
      cases cs <;> rfl
    · rw [join_of_ne_slash hcs hc, hcs]
      cases cs <;> rfl

theorem isEmpty_join (p : Path) {name : String} (hname : name ≠ "") :
    (p.join name).text.isEmpty = false := by
  rw [Bool.eq_false_iff, Ne, String.isEmpty_iff, join]
  split_ifs <;> simp [hname]

end Path

namespace FileTree

/-! ### Following segments -/

variable {top : FileTree}

/-- At the end of the names, given with the last first, there is a folder. -/
def IsFolder (top : FileTree) (place : List String) : Prop :=
  ∃ entries, top.at? place.reverse = some (.folder entries)

theorem at?_append (xs ys : List String) (t : FileTree) :
    t.at? (xs ++ ys) = (t.at? xs).bind (at? ys) := by
  induction xs generalizing t with
  | nil => rfl
  | cons x xs ih =>
    rw [List.cons_append, at?, at?, Option.bind_assoc]
    exact congrArg _ (funext ih)

theorem isFolder_of_follow?_cons {place r : List String} {s : List Char}
    {ss : List (List Char)} (h : follow? top place (s :: ss) = some r) : IsFolder top place := by
  rw [follow?] at h
  split at h
  case h_1 entries hentries => exact ⟨entries, hentries⟩
  case h_2 => cases h

/-- Segments are followed one by one. -/
theorem follow?_cons (place : List String) (s : List Char) (ss : List (List Char)) :
    follow? top place (s :: ss) = (follow? top place [s]).bind fun r => follow? top r ss := by
  rw [follow?, follow?]
  split
  case h_1 entries hentries =>
    by_cases hvoid : Path.isVoid s = true
    · rw [if_pos hvoid, if_pos hvoid, follow?, Option.bind_some]
    rw [if_neg hvoid, if_neg hvoid]
    by_cases hup : (s == ['.', '.']) = true
    · rw [if_pos hup, if_pos hup, follow?, Option.bind_some]
    rw [if_neg hup, if_neg hup]
    by_cases hname : (entries.lookup (String.ofList s)).isSome = true
    · simp only [hname, if_true, follow?, Option.bind_some]
    · simp only [hname, if_false, Option.bind_none, Bool.false_eq_true]
  case h_2 => rfl

theorem follow?_append (xs ys : List (List Char)) (place : List String) :
    follow? top place (xs ++ ys) = (follow? top place xs).bind fun r => follow? top r ys := by
  induction xs generalizing place with
  | nil => rfl
  | cons x xs ih =>
    rw [List.cons_append, follow?_cons, follow?_cons place x xs, Option.bind_assoc]
    exact congrArg _ (funext ih)

/-- A void segment leads nowhere else, but wants a folder to stand in. -/
theorem follow?_void {place : List String} (hfolder : IsFolder top place) {s : List Char}
    (hs : Path.isVoid s = true) : follow? top place [s] = some place := by
  obtain ⟨entries, hentries⟩ := hfolder
  rw [follow?, hentries, follow?]
  exact if_pos hs

/-- Two points lead to the folder above. -/
theorem follow?_up {place : List String} (hfolder : IsFolder top place) :
    follow? top place [['.', '.']] = some place.tail := by
  obtain ⟨entries, hentries⟩ := hfolder
  rw [follow?, hentries]
  rfl

/-- The segment is a name. -/
def IsName (s : List Char) : Prop := ¬ Path.isVoid s = true ∧ s ≠ ['.', '.']

/-- A name leads into the folder it stands in. -/
theorem follow?_name {place : List String} {entries : List (String × FileTree)}
    (hentries : top.at? place.reverse = some (.folder entries)) {s : List Char} (hs : IsName s) :
    follow? top place [s] =
      if (entries.lookup (String.ofList s)).isSome then some (String.ofList s :: place) else none := by
  rw [follow?, hentries]
  simp only [hs.1, hs.2, beq_iff_eq, if_false, Bool.false_eq_true, follow?]

theorem isFolder_of_follow? {place r : List String} {ss : List (List Char)}
    (h : follow? top place ss = some r) (hr : IsFolder top r) : IsFolder top place := by
  cases ss with
  | nil => exact Option.some.inj h ▸ hr
  | cons s ss => exact isFolder_of_follow?_cons h

/-- Void segments can be left out on the way to a folder. -/
theorem follow?_filter_iff {place r : List String} {ss : List (List Char)}
    (hr : IsFolder top r) :
    follow? top place (ss.filter fun s => !Path.isVoid s) = some r ↔
      follow? top place ss = some r := by
  induction ss generalizing place with
  | nil => rfl
  | cons s ss ih =>
    by_cases hs : Path.isVoid s = true
    · rw [List.filter_cons_of_neg (by rw [hs]; decide), ih, follow?_cons place s ss]
      constructor
      · intro h
        rwa [follow?_void (isFolder_of_follow? h hr) hs]
      · intro h
        rw [← follow?_cons] at h
        have hfolder := isFolder_of_follow?_cons h
        rwa [follow?_cons, follow?_void hfolder hs] at h
    · rw [List.filter_cons_of_pos (by rw [Bool.not_eq_true] at hs; rw [hs]; decide),
        follow?_cons, follow?_cons place s ss, Option.bind_eq_some_iff, Option.bind_eq_some_iff]
      simp only [ih]

/-- On the way to a folder the components of a path lead where its segments lead. -/
theorem follow?_components_iff {place r : List String} (p : Path) (hr : IsFolder top r) :
    follow? top place p.components = some r ↔ follow? top place p.segments = some r := by
  obtain ⟨s, ss, hss⟩ := List.exists_cons_of_ne_nil (Path.splitSlash_ne_nil p.text.toList)
  rw [Path.components, Path.segments, hss]
  rcases Path.counting_cons p.isAbsolute s ss with hfilter | ⟨-, hpoint⟩
  · rw [hfilter, follow?_filter_iff hr]
  · rw [hpoint, follow?_cons, follow?_cons place s ss, Option.bind_eq_some_iff,
      Option.bind_eq_some_iff]
    simp only [follow?_filter_iff hr]

namespace World

variable {w : World}

/-- Where the segments of a path start, the last name first. -/
def start (w : World) (p : Path) : List String := if p.isAbsolute then [] else w.place.reverse

/-- The names that lead from the top to what a path denotes. -/
def locate? (w : World) (p : Path) : Option (List String) :=
  (follow? w.top (w.start p) p.segments).map List.reverse

theorem resolve?_eq {p : Path} (h : p.text.isEmpty = false) :
    w.resolve? p = (w.locate? p).bind fun names => w.top.at? names := by
  rw [resolve?, h, locate?, Option.bind_map]
  rfl

end World

end FileTree

end WikiOutline
