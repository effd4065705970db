/-
# The search for the settings file

The search climbs by dropping components of the path it was given, so it passes the
places that the path leads through, from the folder it denotes back to where it
starts.  Of these it finds the nearest that holds a settings file.  They are the
folder and all folders above it if the path starts at the top and has no two
points.  From a relative path the search ends in the current place, and behind two
points it passes folders that do not lie above.

Key definitions: `Settings.upward`, `Settings.Searches`, `Settings.Nearest`,
`Settings.passed`, `Settings.SearchLaw`.
Key theorems: `Settings.nearest_of_searches`, `Settings.searchLaw_of_resolve?`.
-/
import Mathlib
import WikiOutline.Settings.Discovery
import WikiOutline.Proofs.Paths

namespace WikiOutline

namespace Settings

open FileTree

/-- A list and what is left as its last element is dropped again and again. -/
def upward {α : Type} (l : List α) : List (List α) := l.inits.reverse

/-- In the folder of these names lies a file with the name of the settings file. -/
def HoldsSettings (top : FileTree) (place : List String) : Prop :=
  ∃ t, top.at? (place ++ [fileName]) = some t ∧ t.isFile = true

/-- The runs of the search that end: a settings file is found, or there is no path
above, or the search goes on there and ends. -/
inductive Searches (w : World) : Path → Option Path → Prop where
  | found {p file : Path} (here : candidate? w p = some file) : Searches w p (some file)
  | ended {p : Path} (here : candidate? w p = none) (above : p.parent? = none) : Searches w p none
  | climbed {p q : Path} {found : Option Path} (here : candidate? w p = none)
      (above : p.parent? = some q) (rest : Searches w q found) : Searches w p found

/-- What was found is the settings file of the first of the places that holds one;
nothing was found only if none does. -/
structure Nearest (w : World) (places : List (List String)) (found : Option Path) : Prop where
  of_some : ∀ file, found = some file →
    (w.resolve? file).any FileTree.isFile = true ∧
    ∃ before place after, places = before ++ place :: after ∧
      w.locate? file = some (place ++ [fileName]) ∧ HoldsSettings w.top place ∧
      ∀ nearer ∈ before, ¬ HoldsSettings w.top nearer
  of_none : found = none → ∀ place ∈ places, ¬ HoldsSettings w.top place

/-- The places that components lead through, the last first. -/
def passedFrom (top : FileTree) (place : List String) (cs : List (List Char)) :
    List (List String) :=
  (upward cs).filterMap fun front => (follow? top place front).map List.reverse

/-- The places that a path leads through, the last first. -/
def passed (w : World) (p : Path) : List (List String) := passedFrom w.top (w.start p) p.components

/-! ### Upward -/

section Upward

variable {α : Type}

@[simp]
theorem upward_nil : upward ([] : List α) = [[]] := rfl

theorem upward_concat (l : List α) (a : α) : upward (l ++ [a]) = (l ++ [a]) :: upward l := by
  simp [upward, List.inits_append]

theorem upward_cons (a : α) (l : List α) : upward (a :: l) = (upward l).map (a :: ·) ++ [[]] := by
  simp [upward]

theorem mem_upward {l m : List α} : m ∈ upward l ↔ m <+: l := by
  rw [upward, List.mem_reverse, List.mem_inits]

/-- On the way up from `l ++ m` all that begins with `l` comes first. -/
theorem exists_upward_append (l m : List α) :
    ∃ rest, upward (l ++ m) = (upward m).map (l ++ ·) ++ rest := by
  induction m using List.reverseRecOn with
  | nil =>
    rw [List.append_nil, upward_nil, List.map_singleton, List.append_nil]
    rcases List.eq_nil_or_concat' l with rfl | ⟨front, a, rfl⟩
    · exact ⟨[], rfl⟩
    · exact ⟨upward front, upward_concat front a⟩
  | append_singleton m a ih =>
    obtain ⟨rest, hrest⟩ := ih
    refine ⟨rest, ?_⟩
    rw [← List.append_assoc, upward_concat, hrest, upward_concat, List.map_cons,
      List.append_assoc, List.cons_append]

end Upward

/-! ### The places passed -/

section Passed

variable {top : FileTree} {place r : List String} {cs : List (List Char)}

theorem passedFrom_nil : passedFrom top place [] = [place.reverse] := rfl

theorem passedFrom_concat {c : List Char} (h : follow? top place (cs ++ [c]) = some r) :
    passedFrom top place (cs ++ [c]) = r.reverse :: passedFrom top place cs := by
  rw [passedFrom, upward_concat, List.filterMap_cons, h]
  rfl

theorem exists_passedFrom_eq_cons (h : follow? top place cs = some r) :
    ∃ places, passedFrom top place cs = r.reverse :: places := by
  rcases List.eq_nil_or_concat' cs with rfl | ⟨cs, c, rfl⟩
  · cases h
    exact ⟨[], passedFrom_nil⟩
  · exact ⟨_, passedFrom_concat h⟩

/-- The last component is followed from where those before it lead. -/
theorem exists_of_follow?_concat {c : List Char} (h : follow? top place (cs ++ [c]) = some r) :
    ∃ r', follow? top place cs = some r' ∧ follow? top r' [c] = some r := by
  rw [follow?_append] at h
  exact Option.bind_eq_some_iff.mp h

theorem eq_of_follow?_name {c : List Char} (hc : IsName c)
    (h : follow? top place [c] = some r) : r = String.ofList c :: place := by
  obtain ⟨entries, hentries⟩ := isFolder_of_follow?_cons h
  rw [follow?_name hentries hc] at h
  split_ifs at h
  exact (Option.some.inj h).symm

/-- Names lead through the folders above the place they denote. -/
theorem passedFrom_of_names (hnames : ∀ c ∈ cs, IsName c)
    (h : follow? top place cs = some r) :
    r.reverse = place.reverse ++ cs.map String.ofList ∧
      passedFrom top place cs = (upward (cs.map String.ofList)).map (place.reverse ++ ·) := by
  induction cs using List.reverseRecOn generalizing r with
  | nil =>
    cases h
    simp [passedFrom_nil]
  | append_singleton cs c ih =>
    obtain ⟨r', hr', hc⟩ := exists_of_follow?_concat h
    have hname := hnames c (List.mem_append_right cs List.mem_cons_self)
    obtain ⟨hplace, hpassed⟩ := ih (fun d hd => hnames d (List.mem_append_left _ hd)) hr'
    have hr : r.reverse = place.reverse ++ (cs ++ [c]).map String.ofList := by
      calc r.reverse
          = r'.reverse ++ [String.ofList c] := by
            rw [eq_of_follow?_name hname hc, List.reverse_cons]
        _ = place.reverse ++ cs.map String.ofList ++ [String.ofList c] := by rw [hplace]
        _ = place.reverse ++ (cs ++ [c]).map String.ofList := by
            rw [List.map_append, List.map_singleton, List.append_assoc]
    refine ⟨hr, ?_⟩
    rw [passedFrom_concat h, hpassed, hr, List.map_append, List.map_singleton, upward_concat,
      List.map_cons]

/-- A void segment at the start passes the place once more. -/
theorem passedFrom_void {s : List Char} (hs : Path.isVoid s = true) (hfolder : IsFolder top place) :
    passedFrom top place (s :: cs) = passedFrom top place cs ++ [place.reverse] := by
  have hfollow : ∀ ds, follow? top place (s :: ds) = follow? top place ds := fun ds => by
    rw [follow?_cons, follow?_void hfolder hs, Option.bind_some]
  rw [passedFrom, upward_cons, List.filterMap_append, List.filterMap_map, passedFrom]
  simp only [Function.comp_def, hfollow]
  rfl

theorem follow?_singleton_cases {c : List Char} (h : follow? top place [c] = some r) :
    r = place ∨ r = place.tail ∨ r = String.ofList c :: place := by
  have hfolder := isFolder_of_follow?_cons h
  by_cases hvoid : Path.isVoid c = true
  · rw [follow?_void hfolder hvoid] at h
    exact .inl (Option.some.inj h).symm
  by_cases hup : c = ['.', '.']
  · rw [hup, follow?_up hfolder] at h
    exact .inr (.inl (Option.some.inj h).symm)
  · exact .inr (.inr (eq_of_follow?_name ⟨hvoid, hup⟩ h))

/-- From the top one passes all folders above the place one comes to. -/
theorem mem_passedFrom_of_mem_upward (h : follow? top [] cs = some r) :
    ∀ q ∈ upward r.reverse, q ∈ passedFrom top [] cs := by
  induction cs using List.reverseRecOn generalizing r with
  | nil =>
    cases h
    exact fun q hq => hq
  | append_singleton cs c ih =>
    obtain ⟨r', hr', hc⟩ := exists_of_follow?_concat h
    intro q hq
    rw [mem_upward] at hq
    rw [passedFrom_concat h, List.mem_cons]
    have hbefore : q <+: r'.reverse → q ∈ passedFrom top [] cs := fun hq =>
      ih hr' q (mem_upward.mpr hq)
    rcases follow?_singleton_cases hc with rfl | rfl | rfl
    · exact .inr (hbefore hq)
    · have hup : r'.tail.reverse <+: r'.reverse := List.reverse_prefix.mpr (List.tail_suffix r')
      exact .inr (hbefore (hq.trans hup))
    · rw [List.reverse_cons] at hq ⊢
      rcases List.prefix_concat_iff.mp hq with hq | hq
      · exact .inl hq
      · exact .inr (hbefore hq)

end Passed

/-! ### One step of the search -/

section Step

variable {w : World} {p : Path} {r : List String} {entries : List (String × FileTree)}

theorem slash_notMem_fileName : '/' ∉ fileName.toList := by decide

theorem isName_fileName : IsName fileName.toList := ⟨by decide, by decide⟩

/-- In a folder the settings file is looked for behind the place of the folder. -/
theorem locate?_join_fileName (h : follow? w.top (w.start p) p.components = some r)
    (hentries : w.top.at? r.reverse = some (.folder entries)) :
    w.locate? (p.join fileName) =
      if (entries.lookup fileName).isSome then some (r.reverse ++ [fileName]) else none := by
  have hfolder : IsFolder w.top r := ⟨entries, hentries⟩
  have hsegments := (follow?_components_iff p hfolder).mp h
  obtain ⟨front, hjoin, hfront⟩ := p.segments_join slash_notMem_fileName
  have hplace : follow? w.top (w.start p) front = some r := by
    rcases hfront with hfront | hfront
    · rwa [hfront] at hsegments
    · rw [hfront] at hsegments
      obtain ⟨r', hr', hvoid⟩ := exists_of_follow?_concat hsegments
      rw [follow?_void (isFolder_of_follow?_cons hvoid) rfl] at hvoid
      rw [hr', hvoid]
  have hstart : w.start (p.join fileName) = w.start p := by
    rw [World.start, p.isAbsolute_join slash_notMem_fileName, World.start]
  rw [World.locate?, hstart, hjoin, follow?_append, hplace, Option.bind_some,
    follow?_name hentries isName_fileName, String.ofList_toList]
  split_ifs
  · rw [Option.map_some, List.reverse_cons]
  · rfl

theorem at?_concat (hentries : w.top.at? r.reverse = some (.folder entries)) (name : String) :
    w.top.at? (r.reverse ++ [name]) = entries.lookup name := by
  rw [at?_append, hentries, Option.bind_some, at?, child?]
  cases entries.lookup name <;> rfl

theorem resolve?_join_fileName (h : follow? w.top (w.start p) p.components = some r)
    (hentries : w.top.at? r.reverse = some (.folder entries)) :
    w.resolve? (p.join fileName) = entries.lookup fileName := by
  rw [World.resolve?_eq (p.isEmpty_join (by decide)), locate?_join_fileName h hentries]
  cases hlookup : entries.lookup fileName with
  | none => rfl
  | some t => exact (at?_concat hentries fileName).trans hlookup

theorem candidate?_eq (h : follow? w.top (w.start p) p.components = some r)
    (hentries : w.top.at? r.reverse = some (.folder entries)) :
    candidate? w p =
      if (entries.lookup fileName).any FileTree.isFile then some (p.join fileName) else none := by
  rw [candidate?, resolve?_join_fileName h hentries]

theorem holdsSettings_iff (hentries : w.top.at? r.reverse = some (.folder entries)) :
    HoldsSettings w.top r.reverse ↔ (entries.lookup fileName).any FileTree.isFile = true := by
  rw [HoldsSettings, at?_concat hentries, Option.any_eq_true]

/-- At the path of a folder the search finds the settings file of that folder. -/
theorem nearest_of_candidate? {file : Path} (places : List (List String))
    (h : follow? w.top (w.start p) p.components = some r) (hr : IsFolder w.top r)
    (hfile : candidate? w p = some file) : Nearest w (r.reverse :: places) (some file) := by
  obtain ⟨entries, hentries⟩ := hr
  rw [candidate?_eq h hentries] at hfile
  split_ifs at hfile with hany
  cases hfile
  refine ⟨fun file hfile => ?_, fun hnone => nomatch hnone⟩
  cases hfile
  refine ⟨by rw [resolve?_join_fileName h hentries, hany], [], r.reverse, places, rfl, ?_,
    (holdsSettings_iff hentries).mpr hany, fun _ hq => nomatch hq⟩
  obtain ⟨t, ht, -⟩ := (Option.any_eq_true _ _).mp hany
  rw [locate?_join_fileName h hentries, ht]
  rfl

theorem not_holdsSettings_of_candidate? (h : follow? w.top (w.start p) p.components = some r)
    (hr : IsFolder w.top r) (hnone : candidate? w p = none) : ¬ HoldsSettings w.top r.reverse := by
  obtain ⟨entries, hentries⟩ := hr
  rw [candidate?_eq h hentries] at hnone
  rw [holdsSettings_iff hentries]
  intro hany
  rw [if_pos hany] at hnone
  cases hnone

end Step

/-! ### The whole search -/

section Search

variable {w : World} {found : Option Path} {places : List (List String)} {place : List String}

theorem Nearest.nil : Nearest w [] none where
  of_some _ hfile := nomatch hfile
  of_none _ := List.forall_mem_nil _

/-- A place that holds no settings file does not count. -/
theorem Nearest.cons (hplace : ¬ HoldsSettings w.top place) (h : Nearest w places found) :
    Nearest w (place :: places) found where
  of_some file hfile := by
    obtain ⟨hisFile, before, nearest, after, hsplit, hlocate, hholds, hnearer⟩ := h.of_some file hfile
    refine ⟨hisFile, place :: before, nearest, after, ?_, hlocate, hholds, ?_⟩
    · rw [hsplit, List.cons_append]
    · exact List.forall_mem_cons.mpr ⟨hplace, hnearer⟩
  of_none hnone := List.forall_mem_cons.mpr ⟨hplace, h.of_none hnone⟩

/-- Nor does a place that comes again behind all others. -/
theorem Nearest.of_concat (h : Nearest w (places ++ [place]) found) (hplace : place ∈ places) :
    Nearest w places found where
  of_some file hfile := by
    obtain ⟨hisFile, before, nearest, after, hsplit, hlocate, hholds, hnearer⟩ := h.of_some file hfile
    rcases List.eq_nil_or_concat' after with rfl | ⟨after, last, rfl⟩
    · obtain ⟨rfl, hlast⟩ := List.append_inj' hsplit rfl
      cases hlast
      exact absurd hholds (hnearer _ hplace)
    · rw [← List.cons_append, ← List.append_assoc] at hsplit
      obtain ⟨hsplit, -⟩ := List.append_inj' hsplit rfl
      exact ⟨hisFile, before, nearest, after, hsplit, hlocate, hholds, hnearer⟩
  of_none hnone q hq := h.of_none hnone q (List.mem_append_left _ hq)

/-- The fuel of the search is never used up: each step drops a component. -/
theorem searches_discoverUpTo {fuel : Nat} {p : Path} (h : p.components.length < fuel) :
    Searches w p (discoverUpTo w fuel p) := by
  induction fuel generalizing p with
  | zero => exact absurd h (Nat.not_lt_zero _)
  | succ fuel ih =>
    rw [discoverUpTo]
    cases hhere : candidate? w p with
    | some file => exact .found hhere
    | none =>
      cases habove : p.parent? with
      | none => exact .ended hhere habove
      | some q =>
        obtain ⟨-, c, hcomponents⟩ := Path.components_of_parent? habove
        refine .climbed hhere habove (ih ?_)
        rw [hcomponents, List.length_append, List.length_singleton] at h
        omega

/-- A search from a folder finds the nearest settings file among the places that its
path leads through. -/
theorem nearest_of_searches {p : Path} (h : Searches w p found) :
    ∀ {r}, follow? w.top (w.start p) p.components = some r → IsFolder w.top r →
      Nearest w (passed w p) found := by
  induction h with
  | @found p file here =>
    intro r hr hfolder
    obtain ⟨places, hplaces⟩ := exists_passedFrom_eq_cons hr
    rw [passed, hplaces]
    exact nearest_of_candidate? places hr hfolder here
  | @ended p here above =>
    intro r hr hfolder
    have hcomponents := (Path.parent?_eq_none_iff p).mp above
    have hplace := not_holdsSettings_of_candidate? hr hfolder here
    rw [hcomponents] at hr
    cases hr
    rw [passed, hcomponents, passedFrom_nil]
    exact Nearest.nil.cons hplace
  | @climbed p q found here above rest ih =>
    intro r hr hfolder
    have hplace := not_holdsSettings_of_candidate? hr hfolder here
    obtain ⟨habsolute, c, hcomponents⟩ := Path.components_of_parent? above
    have hstart : w.start q = w.start p := by rw [World.start, habsolute, World.start]
    rw [hcomponents] at hr
    obtain ⟨r', hr', hc⟩ := exists_of_follow?_concat hr
    rw [passed, hcomponents, passedFrom_concat hr, ← hstart]
    rw [← hstart] at hr'
    exact (ih hr' (isFolder_of_follow?_cons hc)).cons hplace

end Search

/-! ### Which places these are -/

section Law

variable {w : World} {p : Path} {r : List String} {found : Option Path}

theorem isName_of_mem_filter {ss : List (List Char)} (hup : ['.', '.'] ∉ ss) {c : List Char}
    (hc : c ∈ ss.filter fun s => !Path.isVoid s) : IsName c := by
  obtain ⟨hmem, hvoid⟩ := List.mem_filter.mp hc
  rw [Bool.not_eq_true'] at hvoid
  exact ⟨by rw [hvoid]; decide, fun heq => hup (heq ▸ hmem)⟩

/-- Without two points a path leads down only: from the top through all folders above
the place it denotes, from the current place through those below that one. -/
theorem nearest_of_passed (hup : ['.', '.'] ∉ p.segments)
    (h : follow? w.top (w.start p) p.components = some r) :
    ∃ names, r.reverse = (w.start p).reverse ++ names ∧
      (Nearest w (passed w p) found →
        Nearest w ((upward names).map ((w.start p).reverse ++ ·)) found) := by
  obtain ⟨s, ss, hss⟩ := List.exists_cons_of_ne_nil (Path.splitSlash_ne_nil p.text.toList)
  have hsegments : p.segments = s :: ss := hss
  rw [passed]
  rw [Path.components, hsegments] at h ⊢
  rw [hsegments] at hup
  rcases Path.counting_cons p.isAbsolute s ss with hfilter | ⟨⟨-, hpoint⟩, hfilter⟩
  · rw [hfilter] at h ⊢
    obtain ⟨hplace, hpassed⟩ := passedFrom_of_names (fun c hc => isName_of_mem_filter hup hc) h
    rw [hpassed]
    exact ⟨_, hplace, fun hnearest => hnearest⟩
  · -- a point at the start only passes the current place twice
    rw [hfilter] at h ⊢
    have hvoid : Path.isVoid s = true := by rw [hpoint]; decide
    have hstart := isFolder_of_follow?_cons h
    rw [follow?_cons, follow?_void hstart hvoid, Option.bind_some] at h
    have hup' : ['.', '.'] ∉ ss := fun hmem => hup (List.mem_cons_of_mem s hmem)
    obtain ⟨hplace, hpassed⟩ := passedFrom_of_names (fun c hc => isName_of_mem_filter hup' hc) h
    rw [passedFrom_void hvoid hstart, hpassed]
    refine ⟨_, hplace, fun hnearest => hnearest.of_concat ?_⟩
    exact List.mem_map.mpr ⟨[], mem_upward.mpr List.nil_prefix, List.append_nil _⟩

/-- A search among the beginnings of `l ++ m` that begin with `l` is one among all of
them, unless it finds nothing and a shorter one holds a settings file. -/
theorem nearest_upward_append_iff {l m : List String}
    (h : Nearest w ((upward m).map (l ++ ·)) found) :
    Nearest w (upward (l ++ m)) found ↔
      (found = none → ∀ above ∈ upward l, ¬ HoldsSettings w.top above) := by
  constructor
  · intro hall hnone above habove
    have hbegin : above <+: l ++ m := (mem_upward.mp habove).trans (List.prefix_append l m)
    exact hall.of_none hnone above (mem_upward.mpr hbegin)
  · intro habove
    constructor
    · intro file hfile
      obtain ⟨hisFile, before, nearest, after, hsplit, hfound⟩ := h.of_some file hfile
      obtain ⟨rest, hrest⟩ := exists_upward_append l m
      refine ⟨hisFile, before, nearest, after ++ rest, ?_, hfound⟩
      rw [hrest, hsplit, List.append_assoc, List.cons_append]
    · intro hnone q hq
      have hbegin := mem_upward.mp hq
      rcases List.prefix_or_prefix_of_prefix hbegin (List.prefix_append l m) with hql | ⟨t, rfl⟩
      · exact habove hnone q (mem_upward.mpr hql)
      · have ht : t ∈ upward m := mem_upward.mpr ((List.prefix_append_right_inj l).mp hbegin)
        exact h.of_none hnone _ (List.mem_map_of_mem ht)

end Law

/-- What a search that starts from a place comes to. -/
structure SearchLaw (w : World) (p : Path) (place : List String) (found : Option Path) : Prop where
  /-- The search ends, with what was found. -/
  ends : Searches w p found
  /-- It finds the nearest settings file in the places the path leads through. -/
  nearest : Nearest w (passed w p) found
  /-- From the top and without two points these are the folder and all above it. -/
  nearest_of_isAbsolute : p.isAbsolute = true → ['.', '.'] ∉ p.segments →
    Nearest w (upward place) found
  /-- With two points others may come between, but none of these is left out. -/
  none_of_isAbsolute : p.isAbsolute = true → found = none →
    ∀ above ∈ upward place, ¬ HoldsSettings w.top above
  /-- From the current place and without two points they are those up to that place. -/
  nearest_of_relative : p.isAbsolute = false → ['.', '.'] ∉ p.segments →
    ∃ names, place = w.place ++ names ∧ Nearest w ((upward names).map (w.place ++ ·)) found
  /-- So a file is missed there exactly if it lies above the current place and none below. -/
  nearest_iff_of_relative : p.isAbsolute = false → ['.', '.'] ∉ p.segments →
    (Nearest w (upward place) found ↔
      (found = none → ∀ above ∈ upward w.place, ¬ HoldsSettings w.top above))

/-- The search from a path of a folder ends, and finds the nearest settings file in the
places that the path leads through. -/
theorem searchLaw_of_resolve? {w : World} {p : Path} {entries : List (String × FileTree)}
    (h : w.resolve? p = some (.folder entries)) :
    ∃ place, w.locate? p = some place ∧ SearchLaw w p place (discover w p) := by
  have hempty : p.text.isEmpty = false := by
    rw [Bool.eq_false_iff]
    intro hempty
    rw [World.resolve?, if_pos hempty] at h
    cases h
  rw [World.resolve?_eq hempty] at h
  obtain ⟨place, hplace, hentries⟩ := Option.bind_eq_some_iff.mp h
  obtain ⟨r, hr, rfl⟩ := Option.map_eq_some_iff.mp hplace
  have hfolder : IsFolder w.top r := ⟨entries, hentries⟩
  have hfollow := (follow?_components_iff p hfolder).mpr hr
  have hends : Searches w p (discover w p) :=
    searches_discoverUpTo (Nat.lt_succ_of_le p.length_components_le)
  have hnearest := nearest_of_searches hends hfollow hfolder
  have hrelative : p.isAbsolute = false → (w.start p).reverse = w.place := fun hp => by
    rw [World.start, hp]
    exact List.reverse_reverse _
  have habsolute : p.isAbsolute = true → w.start p = [] := fun hp => by rw [World.start, if_pos hp]
  refine ⟨r.reverse, hplace, hends, hnearest, ?_, ?_, ?_, ?_⟩
  · intro hp hup
    obtain ⟨names, hnames, hpassed⟩ := nearest_of_passed hup hfollow
    rw [habsolute hp, List.reverse_nil, List.nil_append] at hnames
    have hall := hpassed hnearest
    simp only [habsolute hp, List.reverse_nil, List.nil_append, List.map_id'] at hall
    rwa [hnames]
  · intro hp hnone above habove
    rw [habsolute hp] at hfollow
    refine hnearest.of_none hnone above ?_
    rw [passed, habsolute hp]
    exact mem_passedFrom_of_mem_upward hfollow above habove
  · intro hp hup
    obtain ⟨names, hnames, hpassed⟩ := nearest_of_passed hup hfollow
    rw [hrelative hp] at hnames hpassed
    exact ⟨names, hnames, hpassed hnearest⟩
  · intro hp hup
    obtain ⟨names, hnames, hpassed⟩ := nearest_of_passed hup hfollow
    rw [hrelative hp] at hnames hpassed
    rw [hnames]
    exact nearest_upward_append_iff (hpassed hnearest)

/-- The folder with the current place in it. -/
def guideEntries : List (String × FileTree) := [("news", .folder [("wm.toml", .text "")])]

/-- A settings file at the top and one two folders below, with the current place
between them. -/
def nestedSettings : World where
  top := .folder [("wm.toml", .text ""), ("guide", .folder guideEntries)]
  place := ["guide"]

/-- Back from a folder by two points, the search finds the file in that folder, though
it does not lie above. -/
theorem searchLaw_of_two_points :
    nestedSettings.resolve? ⟨"/guide/news/.."⟩ = some (.folder guideEntries) ∧
      discover nestedSettings ⟨"/guide/news/.."⟩ = some ⟨"/guide/news/wm.toml"⟩ ∧
      ∃ place, nestedSettings.locate? ⟨"/guide/news/.."⟩ = some place ∧
        SearchLaw nestedSettings ⟨"/guide/news/.."⟩ place
          (discover nestedSettings ⟨"/guide/news/.."⟩) :=
  have hresolve : nestedSettings.resolve? ⟨"/guide/news/.."⟩ = some (.folder guideEntries) := by
    cbv
  ⟨hresolve, by decide +kernel, searchLaw_of_resolve? hresolve⟩

/-- From the current place the search does not come to the settings file above. -/
theorem settings_above_missed : ¬ ∀ (w : World) (p : Path) (entries : List (String × FileTree))
    (place : List String), w.resolve? p = some (.folder entries) → w.locate? p = some place →
    Nearest w (upward place) (discover w p) := by
  intro hall
  have hresolve : nestedSettings.resolve? ⟨"."⟩ = some (.folder guideEntries) := by cbv
  have hlocate : nestedSettings.locate? ⟨"."⟩ = some ["guide"] := by decide +kernel
  have hnone : discover nestedSettings ⟨"."⟩ = none := by decide +kernel
  have hholds : HoldsSettings nestedSettings.top [] := ⟨.text "", by cbv, rfl⟩
  have hnearest := hall nestedSettings ⟨"."⟩ guideEntries ["guide"] hresolve hlocate
  exact hnearest.of_none hnone [] (by decide) hholds

end Settings

end WikiOutline
