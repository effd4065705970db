/-
# Paths and file trees

A path is a text with slashes.  Its components are its segments but for the
empty ones and those of a single point, which count only at the very start of a
relative path.  Going up from a path drops its last component and knows nothing
of the tree; looking a path up follows the tree, where two points lead to the
folder above.

Key definitions: `Path`, `Path.join`, `Path.parent?`, `FileTree`,
`FileTree.resolve?`, `FileTree.World`.
-/

namespace WikiOutline

/-- A path as written. -/
structure Path where
  text : String
  deriving Repr, BEq, DecidableEq

namespace Path

/-- The pieces between slashes. -/
def splitSlash : List Char → List (List Char)
  | [] => [[]]
  | '/' :: cs => [] :: splitSlash cs
  | c :: cs =>
    match splitSlash cs with
    | [] => [[c]]
    | s :: ss => (c :: s) :: ss

/-- The pieces with slashes between them. -/
def joinSlash (segments : List (List Char)) : List Char := List.intercalate ['/'] segments

/-- The pieces of the path between slashes. -/
def segments (p : Path) : List (List Char) := splitSlash p.text.toList

/-- The path starts at the top of the tree. -/
def isAbsolute (p : Path) : Bool := p.text.toList.head? == some '/'

/-- A segment that is no component. -/
def isVoid (segment : List Char) : Bool := segment.isEmpty || segment == ['.']

/-- A path with a segment behind it. -/
def join (p : Path) (name : String) : Path :=
  if p.text.isEmpty || p.text.toList.getLast? == some '/' then ⟨p.text ++ name⟩
  else ⟨p.text ++ "/" ++ name⟩

/-- Segments, the last first, without those at the end that are no components. -/
def dropVoid (absolute : Bool) : List (List Char) → List (List Char)
  | [] => []
  | [s] => if s == ['.'] && !absolute then [s] else if isVoid s then [] else [s]
  | s :: rest => if isVoid s then dropVoid absolute rest else s :: rest

/-- The path above: without the last component and what is no component before
it.  The top of the tree and the empty path have none. -/
def parent? (p : Path) : Option Path :=
  match dropVoid p.isAbsolute p.segments.reverse with
  | [] => none
  | _ :: above =>
    match dropVoid p.isAbsolute above with
    | [] => some ⟨if p.isAbsolute then "/" else ""⟩
    | kept => some ⟨String.ofList (joinSlash kept.reverse)⟩

end Path

/-! ### Trees -/

/-- A file, of text or not, or a folder of named things. -/
inductive FileTree where
  | text (content : String)
  | binary
  | folder (entries : List (String × FileTree))

namespace FileTree

/-- The thing is a file. -/
def isFile : FileTree → Bool
  | .folder _ => false
  | _ => true

/-- The thing of a name in a folder. -/
def child? (name : String) : FileTree → Option FileTree
  | .folder entries => entries.lookup name
  | _ => none

/-- The thing at the end of some names. -/
def at? : List String → FileTree → Option FileTree
  | [], t => some t
  | name :: names, t => (t.child? name).bind (at? names)

/-- A tree with a thing put at the end of some names; what stands in the way of a
name makes room for a folder. -/
def put (new : FileTree) : List String → FileTree → FileTree
  | [], _ => new
  | name :: names, t =>
    let entries :=
      match t with
      | .folder entries => entries
      | _ => []
    let inner := put new names ((entries.lookup name).getD (.folder []))
    .folder ((name, inner) :: entries.filter fun e => e.1 != name)

/-- A tree with a folder at the end of some names, unless there is a thing
already. -/
def ensureFolder (t : FileTree) (names : List String) : FileTree :=
  match t.at? names with
  | some _ => t
  | none => put (.folder []) names t

/-- Follows segments from a place, given by its names with the last first.  Every
segment but a name wants a folder to stand in. -/
def follow? (top : FileTree) : List String → List (List Char) → Option (List String)
  | place, [] => some place
  | place, s :: rest =>
    match top.at? place.reverse with
    | some (.folder entries) =>
      if Path.isVoid s then follow? top place rest
      else if s == ['.', '.'] then follow? top place.tail rest
      else
        let name := String.ofList s
        if (entries.lookup name).isSome then follow? top (name :: place) rest else none
    | _ => none

/-- A tree and a place in it, from which relative paths start. -/
structure World where
  top : FileTree
  place : List String

/-- The thing a path denotes. -/
def World.resolve? (w : World) (p : Path) : Option FileTree :=
  if p.text.isEmpty then none
  else
    let start := if p.isAbsolute then [] else w.place.reverse
    (follow? w.top start p.segments).bind fun place => w.top.at? place.reverse

/-- The place as an absolute path. -/
def World.current (w : World) : Path := ⟨"/" ++ "/".intercalate w.place⟩

end FileTree

end WikiOutline
