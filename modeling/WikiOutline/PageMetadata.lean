/-
# Page metadata

What a page tells about itself, its title and its featured image, goes to a sink.
A sink may refuse what it is told; it has a state of its own.

Key definitions: `ImageKind.ofPath`, `MetadataSink`, `PageMetadata`.
-/

namespace WikiOutline

/-- Vector images are told apart from all others. -/
inductive ImageKind where
  | raster
  | vector
  deriving Repr, BEq, DecidableEq

namespace ImageKind

/-- What comes behind the last full stop, if there is one. -/
def extension? (cs : List Char) : Option (List Char) :=
  if cs.contains '.' then some (cs.reverse.takeWhile (· != '.')).reverse else none

/-- A path names a vector image when its extension, before any query or
fragment, is svg in any ASCII case. -/
def ofPath (path : String) : ImageKind :=
  let file := path.toList.takeWhile fun c => c != '?' && c != '#'
  if (extension? file).any fun e => e.map Char.toLower == ['s', 'v', 'g'] then .vector
  else .raster

end ImageKind

/-- Takes what a page tells about itself and answers with an error or not. -/
structure MetadataSink (σ : Type) where
  setTitle : String → σ → Except String Unit × σ
  setFeaturedImage : ImageKind → String → σ → Except String Unit × σ

/-- The metadata of a page. -/
structure PageMetadata where
  title : Option String := none
  featuredRasterImage : Option String := none
  featuredVectorImage : Option String := none
  deriving Repr, BEq, DecidableEq

namespace PageMetadata

/-- The metadata with a title. -/
def withTitle (m : PageMetadata) (title : String) : PageMetadata := { m with title := some title }

/-- The metadata with a featured image of a kind. -/
def withFeaturedImage (m : PageMetadata) (kind : ImageKind) (path : String) : PageMetadata :=
  match kind with
  | .raster => { m with featuredRasterImage := some path }
  | .vector => { m with featuredVectorImage := some path }

/-- The sink that records everything. -/
def sink : MetadataSink PageMetadata where
  setTitle title m := (.ok (), m.withTitle title)
  setFeaturedImage kind path m := (.ok (), m.withFeaturedImage kind path)

end PageMetadata

end WikiOutline
