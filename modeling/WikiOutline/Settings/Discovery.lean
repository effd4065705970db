/-
# Finding the settings file

The settings file lies in the folder one starts from or in one above it; the
nearest one counts.  The folders above are found by dropping components of the
path.

Key definitions: `Settings.discover`, `Settings.load`.
-/
import WikiOutline.FileTree
import WikiOutline.Settings

namespace WikiOutline

namespace Settings

/-- The name of the settings file. -/
def fileName : String := "wm.toml"

/-- The settings file of a folder, if it is a file. -/
def candidate? (w : FileTree.World) (folder : Path) : Option Path :=
  let p := folder.join fileName
  if (w.resolve? p).any FileTree.isFile then some p else none

/-- Looks in a folder and then in those above.  Each step drops a component, so
the length of the path is fuel enough. -/
def discoverUpTo (w : FileTree.World) : Nat → Path → Option Path
  | 0, _ => none
  | fuel + 1, folder =>
    match candidate? w folder with
    | some p => some p
    | none => folder.parent?.bind (discoverUpTo w fuel)

/-- The nearest settings file from a folder upward. -/
def discover (w : FileTree.World) (folder : Path) : Option Path :=
  discoverUpTo w (folder.text.length + 1) folder

/-- The settings in a file. -/
def loadFile (w : FileTree.World) (env : String → Option String) (p : Path) :
    Except SettingsError Settings :=
  match w.resolve? p with
  | none => .error (.notFound p.text)
  | some (.folder _) => .error .isDirectory
  | some .binary => .error .notText
  | some (.text content) => (ofText env content).map fun s => { s with path := some p.text }

/-- The settings of a path, or else of the nearest settings file from the current
place, or else the defaults. -/
def load (w : FileTree.World) (env : String → Option String) (path : Option Path) :
    Except SettingsError Settings :=
  match path with
  | some p => loadFile w env p
  | none =>
    match discover w w.current with
    | some p => loadFile w env p
    | none => .ok {}

end Settings

end WikiOutline
