import BuildLens.Path.FilePath
import BuildLens.Settings.Folder

/-!
# Settings

Main definitions:

- `Settings`: the settings of the program.
- `Settings.forFolder`: the settings that hold for a folder.
- `Settings.read`: reading them.
-/

namespace BuildLens

/-- The settings of the program: where MozillaBuild is installed, what holds for all folders, and
what is set for single folders, by their paths. -/
structure Settings where
  mozillaBuild : String := "C:\\mozilla-build"
  defaults : FolderSettings := {}
  folders : List (String × FolderOverrides) := []
deriving DecidableEq, Repr, Inhabited

namespace Settings

/-- Whether a key of the folders names the given root. A key that is not absolute names none. -/
def names (platform : Platform) (key : String) (root : FilePath) : Bool :=
  match FilePath.ofText? platform key with
  | some p => p.same root
  | none => false

/-- The settings that hold for a folder: what is set for it, later entries over earlier ones, over
what holds for all. -/
def forFolder (s : Settings) (platform : Platform) (root : FilePath) : FolderSettings :=
  s.folders.foldl (fun merged e => if names platform e.1 root then e.2.applyTo merged else merged)
    s.defaults

/-- The path where MozillaBuild is installed, if it is one. -/
def mozillaBuildPath? (s : Settings) (platform : Platform) : Option FilePath :=
  FilePath.ofText? platform s.mozillaBuild

/-- The settings as JSON. -/
def toJson (s : Settings) : Json := .object [
  ("mozillabuild", .string s.mozillaBuild),
  ("defaults", s.defaults.toJson),
  ("folders", .object (s.folders.map fun e => (e.1, e.2.complete.toJson)))]

open Json (Reading Step)

/-- Reads settings. -/
def read (j : Json) : Reading Settings :=
  Json.readRecord {} (fun record => do
    let mozillaBuild ← Json.readField Json.readText [] record "mozillabuild"
    let defaults ← Json.readField FolderOverrides.read [] record "defaults"
    let folders ← Json.readField (Json.readTable FolderOverrides.read) [] record "folders"
    let usual : Settings := {}
    return {
      mozillaBuild := mozillaBuild.getD usual.mozillaBuild
      defaults := (defaults.map FolderOverrides.complete).getD usual.defaults
      folders := folders.getD usual.folders })
    [] j

/-- The settings that a JSON value holds. -/
def ofJson (j : Json) : Except (List Json.Fault) Settings := (read j).result

end Settings

end BuildLens
