import BuildLens.Json.Schema
import BuildLens.Path.FilePath
import BuildLens.System.SystemError

/-!
# The environment of a source tree

Asked for its environment, the build tool answers with a JSON object. Fields that are missing or
null are empty, and other fields are passed over.

Main definitions:

- `MachEnvironment`, `MachEnvironment.read`: the environment.
- `EnvironmentError`: why the environment of a tree cannot be used.
-/

namespace BuildLens

/-- The configuration that a tree was set up with: its file, the options given to configure, lines
added to the makefile, and flags given to make. -/
structure MozConfig where
  path : String := ""
  configureArgs : List String := []
  makeExtra : List String := []
  makeFlags : List String := []
deriving DecidableEq, Repr, Inhabited

/-- The environment of a source tree, as the build tool tells it. -/
structure MachEnvironment where
  objectDirectory : String := ""
  sourceDirectory : String := ""
  mozConfig : MozConfig := {}
deriving DecidableEq, Repr, Inhabited

open Json (Reading Step)

/-- Reads a field whose value may be null or missing; then it is `empty`. -/
def readOrEmpty {α : Type} (empty : α) (read : List Step → Json → Reading α) (place : List Step)
    (record : Json) (name : String) : Reading α := do
  let nullable (place : List Step) : Json → Reading α
    | .null => pure empty
    | j => read place j
  return (← Json.readField nullable place record name).getD empty

/-- Reads a configuration. -/
def MozConfig.read (place : List Step) (j : Json) : Reading MozConfig :=
  Json.readRecord {} (fun record => do
    return {
      path := ← readOrEmpty "" Json.readText place record "path"
      configureArgs := ← readOrEmpty [] Json.readTexts place record "configure_args"
      makeExtra := ← readOrEmpty [] Json.readTexts place record "make_extra"
      makeFlags := ← readOrEmpty [] Json.readTexts place record "make_flags" })
    place j

namespace MachEnvironment

/-- Reads an environment. -/
def read (j : Json) : Reading MachEnvironment :=
  Json.readRecord {} (fun record => do
    return {
      objectDirectory := ← readOrEmpty "" Json.readText [] record "topobjdir"
      sourceDirectory := ← readOrEmpty "" Json.readText [] record "topsrcdir"
      mozConfig := ← readOrEmpty {} MozConfig.read [] record "mozconfig" })
    [] j

/-- The environment that a JSON value holds. -/
def ofJson (j : Json) : Except (List Json.Fault) MachEnvironment := (read j).result

end MachEnvironment

/-- The configuration in the form in which it is told. -/
def MozConfig.toJson (c : MozConfig) : Json := .object [
  ("path", .string c.path),
  ("configure_args", .ofTexts c.configureArgs),
  ("make_extra", .ofTexts c.makeExtra),
  ("make_flags", .ofTexts c.makeFlags)]

/-- The environment in the form in which it is told. -/
def MachEnvironment.toJson (e : MachEnvironment) : Json := .object [
  ("topobjdir", .string e.objectDirectory),
  ("topsrcdir", .string e.sourceDirectory),
  ("mozconfig", e.mozConfig.toJson)]

/-- Why the environment of a source tree cannot be used: the build tool printed no JSON object of
the right kind, the object does not tell both directories by absolute paths, the source directory is
that of another tree, or a make fragment cannot be read. -/
inductive EnvironmentError where
  | noObject
  | unreadable (faults : List Json.Fault)
  | noObjectDirectory
  | noSourceDirectory
  | badDirectory (error : PathError)
  | otherTree (sourceDirectory root : FilePath)
  | unreadableFragment (path : FilePath) (error : SystemError)
deriving DecidableEq, Repr

/-- The text shown for the error. -/
def EnvironmentError.message : EnvironmentError → String
  | .noObject => "mach environment did not return JSON."
  | .unreadable _ => s!"Unable to parse mach environment: {Json.particulars}"
  | .noObjectDirectory => "mach environment did not include a topobjdir."
  | .noSourceDirectory => "mach environment did not include a topsrcdir."
  | .badDirectory error => error.message
  | .otherTree sourceDirectory root =>
    s!"mach environment reported topsrcdir {sourceDirectory} for the folder {root}."
  | .unreadableFragment path error => s!"Unable to read {path}: {error.message}"

end BuildLens
