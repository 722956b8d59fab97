import BuildLens.Compiler.Language
import BuildLens.Json.Schema
import BuildLens.Text.Blank

/-!
# Settings of a folder

Main definitions:

- `FolderSettings`: the settings that hold for a folder.
- `FolderOverrides`: settings of which each may be given or not, and `FolderOverrides.applyTo`:
  their effect on other settings.
- `FolderOverrides.read`: reading them.
-/

namespace BuildLens

/-- Where the flags of a file come from: the make fragment of its object directory, or the build
tool itself. -/
inductive FlagsSource where
  | backend
  | mach
deriving DecidableEq, Repr

namespace FlagsSource

/-- The name used in settings. -/
def name : FlagsSource → String
  | .backend => "backend"
  | .mach => "mach"

/-- The source with the given name. -/
def ofName? : String → Option FlagsSource
  | "backend" => some .backend
  | "mach" => some .mach
  | _ => none

end FlagsSource

/-- Settings of a folder, each of which may be given or not. A compiler or a path that is given may
be given as none. -/
structure FolderOverrides where
  cCompiler : Option (Option String) := none
  cppCompiler : Option (Option String) := none
  machPath : Option (Option String) := none
  machEnvironment : Option (Table String) := none
  flagsSource : Option FlagsSource := none
deriving DecidableEq, Repr, Inhabited

/-- The settings that hold for a folder. Where no compiler is given it is the one of the build, and
where no build tool is given it is the one in the folder. -/
structure FolderSettings where
  cCompiler : Option String := none
  cppCompiler : Option String := none
  machPath : Option String := none
  machEnvironment : Table String := ∅
  flagsSource : FlagsSource := .backend
deriving DecidableEq, Repr, Inhabited

namespace FolderSettings

/-- The compiler set for a language. -/
def compilerFor (s : FolderSettings) : Language → Option String
  | .c => s.cCompiler
  | .cpp => s.cppCompiler

/-- The environment of the build tool: the variables set for it over those of `base`. -/
def environmentOver (s : FolderSettings) (base : Table String) : Table String :=
  base.insertMany s.machEnvironment.entries

/-- Whether the settings say the same; the order of the variables does not count. -/
def agrees (s t : FolderSettings) : Bool :=
  s.cCompiler == t.cCompiler && s.cppCompiler == t.cppCompiler && s.machPath == t.machPath &&
    s.machEnvironment.agrees t.machEnvironment && s.flagsSource == t.flagsSource

/-- The settings as JSON. -/
def toJson (s : FolderSettings) : Json := .object [
  ("c.compiler", .ofText? s.cCompiler),
  ("cpp.compiler", .ofText? s.cppCompiler),
  ("mach.path", .ofText? s.machPath),
  ("mach.environment", .ofTextTable s.machEnvironment),
  ("flags.source", .string s.flagsSource.name)]

end FolderSettings

namespace FolderOverrides

/-- The settings where those that are given replace others. -/
def applyTo (o : FolderOverrides) (s : FolderSettings) : FolderSettings where
  cCompiler := o.cCompiler.getD s.cCompiler
  cppCompiler := o.cppCompiler.getD s.cppCompiler
  machPath := o.machPath.getD s.machPath
  machEnvironment := o.machEnvironment.getD s.machEnvironment
  flagsSource := o.flagsSource.getD s.flagsSource

/-- The settings where those that are not given have their usual values. -/
def complete (o : FolderOverrides) : FolderSettings := o.applyTo {}

open Json (Reading Step)

/-- Reads a text that may be null; a blank one counts as null. -/
def readChoiceOfText (place : List Step) : Json → Reading (Option String)
  | .null => pure none
  | j => do
    let s := Text.strip (← Json.readText place j)
    return if s.isEmpty then none else some s

/-- Reads where flags come from. -/
def readFlagsSource (place : List Step) (j : Json) : Reading FlagsSource :=
  match j with
  | .string s =>
    match FlagsSource.ofName? s with
    | some source => pure source
    | none => .fault place .notChoice .backend
  | .illFormed _ => .fault place .illFormed .backend
  | _ => .fault place .notChoice .backend

/-- Reads a field that has two spellings; the first one counts if both are given. -/
def readEither {α : Type} (read : List Step → Json → Reading α) (place : List Step)
    (record : Json) (name second : String) : Reading (Option α) :=
  Json.readField read place record (if (record.get? name).isSome then name else second)

/-- Reads the settings that are given. -/
def read (place : List Step) (j : Json) : Reading FolderOverrides :=
  Json.readRecord {} (fun record => do
    return {
      cCompiler := ← readEither readChoiceOfText place record "c.compiler" "c_compiler"
      cppCompiler := ← readEither readChoiceOfText place record "cpp.compiler" "cpp_compiler"
      machPath := ← readEither readChoiceOfText place record "mach.path" "mach_path"
      machEnvironment :=
        ← readEither Json.readTextTable place record "mach.environment" "mach_environment"
      flagsSource := ← readEither readFlagsSource place record "flags.source" "flags_source" })
    place j

end FolderOverrides

end BuildLens
