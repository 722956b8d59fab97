import BuildLens.Compiler.Defaults
import BuildLens.Compiler.Dialect
import BuildLens.Compiler.FileConfig
import BuildLens.Json.Basic

/-!
# What the editor is told about a source file

The flags of a file come first, as on a real command line, and the compiler's defaults after them.
A macro that the flags define overrides the default with the same name and keeps its place.

Main definitions:

- `SourceConfiguration`: the configuration of a file.
- `SourceConfiguration.searchPath`, `SourceConfiguration.merge`: from defaults and flags.
- `SourceConfiguration.toJson`, `BrowseConfiguration.toJson`: in the form that the editor reads.
-/

namespace BuildLens

/-- What the editor is told about a source file. Each macro is a name and a value with an equals
sign between them. -/
structure SourceConfiguration where
  includePath : List String
  defines : List String
  forcedInclude : List String
  mode : EditorMode
  standard : Standard
  windowsSdk : Option String
deriving DecidableEq, Repr

namespace SourceConfiguration

/-- The search path of a file: its own directories and those of the lists of a compiler, frameworks
last. -/
def searchPath (file : FileConfig) (user system frameworks : List FilePath) : PathSet :=
  (((file.includes.insertMany user).insertMany system).insertMany file.frameworks.toList).insertMany
    frameworks

/-- The configuration of a file with the given flags. -/
def merge (defaults : CompilerDefaults) (file : FileConfig) (traits : CompilerTraits) :
    SourceConfiguration where
  includePath := (searchPath file defaults.userIncludes.toList defaults.includes.toList
    defaults.frameworks.toList).texts
  defines := (MacroTable.macros (defaults.macros.insertMany file.macros.entries)).map Macro.text
  forcedInclude := file.forcedIncludes.texts
  mode := traits.mode
  standard := traits.standard
  windowsSdk := traits.windowsSdk

/-- The configuration in the form that the editor reads. -/
def toJson (c : SourceConfiguration) : Json := .ofFields [
  ("includePath", .ofTexts c.includePath),
  ("defines", .ofTexts c.defines),
  ("forcedInclude", .ofTexts c.forcedInclude),
  ("intelliSenseMode", .string c.mode.text),
  ("standard", .string c.standard.text),
  ("windowsSdkVersion", .ofText? c.windowsSdk)]

end SourceConfiguration

/-- The directories that the editor is told to browse. -/
structure BrowseConfiguration where
  browsePath : List String
deriving DecidableEq, Repr

/-- The configuration in the form that the editor reads. -/
def BrowseConfiguration.toJson (c : BrowseConfiguration) : Json :=
  .object [("browsePath", .ofTexts c.browsePath)]

end BuildLens
