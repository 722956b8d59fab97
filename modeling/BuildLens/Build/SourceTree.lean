import BuildLens.Build.Mach
import BuildLens.Compiler.Basic
import BuildLens.System.FileTree

/-!
# Source trees

A folder that holds the build tool is a source tree if the tool tells a usable environment and the
object directory has been configured. What the configuration says, and the settings of the folder,
tell the compilers.

Main definitions:

- `SourceTree`: a tree that is set up to be built.
- `SourceTree.survey`: the inquiry for it.
- `SourceTree.compiler`: the inquiry into one of its compilers.
-/

namespace BuildLens

/-- Reads a make fragment. -/
def readFragment (path : FilePath) : Inquiry (Except SystemError Variables) := do
  match ← .request (.read path) with
  | .ok bytes => return .ok (Variables.read ∅ (Text.ofBytes bytes))
  | .error errno => return .error ⟨errno, path.text⟩

/-- The option that names the SDK of macOS. -/
def macosSdkOption : String := "--with-macos-sdk="

/-- The value of the last option that names the SDK of macOS. -/
def macosSdkOf (configureArgs : List String) : Option String :=
  configureArgs.reverse.findSome? fun arg =>
    (Text.dropPrefix? macosSdkOption.toList arg.toList).map String.ofList

/-- The text, unless it is empty. -/
def nonempty (s : Option String) : Option String := s.filter fun s => !s.isEmpty

/-- The root of the SDK of macOS that a build uses, if it is told by an absolute path. -/
def findMacosSdk (platform : Platform) (configureArgs : List String) (values : Variables) :
    Option FilePath := do
  let candidate ← (nonempty (macosSdkOf configureArgs)).or
    (nonempty (values.find? "MACOS_SDK_DIR"))
  (FilePath.ofUnixText platform candidate).toOption

/-- A source tree that is set up to be built. The source directory is in the spelling of the build
tool, and `values` is what the configuration of the object directory says. -/
structure SourceTree where
  mach : Mach
  objectDirectory : FilePath
  sourceDirectory : FilePath
  macosSdk : Option FilePath
  values : Variables
deriving DecidableEq, Repr

namespace SourceTree

/-- The directories that an environment tells: the object directory and the source directory. -/
def directories (platform : Platform) (e : MachEnvironment) :
    Except EnvironmentError (FilePath × FilePath) := do
  if e.objectDirectory.isEmpty then throw .noObjectDirectory
  if e.sourceDirectory.isEmpty then throw .noSourceDirectory
  let objects ← (FilePath.ofUnixText platform e.objectDirectory).mapError .badDirectory
  let sources ← (FilePath.ofUnixText platform e.sourceDirectory).mapError .badDirectory
  return (objects, sources)

/-- Makes sure that a source directory is the root of the tree, if need be in another spelling. -/
def checkRoot (root sources : FilePath) : Inquiry Unit := do
  if sources.same root then return ()
  let there ← .request (.realPath sources)
  let here ← .request (.realPath root)
  if there ≠ here then .failed (.environment (.otherTree sources root))

/-- What the configuration of an object directory says. -/
def readConfiguration (objects : FilePath) : Inquiry Variables := do
  let path ← .ofPath (objects.join ["config", "autoconf.mk"])
  match ← readFragment path with
  | .ok values => return values
  | .error e =>
    if e.errno = .noEntry then .failed (.notBuilt (.notConfigured objects))
    else .failed (.environment (.unreadableFragment path e))

/-- The source tree of a folder, if the folder holds a build tool. -/
def survey (s : Surroundings) (root : FilePath) (settings : FolderSettings) :
    Inquiry (Option SourceTree) := do
  match ← Mach.find root settings with
  | none => return none
  | some mach =>
    let environment ← mach.environment s
    let (objects, sources) ← .ofExcept .environment (directories s.platform environment)
    checkRoot root sources
    let values ← readConfiguration objects
    return some {
      mach, values
      objectDirectory := objects
      sourceDirectory := sources
      macosSdk := findMacosSdk s.platform environment.mozConfig.configureArgs values }

/-- The variable that holds the command of the compiler for a language. -/
def compilerVariable : Language → String
  | .c => "_CC"
  | .cpp => "_CXX"

/-- The variable that holds the type of the compiler for a language. -/
def compilerTypeVariable : Language → String
  | .c => "CC_TYPE"
  | .cpp => "CXX_TYPE"

/-- The command line of the compiler for a language: the one that is set, or the one of the
build. -/
def compilerLine (t : SourceTree) (l : Language) : Option String :=
  (nonempty (t.mach.settings.compilerFor l)).or
    (nonempty (t.values.find? (compilerVariable l)))

/-- The type of the compiler for a language. A build that tells none for C++ uses the one for C. -/
def compilerType (t : SourceTree) (l : Language) : Option String :=
  (nonempty (t.values.find? (compilerTypeVariable l))).or
    (t.values.find? (compilerTypeVariable .c))

/-- The command of the compiler for a language. -/
def compilerCommand (t : SourceTree) (platform : Platform) (l : Language) :
    Except Failure (List Argument) := do
  match t.compilerLine l with
  | none => throw (.discovery (.noCompiler l))
  | some line =>
    let command ← (Argument.parse platform line).mapError .path
    if command.isEmpty then throw (.discovery (.emptyCommand l))
    return command

/-- Asks the compiler for a language for its defaults. -/
def compiler (t : SourceTree) (s : Surroundings) (l : Language) : Inquiry Compiler := do
  let command ← .ofExcept id (t.compilerCommand s.platform l)
  Compiler.discover s.platform command l (t.compilerType l) none t.macosSdk

end SourceTree

end BuildLens
