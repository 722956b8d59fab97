import BuildLens.Build.Classifier
import BuildLens.Build.Report
import BuildLens.Build.SourceTree

/-!
# Builds

A build is a source tree with its two compilers. It is looked at once and does not change
afterwards; it configures the files of the tree.

Main definitions:

- `Build`, `Build.ofCompilers`: a tree with its compilers.
- `Build.discover`: the inquiry for a build.
- `Build.flags`: the inquiry for the flags of a file.
- `Build.configure`, `Build.testCompile`: the inquiries that configure and check a file.
- `Build.searchPaths`: where to browse.
-/

namespace BuildLens

/-- A source tree with its compilers. -/
structure Build where
  tree : SourceTree
  c : Compiler
  cpp : Compiler
deriving DecidableEq, Repr

/-- The fragment at a path, if there is a file. It is read again only when the time of its last
change is another one than before. -/
def fetchFragment (path : FilePath) : Inquiry (Option Variables) := do
  match ← .request (.mtime path) with
  | .error .noEntry => .store path none (.answer none)
  | .error errno => .failed (.system ⟨errno, path.text⟩)
  | .ok mtime =>
    .recall path fun kept =>
      match kept.filter (·.mtime = mtime) with
      | some fragment => .answer (some fragment.values)
      | none => do
        match ← readFragment path with
        | .ok values => .store path (some (mtime, values)) (.answer (some values))
        | .error e => .failed (.system e)

namespace Build

/-- The build of a tree from the outcomes of asking its compilers. If both failed, the failure for C
counts. -/
def ofCompilers (tree : SourceTree) (c cpp : Except Failure Compiler) : Except Failure Build := do
  return { tree, c := ← c, cpp := ← cpp }

/-- Whether the failure shows only after a process has run. -/
def isLate : Failure → Bool
  | .process e => e.fault == .failed
  | .discovery (.noMacros _) => true
  | _ => false

/-- The build of a tree whose compilers were run side by side. If both failed, a failure that shows
before a process has run counts first, and then the failure for C. -/
def ofProcesses (tree : SourceTree) (c cpp : Except Failure Compiler) : Except Failure Build :=
  match c, cpp with
  | .error e, .error e' => .error (if isLate e && !isLate e' then e' else e)
  | c, cpp => ofCompilers tree c cpp

/-- The build in a folder, if there is one, when every request is answered as it comes. Both
compilers are asked in any case, and `assemble` makes the build from the outcomes. -/
def discoverWith {m : Type → Type} [Monad m] (answerer : Answerer m) (s : Surroundings)
    (root : FilePath) (settings : FolderSettings)
    (assemble : SourceTree → Except Failure Compiler → Except Failure Compiler →
      Except Failure Build := ofCompilers) : m (Except Failure (Option Build)) := do
  match (← (SourceTree.survey s root settings).conduct answerer {}).1 with
  | .error e => return .error e
  | .ok none => return .ok none
  | .ok (some tree) =>
    let (c, _) ← (tree.compiler s .c).conduct answerer {}
    let (cpp, _) ← (tree.compiler s .cpp).conduct answerer {}
    return (assemble tree c cpp).map some

/-- The compiler for a language. -/
def compiler (b : Build) : Language → Compiler
  | .c => b.c
  | .cpp => b.cpp

/-- The root of the tree, in the spelling of the build tool. -/
def root (b : Build) : FilePath := b.tree.sourceDirectory

/-- The directories of generated headers, as names below the object directory. -/
def generatedHeaders : List (List String) :=
  [["dist", "include"], ["dist", "include", "nss"], ["dist", "include", "nspr"],
    ["ipc", "ipdl", "_ipdlheaders"]]

/-- All directories to browse: the tree, the generated headers, and where the compilers search. -/
def searchPaths (b : Build) : PathSet :=
  let generated := generatedHeaders.filterMap fun names =>
    (b.tree.objectDirectory.join names).toOption
  ((((PathSet.ofList [b.root]).insertMany generated).insertMany
    b.c.defaults.searchPaths.toList).insertMany b.cpp.defaults.searchPaths.toList)

/-- The object directory in which the directory of a file is built. -/
def objectDirectoryFor (b : Build) (source : FilePath) : Except PathError FilePath :=
  if source.parent.isUnder b.root then source.parent.rebase b.root b.tree.objectDirectory
  else .ok b.tree.objectDirectory

/-- The make fragment of a file's object directory, if there is one. -/
def backend (b : Build) (source : FilePath) : Inquiry (Option Variables) := do
  if !source.isUnder b.root then return none
  let directory ← .ofPath (b.objectDirectoryFor source)
  fetchFragment (← .ofPath (directory.join ["backend.mk"]))

/-- The variable that holds the flags of the files of a language. -/
def flagsVariable : Language → String
  | .c => "COMPUTED_CFLAGS"
  | .cpp => "COMPUTED_CXXFLAGS"

/-- The flags of a file, if the build knows it. -/
def flags (b : Build) (s : Surroundings) (source : FilePath) (l : Language) :
    Inquiry (Option String) := do
  match b.tree.mach.settings.flagsSource with
  | .mach => return nonempty (some (← b.tree.mach.compileFlags s source))
  | .backend =>
    return nonempty ((← b.backend source).bind (·.find? (flagsVariable l)))

/-- The compiler and the flags of a file, if the build knows it. -/
def resolve (b : Build) (s : Surroundings) (classifier : Classifier) (source : FilePath) :
    Inquiry (Option (Compiler × List Argument)) := do
  match ← classifier source with
  | none => return none
  | some l => return (← b.flags s source l).map fun flags => (b.compiler l, Shell.flags flags)

/-- The configuration of a file, if the build knows it. -/
def configure (b : Build) (s : Surroundings) (classifier : Classifier) (source : FilePath) :
    Inquiry (Option SourceConfiguration) := do
  match ← b.resolve s classifier source with
  | none => return none
  | some (compiler, flags) =>
    let cwd ← .ofPath (b.objectDirectoryFor source)
    return some (← .ofPath (compiler.configure s.platform flags cwd))

/-- What is said of a file that was compiled. -/
def reportOf (source : FilePath) (r : Except ProcessError ProcessResult) : CompileReport :=
  match r with
  | .ok result => {
      source, success := true, message := s!"Compiling {source} succeeded."
      exitCode := some result.exitCode, output := result.text }
  | .error e => {
      source, success := false
      message := s!"Compiling {source} failed with exit code {e.result.exitCode}."
      exitCode := some e.result.exitCode, output := e.result.text }

/-- Checks a file with its own flags. -/
def testCompile (b : Build) (s : Surroundings) (classifier : Classifier) (source : FilePath) :
    Inquiry CompileReport := do
  match ← b.resolve s classifier source with
  | none =>
    return { source, success := false, message := s!"No compile flags are known for {source}." }
  | some (compiler, flags) =>
    let cwd ← .ofPath (b.objectDirectoryFor source)
    match ← .request (.run (compiler.checkCommand s.platform source flags) (some cwd) none) with
    | .ok r => return reportOf source (.ok r)
    | .error (.process e) => return reportOf source (.error e)
    | .error e => .failed e

/-- The state of the build for inspection. -/
def toJson (b : Build) : Json := .object [
  ("srcdir", .string b.root.text),
  ("objdir", .string b.tree.objectDirectory.text),
  ("macos_sdk", .ofText? (b.tree.macosSdk.map FilePath.text)),
  ("flags_source", .string b.tree.mach.settings.flagsSource.name),
  ("mach", b.tree.mach.toJson),
  ("compilers", .object [("c", b.c.toJson), ("cpp", b.cpp.toJson)])]

end Build

end BuildLens
