import BuildLens.Build.Mach
import BuildLens.Inquiry.World

/-!
# Machines

The program runs on a machine, which tells of its files and starts processes.

Main definitions:

- `Machine`: what the program needs of the machine.
- `Machine.answerer`: the answers to requests.
- `Machine.scripted`: a machine with a tree of files and scripted processes.
-/

namespace BuildLens

/-- What the program needs of the machine: it tells of what paths lead to, of when that was changed
last and what the bytes of a file are, it follows symbolic links, and it runs processes. -/
structure Machine (m : Type → Type) where
  surroundings : Surroundings
  cwd : FilePath
  kind : String → m (Except Errno EntryKind)
  mtime : String → m (Except Errno Int)
  read : String → m (Except Errno (List UInt8))
  realPath : String → m String
  spawn : Launch → m ProcessEvent

namespace Machine

variable {m : Type → Type} [Monad m]

/-- What a path leads to, if it leads anywhere. -/
def kind? (machine : Machine m) (path : String) : m (Option EntryKind) := do
  return (← machine.kind path).toOption

/-- Whether a path leads to a regular file. -/
def isFile (machine : Machine m) (path : String) : m Bool := do
  return (← machine.kind? path) == some .file

/-- Whether a path leads to a directory. -/
def isDirectory (machine : Machine m) (path : String) : m Bool := do
  return (← machine.kind? path) == some .directory

/-- The answers to requests, commands being run in the given way. -/
def answerer (machine : Machine m) (runner : Runner) : Answerer m
  | .isFile path => machine.isFile path.text
  | .mtime path => machine.mtime path.text
  | .read path => machine.read path.text
  | .realPath path => machine.realPath path.text
  | .run args cwd environment => do
    match runner.launch args cwd environment machine.surroundings.environment with
    | .error e => return .error e
    | .ok launch => return (runner.outcome launch (← machine.spawn launch)).mapError .process

end Machine

/-- The path of a place. -/
def Place.filePath (p : Place) : FilePath :=
  .posix (Posix.Path.follow ⟨.single, []⟩ (['/'].intercalate p))

/-- A machine with a tree of files and scripted processes, which records what is started. A command
for which no rule speaks is missing. -/
def Machine.scripted (surroundings : Surroundings) (files : FileTree)
    (script : Script ProcessEvent) : Machine (StateM (List Launch)) where
  surroundings := surroundings
  cwd := files.cwd.filePath
  kind path := return files.kind path.toList
  mtime path := return files.mtime path.toList
  read path := return files.readBytes path.toList
  realPath path := return (files.realPath path.toList).text
  spawn launch := do
    modify (· ++ [launch])
    return ((script.rule? launch.args).map Rule.answer).getD (.notStarted .noEntry)

end BuildLens
