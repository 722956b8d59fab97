import BuildLens.Build.MachEnvironment
import BuildLens.Compiler.Dialect
import BuildLens.Json.Limit
import BuildLens.Process.Error

/-!
# Failures

Main definitions:

- `FailureKind`: failures that count as one problem when the user is told of them.
- `Failure`, `Failure.message`, `Failure.kind`: why an inquiry into a source tree fails.
-/

namespace BuildLens

/-- Why a source tree counts as not built: the build tool says so, or its object directory has not
been configured. -/
inductive NotBuilt where
  | reported (root : FilePath)
  | notConfigured (objectDirectory : FilePath)
deriving DecidableEq, Repr

/-- The text shown for the reason. -/
def NotBuilt.message : NotBuilt → String
  | .reported root => s!"The tree at {root} has not been built yet."
  | .notConfigured directory => s!"The object directory {directory} has not been configured yet."

/-! ## Kinds of failures -/

/-- The kind of a failure, by the name of its class, in which there is no colon. Failures of one
kind are one problem. -/
@[ext]
structure FailureKind where
  name : String
  colon_notMem : ':' ∉ name.toList
deriving DecidableEq

namespace FailureKind

instance : Repr FailureKind where
  reprPrec kind _ := repr kind.name

/-- A command could not be started or failed. -/
def process : FailureKind := ⟨"ProcessError", by decide⟩

/-- The tree has not been built. -/
def notBuilt : FailureKind := ⟨"BuildNotPerformedYet", by decide⟩

/-- The defaults of a compiler cannot be found. -/
def discovery : FailureKind := ⟨"DiscoveryError", by decide⟩

/-- The environment of the tree cannot be used. -/
def environment : FailureKind := ⟨"MalformedEnvironment", by decide⟩

/-- A value is unfit. -/
def value : FailureKind := ⟨"ValueError", by decide⟩

/-- A text has no encoding. -/
def encoding : FailureKind := ⟨"UnicodeEncodeError", by decide⟩

/-- Values lie too deep in one another. -/
def nesting : FailureKind := ⟨"RecursionError", by decide⟩

/-- The operating system refused, and the number of the cause says why. -/
def system (number : Nat) : FailureKind :=
  match number with
  | 2 => ⟨"FileNotFoundError", by decide⟩
  | 1 | 13 => ⟨"PermissionError", by decide⟩
  | 3 => ⟨"ProcessLookupError", by decide⟩
  | 4 => ⟨"InterruptedError", by decide⟩
  | 10 => ⟨"ChildProcessError", by decide⟩
  | 11 | 114 | 115 => ⟨"BlockingIOError", by decide⟩
  | 17 => ⟨"FileExistsError", by decide⟩
  | 20 => ⟨"NotADirectoryError", by decide⟩
  | 21 => ⟨"IsADirectoryError", by decide⟩
  | 32 | 108 => ⟨"BrokenPipeError", by decide⟩
  | 103 => ⟨"ConnectionAbortedError", by decide⟩
  | 104 => ⟨"ConnectionResetError", by decide⟩
  | 110 => ⟨"TimeoutError", by decide⟩
  | 111 => ⟨"ConnectionRefusedError", by decide⟩
  | _ => ⟨"OSError", by decide⟩

end FailureKind

/-! ## Failures -/

/-- A failure of which the library knows nothing but its kind and its text: whoever runs commands
may fail in any way. -/
structure ForeignError where
  kind : FailureKind
  message : String
  isForeign : kind ≠ .notBuilt
deriving DecidableEq, Repr

/-- Why an inquiry into a source tree fails. -/
inductive Failure where
  | process (error : ProcessError)
  | notBuilt (reason : NotBuilt)
  | discovery (error : DiscoveryError)
  | environment (error : EnvironmentError)
  | system (error : SystemError)
  | path (error : PathError)
  | noCommand
  /-- A text to be read goes beyond a limit. -/
  | beyond (limit : Json.Limit)
  | foreign (error : ForeignError)
deriving DecidableEq, Repr

namespace Failure

/-- The text shown for the failure. -/
def message : Failure → String
  | .process error => error.message
  | .notBuilt reason => reason.message
  | .discovery error => error.message
  | .environment error => error.message
  | .system error => error.message
  | .path error => error.message
  | .noCommand => "No command given"
  | .beyond limit => limit.message
  | .foreign error => error.message

end Failure

/-- The kind of an error with a path. -/
def PathError.kind : PathError → FailureKind
  | .noUri _ => .system 0
  | .unencodable => .encoding
  | _ => .value

/-- The kind of the failure. -/
def Failure.kind : Failure → FailureKind
  | .process _ => .process
  | .notBuilt _ => .notBuilt
  | .discovery _ => .discovery
  | .environment _ => .environment
  | .system error => .system error.errno.number
  | .path error => error.kind
  | .noCommand => .value
  | .beyond (.nesting _) => .nesting
  | .beyond (.digits _ _) => .value
  | .foreign error => error.kind

end BuildLens
