import BuildLens.CommandLine.Arguments
import BuildLens.System.FileTree

/-!
# Commands of the program

Main definitions:

- `GlobalOptions`, `GlobalOptions.read`: the options before the name of a command.
- `Command`, `Command.read`: what the program is told to do.
- `Command.fits`: whether the operands of a command name what they have to.
-/

namespace BuildLens

/-- The option that asks for help. -/
def helpSwitch : Switch := { name := "help" }

/-- Options and operands, unless help is asked for. -/
def Arguments.readOrHelp (switches : List Switch) (mixed : Bool) (args : List String) :
    Except Refusal Arguments := do
  let a ← Arguments.read (helpSwitch :: switches) mixed args
  if a.has helpSwitch.name then .error .help else .ok a

/-- The options before the name of a command. -/
structure GlobalOptions where
  verbose : Bool := false
  settingsFile : Option String := none
deriving DecidableEq, Repr

namespace GlobalOptions

/-- The options that may come before the name of a command. -/
def switches : List Switch :=
  [{ name := "verbose", letter := some 'v' }, { name := "config", hasValue := true }]

/-- The options before the name of a command, and the arguments from the name on. -/
def read (args : List String) : Except Refusal (GlobalOptions × List String) := do
  let a ← Arguments.readOrHelp switches false args
  return ({ verbose := a.has "verbose", settingsFile := a.value? "config" }, a.operands)

/-- Whether the options can be used: the settings file may be missing, but it is no directory. -/
def fits {m : Type → Type} [Monad m] (kind? : String → m (Option EntryKind)) (o : GlobalOptions) :
    m Bool := do
  match o.settingsFile with
  | some path => return (← kind? path) != some .directory
  | none => return true

end GlobalOptions

/-- What the program is told to do: tell the configuration of a file, check a file, tell the
directories to browse for a tree, or tell all that is known of a tree. -/
inductive Command where
  | configure (file : String) (root : Option String)
  | testCompile (file : String) (root : Option String)
  | browse (root : String)
  | state (root : String)
deriving DecidableEq, Repr

namespace Command

/-- Reads the arguments of a command that is about one thing and takes the given options. -/
def readOne (switches : List Switch) (make : Arguments → String → Command) (args : List String) :
    Except Refusal Command := do
  let a ← Arguments.readOrHelp switches true args
  match a.operands with
  | [operand] => return make a operand
  | _ => .error .misuse

/-- The option that names the root of the tree. -/
def rootSwitch : Switch := { name := "root", hasValue := true }

/-- Reads the name of a command and its arguments. Where the name of a command should be, help may
still be asked for. -/
def read : List String → Except Refusal Command
  | "configure" :: args =>
    readOne [rootSwitch] (fun a file => .configure file (a.value? "root")) args
  | "test-compile" :: args =>
    readOne [rootSwitch] (fun a file => .testCompile file (a.value? "root")) args
  | "browse" :: args => readOne [] (fun _ root => .browse root) args
  | "state" :: args => readOne [] (fun _ root => .state root) args
  | args =>
    match GlobalOptions.read args with
    | .error refusal => .error refusal
    | .ok _ => .error .misuse

/-- The file that the command is about. -/
def file? : Command → Option String
  | .configure file _ | .testCompile file _ => some file
  | .browse _ | .state _ => none

/-- The root of the tree, if it is named. -/
def root? : Command → Option String
  | .configure _ root | .testCompile _ root => root
  | .browse root | .state root => some root

/-- Whether something can be the file that a command is about: it exists and is no directory. -/
def isFit : Option EntryKind → Bool
  | some .file | some .other => true
  | some .directory | none => false

/-- Whether something can be a root: it exists and is no regular file. -/
def isFitRoot : Option EntryKind → Bool
  | some .directory | some .other => true
  | some .file | none => false

/-- Whether the operands name what they have to. -/
def fits {m : Type → Type} [Monad m] (kind? : String → m (Option EntryKind)) (c : Command) :
    m Bool := do
  let check (fit : Option EntryKind → Bool) : Option String → m Bool
    | some path => return fit (← kind? path)
    | none => return true
  return (← check isFit c.file?) && (← check isFitRoot c.root?)

end Command

end BuildLens
