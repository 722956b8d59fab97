import BuildLens.CommandLine.Command
import BuildLens.CommandLine.Machine
import BuildLens.CommandLine.Root
import BuildLens.Json.Writer
import BuildLens.Settings.File
import BuildLens.Text.Control
import BuildLens.Workspace.Direct

/-!
# The program

The program looks at one source tree and prints what it was told to find out, without control
sequences. A failure that it knows of is told in a line on the standard error output; any other one
ends it.

Main definitions:

- `Output`, `Ending`: how the program ends.
- `Program.run`: the program.
-/

namespace BuildLens

/-- What the program writes, and its exit code. Each text is followed by a line feed. -/
structure Output where
  exitCode : Nat := 0
  stdout : List String := []
  stderr : List String := []
deriving DecidableEq, Repr

/-- The text on the standard output. -/
def Output.stdoutText (o : Output) : String := String.join (o.stdout.map (· ++ "\n"))

/-- The output without control sequences. -/
def Output.plain (o : Output) : Output :=
  { o with stdout := o.stdout.map Text.withoutSequences
           stderr := o.stderr.map Text.withoutSequences }

/-- How the program ends: with a word on its use, with a complaint about its arguments, with output,
or with a failure or settings for which it has no words. -/
inductive Ending where
  | help
  | misused
  | done (output : Output)
  | failed (failure : Failure)
  | unreadable (error : SettingsError)
deriving DecidableEq, Repr

/-- The exit code of the program. -/
def Ending.exitCode : Ending → Nat
  | .help => 0
  | .misused => 2
  | .done output => output.exitCode
  | .failed _ | .unreadable _ => 1

/-- The ending with its output as it is printed. -/
def Ending.printed : Ending → Ending
  | .done output => .done output.plain
  | e => e

namespace Program

/-- A word on the use of the program. -/
def usage : String := "\n".intercalate [
  "Usage: buildlens [-v] [--config FILE] COMMAND",
  "",
  "Commands:",
  "  configure FILE [--root DIRECTORY]     print the configuration of a file",
  "  test-compile FILE [--root DIRECTORY]  check a file with the flags of the build",
  "  browse DIRECTORY                      print the directories to browse for a tree",
  "  state DIRECTORY                       print all that is known of a tree"]

/-- How the program ends that refuses its arguments. -/
def refused : Refusal → Ending
  | .help => .help
  | .misuse => .misused

/-- A text on the standard error output that tells of an error. -/
def errorLine (message : String) : String := "Error: " ++ message

/-- The end with a message about an error. -/
def failing (message : String) : Output := { exitCode := 1, stderr := [errorLine message] }

/-- How a message is written. -/
def messageLine (m : Message) : String := if m.isError then errorLine m.text else m.text

/-- The output after the messages of a workspace. -/
def afterMessages (w : Workspace) (o : Output) : Ending :=
  .done { o with stderr := w.context.messages.shown.map messageLine ++ o.stderr }

/-- Whether the program knows of the failure and tells of it. -/
def isForeseen : Failure → Bool
  | .process _ | .notBuilt _ | .discovery _ | .environment _ => true
  | .system _ | .path _ | .noCommand | .beyond _ | .foreign _ => false

/-- How the program ends that has no settings. -/
def withoutSettings (e : SettingsError) : Ending :=
  match e with
  | .barred _ | .undecodable | .beyond _ => .unreadable e
  | _ => .done (failing e.message)

/-- What is said of a folder that is no build tree. -/
def notBuildTree (f : Folder) : String :=
  let reason := match f.error? with
    | some e => ": " ++ e.message
    | none => "."
  s!"{f.root} is not a recognized build tree{reason}"

variable {m : Type → Type} [Monad m] (machine : Machine m)

/-- The text of the path of the settings file: the given one, or the one in the tree. -/
def settingsPath (options : GlobalOptions) (root : FilePath) : Option String :=
  (options.settingsFile.filter fun path => !path.isEmpty).or
    ((root.join [settingsFileName]).toOption.map FilePath.text)

/-- The settings for the tree at a root. -/
def settingsFor (options : GlobalOptions) (root : FilePath) : m (Except SettingsError Settings) :=
  Settings.loadWith machine.surroundings.limits machine.kind machine.read
    (settingsPath options root) machine.surroundings.environment

/-- What the folders of the program share under the given settings. -/
def contextFor (settings : Settings) : Context :=
  Context.withRunner {
    surroundings := machine.surroundings
    onWindows := machine.surroundings.platform == .windows
    settings }

/-- Whoever answers the requests of the program under the settings of a context. -/
def answererFor (c : Context) : Answerer m := machine.answerer (c.runner.getD .direct)

/-- Looks at the tree at a root and goes on with its workspace and its folder. -/
def openTree (options : GlobalOptions) (root : FilePath)
    (next : Workspace → Folder → m Ending) : m Ending := do
  match ← settingsFor machine options root with
  | .error e => return withoutSettings e
  | .ok settings =>
    let context := contextFor machine settings
    let place := do
      let source ← EditorFolder.ofPath root
      return (source, ← source.path machine.surroundings.platform)
    match place with
    | .error e => return .failed (.path e)
    | .ok (source, root) =>
      let (i, w) ← Workspace.addWith (answererFor machine context) true Build.ofProcesses
        { context } source root
      match w.model? i with
      | some f => next w f
      | none => return .done {}

/-- Inquires into the build tree at a root and tells the answer. -/
def inquire {α : Type} (options : GlobalOptions) (root : FilePath) (inquiry : Folder → Inquiry α)
    (present : α → Output) : m Ending :=
  openTree machine options root fun w f => do
    if f.isBuildTree then
      match (← (inquiry f).conduct (answererFor machine w.context) f.fragments).1 with
      | .ok a => return afterMessages w (present a)
      | .error e =>
        if isForeseen e then return afterMessages w (failing e.message) else return .failed e
    else return afterMessages w (failing (notBuildTree f))

/-- What is printed of the configuration of a file. -/
def presentConfiguration (source : FilePath) : Option SourceConfiguration → Output
  | some c => { stdout := [c.toJson.pretty] }
  | none => { exitCode := 1, stderr := [s!"No configuration available for {source}"] }

/-- What is printed of a test compilation. -/
def presentReport : Option CompileReport → Output
  | some r => { exitCode := if r.success then 0 else 1, stdout := [r.text] }
  | none => { exitCode := 1 }

/-- The path that an operand means. -/
def absolute (path : String) : Except PathError FilePath := machine.cwd.join [path]

/-- The root of the tree that a command is about: the one that it names, or the one that holds its
file. -/
def rootFor (source : FilePath) : Option String → m (Except PathError FilePath)
  | some root => return absolute machine root
  | none => return .ok (← findRoot (fun p => machine.isDirectory p.text)
      (fun p => machine.isFile p.text) machine.cwd source)

/-- Does something about a file in its tree. -/
def aboutFile (file : String) (root : Option String) (next : FilePath → FilePath → m Ending) :
    m Ending := do
  match absolute machine file with
  | .error e => return .failed (.path e)
  | .ok source =>
    match ← rootFor machine source root with
    | .error e => return .failed (.path e)
    | .ok root => next source root

/-- Does something about a tree. -/
def aboutTree (root : String) (next : FilePath → m Ending) : m Ending :=
  match absolute machine root with
  | .error e => return .failed (.path e)
  | .ok root => next root

/-- Obeys a command whose operands are in order. -/
def obey (options : GlobalOptions) : Command → m Ending
  | .configure file root => aboutFile machine file root fun source root =>
    inquire machine options root (·.configure machine.surroundings .byExtension source)
      (presentConfiguration source)
  | .testCompile file root => aboutFile machine file root fun source root =>
    inquire machine options root (·.testCompile machine.surroundings .byExtension source)
      presentReport
  | .browse root => aboutTree machine root fun root =>
    inquire machine options root (fun f => return BrowseConfiguration.mk f.searchPaths.texts)
      fun b => { stdout := [b.toJson.pretty] }
  | .state root => aboutTree machine root fun root =>
    openTree machine options root fun w _ => return afterMessages w { stdout := [w.toJson.pretty] }

/-- The program, started with the given arguments. -/
def run (args : List String) : m Ending := do
  match GlobalOptions.read args with
  | .error refusal => return refused refusal
  | .ok (options, args) =>
    if !(← options.fits machine.kind?) then return .misused
    match Command.read args with
    | .error refusal => return refused refusal
    | .ok command =>
      if ← command.fits machine.kind? then return (← obey machine options command).printed
      else return .misused

end Program

end BuildLens
