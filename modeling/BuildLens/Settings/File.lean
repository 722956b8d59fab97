import BuildLens.Json.Reader
import BuildLens.Settings.Basic
import BuildLens.System.FileTree

/-!
# Settings files

Settings are kept in a JSON file, which may be missing. The environment variable `MOZILLABUILD` wins
over what the file says.

Main definitions:

- `SettingsError`: why settings cannot be loaded.
- `FileLook`: what the system tells of a settings file.
- `Settings.load`: the settings of a file.
- `Settings.loadWith`, `Settings.loadFrom`: the settings of a file that is looked up.
-/

namespace BuildLens

/-- Why settings cannot be loaded. -/
inductive SettingsError where
  /-- The system does not say what the path of the file leads to. -/
  | barred (error : SystemError)
  | unreadable (path : String) (error : SystemError)
  | undecodable
  | notJson (path : String)
  | beyond (limit : Json.Limit)
  | notObject (path : String)
  | invalid (faults : List Json.Fault)
deriving DecidableEq, Repr

/-- The text shown for the error. -/
def SettingsError.message : SettingsError → String
  | .barred error => error.message
  | .unreadable path error => s!"Unable to read settings from {path}: {error.message}"
  | .undecodable => "The settings file is not UTF-8"
  | .notJson path => s!"Unable to read settings from {path}: {Json.particulars}"
  | .beyond limit => limit.message
  | .notObject path => s!"Settings in {path} must be a JSON object"
  | .invalid _ => s!"Invalid settings: {Json.particulars}"

/-- The name of the settings file of a source tree. -/
def settingsFileName : String := ".mozcpp.json"

/-- What the system tells of a settings file: not what the path leads to, that it leads to something
other than a regular file, or what reading the file gives. -/
inductive FileLook where
  | refused (error : SystemError)
  | notFile
  | file (content : Except SystemError (List UInt8))

namespace Settings

/-- The fields of an object in a file that holds the given bytes. -/
def fieldsOfFile (limits : Json.Limits) (path : String) (bytes : List UInt8) :
    Except SettingsError (List (String × Json)) :=
  match Text.Utf8.decodeStrict? bytes with
  | none => .error .undecodable
  | some cs =>
    match Json.parse limits (String.ofList cs) with
    | .error .malformed => .error (.notJson path)
    | .error (.beyond limit) => .error (.beyond limit)
    | .ok (.object fields) => .ok fields
    | .ok _ => .error (.notObject path)

/-- The fields of a settings file. A path that leads nowhere, or to something other than a regular
file, gives none. -/
def fieldsOf (limits : Json.Limits) (path : String) :
    FileLook → Except SettingsError (List (String × Json))
  | .refused e => if e.errno.isNowhere then .ok [] else .error (.barred e)
  | .notFile => .ok []
  | .file (.error e) => .error (.unreadable path e)
  | .file (.ok bytes) => fieldsOfFile limits path bytes

/-- The fields with the path of MozillaBuild taken from the environment, if it is there. -/
def withEnvironment (fields : List (String × Json)) (environment : Table String) :
    List (String × Json) :=
  match environment.find? "MOZILLABUILD" with
  | some dir => if dir.isEmpty then fields else putEntry fields "mozillabuild" (.string dir)
  | none => fields

/-- The settings of the file at `path`, of which the system tells `look`. -/
def load (limits : Json.Limits) (path : String) (look : FileLook) (environment : Table String) :
    Except SettingsError Settings := do
  let fields ← fieldsOf limits path look
  (ofJson (.object (withEnvironment fields environment))).mapError .invalid

/-- What the system tells of the file at a path. Only a regular file is read. -/
def lookAt {m : Type → Type} [Monad m] (kind : String → m (Except Errno EntryKind))
    (readBytes : String → m (Except Errno (List UInt8))) (path : String) : m FileLook := do
  let about (errno : Errno) : SystemError := ⟨errno, Posix.tidy path⟩
  match ← kind path with
  | .error errno => return .refused (about errno)
  | .ok .file => return .file ((← readBytes path).mapError about)
  | .ok _ => return .notFile

/-- The settings of the file at a path, if one is given. -/
def loadWith {m : Type → Type} [Monad m] (limits : Json.Limits)
    (kind : String → m (Except Errno EntryKind))
    (readBytes : String → m (Except Errno (List UInt8))) (path : Option String)
    (environment : Table String) : m (Except SettingsError Settings) := do
  match path with
  | none => return load limits "" .notFile environment
  | some path => return load limits path (← lookAt kind readBytes path) environment

/-- The settings of a file in a tree. -/
def loadFrom (files : FileTree) (path : Option String) (environment : Table String) :
    Except SettingsError Settings :=
  Id.run (loadWith {} (fun p => return files.kind p.toList)
    (fun p => return files.readBytes p.toList) path environment)

end Settings

end BuildLens
