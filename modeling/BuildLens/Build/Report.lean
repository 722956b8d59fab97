import BuildLens.Json.Basic
import BuildLens.Path.FilePath

/-!
# Reports of test compilations
-/

namespace BuildLens

/-- The outcome of a test compilation of one file. There is an exit code if the compiler was run. -/
structure CompileReport where
  source : FilePath
  success : Bool
  message : String
  exitCode : Option Int := none
  output : String := ""
deriving DecidableEq, Repr

/-- The report as a text: the message, and the output below it. -/
def CompileReport.text (r : CompileReport) : String :=
  if r.output.isEmpty then r.message else r.message ++ "\n" ++ r.output

/-- The report as JSON. -/
def CompileReport.toJson (r : CompileReport) : Json := .object [
  ("source", .string r.source.text),
  ("success", .bool r.success),
  ("message", .string r.message),
  ("exit_code", (r.exitCode.map .ofInt).getD .null),
  ("output", .string r.output),
  ("text", .string r.text)]

end BuildLens
