import BuildLens.CommandLine.Remote
import BuildLens.Json.Reader

/-!
# The command line

The program asks whoever has started it about files and processes: each question is one line on the
standard output, and each reply one line on the standard input. The last line on the standard output
is what the program has found out.
-/

open BuildLens

/-- The program. -/
def main (args : List String) : IO UInt32 := do
  let input ← IO.getStdin
  let output ← IO.getStdout
  let say (j : Json) : IO Unit := do
    output.putStrLn j.compact
    output.flush
  let ask (question : Json) : IO Json := do
    say question
    return (Json.parse? (← input.getLine)).getD .null
  let ending ← match Machine.remote ask (← ask (.object [("ask", .string "greeting")])) with
    | .ok machine => Program.run machine args
    | .error e => pure (.failed (.path e))
  say ending.toJson
  return UInt32.ofNat ending.exitCode
