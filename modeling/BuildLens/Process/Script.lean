import BuildLens.Inquiry.Failure

/-!
# Scripted commands

A script answers commands without running them: each rule says for which commands it speaks, and
what they leave. Of several rules that speak for a command the last one counts.

Main definitions:

- `Rule`, `Rule.speaksFor`: a rule.
- `Script`, `Script.rule?`: the rule for a command.
- `ScriptedAnswer.outcome`: the result of a command.
-/

namespace BuildLens

/-- What a scripted command leaves: output and an exit code, or an error of the operating system. -/
inductive ScriptedAnswer where
  | output (stdout stderr : String) (exitCode : Int)
  | fault (errno : Errno)
deriving DecidableEq, Repr

/-- A rule of a script. It tells the arguments that a command has and those that it does not have,
what the first one is, if that matters, and the gate that has to be open before the command ends. -/
structure Rule (α : Type) where
  having : List String := []
  lacking : List String := []
  first : Option String := none
  gate : Option String := none
  answer : α
deriving DecidableEq, Repr

/-- Whether the rule speaks for the command. -/
def Rule.speaksFor {α : Type} (r : Rule α) (args : List String) : Bool :=
  r.having.all args.contains && !r.lacking.any args.contains &&
    r.first.all fun s => args.head? == some s

/-- The rules of a script, the last one first. -/
abbrev Script (α : Type) := List (Rule α)

/-- The rule that answers a command. -/
def Script.rule? {α : Type} (s : Script α) (args : List String) : Option (Rule α) :=
  s.find? (·.speaksFor args)

/-- The result of a command that is answered so. -/
def ScriptedAnswer.outcome (a : ScriptedAnswer) (args : List String) :
    Except Failure ProcessResult :=
  match a with
  | .fault errno => .error (.system { errno })
  | .output stdout stderr exitCode =>
    let chunks := [⟨.stdout, stdout⟩, ⟨.stderr, stderr⟩].filter fun c => !c.text.isEmpty
    (ProcessResult.checked { args, exitCode, chunks }).mapError .process

/-- The failure of a command that no rule speaks for. -/
def unscripted (args : List String) : Failure :=
  .process ⟨.unknownCommand, { args, exitCode := notStartedCode }⟩

end BuildLens
