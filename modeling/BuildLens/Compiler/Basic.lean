import BuildLens.Compiler.SourceConfiguration
import BuildLens.Compiler.WindowsSdk
import BuildLens.Inquiry.Basic
import BuildLens.Json.Basic

/-!
# Compilers

A compiler is asked for its defaults once, when a tree is looked at; afterwards it configures files
and checks them.

Main definitions:

- `Compiler`: a command with what is known of it.
- `Compiler.discover`: the inquiry into a compiler.
- `Compiler.configure`: the configuration of a file with given flags.
- `Compiler.check`: the inquiry that compiles a file.
-/

namespace BuildLens

/-- A compiler used for one language: its command, the facts that the editor is told, and what it
searches and defines on its own. -/
structure Compiler where
  command : List Argument
  language : Language
  dialect : Dialect
  traits : CompilerTraits
  defaults : CompilerDefaults
deriving DecidableEq, Repr

namespace CompilerDefaults

/-- The defaults that a compiler has listed. The streams are read one after the other. -/
def ofResult (platform : Platform) (r : ProcessResult) : Except DiscoveryError CompilerDefaults :=
  let found := read platform (read platform {} (r.textOn .stdout)) (r.textOn .stderr)
  if found.macros.isEmpty then .error (.noMacros r.printable) else .ok found

end CompilerDefaults

/-- The facts with the version of the Windows SDK that the search paths tell, if none is known. -/
def CompilerTraits.withSdkOf (t : CompilerTraits) (paths : List FilePath) : CompilerTraits :=
  { t with windowsSdk := t.windowsSdk.or (WindowsSdk.version? paths) }

namespace Compiler

/-- Asks the compiler of a command for its defaults. `type` is the compiler's type as the build
reports it. -/
def discover (platform : Platform) (command : List Argument) (language : Language)
    (type : Option String) (windowsSdk : Option String := none)
    (macosSdk : Option FilePath := none) : Inquiry Compiler := do
  let dialect ← .ofExcept .discovery (Dialect.ofType type)
  let traits := dialect.traits language windowsSdk macosSdk
  let probe ← .ofExcept .discovery (dialect.probeInvocation platform command language traits)
  let defaults ← .ofExcept .discovery (CompilerDefaults.ofResult platform (← .run probe))
  return {
    command, language, dialect, defaults
    traits := traits.withSdkOf defaults.includes.toList }

/-- What the flags of a file say. -/
def fileConfig (c : Compiler) (platform : Platform) (flags : List Argument)
    (cwd : Option FilePath) : Except PathError FileConfig :=
  FileConfig.addArguments platform c.dialect cwd {} flags

/-- The configuration of a file with the given flags. -/
def configure (c : Compiler) (platform : Platform) (flags : List Argument)
    (cwd : Option FilePath) : Except PathError SourceConfiguration :=
  (c.fileConfig platform flags cwd).map fun file => .merge c.defaults file c.traits

/-- The command that checks a file. -/
def checkCommand (c : Compiler) (platform : Platform) (source : FilePath) (flags : List Argument) :
    List Argument :=
  c.dialect.compileInvocation platform c.command source flags c.language c.traits

/-- The state of the compiler for inspection. -/
def toJson (c : Compiler) : Json := .object [
  ("type", .string c.dialect.name),
  ("command", .ofTexts (c.command.map Argument.render)),
  ("file_type", .string c.language.name),
  ("standard", .string c.traits.standard.text),
  ("includes", .ofNat c.defaults.includes.size),
  ("frameworks", .ofNat c.defaults.frameworks.size),
  ("defines", .ofNat c.defaults.macros.size)]

end Compiler

end BuildLens
