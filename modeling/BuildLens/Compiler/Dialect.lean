import BuildLens.Compiler.Language
import BuildLens.Shell.Argument

/-!
# Dialects of compiler command lines

A dialect is a family of compilers that agree on how flags are spelt. Two of the four dialects
follow one spelling, the other two another, and within a pair they differ in how the editor is told
of them and in whether the compiler can list its defaults.

Main definitions:

- `Dialect`: the dialects, with their flags.
- `CompilerTraits`: the fixed facts about a compiler that the editor is told.
- `DiscoveryError`: why a compiler's defaults cannot be found.
- `Dialect.probeInvocation`, `Dialect.compileInvocation`: the commands.
-/

namespace BuildLens

/-- The rules by which the editor reads source files. -/
inductive EditorMode where
  | msvc
  | gcc
  | clang
deriving DecidableEq, Repr

/-- The editor's word for the mode. -/
def EditorMode.text : EditorMode → String
  | .msvc => "msvc-x64"
  | .gcc => "gcc-x64"
  | .clang => "clang-x64"

/-- The language standard that sources are read by: C of 1999 or C++ of 2014. -/
inductive Standard where
  | c99
  | cpp14
deriving DecidableEq, Repr

/-- The editor's word for the standard. -/
def Standard.text : Standard → String
  | .c99 => "c99"
  | .cpp14 => "c++14"

/-- The standard for the sources of a language. -/
def Standard.of : Language → Standard
  | .c => .c99
  | .cpp => .cpp14

/-- Why a compiler's defaults cannot be found: the build names no compiler or not its type, the type
is unknown or its compilers do not list their defaults, the command has no words, or the compiler
ran and reported no macros. -/
inductive DiscoveryError where
  | undeterminedType
  | unknownType (name : String)
  | unprobeable (name : String)
  | noCompiler (language : Language)
  | emptyCommand (language : Language)
  | noMacros (command : String)
deriving DecidableEq, Repr

/-- The text shown for the error. -/
def DiscoveryError.message : DiscoveryError → String
  | .undeterminedType => "Unable to determine compiler type."
  | .unknownType name => s!"Unknown compiler type {name}."
  | .unprobeable name => s!"Compilers of type '{name}' cannot be probed for defaults"
  | .noCompiler language => s!"No {language.name} compiler is configured for this build."
  | .emptyCommand language => s!"Empty {language.name} compiler command."
  | .noMacros command => s!"Compiler '{command}' returned no default defines."

/-- The fixed facts about a compiler that the editor is told. The flag that selects the standard is
empty if none is needed. -/
structure CompilerTraits where
  mode : EditorMode
  standard : Standard
  versionFlag : String
  windowsSdk : Option String := none
  macosSdk : Option FilePath := none
deriving DecidableEq, Repr

/-- A family of compilers with one spelling of flags. `clangCl` is the clang driver that takes the
flags of the Microsoft compiler. -/
inductive Dialect where
  | clang
  | gcc
  | clangCl
  | msvc
deriving DecidableEq, Repr

namespace Dialect

/-- The name by which builds refer to the dialect. -/
def name : Dialect → String
  | .clang => "clang"
  | .gcc => "gcc"
  | .clangCl => "clang-cl"
  | .msvc => "msvc"

/-- All dialects. -/
def all : List Dialect := [.clang, .gcc, .clangCl, .msvc]

/-- The dialect of a compiler type as the build reports it. -/
def ofType (type : Option String) : Except DiscoveryError Dialect :=
  match type with
  | none => .error .undeterminedType
  | some type =>
    if type.isEmpty then .error .undeterminedType
    else match all.find? (·.name == type) with
      | some d => .ok d
      | none => .error (.unknownType type)

/-- Whether flags are spelt as for the Microsoft compiler. -/
def isMicrosoft : Dialect → Bool
  | .clangCl | .msvc => true
  | _ => false

/-- The rules by which the editor reads source files. -/
def mode : Dialect → EditorMode
  | .clang | .clangCl => .clang
  | .gcc => .gcc
  | .msvc => .msvc

/-- Whether the character introduces a flag. -/
def introduces (d : Dialect) (c : Char) : Bool := c == '-' || (d.isMicrosoft && c == '/')

/-- The flag in its spelling with a hyphen, if the text is a flag. -/
def normalizeFlag (d : Dialect) : List Char → Option (List Char)
  | intro :: c :: rest => if d.introduces intro then some ('-' :: c :: rest) else none
  | _ => none

/-- The flag that includes a file before all others. -/
def forcedInclude (d : Dialect) : List Char :=
  if d.isMicrosoft then "-FI".toList else "-include".toList

/-- Whether the file of that flag may be attached to it. -/
def attachesForcedInclude (d : Dialect) : Bool := d.isMicrosoft

/-- Whether search paths may hold frameworks. -/
def hasFrameworks (d : Dialect) : Bool := !d.isMicrosoft

/-- Whether the root of an SDK can be given. -/
def hasSysroot (d : Dialect) : Bool := !d.isMicrosoft

/-- The flags that select the language. -/
def languageFlags (d : Dialect) : Language → List String
  | .c => if d.isMicrosoft then ["-TC"] else ["-xc"]
  | .cpp => if d.isMicrosoft then ["-TP"] else ["-xc++"]

/-- The flag that selects the standard; empty if none is needed. -/
def versionFlag (d : Dialect) : Language → String
  | .c => if d.isMicrosoft then "" else "-std=gnu99"
  | .cpp => if d.isMicrosoft then "-std:c++14" else "-std=c++14"

/-- The flags that check a file without writing anything. -/
def checkFlags (d : Dialect) : List String :=
  if d.isMicrosoft then ["-Zs"] else ["-fsyntax-only"]

/-- The flags that make the compiler list its defaults, if it can. -/
def probeFlags? : Dialect → Option (List String)
  | .clang | .gcc => some ["-Wp,-v", "-E", "-dD"]
  | .clangCl => some ["-E", "-Xclang", "-dM", "-v"]
  | .msvc => none

/-- The fixed facts about a compiler of the dialect. -/
def traits (d : Dialect) (language : Language) (windowsSdk : Option String := none)
    (macosSdk : Option FilePath := none) : CompilerTraits where
  mode := d.mode
  standard := .of language
  versionFlag := d.versionFlag language
  windowsSdk := windowsSdk
  macosSdk := if d.hasSysroot then macosSdk else none

/-- What all invocations of a compiler begin with. -/
def baseInvocation (d : Dialect) (platform : Platform) (command : List Argument)
    (language : Language) (traits : CompilerTraits) : List Argument :=
  command ++ (if traits.versionFlag.isEmpty then [] else [.text traits.versionFlag]) ++
    (d.languageFlags language).map .text ++
    match platform, traits.macosSdk with
    | .darwin, some sdk => [.text "-isysroot", .path sdk]
    | _, _ => []

/-- The command that makes the compiler list its defaults. -/
def probeInvocation (d : Dialect) (platform : Platform) (command : List Argument)
    (language : Language) (traits : CompilerTraits) : Except DiscoveryError (List Argument) :=
  match d.probeFlags? with
  | none => .error (.unprobeable d.name)
  | some flags =>
    .ok (d.baseInvocation platform command language traits ++ flags.map .text ++
      [.text platform.nullDevice])

/-- The command that checks one file with its own flags. -/
def compileInvocation (d : Dialect) (platform : Platform) (command : List Argument)
    (source : FilePath) (flags : List Argument) (language : Language) (traits : CompilerTraits) :
    List Argument :=
  d.baseInvocation platform command language traits ++ flags ++ d.checkFlags.map .text ++
    [.path source]

end Dialect

end BuildLens
