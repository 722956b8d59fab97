import BuildLens.Compiler.Dialect
import BuildLens.Compiler.Macro
import BuildLens.Path.PathSet

/-!
# What the flags of one file say

A compiler command line is read from left to right as a list of events. A flag that wants a value
has it attached or takes the next argument as it is; flags that say nothing about search paths and
macros are passed over. The events are then applied one after the other.

Main definitions:

- `FlagKind`, `FlagKind.ofFlag?`: what a flag is about, and the text attached to it.
- `FlagEvent`, `FlagEvent.ofArguments`: the events of a command line.
- `FileConfig`, `FileConfig.apply`, `FileConfig.addArguments`: their effect.
-/

namespace BuildLens

/-- What a flag with a value is about. The root of the SDK is known from elsewhere. -/
inductive FlagKind where
  | sysroot
  | forcedInclude
  | includeDirectory
  | frameworkDirectory
  | define
  | undefine
deriving DecidableEq, Repr

/-- Something that a command line says: a file is included before all others, a directory is
searched, or a macro is defined or removed. -/
inductive FlagEvent where
  | forcedInclude (path : Argument)
  | includeDirectory (path : Argument)
  | frameworkDirectory (path : Argument)
  | define (m : Macro)
  | undefine (name : String)
deriving DecidableEq, Repr

/-- What a flag in its spelling with a hyphen is about, and the value attached to it; an empty text
means that the next argument is the value. -/
def FlagKind.ofFlag? (d : Dialect) (flag : List Char) : Option (FlagKind × List Char) :=
  if flag = "-isysroot".toList ∨ flag = "--sysroot".toList then some (.sysroot, [])
  else if "-isysroot".toList <+: flag ∨ "--sysroot=".toList <+: flag then none
  else if flag = d.forcedInclude ∨ (d.attachesForcedInclude ∧ d.forcedInclude <+: flag) then
    some (.forcedInclude, flag.drop d.forcedInclude.length)
  else if flag ∈ ["-isystem".toList, "-iquote".toList, "-idirafter".toList] then
    some (.includeDirectory, [])
  else if d.hasFrameworks ∧ flag = "-iframework".toList then some (.frameworkDirectory, [])
  else if d.hasFrameworks ∧ "-F".toList <+: flag then some (.frameworkDirectory, flag.drop 2)
  else match flag with
    | '-' :: 'D' :: rest => some (.define, rest)
    | '-' :: 'U' :: rest => some (.undefine, rest)
    | '-' :: 'I' :: rest => some (.includeDirectory, rest)
    | _ => none

namespace FlagEvent

/-- The event of a flag and its value. A macro is not named by a path, nor defined by nothing. -/
def ofValue? : FlagKind → Argument → Option FlagEvent
  | .sysroot, _ => none
  | .forcedInclude, value => some (.forcedInclude value)
  | .includeDirectory, value => some (.includeDirectory value)
  | .frameworkDirectory, value => some (.frameworkDirectory value)
  | .define, .text s => if s.isEmpty then none else some (.define (Macro.parse '=' s.toList))
  | .undefine, .text s => some (.undefine s)
  | _, .path _ => none

/-- What an argument is about if it is read as a flag. -/
def flag? (d : Dialect) : Argument → Option (FlagKind × List Char)
  | .text s => (d.normalizeFlag s.toList).bind (FlagKind.ofFlag? d)
  | .path _ => none

/-- The events of a command line. -/
def ofArguments (d : Dialect) : List Argument → List FlagEvent
  | [] => []
  | [arg] =>
    match flag? d arg with
    | some (kind, c :: cs) => (ofValue? kind (.text (String.ofList (c :: cs)))).toList
    | _ => []
  | arg :: next :: rest =>
    match flag? d arg with
    | none => ofArguments d (next :: rest)
    | some (kind, []) => (ofValue? kind next).toList ++ ofArguments d rest
    | some (kind, attached) =>
      (ofValue? kind (.text (String.ofList attached))).toList ++ ofArguments d (next :: rest)

end FlagEvent

/-- The path that the value of a flag means. A relative one is read in `cwd`, and means nothing
without it. -/
def Argument.toPath? (platform : Platform) (cwd : Option FilePath) :
    Argument → Except PathError (Option FilePath)
  | .path p => .ok (some p)
  | .text s =>
    if s.isEmpty then .ok none
    else if s.toList.head? = some '/' then (FilePath.ofUnixText platform s).map some
    else if FilePath.isAbsoluteText platform s then (FilePath.ofText platform s).map some
    else match cwd with
      | some dir => (dir.join [s]).map some
      | none => .ok none

/-- What the flags of one file say. The forced includes are the files included before all others. -/
structure FileConfig where
  includes : PathSet := ∅
  macros : MacroTable := ∅
  forcedIncludes : PathSet := ∅
  frameworks : PathSet := ∅
deriving DecidableEq, Repr, Inhabited

namespace FileConfig

/-- Adds the path of a flag's value to a set, if it means one. -/
def addPath (platform : Platform) (cwd : Option FilePath) (s : PathSet) (value : Argument) :
    Except PathError PathSet :=
  (value.toPath? platform cwd).map fun
    | some p => s.insert p
    | none => s

/-- The effect of one event. -/
def apply (platform : Platform) (cwd : Option FilePath) (config : FileConfig) :
    FlagEvent → Except PathError FileConfig
  | .forcedInclude value =>
    (addPath platform cwd config.forcedIncludes value).map ({ config with forcedIncludes := · })
  | .includeDirectory value =>
    (addPath platform cwd config.includes value).map ({ config with includes := · })
  | .frameworkDirectory value =>
    (addPath platform cwd config.frameworks value).map ({ config with frameworks := · })
  | .define m => .ok { config with macros := config.macros.define m }
  | .undefine name => .ok { config with macros := config.macros.erase name }

/-- The effect of a command line. -/
def addArguments (platform : Platform) (d : Dialect) (cwd : Option FilePath) (config : FileConfig)
    (args : List Argument) : Except PathError FileConfig :=
  (FlagEvent.ofArguments d args).foldlM (apply platform cwd) config

end FileConfig

end BuildLens
