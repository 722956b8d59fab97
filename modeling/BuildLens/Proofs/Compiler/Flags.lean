import BuildLens.Proofs.Compiler.CommandText
import BuildLens.Proofs.Compiler.Macros
import BuildLens.Proofs.Path.PathSet
import BuildLens.Proofs.Shell.Scanning

/-!
# The effect of a command line

What is said in a command line is added to a configuration event by event. The last word on a macro
counts, and the paths of a kind follow each other in the order of their events. Flags can be given
in pieces where neither the scanner of words nor the reader of flags has something left over.

Main definitions:

- `Argument.meant?`, `FlagEvent.meant`: the paths that a command line adds.
- `Argument.resolved?`, `FlagEvent.paths`: these paths on POSIX systems.
- `FileConfig.pathsOf`: the paths of a kind in a configuration.

Main results:

- `FileConfig.pathsOf_foldlM_apply`: each event adds the path that it means.
- `FileConfig.toList_pathsOf_addArguments`: the paths of a kind after a command line.
- `FileConfig.addArguments_reading`: the effect of a command line.
- `FileConfig.addArguments_pieces`: flags that are given in pieces.
-/

namespace BuildLens

variable {d : Dialect} {args args' : List Argument} {events : List FlagEvent}

/-! ## The paths of a command line -/

/-- The path that the value of a flag means on POSIX systems: a path or an absolute text means
itself, and another text what it leads to from the directory, if there is one. -/
def Argument.resolved? (cwd : Option Posix.Path) : Argument → Option FilePath
  | .path p => some p
  | .text s =>
    if s = "" then none
    else ((Posix.Path.ofText? s).or (cwd.map (·.follow s.toList))).map .posix

theorem Argument.toPath?_eq_resolved? {platform : Platform} (hp : platform ≠ .windows)
    (cwd : Option Posix.Path) (value : Argument) :
    value.toPath? platform (cwd.map .posix) = .ok (value.resolved? cwd) := by
  cases value with
  | path p => rfl
  | text s =>
    have hread := FilePath.ofText?_posix hp s
    rw [toPath?.eq_def, resolved?]
    by_cases hs : s = ""
    · simp [hs]
    cases hroot : Posix.Path.rootOf? s.toList with
    | some root =>
      -- The text begins with a slash, which is the first of the two ways to be absolute.
      have hslash : s.toList.head? = some '/' :=
        Posix.Path.isSome_rootOf?.mp (Option.isSome_of_mem hroot)
      have hpath : Posix.Path.ofText? s = some (.follow ⟨root, []⟩ s.toList) := by
        simp [Posix.Path.ofText?, Posix.Path.ofChars?, hroot]
      simp [hs, hslash, FilePath.ofUnixText_eq_ofText hp, FilePath.ofText, hread, hpath, Except.map]
    | none =>
      have hslash : s.toList.head? ≠ some '/' := by
        intro hslash
        simpa [hroot] using Posix.Path.isSome_rootOf?.mpr hslash
      have hpath : Posix.Path.ofText? s = none := by
        simp [Posix.Path.ofText?, Posix.Path.ofChars?, hroot]
      have habs : FilePath.isAbsoluteText platform s = false := by
        rw [FilePath.isAbsoluteText_posix hp, hroot, Option.isSome_none]
      cases cwd with
      | none => simp [hs, hslash, habs, hpath]
      | some dir =>
        simp [hs, hslash, habs, hpath, FilePath.join, Posix.Path.join, Posix.Path.joinPart,
          Posix.Path.enter, Posix.Path.ofChars?, hroot, Except.map]

/-- The value of an event, if that is about a path of the kind. -/
def FlagEvent.value? : FlagKind → FlagEvent → Option Argument
  | .forcedInclude, .forcedInclude value => some value
  | .includeDirectory, .includeDirectory value => some value
  | .frameworkDirectory, .frameworkDirectory value => some value
  | _, _ => none

/-- The paths of a kind that the events mean, in order. -/
def FlagEvent.paths (cwd : Option Posix.Path) (kind : FlagKind) (events : List FlagEvent) :
    List FilePath :=
  events.filterMap fun e => (e.value? kind).bind (Argument.resolved? cwd)

/-- The path that the value of a flag means, if it is taken and means one. -/
def Argument.meant? (platform : Platform) (cwd : Option FilePath) (value : Argument) :
    Option FilePath :=
  (value.toPath? platform cwd).toOption.join

/-- The paths of a kind that the events mean on a platform, in order. -/
def FlagEvent.meant (platform : Platform) (cwd : Option FilePath) (kind : FlagKind)
    (events : List FlagEvent) : List FilePath :=
  events.filterMap fun e => (e.value? kind).bind (Argument.meant? platform cwd)

theorem FlagEvent.meant_singleton (platform : Platform) (cwd : Option FilePath) (kind : FlagKind)
    (e : FlagEvent) : meant platform cwd kind [e] =
      ((e.value? kind).bind (Argument.meant? platform cwd)).toList := by
  rw [meant, List.filterMap_cons]
  cases (e.value? kind).bind (Argument.meant? platform cwd) <;> rfl

theorem FlagEvent.meant_append (platform : Platform) (cwd : Option FilePath) (kind : FlagKind)
    (events events' : List FlagEvent) : meant platform cwd kind (events ++ events') =
      meant platform cwd kind events ++ meant platform cwd kind events' :=
  List.filterMap_append

theorem FlagEvent.meant_eq_paths {platform : Platform} (hp : platform ≠ .windows)
    (cwd : Option Posix.Path) (kind : FlagKind) (events : List FlagEvent) :
    meant platform (cwd.map .posix) kind events = paths cwd kind events := by
  have hmeant : Argument.meant? platform (cwd.map .posix) = Argument.resolved? cwd := by
    funext value
    rw [Argument.meant?, Argument.toPath?_eq_resolved? hp]
    rfl
  rw [meant, hmeant, paths]

namespace FileConfig

variable {platform : Platform} {cwd : Option Posix.Path} {config config' : FileConfig}

/-- The paths of a kind in the configuration. -/
def pathsOf (config : FileConfig) : FlagKind → PathSet
  | .forcedInclude => config.forcedIncludes
  | .includeDirectory => config.includes
  | .frameworkDirectory => config.frameworks
  | _ => ∅

theorem addPath_eq_ok {cwd : Option FilePath} {paths paths' : PathSet} {value : Argument}
    (h : addPath platform cwd paths value = .ok paths') :
    paths' = paths.insertMany (value.meant? platform cwd).toList := by
  rw [addPath] at h
  rw [Argument.meant?]
  cases hread : value.toPath? platform cwd with
  | error =>
    rw [hread] at h
    cases h
  | ok p? =>
    rw [hread] at h
    cases h
    cases p? <;> rfl

/-- An event adds the path that it means to those of its kind. -/
theorem pathsOf_apply {cwd : Option FilePath} {e : FlagEvent} (kind : FlagKind)
    (h : config.apply platform cwd e = .ok config') :
    config'.pathsOf kind =
      (config.pathsOf kind).insertMany (FlagEvent.meant platform cwd kind [e]) := by
  have hmap {x : Except PathError PathSet} {f : PathSet → FileConfig} (h : x.map f = .ok config') :
      ∃ paths, x = .ok paths ∧ f paths = config' := by
    cases x with
    | error => cases h
    | ok paths => exact ⟨paths, rfl, Except.ok.inj h⟩
  rw [FlagEvent.meant_singleton]
  cases e with
  | define m | undefine name =>
    cases h
    cases kind <;> rfl
  | forcedInclude value | includeDirectory value | frameworkDirectory value =>
    obtain ⟨paths, hpaths, rfl⟩ := hmap h
    cases kind <;> simp [pathsOf, FlagEvent.value?, addPath_eq_ok hpaths]

theorem pathsOf_foldlM_apply {cwd : Option FilePath} (kind : FlagKind)
    (h : events.foldlM (apply platform cwd) config = .ok config') :
    config'.pathsOf kind =
      (config.pathsOf kind).insertMany (FlagEvent.meant platform cwd kind events) := by
  induction events generalizing config with
  | nil =>
    cases h
    rfl
  | cons e events ih =>
    rw [List.foldlM_cons] at h
    cases hstep : config.apply platform cwd e with
    | error err =>
      rw [hstep] at h
      cases h
    | ok next =>
      rw [hstep] at h
      rw [ih h, pathsOf_apply kind hstep, ← PathSet.insertMany_append, ← FlagEvent.meant_append,
        List.singleton_append]

theorem toList_pathsOf_addArguments (hp : platform ≠ .windows) (kind : FlagKind)
    (h : config.addArguments platform d (cwd.map .posix) args = .ok config') :
    (config'.pathsOf kind).toList =
      ((config.pathsOf kind).toList ++
        FlagEvent.paths cwd kind (FlagEvent.ofArguments d args)).eraseDupsBy FilePath.same := by
  rw [pathsOf_foldlM_apply kind h, FlagEvent.meant_eq_paths hp, PathSet.toList_insertMany]

/-! ## The effect of a command line -/

/-- On POSIX systems every command line can be added to every configuration, and it says one thing.
A macro is what the last event that names it says, and what it was if there is none. The paths of a
kind are those that were there and then those of the events, without second spellings. For the
dialects with two characters before their flags, it does not matter which one is used. -/
theorem addArguments_reading (hp : platform ≠ .windows) (d : Dialect) (cwd : Option Posix.Path)
    (config : FileConfig) (args : List Argument) :
    ∃ events config',
      (∀ said, (∃ waiting, CommandText d args said waiting) ↔ said = events) ∧
      config.addArguments platform d (cwd.map .posix) args = .ok config' ∧
      (∀ name value, config'.macros.find? name = some value ↔
        FlagEvent.lastVerdict? name events = some (some value) ∨
        FlagEvent.lastVerdict? name events = none ∧ config.macros.find? name = some value) ∧
      config'.includes.toList = (config.includes.toList ++
        FlagEvent.paths cwd .includeDirectory events).eraseDupsBy FilePath.same ∧
      config'.frameworks.toList = (config.frameworks.toList ++
        FlagEvent.paths cwd .frameworkDirectory events).eraseDupsBy FilePath.same ∧
      config'.forcedIncludes.toList = (config.forcedIncludes.toList ++
        FlagEvent.paths cwd .forcedInclude events).eraseDupsBy FilePath.same ∧
      (d.isMicrosoft = true → ∀ args', Respelt d args args' →
        config.addArguments platform d (cwd.map .posix) args' = .ok config') := by
  have hcwd (p : Windows.Path) : cwd.map FilePath.posix ≠ some (.windows p) := by simp
  obtain ⟨config', hadd⟩ := exists_addArguments_eq_ok hp hcwd d config args
  refine ⟨FlagEvent.ofArguments d args, config', fun said => commandText_iff, hadd, ?_,
    toList_pathsOf_addArguments hp .includeDirectory hadd,
    toList_pathsOf_addArguments hp .frameworkDirectory hadd,
    toList_pathsOf_addArguments hp .forcedInclude hadd, ?_⟩
  · intro name value
    rw [find?_addArguments name hadd, MacroTable.inForce?]
    rcases FlagEvent.lastVerdict? name (FlagEvent.ofArguments d args) with _ | verdict <;> simp
  · intro hd args' hspelt
    rw [addArguments, hspelt.ofArguments_eq hd, ← addArguments, hadd]

/-- Flags for the Microsoft compiler. The value of the first looks like a flag, and the last one has
no value. -/
def mixedFlags : List Argument :=
  [.text "-I", .text "/Dsub", .text "/UB", .text "-DA=1", .text "-D"]

/-- The same flags with other characters before them. -/
def mixedFlags' : List Argument :=
  [.text "/I", .text "/Dsub", .text "-UB", .text "-DA=1", .text "/D"]

/-- Both spellings add a directory and a macro, and remove another macro. -/
theorem addArguments_reading_mixed :
    ∃ config', addArguments .linux .msvc none { macros := Table.ofList [("B", "2")] } mixedFlags =
        .ok config' ∧
      addArguments .linux .msvc none { macros := Table.ofList [("B", "2")] } mixedFlags' =
        .ok config' ∧
      config'.macros.find? "A" = some "1" ∧ config'.macros.find? "B" ≠ some "2" ∧
      config'.includes.texts = ["/Dsub"] := by
  have hflag {arg : Argument} (kind : FlagKind)
      (h : FlagEvent.flag? .msvc arg = some (kind, [])) : FlagText .msvc arg kind [] :=
    FlagEvent.flag?_eq_some_iff.mp h
  have hsingle {arg : Argument} (attached : List Char)
      (h : (FlagEvent.flag? .msvc arg).map Prod.snd = some attached) (hne : attached ≠ [])
      (kind : FlagKind) : ¬ FlagText .msvc arg kind [] := by
    rw [← FlagEvent.flag?_eq_some_iff]
    intro hkind
    rw [hkind] at h
    exact hne (Option.some.inj h).symm
  have hspelt : Respelt .msvc mixedFlags mixedFlags' := by
    refine .separate (hflag .includeDirectory (by decide)) (.inr (by decide)) ?_
    refine .single (hsingle ['B'] (by decide) (by decide)) (.inr (by decide)) ?_
    refine .single (hsingle "A=1".toList (by decide) (by decide)) (.inl rfl) ?_
    exact .waiting (hflag .define (by decide)) (.inr (by decide))
  obtain ⟨events, config', hread, hadd, hmacros, hincludes, -, -, hrespelt⟩ :=
    @addArguments_reading .linux (by decide) .msvc none
      { macros := Table.ofList [("B", "2")] } mixedFlags
  obtain rfl : [.includeDirectory (.text "/Dsub"), .undefine "B", .define ⟨"A", "1"⟩] = events := by
    rw [← (hread _).mp (exists_commandText .msvc mixedFlags)]
    decide
  refine ⟨config', hadd, hrespelt (by decide) _ hspelt, (hmacros _ _).mpr (by decide), ?_, ?_⟩
  · rw [Ne, hmacros]
    decide
  · rw [PathSet.texts, hincludes]
    decide

/-! ## Command lines in pieces -/

theorem addArguments_append (h : CommandText d args events none) (platform : Platform)
    (cwd : Option FilePath) (config : FileConfig) (args' : List Argument) :
    config.addArguments platform d cwd (args ++ args') =
      config.addArguments platform d cwd args >>= (addArguments platform d cwd · args') := by
  obtain ⟨waiting, h'⟩ := exists_commandText d args'
  rw [addArguments, (h.append h').ofArguments_eq, List.foldlM_append, addArguments, h.ofArguments_eq]
  rfl

/-- A text of flags can be cut at blanks where the scanner is outside spans and holds no backslash,
and only there. If what is before the cut does not end with a flag that lacks its value, the pieces
can be added one after the other, whatever the words are read as. -/
theorem addArguments_pieces (before blanks : String) (hne : blanks ≠ "")
    (hblanks : ∀ c ∈ blanks.toList, Text.isBlank c = true) :
    ((∀ behind, Shell.words (before ++ blanks ++ behind) =
        Shell.words before ++ Shell.words behind) ↔ (Shell.Scan.ofText before.toList).IsClear) ∧
    ((Shell.Scan.ofText before.toList).IsClear →
      ∀ (d : Dialect) (read : String → Argument),
      (∀ events kind, ¬ CommandText d ((Shell.words before).map read) events (some kind)) →
      ∀ behind platform cwd (config : FileConfig),
        config.addArguments platform d cwd
            ((Shell.words (before ++ blanks ++ behind)).map read) =
          config.addArguments platform d cwd ((Shell.words before).map read) >>=
            (addArguments platform d cwd · ((Shell.words behind).map read))) := by
  have hcut := Shell.words_append_iff before blanks hne hblanks
  refine ⟨hcut, fun hclear d read hnone behind platform cwd config => ?_⟩
  obtain ⟨waiting, hread⟩ := exists_commandText d ((Shell.words before).map read)
  cases waiting with
  | some kind => exact absurd hread (hnone _ kind)
  | none => rw [hcut.mpr hclear behind, List.map_append, addArguments_append hread]

/-- Flags can be cut behind a span, and not in it. -/
theorem addArguments_pieces_span :
    (∀ config : FileConfig, config.addArguments .linux .gcc none
        (Shell.flags ("-DA='1 2'" ++ " " ++ "-I /b")) =
      config.addArguments .linux .gcc none (Shell.flags "-DA='1 2'") >>=
        (addArguments .linux .gcc none · (Shell.flags "-I /b"))) ∧
    ¬ ∀ behind, Shell.words ("-DA='1" ++ " " ++ behind) =
      Shell.words "-DA='1" ++ Shell.words behind := by
  have hblank : ∀ c ∈ " ".toList, Text.isBlank c = true := by
    intro c hc
    obtain rfl : c = ' ' := by simpa using hc
    decide
  have hwords : (Shell.words "-DA='1 2'").map Argument.text = [.text "-DA=1 2"] := by
    decide +kernel
  have hflag : FlagText .gcc (.text "-DA=1 2") .define "A=1 2".toList :=
    FlagEvent.flag?_eq_some_iff.mp (by decide)
  have hnone (events : List FlagEvent) (kind : FlagKind) :
      ¬ CommandText .gcc [.text "-DA=1 2"] events (some kind) := by
    intro h
    have hread := CommandText.attached hflag (by decide) (FlagKind.says_iff.mpr rfl) .nil
    exact absurd (hread.unique h).2 (by simp)
  constructor
  · exact (addArguments_pieces "-DA='1 2'" " " (by decide) hblank).2 (by decide +kernel) .gcc
      Argument.text (hwords ▸ hnone) "-I /b" .linux none
  · intro h
    have hclear := (addArguments_pieces "-DA='1" " " (by decide) hblank).1.mp h
    exact absurd hclear (by decide +kernel)

end FileConfig

end BuildLens
