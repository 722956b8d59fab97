import BuildLens.Compiler.Basic
import BuildLens.Proofs.Path.Reading
import BuildLens.Proofs.Table

/-!
# The macros of a configuration

A command line is a history of macros: each event that names one either gives it a value or removes
it, and the last such event decides. A compilation begins the history with the compiler's own
macros. A configuration does so too for the macros that the flags define; a removal it only applies
to what the flags themselves have defined before.

Main definitions:

- `FlagEvent.verdict?`, `FlagEvent.lastVerdict?`: what is said of a macro, and what is said last.
- `MacroTable.inForce?`: the value of a macro in a compilation with the flags.

Main results:

- `FileConfig.find?_addArguments`: a command line leaves each macro as its last verdict says.
- `Compiler.find?_configure`: the macros of a configuration, and how they differ from those of a
  compilation.
-/

namespace BuildLens

/-! ## What the flags say of a macro -/

namespace FlagEvent

/-- What an event says of a macro: nothing, that it goes, or the value that it has. -/
def verdict? (name : String) : FlagEvent → Option (Option String)
  | .define m => if m.name = name then some (some m.value) else none
  | .undefine n => if n = name then some none else none
  | _ => none

/-- What the last event that names a macro says of it. -/
def lastVerdict? (name : String) (events : List FlagEvent) : Option (Option String) :=
  events.reverse.findSome? (verdict? name)

@[simp]
theorem lastVerdict?_nil (name : String) : lastVerdict? name [] = none :=
  rfl

theorem lastVerdict?_cons (name : String) (e : FlagEvent) (events : List FlagEvent) :
    lastVerdict? name (e :: events) = (lastVerdict? name events).or (verdict? name e) := by
  simp [lastVerdict?, List.findSome?_append]

end FlagEvent

/-- The value of a macro in a compilation that begins with the given macros and goes through the
events. -/
def MacroTable.inForce? (t : MacroTable) (name : String) (events : List FlagEvent) :
    Option String :=
  (FlagEvent.lastVerdict? name events).getD (t.find? name)

/-! ## The table of a command line -/

namespace FileConfig

variable {platform : Platform} {cwd : Option FilePath} {config config' : FileConfig}

theorem find?_apply {e : FlagEvent} (name : String)
    (h : config.apply platform cwd e = .ok config') :
    config'.macros.find? name = (e.verdict? name).getD (config.macros.find? name) := by
  have hpath {x : Except PathError PathSet} {f : PathSet → FileConfig}
      (h : x.map f = .ok config') (hf : ∀ s, (f s).macros = config.macros) :
      config'.macros.find? name = config.macros.find? name := by
    cases x with
    | error err => cases h
    | ok s =>
      cases h
      rw [hf s]
  cases e with
  | define m =>
    cases h
    simp only [MacroTable.define, Table.find?_insert, FlagEvent.verdict?, eq_comm (a := name)]
    split <;> rfl
  | undefine n =>
    cases h
    simp only [Table.find?_erase, FlagEvent.verdict?, eq_comm (a := name)]
    split <;> rfl
  | forcedInclude p =>
    rw [apply] at h
    exact hpath h fun _ => rfl
  | includeDirectory p =>
    rw [apply] at h
    exact hpath h fun _ => rfl
  | frameworkDirectory p =>
    rw [apply] at h
    exact hpath h fun _ => rfl

theorem find?_foldlM_apply {events : List FlagEvent} (name : String)
    (h : events.foldlM (apply platform cwd) config = .ok config') :
    config'.macros.find? name = config.macros.inForce? name events := by
  induction events generalizing config with
  | nil =>
    cases h
    rfl
  | cons e events ih =>
    rw [List.foldlM_cons] at h
    cases hstep : config.apply platform cwd e with
    | error err =>
      rw [hstep] at h
      cases h
    | ok next =>
      rw [hstep] at h
      rw [ih h, MacroTable.inForce?, find?_apply name hstep, MacroTable.inForce?,
        FlagEvent.lastVerdict?_cons]
      cases FlagEvent.lastVerdict? name events <;> rfl

theorem find?_addArguments {d : Dialect} {args : List Argument} (name : String)
    (h : config.addArguments platform d cwd args = .ok config') :
    config'.macros.find? name = config.macros.inForce? name (FlagEvent.ofArguments d args) :=
  find?_foldlM_apply name h

/-! ## Command lines that can be read -/

theorem exists_apply_eq_ok (hp : platform ≠ .windows) (hcwd : ∀ p, cwd ≠ some (.windows p))
    (config : FileConfig) (e : FlagEvent) : ∃ next, config.apply platform cwd e = .ok next := by
  have hpath (s : PathSet) (value : Argument) : ∃ s', addPath platform cwd s value = .ok s' := by
    obtain ⟨p?, hp?⟩ := Argument.exists_toPath?_eq_ok hp hcwd value
    exact ⟨_, congrArg (Except.map _) hp?⟩
  cases e with
  | define m => exact ⟨_, rfl⟩
  | undefine n => exact ⟨_, rfl⟩
  | forcedInclude p =>
    obtain ⟨s, hs⟩ := hpath config.forcedIncludes p
    exact ⟨_, congrArg (Except.map _) hs⟩
  | includeDirectory p =>
    obtain ⟨s, hs⟩ := hpath config.includes p
    exact ⟨_, congrArg (Except.map _) hs⟩
  | frameworkDirectory p =>
    obtain ⟨s, hs⟩ := hpath config.frameworks p
    exact ⟨_, congrArg (Except.map _) hs⟩

theorem exists_addArguments_eq_ok (hp : platform ≠ .windows)
    (hcwd : ∀ p, cwd ≠ some (.windows p)) (d : Dialect) (config : FileConfig)
    (args : List Argument) : ∃ next, config.addArguments platform d cwd args = .ok next := by
  rw [addArguments]
  induction FlagEvent.ofArguments d args generalizing config with
  | nil => exact ⟨config, rfl⟩
  | cons e events ih =>
    obtain ⟨next, hnext⟩ := exists_apply_eq_ok hp hcwd config e
    obtain ⟨last, hlast⟩ := ih next
    refine ⟨last, ?_⟩
    rw [List.foldlM_cons, hnext]
    exact hlast

end FileConfig

/-! ## The macros of a configuration -/

namespace Compiler

/-- The macros of a configuration are a table in which the value of each name is the one of the last
event that names it, if that is a definition, and else that of the compiler. It is the table of a
compilation except at the compiler's own macros that the flags remove last. Where all paths are
those of POSIX systems, there is a configuration for all flags. -/
theorem find?_configure (c : Compiler) (platform : Platform) (flags : List Argument)
    (cwd : Option FilePath) :
    (platform ≠ .windows → (∀ p, cwd ≠ some (.windows p)) →
      ∃ r, c.configure platform flags cwd = .ok r) ∧
    ∀ r, c.configure platform flags cwd = .ok r →
      ∃ t : MacroTable, r.defines = t.macros.map Macro.text ∧
        ∀ name, let last := FlagEvent.lastVerdict? name (FlagEvent.ofArguments c.dialect flags)
          t.find? name = last.join.or (c.defaults.macros.find? name) ∧
          (t.find? name = c.defaults.macros.inForce? name (FlagEvent.ofArguments c.dialect flags) ↔
            ¬ (last = some none ∧ (c.defaults.macros.find? name).isSome)) := by
  constructor
  · intro hp hcwd
    obtain ⟨file, hfile⟩ := FileConfig.exists_addArguments_eq_ok hp hcwd c.dialect {} flags
    exact ⟨_, congrArg (Except.map _) hfile⟩
  · intro r hr
    rw [configure] at hr
    cases hfile : c.fileConfig platform flags cwd with
    | error err =>
      rw [hfile] at hr
      cases hr
    | ok file =>
      rw [hfile] at hr
      cases hr
      refine ⟨_, rfl, fun name => ?_⟩
      have hflags : file.macros.find? name =
          (FlagEvent.lastVerdict? name (FlagEvent.ofArguments c.dialect flags)).getD none :=
        FileConfig.find?_addArguments name hfile
      rw [Table.find?_insertMany file.macros.distinct, ← Table.find?, hflags, MacroTable.inForce?]
      rcases FlagEvent.lastVerdict? name (FlagEvent.ofArguments c.dialect flags) with _ | _ | v
      · simp
      · cases c.defaults.macros.find? name <;> simp
      · simp

/-- A compiler that defines two macros on its own. -/
def definingTwo : Compiler where
  command := [.text "cc"]
  language := .c
  dialect := .clang
  traits := Dialect.clang.traits .c none none
  defaults := { macros := Table.ofList [("A", "1"), ("B", "2")] }

/-- The flags remove one of the compiler's macros, redefine the other and define a third one after
its removal. -/
theorem find?_configure_removed :
    ∃ r, ∃ t : MacroTable,
      definingTwo.configure .linux [.text "-UA", .text "-D", .text "B=3", .text "-UC", .text "-DC"]
        none = .ok r ∧
      r.defines = t.macros.map Macro.text ∧
      t.find? "A" = some "1" ∧ t.find? "B" = some "3" ∧ t.find? "C" = some "1" := by
  have hevents : FlagEvent.ofArguments definingTwo.dialect
      [.text "-UA", .text "-D", .text "B=3", .text "-UC", .text "-DC"] =
      [.undefine "A", .define ⟨"B", "3"⟩, .undefine "C", .define ⟨"C", "1"⟩] := by
    decide
  have hread := find?_configure definingTwo .linux
    [.text "-UA", .text "-D", .text "B=3", .text "-UC", .text "-DC"] none
  rw [hevents] at hread
  obtain ⟨r, hr⟩ := hread.1 (by decide) (by simp)
  obtain ⟨t, ht, hfind⟩ := hread.2 r hr
  exact ⟨r, t, hr, ht, (hfind "A").1.trans (by decide), (hfind "B").1.trans (by decide),
    (hfind "C").1.trans (by decide)⟩

/-- A flag that removes a macro of the compiler's own leaves it in the configuration, which is
therefore not that of a compilation. -/
theorem configure_keeps_removed :
    ∃ r, definingTwo.configure .linux [.text "-UA"] none = .ok r ∧
      ¬ ∃ t : MacroTable, r.defines = t.macros.map Macro.text ∧
        ∀ name, t.find? name = definingTwo.defaults.macros.inForce? name
          (FlagEvent.ofArguments definingTwo.dialect [.text "-UA"]) := by
  have hevents : FlagEvent.ofArguments definingTwo.dialect [.text "-UA"] = [.undefine "A"] := by
    decide
  have hr : definingTwo.configure .linux [.text "-UA"] none = .ok
      { includePath := [], defines := ["A=1", "B=2"], forcedInclude := [], mode := .clang
        standard := .c99, windowsSdk := none } := by
    rw [configure, fileConfig, FileConfig.addArguments, hevents]
    rfl
  refine ⟨_, hr, ?_⟩
  rintro ⟨t, ht, hfind⟩
  rw [hevents] at hfind
  have hmem : "A=1" ∈ t.macros.map Macro.text := by
    rw [← ht]
    exact List.mem_cons_self
  obtain ⟨m, hm, hm1⟩ := List.mem_map.mp hmem
  obtain ⟨⟨name, value⟩, he, rfl⟩ := List.mem_map.mp hm
  -- The removal leaves a compilation with the value of `B` alone, whose text is another.
  have hname : definingTwo.defaults.macros.inForce? name [.undefine "A"] = some value := by
    rw [← hfind name]
    exact Table.find?_eq_some_iff.mpr he
  rw [MacroTable.inForce?, FlagEvent.lastVerdict?_cons, FlagEvent.verdict?] at hname
  split at hname
  · cases hname
  · next hne =>
    have hentry : (name, value) ∈ [("A", "1"), ("B", "2")] := Table.find?_eq_some_iff.mp hname
    simp only [List.mem_cons, Prod.mk.injEq, List.not_mem_nil, or_false] at hentry
    rcases hentry with ⟨rfl, rfl⟩ | ⟨rfl, rfl⟩
    · exact hne rfl
    · revert hm1
      decide

end Compiler

end BuildLens
