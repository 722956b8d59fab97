import BuildLens.Proofs.Compiler.CommandText
import BuildLens.Proofs.Compiler.Macros

/-!
# Macros written as flags

The macros of a command line are handed on as texts with a name, an equals sign and a value. A name
that a command line gives to a macro ends before the first equals sign, so that sign tells the name
from the value in the text as well, whatever the value holds.

Main definitions:

- `Macro.flag`: the flag that defines a macro.
- `Macro.Readable`: the macros whose texts can be read back.

Main results:

- `FileConfig.readable_of_addArguments`: command lines define readable macros only.
- `FileConfig.addArguments_flags`: the flags of a table of macros bring the table back.
-/

namespace BuildLens

variable {d : Dialect} {args : List Argument} {events : List FlagEvent}

/-! ## Reading a macro back -/

namespace Macro

/-- The flag that defines the macro. -/
def flag (m : Macro) : Argument := .text ("-D" ++ m.text)

/-- The name of the macro ends before the equals sign of its text. -/
def Readable (m : Macro) : Prop := '=' ∉ m.name.toList

variable {m : Macro}

theorem toList_text (m : Macro) : m.text.toList = m.name.toList ++ '=' :: m.value.toList := by
  simp [text]

theorem Readable.takeWhile_text (h : m.Readable) :
    m.text.toList.takeWhile (· != '=') = m.name.toList := by
  rw [toList_text, List.takeWhile_append_of_pos (Text.bne_of_not_mem h)]
  simp

theorem flagText_flag (d : Dialect) (m : Macro) : FlagText d m.flag .define m.text.toList := by
  have hflag : m.flag = .text (String.ofList ('-' :: 'D' :: m.text.toList)) := by
    rw [flag, ← String.ofList_toList (s := "-D" ++ m.text)]
    simp
  rw [hflag]
  exact .intro (by simp [Dialect.introduces]) .define rfl fun _ => rfl

theorem Readable.defines (h : m.Readable) :
    FlagKind.define.Says (.text m.text) (some (.define m)) := by
  have hsays := @FlagKind.Says.define m.name.toList m.value.toList h
  rwa [← toList_text, String.ofList_toList, String.ofList_toList, String.ofList_toList] at hsays

end Macro

/-- Flags that define readable macros say so, one after the other. -/
theorem commandText_flags (d : Dialect) {macros : List Macro} (h : ∀ m ∈ macros, m.Readable) :
    CommandText d (macros.map Macro.flag) (macros.map FlagEvent.define) none := by
  induction macros with
  | nil => exact .nil
  | cons m macros ih =>
    rw [List.forall_mem_cons] at h
    have hne : m.text.toList ≠ [] := by simp [Macro.toList_text]
    have hsays : FlagKind.define.Says (.text (String.ofList m.text.toList)) (some (.define m)) := by
      rw [String.ofList_toList]
      exact h.1.defines
    exact .attached (m.flagText_flag d) hne hsays (ih h.2)

/-! ## What command lines define -/

/-- A value that defines a macro gives it a name without an equals sign. -/
theorem FlagKind.Says.readable {kind : FlagKind} {value : Argument} {m : Macro}
    (h : kind.Says value (some (.define m))) : m.Readable := by
  cases h with
  | define hname | defineOne hname _ => rwa [Macro.Readable, String.toList_ofList]

theorem CommandText.readable {waiting : Option FlagKind} {m : Macro}
    (h : CommandText d args events waiting) (hm : .define m ∈ events) : m.Readable := by
  induction h with
  | nil | waiting => cases hm
  | other _ _ ih => exact ih hm
  | attached _ _ hvalue _ ih | separate _ hvalue _ ih =>
    rcases List.mem_append.mp hm with hsaid | hmore
    · rw [Option.mem_toList] at hsaid
      subst hsaid
      exact hvalue.readable
    · exact ih hmore

/-- The last word on a macro that has a value was its definition. -/
theorem FlagEvent.define_mem_of_lastVerdict? {name value : String}
    (h : lastVerdict? name events = some (some value)) : .define ⟨name, value⟩ ∈ events := by
  obtain ⟨e, he, hverdict⟩ := List.exists_of_findSome?_eq_some h
  rw [List.mem_reverse] at he
  cases e with
  | define m =>
    rw [verdict?] at hverdict
    split at hverdict
    · next hname =>
      cases hverdict
      subst hname
      exact he
    · cases hverdict
  | undefine n =>
    rw [verdict?] at hverdict
    split at hverdict <;> cases hverdict
  | forcedInclude | includeDirectory | frameworkDirectory => cases hverdict

namespace MacroTable

variable {t : MacroTable} {m : Macro}

theorem mem_macros_iff : m ∈ t.macros ↔ t.find? m.name = some m.value := by
  rw [macros, List.mem_map, Table.find?_eq_some_iff]
  constructor
  · rintro ⟨e, he, rfl⟩
    exact he
  · intro he
    exact ⟨_, he, rfl⟩

theorem map_name_macros (t : MacroTable) : t.macros.map Macro.name = t.names := by
  rw [macros, List.map_map]
  rfl

/-- Defining the macros of a table one after the other gives the table. -/
theorem foldl_define_macros (t : MacroTable) : t.macros.foldl define ∅ = t := by
  rw [macros, List.foldl_map]
  exact Table.ofList_entries t

end MacroTable

namespace FileConfig

variable {platform : Platform} {cwd : Option FilePath} {config : FileConfig}

theorem readable_of_addArguments {m : Macro}
    (h : addArguments platform d cwd {} args = .ok config) (hm : m ∈ config.macros.macros) :
    m.Readable := by
  rw [MacroTable.mem_macros_iff, find?_addArguments m.name h, MacroTable.inForce?,
    Table.find?_empty] at hm
  cases hlast : FlagEvent.lastVerdict? m.name (FlagEvent.ofArguments d args) with
  | none =>
    rw [hlast] at hm
    cases hm
  | some verdict =>
    rw [hlast] at hm
    obtain rfl : verdict = some m.value := hm
    obtain ⟨waiting, hread⟩ := exists_commandText d args
    exact hread.readable (FlagEvent.define_mem_of_lastVerdict? hlast)

theorem foldlM_apply_define (platform : Platform) (cwd : Option FilePath) (config : FileConfig)
    (macros : List Macro) :
    (macros.map FlagEvent.define).foldlM (apply platform cwd) config =
      .ok { config with macros := macros.foldl MacroTable.define config.macros } := by
  induction macros generalizing config with
  | nil => rfl
  | cons m macros ih => exact ih { config with macros := config.macros.define m }

/-- The macros of a command line survive being written as texts. As flags these texts define the
same macros with the same values in the same order, on every platform, for every dialect and in
every directory, and they add nothing else to a configuration. What stands before the first equals
sign tells the texts apart. Where all paths are those of POSIX systems, there is a table for every
command line. -/
theorem addArguments_flags (platform : Platform) (d : Dialect) (cwd : Option FilePath)
    (args : List Argument) :
    (platform ≠ .windows → (∀ p, cwd ≠ some (.windows p)) →
      ∃ config, addArguments platform d cwd {} args = .ok config) ∧
    ∀ config, addArguments platform d cwd {} args = .ok config →
      (∀ platform' d' cwd',
        addArguments platform' d' cwd' {} (config.macros.macros.map Macro.flag) =
          .ok { macros := config.macros }) ∧
      (config.macros.macros.map fun m => m.text.toList.takeWhile (· != '=')).Nodup := by
  refine ⟨fun hp hcwd => exists_addArguments_eq_ok hp hcwd d {} args, fun config hconfig => ?_⟩
  have hreadable : ∀ m ∈ config.macros.macros, m.Readable :=
    fun m hm => readable_of_addArguments hconfig hm
  constructor
  · intro platform' d' cwd'
    rw [addArguments, (commandText_flags d' hreadable).ofArguments_eq, foldlM_apply_define,
      MacroTable.foldl_define_macros]
  · have hnames : (config.macros.macros.map fun m => m.text.toList.takeWhile (· != '=')) =
        config.macros.names.map String.toList := by
      rw [← MacroTable.map_name_macros, List.map_map]
      exact List.map_congr_left fun m hm => (hreadable m hm).takeWhile_text
    rw [hnames]
    exact config.macros.distinct.map fun _ _ h => String.toList_injective h

/-- Flags of all kinds that name macros: with values that hold equals signs, quotes and blanks,
without a value, removed and defined anew. -/
def macroFlags : List Argument :=
  [.text "-DA=1=2", .text "-D", .text "B=\"x y\"", .text "-DC", .text "-UA", .text "-D=",
    .text "-DA"]

/-- The removed macro has lost its place, and the others keep theirs. -/
theorem addArguments_flags_removed :
    ∃ config, addArguments .linux .gcc none {} macroFlags = .ok config ∧
      config.macros.macros.map Macro.text = ["B=\"x y\"", "C=1", "=", "A=1"] ∧
      addArguments .linux .gcc none {}
        [.text "-DB=\"x y\"", .text "-DC=1", .text "-D=", .text "-DA=1"] =
          .ok { macros := config.macros } := by
  have hconfig : addArguments .linux .gcc none {} macroFlags = .ok
      { macros := Table.ofList [("B", "\"x y\""), ("C", "1"), ("", ""), ("A", "1")] } := by
    decide +kernel
  exact ⟨_, hconfig, by decide +kernel,
    ((addArguments_flags .linux .gcc none macroFlags).2 _ hconfig).1 .linux .gcc none⟩

end FileConfig

end BuildLens
