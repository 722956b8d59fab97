import BuildLens.Compiler.SourceConfiguration
import BuildLens.Proofs.Path.PathSet
import BuildLens.Proofs.Table

/-!
# The order of search paths and macros

The flags of a file and the defaults of its compiler both have search paths and macros. Where they
are merged, each path is searched where it is met first, and each macro stands where it is met
first, with the value of the file if the file has one.

Main results:

- `SourceConfiguration.toList_searchPath`: the directories in the order in which they are searched.
- `SourceConfiguration.defines_merge`: the macros in order.
- `SourceConfiguration.merge_ordered`: both for every configuration.
-/

namespace BuildLens.SourceConfiguration

variable (defaults : CompilerDefaults) (file : FileConfig) (traits : CompilerTraits)

/-- The directories of the file come first and its frameworks right before those of the compiler. -/
theorem toList_searchPath (user system frameworks : List FilePath) :
    (searchPath file user system frameworks).toList = PathSet.firstSpellings
      (file.includes.toList ++ user ++ system ++ file.frameworks.toList ++ frameworks) := by
  rw [← PathSet.toList_ofList_eq_firstSpellings, searchPath]
  simp only [PathSet.ofList_append, PathSet.ofList_toList]

theorem includePath_merge :
    (merge defaults file traits).includePath = (PathSet.firstSpellings
      (file.includes.toList ++ defaults.userIncludes.toList ++ defaults.includes.toList ++
        file.frameworks.toList ++ defaults.frameworks.toList)).map FilePath.text := by
  rw [← toList_searchPath]
  rfl

/-- The macros of the compiler come first, those of the file that it does not know after them. -/
theorem defines_merge :
    (merge defaults file traits).defines =
      defaults.macros.entries.map (fun e => e.1 ++ "=" ++ (file.macros.find? e.1).getD e.2) ++
        (file.macros.entries.filter fun e => (defaults.macros.find? e.1).isNone).map fun e =>
          e.1 ++ "=" ++ e.2 := by
  have htexts (t : MacroTable) :
      t.macros.map Macro.text = t.entries.map fun e => e.1 ++ "=" ++ e.2 := by
    rw [MacroTable.macros, List.map_map]
    rfl
  rw [merge, htexts, Table.entries_insertMany, List.map_append, List.map_map]
  rfl

/-- The include path is what a file and a compiler search, one list after the other, without the
paths that were met before in some spelling: no place is named twice, and none is lost. The macros
are those of the compiler in their order, with the values of the file where it has some, and then
the others of the file in their order. -/
theorem merge_ordered :
    (∀ (file : FileConfig) (user system frameworks : List FilePath),
      let all := file.includes.toList ++ user ++ system ++ file.frameworks.toList ++ frameworks
      let kept := (searchPath file user system frameworks).toList
      kept = PathSet.firstSpellings all ∧ (kept.map FilePath.key).Nodup ∧
        (all.all fun p => kept.any p.same) = true) ∧
    ∀ (defaults : CompilerDefaults) (file : FileConfig) (traits : CompilerTraits),
      (merge defaults file traits).includePath = (PathSet.firstSpellings
        (file.includes.toList ++ defaults.userIncludes.toList ++ defaults.includes.toList ++
          file.frameworks.toList ++ defaults.frameworks.toList)).map FilePath.text ∧
      (merge defaults file traits).defines =
        defaults.macros.entries.map (fun e => e.1 ++ "=" ++ (file.macros.find? e.1).getD e.2) ++
          (file.macros.entries.filter fun e => (defaults.macros.find? e.1).isNone).map fun e =>
            e.1 ++ "=" ++ e.2 := by
  constructor
  · intro file user system frameworks all kept
    have hkept : kept = PathSet.firstSpellings all := toList_searchPath file user system frameworks
    rw [hkept, List.all_eq_true]
    exact ⟨rfl, PathSet.nodup_firstSpellings all, fun p hp => PathSet.any_same_firstSpellings hp⟩
  · intro defaults file traits
    exact ⟨includePath_merge defaults file traits, defines_merge defaults file traits⟩

end BuildLens.SourceConfiguration
