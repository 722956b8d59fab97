import BuildLens.Compiler.FileConfig

/-!
# Reading paths

Which texts are taken as paths. Away from Windows a text is a path if it begins with a slash, and
every text leads somewhere from a directory.

Main results:

- `FilePath.exists_ofText_eq_ok`: a text that begins with a slash is a path.
- `Argument.exists_toPath?_eq_ok`: the value of a flag is never refused.
-/

namespace BuildLens

variable {platform : Platform}

/-- A text is absolute if it begins with a slash. -/
theorem Posix.Path.isSome_rootOf? {α : Type} [DecidableEq α] [Text.Alphabet α] {cs : List α} :
    (rootOf? cs).isSome ↔ cs.head? = some Text.Alphabet.slash := by
  rw [rootOf?]
  split
  · next h => split <;> simp [h]
  · next h => simp [h]

/-- A text that stands for a path is absolute. -/
theorem Posix.Path.isSome_rootOf?_of_ofChars? {α : Type} [DecidableEq α] [Text.Alphabet α]
    {cs : List α} {p : Path α} (h : ofChars? cs = some p) : (rootOf? cs).isSome = true := by
  rw [ofChars?, Option.map_eq_some_iff] at h
  obtain ⟨root, hroot, -⟩ := h
  exact Option.isSome_of_eq_some hroot

namespace FilePath

/-! ## Away from Windows -/

theorem ofText?_posix (hp : platform ≠ .windows) (s : String) :
    ofText? platform s = (Posix.Path.ofText? s).map .posix := by
  cases platform with
  | windows => exact absurd rfl hp
  | linux | darwin => rfl

theorem isAbsoluteText_posix (hp : platform ≠ .windows) (s : String) :
    isAbsoluteText platform s = (Posix.Path.rootOf? s.toList).isSome := by
  cases platform with
  | windows => exact absurd rfl hp
  | linux | darwin => rfl

theorem ofUnixText_eq_ofText (hp : platform ≠ .windows) (s : String) :
    ofUnixText platform s = ofText platform s := by
  cases platform with
  | windows => exact absurd rfl hp
  | linux | darwin => rfl

theorem isAbsoluteText_of_head? (hp : platform ≠ .windows) {s : String}
    (h : s.toList.head? = some '/') : isAbsoluteText platform s = true := by
  rw [isAbsoluteText_posix hp]
  exact Posix.Path.isSome_rootOf?.mpr h

/-! ## Absolute texts -/

/-- Absolute texts are paths, and no others. -/
theorem isSome_ofText? (platform : Platform) (s : String) :
    (ofText? platform s).isSome = isAbsoluteText platform s := by
  by_cases hp : platform = .windows
  · subst hp
    rw [ofText?, isAbsoluteText, Option.isSome_map, Windows.Path.ofChars?]
    cases Windows.isAbsolute s.toList <;> rfl
  · rw [ofText?_posix hp, isAbsoluteText_posix hp, Option.isSome_map, Posix.Path.ofText?,
      Posix.Path.ofChars?, Option.isSome_map]

theorem isSome_toOption_ofText (platform : Platform) (s : String) :
    (ofText platform s).toOption.isSome = isAbsoluteText platform s := by
  rw [ofText, ← isSome_ofText?]
  cases ofText? platform s <;> rfl

theorem exists_ofText_eq_ok (hp : platform ≠ .windows) {s : String}
    (h : isAbsoluteText platform s = true) : ∃ p, ofText platform s = .ok (.posix p) := by
  rw [isAbsoluteText_posix hp] at h
  obtain ⟨root, hroot⟩ := Option.isSome_iff_exists.mp h
  refine ⟨Posix.Path.follow ⟨root, []⟩ s.toList, ?_⟩
  rw [ofText, ofText?_posix hp, Posix.Path.ofText?, Posix.Path.ofChars?, hroot]
  rfl

end FilePath

/-- The value of a flag is never refused: it is a path, or it is read in a directory. -/
theorem Argument.exists_toPath?_eq_ok {cwd : Option FilePath} (hp : platform ≠ .windows)
    (hcwd : ∀ p, cwd ≠ some (.windows p)) (value : Argument) :
    ∃ p?, value.toPath? platform cwd = .ok p? := by
  cases value with
  | path p => exact ⟨some p, rfl⟩
  | text s =>
    rw [Argument.toPath?.eq_def]
    dsimp only
    split
    · exact ⟨none, rfl⟩
    split
    · next hslash =>
      obtain ⟨p, h⟩ :=
        FilePath.exists_ofText_eq_ok hp (FilePath.isAbsoluteText_of_head? hp hslash)
      rw [FilePath.ofUnixText_eq_ofText hp, h]
      exact ⟨_, rfl⟩
    split
    · next habs =>
      obtain ⟨p, h⟩ := FilePath.exists_ofText_eq_ok hp habs
      rw [h]
      exact ⟨_, rfl⟩
    · rcases cwd with _ | p | p
      · exact ⟨none, rfl⟩
      · exact ⟨_, rfl⟩
      · exact absurd rfl (hcwd p)

end BuildLens
