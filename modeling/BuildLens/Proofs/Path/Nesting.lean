import BuildLens.Path.FilePath

/-!
# Paths that lie below one another

Where a path lies is told by its names from the root down. One path lies below another if its names
begin with those of the other one, and so the directories above a path lie below one another.

Main results:

- `FilePath.isUnder_refl`, `FilePath.isUnder_trans`: a path is at or below itself, and so on.
- `FilePath.isUnder_or_isUnder`: of two directories above a path one lies below the other.
- `FilePath.isUnder_antisymm_posix`: paths of POSIX systems that lie below each other are equal.
-/

namespace BuildLens

theorem Posix.Path.relativeTo?_isSome_iff {p base : Posix.Path} :
    (p.relativeTo? base).isSome = true ↔ p.root = base.root ∧ base.names <+: p.names := by
  unfold relativeTo?
  split <;> simp_all

/-- The components of a path as they are compared. -/
def Windows.Path.folded (p : Windows.Path) : List String :=
  (anatomyOf p.chars).components.map fun n => Text.lower (String.ofList n)

theorem Windows.Path.relativeTo?_isSome_iff {p base : Windows.Path} :
    (p.relativeTo? base).isSome = true ↔ base.folded <+: p.folded := by
  have htake : base.folded <+: p.folded ↔
      ((anatomyOf p.chars).components.take (anatomyOf base.chars).components.length).map
        (fun n => Text.lower (String.ofList n)) = base.folded := by
    rw [List.prefix_iff_eq_take, eq_comm, folded, folded, List.length_map, List.map_take]
  rw [htake]
  unfold relativeTo?
  dsimp only
  split
  · next h => exact ⟨fun _ => h, fun _ => rfl⟩
  · next h => exact ⟨nofun, fun h' => absurd h' h⟩

namespace FilePath

variable {p q r : FilePath}

theorem isUnder_posix {p base : Posix.Path} :
    (posix p).isUnder (posix base) = true ↔ p.root = base.root ∧ base.names <+: p.names := by
  rw [isUnder, relativeTo?, Option.isSome_map, Posix.Path.relativeTo?_isSome_iff]

theorem isUnder_windows {p base : Windows.Path} :
    (windows p).isUnder (windows base) = true ↔ base.folded <+: p.folded :=
  Windows.Path.relativeTo?_isSome_iff

theorem isUnder_antisymm_posix {p q : Posix.Path} (h : (posix p).isUnder (posix q) = true)
    (h' : (posix q).isUnder (posix p) = true) : p = q := by
  obtain ⟨hroot, hnames⟩ := isUnder_posix.mp h
  obtain ⟨-, hnames'⟩ := isUnder_posix.mp h'
  have hsame : q.names = p.names := hnames.eq_of_length_le hnames'.length_le
  cases p
  cases q
  cases hroot
  cases hsame
  rfl

theorem isUnder_refl (p : FilePath) : p.isUnder p = true := by
  cases p with
  | posix p => exact isUnder_posix.mpr ⟨rfl, List.prefix_rfl⟩
  | windows p => exact isUnder_windows.mpr List.prefix_rfl

theorem isUnder_trans (h : p.isUnder q = true) (h' : q.isUnder r = true) :
    p.isUnder r = true := by
  cases p with
  | posix p =>
    cases q with
    | windows q => cases h
    | posix q =>
      cases r with
      | windows r => cases h'
      | posix r =>
        obtain ⟨hroot, hnames⟩ := isUnder_posix.mp h
        obtain ⟨hroot', hnames'⟩ := isUnder_posix.mp h'
        exact isUnder_posix.mpr ⟨hroot.trans hroot', hnames'.trans hnames⟩
  | windows p =>
    cases q with
    | posix q => cases h
    | windows q =>
      cases r with
      | posix r => cases h'
      | windows r =>
        exact isUnder_windows.mpr ((isUnder_windows.mp h').trans (isUnder_windows.mp h))

/-- Of two directories above a path one lies below the other. -/
theorem isUnder_or_isUnder (hq : p.isUnder q = true) (hr : p.isUnder r = true) :
    q.isUnder r = true ∨ r.isUnder q = true := by
  cases p with
  | posix p =>
    cases q with
    | windows q => cases hq
    | posix q =>
      cases r with
      | windows r => cases hr
      | posix r =>
        obtain ⟨hroot, hnames⟩ := isUnder_posix.mp hq
        obtain ⟨hroot', hnames'⟩ := isUnder_posix.mp hr
        rw [isUnder_posix, isUnder_posix]
        rcases List.prefix_or_prefix_of_prefix hnames hnames' with h | h
        · exact .inr ⟨hroot'.symm.trans hroot, h⟩
        · exact .inl ⟨hroot.symm.trans hroot', h⟩
  | windows p =>
    cases q with
    | posix q => cases hq
    | windows q =>
      cases r with
      | posix r => cases hr
      | windows r =>
        rw [isUnder_windows, isUnder_windows]
        exact (List.prefix_or_prefix_of_prefix (isUnder_windows.mp hq)
          (isUnder_windows.mp hr)).symm

end FilePath

end BuildLens
