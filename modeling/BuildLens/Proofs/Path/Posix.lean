import BuildLens.Proofs.Path.Nesting
import Mathlib

/-!
# The texts of POSIX paths

A path of a POSIX system is written as its root and its names with slashes between them. Since no
name holds a slash, the names are the pieces of the text, and reading the text gives the path back.

Main results:

- `Text.splitAt_append_cons`: the pieces of two texts with the separator between them.
- `Text.splitAt_intercalate`: pieces that do not hold the separator are found again.
- `Posix.Path.ofChars?_chars`: the text of a path is read as that path.
- `FilePath.same_posix`: two paths are the same only if they are equal.
- `FilePath.isUnder_parent_posix`: the directory of a path below another one is at or below it.
-/

namespace BuildLens

open Text.Alphabet (slash)

variable {α : Type} [DecidableEq α]

/-- The pieces of two texts with the separator between them. -/
theorem Text.splitAt_append_cons (sep : α) (front back : List α) :
    splitAt sep (front ++ sep :: back) = splitAt sep front ++ splitAt sep back := by
  induction front with
  | nil => simp [splitAt]
  | cons c front ih =>
    rw [List.cons_append, splitAt, splitAt, ih]
    split
    · rfl
    · cases hpieces : splitAt sep front with
      | nil => exact absurd hpieces (splitAt_ne_nil sep front)
      | cons piece pieces => rfl

/-- Pieces that do not hold the separator are found again. -/
theorem Text.splitAt_intercalate {sep : α} {pieces : List (List α)} (hne : pieces ≠ [])
    (h : ∀ w ∈ pieces, sep ∉ w) : splitAt sep ([sep].intercalate pieces) = pieces := by
  have hone {w : List α} (hw : sep ∉ w) : splitAt sep w = [w] := by
    induction w with
    | nil => rfl
    | cons c w ih =>
      rw [List.mem_cons, not_or] at hw
      rw [splitAt, if_neg (Ne.symm hw.1), ih hw.2]
  induction pieces with
  | nil => exact absurd rfl hne
  | cons w ws ih =>
    rw [List.forall_mem_cons] at h
    cases ws with
    | nil => simpa using hone h.1
    | cons v ws =>
      rw [List.intercalate_cons_cons, List.append_assoc, List.singleton_append,
        splitAt_append_cons, hone h.1, ih (List.cons_ne_nil _ _) h.2, List.singleton_append]

namespace Posix.Path

variable [Text.Alphabet α] {p q : Path}

theorem walk_name (names : List (Name α)) (n : Name α) : walk names n.chars = names ++ [n] :=
  dif_pos n.isName

theorem foldl_walk_names (names more : List (Name α)) :
    (more.map Name.chars).foldl walk names = names ++ more := by
  induction more generalizing names with
  | nil => simp
  | cons n more ih => simp [walk_name, ih]

theorem walk_nil (names : List (Name α)) : walk names [] = names := by
  simp [walk, IsName]

omit [DecidableEq α] in
/-- A name does not begin with a slash. -/
theorem head?_intercalate_names (names : List (Name α)) :
    ([slash].intercalate (names.map Name.chars)).head? ≠ some slash := by
  cases names with
  | nil => simp
  | cons n names =>
    obtain ⟨c, cs, hcs⟩ := List.exists_cons_of_ne_nil n.isName.1
    have hc : c ≠ slash := by
      rintro rfl
      exact n.isName.2.2.2 (hcs ▸ List.mem_cons_self)
    cases names <;> simp [hcs, hc]

/-- The text of a path begins with its root. -/
theorem rootOf?_chars (p : Path α) : rootOf? p.chars = some p.root := by
  have hhead := head?_intercalate_names p.names
  rw [chars]
  generalize [slash].intercalate (p.names.map Name.chars) = rest at hhead
  cases p.root <;> cases rest <;> simp_all [Root.text, rootOf?]

/-- The pieces between slashes lead along the names. -/
theorem foldl_walk_splitAt (names : List (Name α)) :
    (Text.splitAt slash ([slash].intercalate (names.map Name.chars))).foldl walk [] = names := by
  cases names with
  | nil => simp [Text.splitAt, walk_nil]
  | cons n names =>
    have hslash : ∀ w ∈ (n :: names).map Name.chars, slash ∉ w := by
      intro w hw
      obtain ⟨m, -, rfl⟩ := List.mem_map.mp hw
      exact m.isName.2.2.2
    rw [Text.splitAt_intercalate (by simp) hslash, foldl_walk_names, List.nil_append]

/-- The text of a path is read as that path. -/
theorem ofChars?_chars (p : Path α) : ofChars? p.chars = some p := by
  have hslash (cs : List α) :
      (Text.splitAt slash (slash :: cs)).foldl walk [] = (Text.splitAt slash cs).foldl walk [] := by
    rw [Text.splitAt, if_pos rfl, List.foldl_cons, walk_nil]
  have hnames : (Text.splitAt slash p.chars).foldl walk [] = p.names := by
    rw [chars]
    cases p.root with
    | single => exact (hslash _).trans (foldl_walk_splitAt p.names)
    | double => exact ((hslash _).trans (hslash _)).trans (foldl_walk_splitAt p.names)
  rw [ofChars?, rootOf?_chars, Option.map_some, follow, hnames]

theorem ofText?_text (p : Path) : ofText? p.text = some p := by
  rw [ofText?, text, String.toList_ofList, ofChars?_chars]

theorem text_inj : p.text = q.text ↔ p = q :=
  ⟨fun h => Option.some.inj (by rw [← ofText?_text p, h, ofText?_text]), congrArg text⟩

end Posix.Path

namespace FilePath

theorem same_posix {p q : Posix.Path} : (posix p).same (posix q) = true ↔ p = q := by
  rw [same, beq_iff_eq]
  exact Posix.Path.text_inj

/-- The directory of a path below another one is at or below that one. -/
theorem isUnder_parent_posix {p base : Posix.Path} (h : (posix p).isUnder (posix base) = true)
    (hne : p ≠ base) : (posix p).parent.isUnder (posix base) = true := by
  obtain ⟨hroot, tail, hnames⟩ := isUnder_posix.mp h
  have htail : tail ≠ [] := by
    rintro rfl
    rw [List.append_nil] at hnames
    obtain ⟨root, names⟩ := p
    obtain ⟨root', names'⟩ := base
    exact hne (by rw [show root = root' from hroot, show names' = names from hnames])
  refine isUnder_posix.mpr ⟨hroot, tail.dropLast, ?_⟩
  rw [← List.dropLast_append_of_ne_nil htail, hnames]
  rfl

end FilePath

end BuildLens
