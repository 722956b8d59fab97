import BuildLens.Proofs.Path.Posix
import BuildLens.Proofs.Path.Reading

/-!
# Moving paths to another directory

A path that lies below a directory is that directory and the names that lead on from there. Moving
it to another directory keeps these names and nothing else, so that it can be moved back.

Main definitions:

- `Posix.Path.below`: the path to which names lead from a directory.
- `Posix.continued`: the text of a directory with a relative text behind it.

Main results:

- `Posix.Path.relativeTo?_eq_some_iff`: a path lies below a directory at the end of names.
- `Posix.Path.join_names`: names that are joined to a directory lead below it.
- `Posix.Path.chars_below`: the text of a path continues that of a directory above it.
- `FilePath.rebase_posix`: a path below a directory moves, and moves back; no other path moves.
-/

namespace BuildLens

open Text.Alphabet (slash)

variable {α : Type}

/-- Pieces are put behind others with one more separator. -/
theorem Text.intercalate_append {sep : α} {front back : List (List α)} (hfront : front ≠ [])
    (hback : back ≠ []) :
    [sep].intercalate (front ++ back) =
      [sep].intercalate front ++ sep :: [sep].intercalate back := by
  induction front with
  | nil => exact absurd rfl hfront
  | cons first front ih =>
    cases front with
    | nil =>
      obtain ⟨second, back, rfl⟩ := List.exists_cons_of_ne_nil hback
      simp [List.intercalate_cons_cons]
    | cons second front =>
      have hrest := ih (List.cons_ne_nil second front)
      simp only [List.cons_append, List.intercalate_cons_cons, List.append_assoc] at hrest ⊢
      rw [hrest]

namespace Posix

variable [Text.Alphabet α]

/-- The path to which the names lead from a directory. -/
def Path.below (base : Path α) (names : List (Name α)) : Path α :=
  { base with names := base.names ++ names }

variable [DecidableEq α]

/-- The text of a directory with a relative text behind it. A slash is put between them, unless one
stands there already or nothing follows. -/
def continued (dir rest : List α) : List α :=
  if rest = [] then dir
  else if dir.getLast? = some slash then dir ++ rest
  else dir ++ slash :: rest

namespace Path

variable {p base : Path α} {names : List (Name α)}

omit [DecidableEq α] in
@[simp]
theorem below_nil (base : Path α) : base.below [] = base := by
  simp [below]

omit [DecidableEq α] in
theorem below_append (base : Path α) (names more : List (Name α)) :
    base.below (names ++ more) = (base.below names).below more := by
  simp [below]

/-! ## Where a path lies -/

/-- A path is at or below a directory if names lead to it from there, and these are the names. -/
theorem relativeTo?_eq_some_iff : p.relativeTo? base = some names ↔ p = base.below names := by
  rw [relativeTo?]
  constructor
  · intro h
    split at h
    · next hunder =>
      obtain ⟨hroot, tail, htail⟩ := hunder
      rw [Option.some.injEq, ← htail, List.drop_left] at h
      obtain ⟨root, all⟩ := p
      rw [below, ← h, htail]
      exact congrArg (Path.mk · all) hroot
    · cases h
  · rintro rfl
    rw [if_pos ⟨rfl, List.prefix_append ..⟩, below, List.drop_left]

/-! ## The text of a path -/

omit [DecidableEq α] in
/-- The last character of a text made of names is none that stands between them. -/
theorem getLast?_intercalate_names (hne : names ≠ []) :
    ∃ c, ([slash].intercalate (names.map Name.chars)).getLast? = some c ∧ c ≠ slash := by
  induction names with
  | nil => exact absurd rfl hne
  | cons n names ih =>
    cases names with
    | nil =>
      refine ⟨n.chars.getLast n.isName.1, ?_, fun heq => n.isName.2.2.2 ?_⟩
      · simpa using List.getLast?_eq_getLast_of_ne_nil n.isName.1
      · exact heq ▸ List.getLast_mem n.isName.1
    | cons m names =>
      obtain ⟨c, hc, hslash⟩ := ih (List.cons_ne_nil m names)
      refine ⟨c, ?_, hslash⟩
      rw [List.map_cons, List.map_cons, List.intercalate_cons_cons, List.getLast?_append,
        ← List.map_cons, hc, Option.some_or]

omit [DecidableEq α] in
/-- Only the text of a root ends with a slash. -/
theorem getLast?_chars_eq_slash_iff (p : Path α) :
    p.chars.getLast? = some slash ↔ p.names = [] := by
  rw [chars]
  constructor
  · intro h
    by_contra hne
    obtain ⟨c, hc, hslash⟩ := getLast?_intercalate_names hne
    rw [List.getLast?_append, hc, Option.some_or, Option.some_inj] at h
    exact hslash h
  · intro h
    rw [h]
    cases p.root <;> rfl

/-- The text of a path is that of a directory above it, continued by the names from there on. -/
theorem chars_below (base : Path α) (names : List (Name α)) :
    (base.below names).chars =
      continued base.chars ([slash].intercalate (names.map Name.chars)) := by
  rw [continued]
  by_cases hnames : names = []
  · rw [hnames, below_nil]
    rfl
  · have hrest : [slash].intercalate (names.map Name.chars) ≠ [] := by
      obtain ⟨c, hc, -⟩ := getLast?_intercalate_names hnames
      rintro heq
      rw [heq] at hc
      cases hc
    rw [if_neg hrest]
    split
    · next hroot =>
      rw [getLast?_chars_eq_slash_iff] at hroot
      rw [chars, chars, below, hroot]
      simp
    · next hroot =>
      rw [getLast?_chars_eq_slash_iff] at hroot
      rw [chars, chars, below, List.map_append,
        Text.intercalate_append (by simpa using hroot) (by simpa using hnames), List.append_assoc]

/-! ## Joining names -/

/-- A name that is read in a directory leads below it. -/
theorem enter_name (p : Path α) (n : Name α) : p.enter n.chars = p.below [n] := by
  have hslash : slash ∉ n.chars := n.isName.2.2.2
  have hroot : rootOf? n.chars = none := by
    rw [← Option.not_isSome_iff_eq_none, isSome_rootOf?]
    exact fun hhead => hslash (List.mem_of_mem_head? hhead)
  have hpiece : Text.splitAt slash n.chars = [n.chars] := by
    have hone : Text.splitAt slash ([slash].intercalate [n.chars]) = [n.chars] :=
      Text.splitAt_intercalate (by simp) (by simpa using hslash)
    rwa [List.intercalate_singleton] at hone
  rw [enter, ofChars?, hroot, Option.map_none]
  dsimp only
  rw [follow, hpiece, List.foldl_cons, List.foldl_nil, walk_name, below]

theorem joinPart_name (p : Path) (n : Name) : p.joinPart n.text = p.below [n] := by
  rw [joinPart, Name.text, String.toList_ofList, enter_name]

/-- Names that are joined to a directory lead below it. -/
theorem join_names (p : Path) (names : List Name) :
    p.join (names.map Name.text) = p.below names := by
  induction names generalizing p with
  | nil => simp [join]
  | cons n names ih =>
    have hstep : p.join ((n :: names).map Name.text) =
        (p.joinPart n.text).join (names.map Name.text) := rfl
    rw [hstep, joinPart_name, ih, ← below_append, List.singleton_append]

end Path

end Posix

namespace FilePath

/-- The names that lead from a directory to what is below it. -/
theorem relativeTo?_below (base : Posix.Path) (names : List Posix.Name) :
    (posix (base.below names)).relativeTo? (posix base) = some (names.map Posix.Name.text) := by
  rw [relativeTo?, Posix.Path.relativeTo?_eq_some_iff.mpr rfl, Option.map_some]

theorem isUnder_below (base : Posix.Path) (names : List Posix.Name) :
    (posix (base.below names)).isUnder (posix base) = true := by
  rw [isUnder, relativeTo?_below, Option.isSome_some]

/-- Moving keeps the names that lead on from the directory. -/
theorem rebase_below (base target : Posix.Path) (names : List Posix.Name) :
    (posix (base.below names)).rebase (posix base) (posix target) =
      .ok (posix (target.below names)) := by
  rw [rebase, relativeTo?_below]
  simp only [join, Posix.Path.join_names]

theorem exists_below_of_isUnder {p base : Posix.Path}
    (h : (posix p).isUnder (posix base) = true) : ∃ names, p = base.below names := by
  rw [isUnder, relativeTo?, Option.isSome_map, Option.isSome_iff_exists] at h
  obtain ⟨names, hnames⟩ := h
  exact ⟨names, Posix.Path.relativeTo?_eq_some_iff.mp hnames⟩

theorem rebase_of_not_isUnder {p base : FilePath} (h : p.isUnder base = false) (target : FilePath) :
    p.rebase base target = .error .notBelow := by
  rw [isUnder, Option.isSome_eq_false_iff, Option.isNone_iff_eq_none] at h
  rw [rebase, h]

/-- A path at or below a directory moves to the end of the same names below the target, whose text
is continued in the same way, and it moves back from there. No other path moves. Any of the three
may be a root of either kind, and the directories may lie in one another. -/
theorem rebase_posix (p base target : Posix.Path) :
    ((posix p).isUnder (posix base) = true →
      ∃ q, (posix p).rebase (posix base) (posix target) = .ok (posix q) ∧
        (posix q).isUnder (posix target) = true ∧
        (posix q).relativeTo? (posix target) = (posix p).relativeTo? (posix base) ∧
        (∃ rest, p.chars = Posix.continued base.chars rest ∧
          q.chars = Posix.continued target.chars rest) ∧
        (posix q).rebase (posix target) (posix base) = .ok (posix p)) ∧
    ((posix p).isUnder (posix base) = false →
      (posix p).rebase (posix base) (posix target) = .error .notBelow) := by
  constructor
  · intro hunder
    obtain ⟨names, rfl⟩ := exists_below_of_isUnder hunder
    refine ⟨target.below names, rebase_below base target names, isUnder_below target names, ?_,
      ⟨_, Posix.Path.chars_below base names, Posix.Path.chars_below target names⟩,
      rebase_below target base names⟩
    rw [relativeTo?_below, relativeTo?_below]
  · intro hunder
    exact rebase_of_not_isUnder hunder (posix target)

/-- `//a` moves from `//` to `/o`, which lies elsewhere, and `/a` does not lie below `//`. -/
theorem rebase_posix_roots :
    (posix ⟨.double, [⟨['a'], by decide⟩]⟩).isUnder (posix ⟨.double, []⟩) = true ∧
    (posix ⟨.single, [⟨['a'], by decide⟩]⟩).isUnder (posix ⟨.double, []⟩) = false ∧
    (∃ q, (posix ⟨.double, [⟨['a'], by decide⟩]⟩).rebase (posix ⟨.double, []⟩)
          (posix ⟨.single, [⟨['o'], by decide⟩]⟩) = .ok (posix q) ∧
        (posix q).rebase (posix ⟨.single, [⟨['o'], by decide⟩]⟩) (posix ⟨.double, []⟩) =
          .ok (posix ⟨.double, [⟨['a'], by decide⟩]⟩)) ∧
    (posix ⟨.single, [⟨['a'], by decide⟩]⟩).rebase (posix ⟨.double, []⟩)
      (posix ⟨.single, [⟨['o'], by decide⟩]⟩) = .error .notBelow := by
  refine ⟨by decide, by decide, ?_, (rebase_posix _ _ _).2 (by decide)⟩
  obtain ⟨q, hq, -, -, -, hback⟩ :=
    (rebase_posix ⟨.double, [⟨['a'], by decide⟩]⟩ ⟨.double, []⟩
      ⟨.single, [⟨['o'], by decide⟩]⟩).1 (by decide)
  exact ⟨q, hq, hback⟩

end FilePath

end BuildLens
