import BuildLens.Proofs.Path.Operations

/-!
# The order of POSIX paths

A path lies below a directory if names that are joined to the directory lead to it. So the paths are
ordered by what lies below what, and the directories above one path form a chain.

Main results:

- `FilePath.isUnder_iff_join`: what lies below a directory is what names joined to it reach.
- `FilePath.parent_join_name`: going up undoes joining a name.
- `FilePath.order_posix`: lying below is an order, and the directories above a path are a chain.
-/

namespace BuildLens.FilePath

variable {p base : Posix.Path}

/-- A path lies below a directory if names that are joined to the directory lead to it. -/
theorem isUnder_iff_join : (posix p).isUnder (posix base) = true ↔
    ∃ names : List String, (∀ n ∈ names, Posix.IsName n.toList) ∧
      ∃ q, (posix base).join names = .ok q ∧ (posix p).same q = true := by
  constructor
  · intro hunder
    obtain ⟨names, rfl⟩ := exists_below_of_isUnder hunder
    refine ⟨names.map Posix.Name.text, ?_, posix (base.below names), ?_, same_posix.mpr rfl⟩
    · intro n hn
      obtain ⟨name, -, rfl⟩ := List.mem_map.mp hn
      rw [Posix.Name.text, String.toList_ofList]
      exact name.isName
    · rw [join, Posix.Path.join_names]
  · rintro ⟨names, hnames, q, hq, hsame⟩
    have hchars : ∀ n ∈ names.map String.toList, Posix.IsName n := by simpa using hnames
    obtain ⟨below, hbelow⟩ := Posix.exists_names hchars
    have htexts : below.map Posix.Name.text = names := by
      have htext := congrArg (List.map String.ofList) hbelow
      rw [List.map_map, List.map_map] at htext
      exact htext.trans (by simp)
    rw [join, ← htexts, Posix.Path.join_names, Except.ok.injEq] at hq
    subst hq
    rw [same_posix.mp hsame]
    exact isUnder_below base below

/-- Going up undoes joining a name. -/
theorem parent_join_name (p : Posix.Path) {n : String} (hn : Posix.IsName n.toList) :
    ∃ q, (posix p).join [n] = .ok q ∧ q.parent.same (posix p) = true := by
  have hjoin := Posix.Path.join_names p [⟨n.toList, hn⟩]
  rw [List.map_singleton, Posix.Name.text, String.ofList_toList] at hjoin
  refine ⟨posix (p.below [⟨n.toList, hn⟩]), by rw [join, hjoin], ?_⟩
  rw [parent, Posix.Path.parent_below_singleton]
  exact same_posix.mpr rfl

/-- Lying below is an order of the paths of POSIX systems, up to their equality: it is what joining
names leads to, going up undoes joining one name, and of two directories above a path one lies below
the other. -/
theorem order_posix :
    (∀ p base : Posix.Path, (posix p).isUnder (posix base) = true ↔
      ∃ names : List String, (∀ n ∈ names, Posix.IsName n.toList) ∧
        ∃ q, (posix base).join names = .ok q ∧ (posix p).same q = true) ∧
    (∀ p : Posix.Path, (posix p).isUnder (posix p) = true) ∧
    (∀ p q r : Posix.Path, (posix p).isUnder (posix q) = true →
      (posix q).isUnder (posix r) = true → (posix p).isUnder (posix r) = true) ∧
    (∀ p q : Posix.Path, (posix p).isUnder (posix q) = true ∧ (posix q).isUnder (posix p) = true ↔
      (posix p).same (posix q) = true) ∧
    (∀ p q r : Posix.Path, (posix p).isUnder (posix q) = true →
      (posix p).isUnder (posix r) = true →
      (posix q).isUnder (posix r) = true ∨ (posix r).isUnder (posix q) = true) ∧
    (∀ (p : Posix.Path) (n : String), Posix.IsName n.toList →
      ∃ q, (posix p).join [n] = .ok q ∧ q.parent.same (posix p) = true) := by
  refine ⟨fun p base => isUnder_iff_join, fun p => isUnder_refl _, fun p q r => isUnder_trans,
    fun p q => ?_, fun p q r => isUnder_or_isUnder, fun p n => parent_join_name p⟩
  rw [same_posix]
  constructor
  · rintro ⟨hunder, habove⟩
    exact isUnder_antisymm_posix hunder habove
  · rintro rfl
    exact ⟨isUnder_refl _, isUnder_refl _⟩

/-- The path `//a` lies below `//`, which is its parent, and not below `/`. -/
theorem order_posix_doubleRoot :
    Posix.IsName "a".toList ∧ ∃ q, (posix ⟨.double, []⟩).join ["a"] = .ok (posix q) ∧
      q.text = "//a" ∧ (posix q).isUnder (posix ⟨.double, []⟩) = true ∧
      (posix q).parent.same (posix ⟨.double, []⟩) = true ∧
      (posix q).isUnder (posix ⟨.single, []⟩) = false := by
  have hname : Posix.IsName "a".toList := by decide
  obtain ⟨hjoin, -, -, -, -, hparent⟩ := order_posix
  obtain ⟨q, hq, hup⟩ := hparent ⟨.double, []⟩ "a" hname
  cases hq
  refine ⟨hname, _, rfl, by rfl, (hjoin _ _).mpr ⟨["a"], ?_, _, rfl, same_posix.mpr rfl⟩, hup, ?_⟩
  · simpa using hname
  · decide

end BuildLens.FilePath
