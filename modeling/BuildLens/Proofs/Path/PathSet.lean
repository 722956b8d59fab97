import BuildLens.Path.PathSet
import BuildLens.Proofs.Occurrence

/-!
# Sets of paths as lists

A set of paths is the list of the paths that were added, without those that are spellings of an
earlier one. It does not matter which of them were in the set before and which were added later.

Main results:

- `PathSet.toList_ofList`: the set of a list keeps the first spelling of each path.
- `PathSet.ofList_toList`: the list of a set has no second spelling of a path.
- `PathSet.toList_insertMany`: what is added later follows what is there.
- `PathSet.insertMany_insertMany_self`: adding the same paths again changes nothing.
- `PathSet.toList_ofList_eq_firstSpellings`: which paths of a list are kept.
-/

namespace BuildLens

namespace PathSet

variable {s t : PathSet} {p : FilePath} {ps qs : List FilePath}

theorem ext (h : s.toList = t.toList) : s = t := by
  cases s
  cases t
  cases h
  rfl

/-- A path is in a list in some spelling if its key is the key of one of the list. -/
theorem any_same_eq_true_iff : ps.any p.same = true ↔ p.key ∈ ps.map FilePath.key := by
  rw [List.any_eq_true, List.mem_map]
  constructor
  · intro ⟨q, hq, hsame⟩
    exact ⟨q, hq, (beq_iff_eq.mp hsame).symm⟩
  · intro ⟨q, hq, hkey⟩
    exact ⟨q, hq, beq_iff_eq.mpr hkey.symm⟩

theorem toList_insert (s : PathSet) (p : FilePath) :
    (s.insert p).toList = if s.toList.any p.same then s.toList else s.toList ++ [p] := by
  rw [insert]
  by_cases h : p.key ∈ s.toList.map FilePath.key
  · rw [dif_pos h, if_pos (any_same_eq_true_iff.mpr h)]
  · rw [dif_neg h, if_neg ((not_congr any_same_eq_true_iff).mpr h)]

/-- Adding paths is going through them with those at hand that are there already. -/
theorem toList_insertMany_eq_loop (s : PathSet) (ps : List FilePath) :
    (s.insertMany ps).toList = List.eraseDupsBy.loop FilePath.same ps s.toList.reverse := by
  induction ps generalizing s with
  | nil => simp [insertMany, List.eraseDupsBy.loop]
  | cons p ps ih =>
    have hstep : s.insertMany (p :: ps) = (s.insert p).insertMany ps := rfl
    rw [hstep, ih, toList_insert, List.eraseDupsBy.loop, List.any_reverse]
    cases s.toList.any p.same <;> simp

/-- The set of a list keeps the first spelling of each path. -/
theorem toList_ofList (ps : List FilePath) :
    (ofList ps).toList = ps.eraseDupsBy FilePath.same :=
  toList_insertMany_eq_loop ∅ ps

@[simp]
theorem insertMany_nil (s : PathSet) : s.insertMany [] = s :=
  rfl

theorem insertMany_append (s : PathSet) (ps qs : List FilePath) :
    s.insertMany (ps ++ qs) = (s.insertMany ps).insertMany qs :=
  List.foldl_append

theorem ofList_append (ps qs : List FilePath) :
    ofList (ps ++ qs) = (ofList ps).insertMany qs :=
  insertMany_append ∅ ps qs

/-- Paths of which no two are spellings of one are all kept. -/
theorem toList_insertMany_of_nodup (h : ((s.toList ++ ps).map FilePath.key).Nodup) :
    (s.insertMany ps).toList = s.toList ++ ps := by
  induction ps generalizing s with
  | nil => simp [insertMany]
  | cons p ps ih =>
    have hnew : p.key ∉ s.toList.map FilePath.key := by
      rw [List.map_append, List.nodup_append] at h
      intro hmem
      exact h.2.2 _ hmem _ (by simp) rfl
    have hinsert : (s.insert p).toList = s.toList ++ [p] := by
      rw [toList_insert, if_neg ((not_congr any_same_eq_true_iff).mpr hnew)]
    have hstep : s.insertMany (p :: ps) = (s.insert p).insertMany ps := rfl
    rw [hstep, ih (by simpa [hinsert] using h), hinsert, List.append_assoc, List.singleton_append]

/-- The list of a set has no second spelling of a path. -/
theorem ofList_toList (s : PathSet) : ofList s.toList = s := by
  apply ext
  have hkeep :
      ((∅ : PathSet).toList ++ s.toList).map FilePath.key = s.toList.map FilePath.key := rfl
  exact toList_insertMany_of_nodup (hkeep ▸ s.distinct)

/-- What is added to a set follows what is there, except for second spellings. -/
theorem toList_insertMany (s : PathSet) (ps : List FilePath) :
    (s.insertMany ps).toList = (s.toList ++ ps).eraseDupsBy FilePath.same := by
  rw [← toList_ofList, ofList_append, ofList_toList]

/-- What follows are the paths that are new. -/
theorem toList_insertMany_eq_append (s : PathSet) (ps : List FilePath) :
    (s.insertMany ps).toList = s.toList ++ firstNew FilePath.same s.toList ps := by
  rw [← foldl_addNew, insertMany]
  apply (List.foldl_hom toList _).symm
  intro s p
  exact (toList_insert s p).symm

/-! ## The places that a set names -/

theorem key_mem_insert {k : String} :
    k ∈ (s.insert p).toList.map FilePath.key ↔
      k ∈ s.toList.map FilePath.key ∨ k = p.key := by
  rw [insert]
  split
  · next h =>
    constructor
    · exact Or.inl
    · rintro (hk | rfl)
      · exact hk
      · exact h
  · simp

theorem key_mem_insertMany {k : String} :
    k ∈ (s.insertMany ps).toList.map FilePath.key ↔
      k ∈ s.toList.map FilePath.key ∨ k ∈ ps.map FilePath.key := by
  induction ps generalizing s with
  | nil => simp
  | cons q ps ih =>
    have hstep : s.insertMany (q :: ps) = (s.insert q).insertMany ps := rfl
    rw [hstep, ih, key_mem_insert, List.map_cons, List.mem_cons, or_assoc]

theorem any_same_insertMany (h : p ∈ ps) : (s.insertMany ps).toList.any p.same = true := by
  rw [any_same_eq_true_iff, key_mem_insertMany]
  exact .inr (List.mem_map_of_mem h)

theorem any_same_ofList (ps : List FilePath) (p : FilePath) :
    (ofList ps).toList.any p.same = ps.any p.same := by
  have hempty : (∅ : PathSet).toList.map FilePath.key = [] := rfl
  rw [Bool.eq_iff_iff, any_same_eq_true_iff, any_same_eq_true_iff, ofList, key_mem_insertMany,
    hempty]
  simp

/-- Adding the same paths again changes nothing. -/
theorem insertMany_insertMany_self (s : PathSet) (ps : List FilePath) :
    (s.insertMany ps).insertMany ps = s.insertMany ps := by
  apply ext
  rw [toList_insertMany_eq_append, firstNew_eq_nil fun p hp => any_same_insertMany hp,
    List.append_nil]

/-! ## First spellings -/

/-- The paths of a list without those that are spellings of an earlier one. -/
def firstSpellings (ps : List FilePath) : List FilePath :=
  collect (fun earlier p => if earlier.any p.same then none else some p) ps

/-- The set of a list holds the first spellings in order. -/
theorem toList_ofList_eq_firstSpellings (ps : List FilePath) :
    (ofList ps).toList = firstSpellings ps := by
  rw [firstSpellings]
  induction ps using List.reverseRecOn with
  | nil => rfl
  | append_singleton ps p ih =>
    have hstep : ofList (ps ++ [p]) = (ofList ps).insert p := ofList_append ps [p]
    rw [hstep, toList_insert, any_same_ofList, collect_append_singleton, ← ih]
    cases ps.any p.same <;> simp

/-- No path is among the first spellings twice. -/
theorem nodup_firstSpellings (ps : List FilePath) :
    ((firstSpellings ps).map FilePath.key).Nodup := by
  rw [← toList_ofList_eq_firstSpellings]
  exact (ofList ps).distinct

/-- Each path is among the first spellings in some spelling. -/
theorem any_same_firstSpellings {ps : List FilePath} (h : p ∈ ps) :
    (firstSpellings ps).any p.same = true := by
  rw [← toList_ofList_eq_firstSpellings]
  exact any_same_insertMany h

end PathSet

end BuildLens
