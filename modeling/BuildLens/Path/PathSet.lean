import BuildLens.Path.FilePath

/-!
# Sets of paths in order of insertion

Search paths are kept in the order in which they were first met; a path that is there already, in
any spelling, is not added again, and the first spelling stays.

Main definitions:

- `PathSet`: a list of paths, no two of which name the same place.
- `PathSet.insert`, `PathSet.ofList`, `PathSet.insertMany`, `PathSet.contains`.
-/

namespace BuildLens

/-- A list of paths, no two of which name the same place. -/
structure PathSet where
  toList : List FilePath
  distinct : (toList.map FilePath.key).Nodup
deriving DecidableEq

namespace PathSet

/-- The set without paths. -/
def empty : PathSet := ⟨[], List.nodup_nil⟩

instance : EmptyCollection PathSet := ⟨empty⟩

instance : Inhabited PathSet := ⟨empty⟩

instance : Repr PathSet where
  reprPrec s _ := repr (s.toList.map FilePath.text)

/-- Whether the set holds the path in some spelling. -/
def contains (s : PathSet) (p : FilePath) : Bool := (s.toList.map FilePath.key).contains p.key

/-- Adds a path at the end, unless it is there already. -/
def insert (s : PathSet) (p : FilePath) : PathSet :=
  if h : p.key ∈ s.toList.map FilePath.key then s
  else
    { toList := s.toList ++ [p]
      distinct := by
        rw [List.map_append, List.nodup_append]
        exact ⟨s.distinct, by simp, by
          intro a ha b hb
          simp only [List.map_cons, List.map_nil, List.mem_singleton] at hb
          subst hb
          exact fun h' => h (h' ▸ ha)⟩ }

/-- Adds paths one after the other. -/
def insertMany (s : PathSet) (ps : List FilePath) : PathSet := ps.foldl insert s

/-- The set of the paths of a list. -/
def ofList (ps : List FilePath) : PathSet := insertMany ∅ ps

/-- The number of paths. -/
def size (s : PathSet) : Nat := s.toList.length

/-- The texts of the paths in order. -/
def texts (s : PathSet) : List String := s.toList.map FilePath.text

/-- Whether there are no paths. -/
def isEmpty (s : PathSet) : Bool := s.toList.isEmpty

end PathSet

end BuildLens
