import BuildLens.Build.MakeFragment
import BuildLens.Path.FilePath

/-!
# Make fragments kept in memory

A fragment that was read is kept with the time of the file's last change, and read again when that
time is another one.

Main definitions:

- `CachedFragment`, `FragmentCache`: the fragments kept.
- `FragmentCache.find?`, `FragmentCache.keep`, `FragmentCache.forget`, `FragmentCache.clear`.
-/

namespace BuildLens

/-- A fragment that was read, with the time of the file's last change when it was read. Its number
is how many fragments had been kept before it. -/
structure CachedFragment where
  mtime : Int
  values : Variables
  number : Nat
deriving DecidableEq, Repr

/-- The fragments that are kept, by the keys of their paths, and how many have been kept so far. -/
structure FragmentCache where
  fragments : Table CachedFragment := ∅
  count : Nat := 0
deriving DecidableEq, Repr, Inhabited

namespace FragmentCache

/-- The fragment kept for a path. -/
def find? (c : FragmentCache) (path : FilePath) : Option CachedFragment :=
  c.fragments.find? path.key

/-- Keeps a fragment. -/
def keep (c : FragmentCache) (path : FilePath) (mtime : Int) (values : Variables) :
    FragmentCache where
  fragments := c.fragments.insert path.key ⟨mtime, values, c.count⟩
  count := c.count + 1

/-- Forgets the fragment of a path. -/
def forget (c : FragmentCache) (path : FilePath) : FragmentCache :=
  { c with fragments := c.fragments.erase path.key }

/-- Forgets all fragments. -/
def clear (c : FragmentCache) : FragmentCache := { c with fragments := ∅ }

end FragmentCache

end BuildLens
