import BuildLens.Build.Mach
import BuildLens.Path.FilePath

/-!
# The root of a source tree

Main definitions:

- `FilePath.upward`: a path and the directories above it.
- `findRoot`: the root of the tree that holds a file.
-/

namespace BuildLens

namespace FilePath

/-- The path and the directories above it, at most as many as `fuel`. -/
def upwardFrom : (fuel : Nat) → FilePath → List FilePath
  | 0, p => [p]
  | fuel + 1, p => if p.parent.same p then [p] else p :: upwardFrom fuel p.parent

/-- The path and the directories above it, from the inside out. -/
def upward (p : FilePath) : List FilePath := upwardFrom p.text.length p

end FilePath

/-- The first of some directories that holds a build tool. -/
def firstRoot {m : Type → Type} [Monad m] (isFile : FilePath → m Bool) :
    List FilePath → m (Option FilePath)
  | [] => return none
  | dir :: rest => do
    match dir.join [Mach.fileName] with
    | .ok path => if ← isFile path then return some dir else firstRoot isFile rest
    | .error _ => firstRoot isFile rest

/-- The nearest directory at or above a path that holds a build tool, or else the current
directory. -/
def findRoot {m : Type → Type} [Monad m] (isDirectory isFile : FilePath → m Bool)
    (cwd path : FilePath) : m FilePath := do
  let start := if ← isDirectory path then path else path.parent
  return (← firstRoot isFile start.upward).getD cwd

end BuildLens
