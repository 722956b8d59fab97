/-!
# Platforms

The platforms whose conventions for paths and commands are known.
-/

namespace BuildLens

/-- The platform that a build runs on. macOS differs from Linux in where the system headers are. -/
inductive Platform where
  | linux
  | darwin
  | windows
deriving DecidableEq, Repr

/-- The file that is always empty. -/
def Platform.nullDevice : Platform → String
  | .windows => "nul"
  | _ => "/dev/null"

end BuildLens
