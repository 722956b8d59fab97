import BuildLens.Compiler.Language
import BuildLens.Inquiry.Basic

/-!
# The language of a file

The language is told by the extension. A header whose extension serves both languages is one of C if
a C file of the same name stands beside it, and one of C++ otherwise.

Main definitions:

- `Classifier`: a way of telling the language of a file.
- `Classifier.byExtension`: the usual way.
-/

namespace BuildLens

/-- A way of telling the language of a file, if it has one. -/
abbrev Classifier := FilePath → Inquiry (Option Language)

/-- What an extension tells: a language, a header of either language, or nothing that is known. -/
inductive ExtensionMeaning where
  | language (l : Language)
  | header
  | other
deriving DecidableEq, Repr

/-- What an extension tells. -/
def ExtensionMeaning.of (ext : String) : ExtensionMeaning :=
  if ext = ".c" then .language .c
  else if ext ∈ [".cpp", ".cc", ".cxx", ".c++", ".C", ".hh", ".hpp", ".hxx", ".h++"] then
    .language .cpp
  else if ext = ".h" then .header
  else .other

namespace Classifier

/-- Tells the language by the extension. -/
def byExtension : Classifier := fun path =>
  match ExtensionMeaning.of path.extension with
  | .language l => return some l
  | .header => return some (if ← .request (.isFile (path.withSuffix ".c")) then .c else .cpp)
  | .other => return none

/-- Tells the same of every file. -/
def always (l : Option Language) : Classifier := fun _ => return l

end Classifier

end BuildLens
