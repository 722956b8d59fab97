import BuildLens.Text.Rune

/-!
# File name extensions

Main definitions:

- `splitExtension`: a name without its extension, and the extension with its dot.

Main results:

- `splitExtension_append`: the two parts together are the name.
-/

namespace BuildLens

open Text.Alphabet (dot)

variable {α : Type} [DecidableEq α] [Text.Alphabet α]

/-- The name before its extension, and the extension with its dot. The extension begins at the last
dot, unless only dots stand before it. -/
def splitExtension (name : List α) : List α × List α :=
  let r := name.reverse
  match r.dropWhile (· ≠ dot) with
  | [] => (name, [])
  | last :: stem =>
    if stem.any (· ≠ dot) then (stem.reverse, last :: (r.takeWhile (· ≠ dot)).reverse)
    else (name, [])

/-- The two parts together are the name. -/
theorem splitExtension_append (name : List α) :
    (splitExtension name).1 ++ (splitExtension name).2 = name := by
  simp only [splitExtension]
  split
  · simp
  · next last stem h =>
    split
    · have hsplit := List.takeWhile_append_dropWhile (p := (· ≠ dot)) (l := name.reverse)
      rw [h] at hsplit
      have := congrArg List.reverse hsplit
      simpa using this
    · simp

end BuildLens
