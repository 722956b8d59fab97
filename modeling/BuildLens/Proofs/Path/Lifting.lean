import BuildLens.Proofs.Path.Posix

/-!
# POSIX paths over wider alphabets

A path of characters is also one over an alphabet in which there is more than characters. All that
is asked of the letters of a path is which of them are slashes and dots, so that texts of characters
mean the same path over each alphabet, and paths lie below one another as they did.

Main definitions:

- `Posix.Name.lift`, `Posix.Path.lift`: names and paths over a wider alphabet.

Main results:

- `Posix.Path.ofChars?_map`: reading a text of characters.
- `Posix.Path.enter_lift`, `Posix.Path.parent_lift`, `Posix.Path.relativeTo?_lift`: navigation.
- `Posix.Path.exists_lift_eq`: a path is one of characters if its text is made of them.
-/

namespace BuildLens

open Text (charsOf?)
open Text.Alphabet (ofChar ofChar_injective slash dot)

variable {α : Type} [Text.Alphabet α]

/-- The pieces of a text are written over an alphabet piece by piece. -/
theorem Text.splitAt_map [DecidableEq α] (sep : Char) (cs : List Char) :
    splitAt (ofChar sep : α) (cs.map ofChar) = (splitAt sep cs).map (List.map ofChar) := by
  induction cs with
  | nil => rfl
  | cons c cs ih =>
    rw [List.map_cons, splitAt, splitAt, ih]
    by_cases hc : c = sep
    · rw [if_pos (congrArg ofChar hc), if_pos hc]
      rfl
    · rw [if_neg (ofChar_injective.ne hc), if_neg hc]
      cases splitAt sep cs <;> rfl

namespace Posix

theorem isName_map_iff {n : List Char} : IsName (n.map ofChar : List α) ↔ IsName n := by
  have hmap : Function.Injective (List.map (ofChar : Char → α)) := ofChar_injective.list_map
  have hnil : n.map (ofChar : Char → α) ≠ [] ↔ n ≠ [] := not_congr List.map_eq_nil_iff
  have hdot : n.map (ofChar : Char → α) ≠ [dot] ↔ n ≠ [dot] := hmap.ne_iff' rfl
  have hdots : n.map (ofChar : Char → α) ≠ [dot, dot] ↔ n ≠ [dot, dot] := hmap.ne_iff' rfl
  have hslash : slash ∉ n.map (ofChar : Char → α) ↔ slash ∉ n :=
    not_congr (List.mem_map_of_injective ofChar_injective)
  rw [IsName, IsName, hnil, hdot, hdots, hslash]

/-- The name over a wider alphabet. -/
def Name.lift (n : Name) : Name α := ⟨n.chars.map ofChar, isName_map_iff.mpr n.isName⟩

theorem Name.lift_injective : Function.Injective (Name.lift : Name → Name α) := by
  rintro ⟨n, hn⟩ ⟨m, hm⟩ h
  obtain rfl := ofChar_injective.list_map (congrArg Name.chars h)
  rfl

namespace Path

/-- The path over a wider alphabet. -/
def lift (p : Path) : Path α := ⟨p.root, p.names.map Name.lift⟩

/-- Different paths stay different over each alphabet. -/
theorem lift_injective : Function.Injective (lift : Path → Path α) := by
  rintro ⟨root, names⟩ ⟨root', names'⟩ h
  obtain ⟨rfl, hnames⟩ := Path.mk.inj h
  exact congrArg (Path.mk root) (Name.lift_injective.list_map hnames)

/-- Going up leads to the same directory over each alphabet. -/
theorem parent_lift (p : Path) : (p.lift : Path α).parent = p.parent.lift := by
  simp [parent, lift, List.map_dropLast]

variable [DecidableEq α]

/-- The names that lead from one path to another are the same over each alphabet. -/
theorem relativeTo?_lift (p base : Path) :
    (p.lift : Path α).relativeTo? base.lift = (p.relativeTo? base).map (List.map Name.lift) := by
  have hunder : p.root = base.root ∧ (base.names.map Name.lift : List (Name α)) <+:
      p.names.map Name.lift ↔ p.root = base.root ∧ base.names <+: p.names :=
    and_congr_right fun _ => List.prefix_map_iff_of_injective Name.lift_injective
  simp only [relativeTo?, lift, hunder]
  split <;> simp

/-! ## Reading -/

theorem walk_map (names : List Name) (piece : List Char) :
    walk (names.map Name.lift : List (Name α)) (piece.map ofChar) =
      (walk names piece).map Name.lift := by
  have hup : piece.map (ofChar : Char → α) = [dot, dot] ↔ piece = [dot, dot] :=
    ofChar_injective.list_map.eq_iff' rfl
  by_cases hname : IsName piece
  · rw [walk, walk, dif_pos (isName_map_iff.mpr hname), dif_pos hname, List.map_append]
    rfl
  · rw [walk, walk, dif_neg (mt isName_map_iff.mp hname), dif_neg hname]
    by_cases hdots : piece = [dot, dot]
    · rw [if_pos (hup.mpr hdots), if_pos hdots, List.map_dropLast]
    · rw [if_neg (mt hup.mp hdots), if_neg hdots]

theorem follow_lift (p : Path) (cs : List Char) :
    (p.lift : Path α).follow (cs.map ofChar) = (p.follow cs).lift := by
  have hwalk (pieces : List (List Char)) (names : List Name) :
      (pieces.map (List.map ofChar)).foldl walk (names.map Name.lift : List (Name α)) =
        (pieces.foldl walk names).map Name.lift := by
    induction pieces generalizing names with
    | nil => rfl
    | cons piece pieces ih => rw [List.map_cons, List.foldl_cons, List.foldl_cons, walk_map, ih]
  rw [follow, lift, Text.splitAt_map, hwalk]
  rfl

theorem rootOf?_map (cs : List Char) : rootOf? (cs.map ofChar : List α) = rootOf? cs := by
  have hslash (c? : Option Char) : c?.map (ofChar : Char → α) = some slash ↔ c? = some slash :=
    (Option.map_injective ofChar_injective).eq_iff' rfl
  simp only [rootOf?, List.head?_map, List.getElem?_map, Ne, hslash]

/-- A text of characters means the same path over each alphabet. -/
theorem ofChars?_map (cs : List Char) :
    ofChars? (cs.map ofChar : List α) = (ofChars? cs).map lift := by
  rw [ofChars?, ofChars?, rootOf?_map, Option.map_map]
  congr 1
  funext root
  exact follow_lift ⟨root, []⟩ cs

/-- A text of characters leads from a directory to the same path over each alphabet. -/
theorem enter_lift (p : Path) (part : List Char) :
    (p.lift : Path α).enter (part.map ofChar) = (p.enter part).lift := by
  rw [enter, enter, ofChars?_map]
  cases ofChars? part with
  | none => exact follow_lift p part
  | some q => rfl

/-- A path is one of characters if its text is made of them, and that text is read as the path. -/
theorem exists_lift_eq {p : Path α} {cs : List Char} (h : charsOf? p.chars = some cs) :
    ∃ q : Path, ofChars? cs = some q ∧ q.lift = p := by
  have hread := ofChars?_chars p
  rwa [Text.charsOf?_eq_some_iff.mp h, ofChars?_map, Option.map_eq_some_iff] at hread

end Path

end Posix

end BuildLens
