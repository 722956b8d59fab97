import BuildLens.Text.LetterCase
import Mathlib.Data.List.Basic

/-!
# Letter case and backslashes

A backslash has no case, and nothing else has it for its upper case. What stands in front of a
backslash does not bear on the lower case of what stands behind it. No character is without a lower
case, so that a text gets another one when characters are dropped.

Main results:

- `map_upperChar_of_flatMap`: which texts are the marker of a network path in capital letters.
- `eq_backslash_of_upperChar`: a backslash is the upper case of nothing else.
- `lowerAfter_backslash`: the lower case of what stands behind a backslash.
- `eq_of_sublist_of_lower`: a text that is left of another one and has its lower case is that text.
-/

namespace BuildLens.Text

variable {c t : Char} {cs marker before : List Char}

/-! ## Upper case -/

/-- Characters of the marker that tells a long network path: of no character with an upper case of
several characters is one of them the first. -/
def isMark (c : Char) : Bool := c == '\\' || c == '?' || c == 'U' || c == 'N' || c == 'C'

theorem upperChar_eq_or (c : Char) :
    (∃ t, upperChar c = [t]) ∨ ∃ e ∈ upperExpansions, upperChar c = e.2.map Char.ofNat := by
  rw [upperChar]
  split
  · exact .inl ⟨_, rfl⟩
  split
  · next ns hns =>
    obtain ⟨_, _, hsplit, -⟩ := List.lookup_eq_some_iff.mp hns
    exact .inr ⟨(c.toNat, ns), by rw [hsplit]; simp, rfl⟩
  · exact .inl ⟨_, rfl⟩

theorem upperChar_ne_nil (c : Char) : upperChar c ≠ [] := by
  have hsome : ∀ e ∈ upperExpansions, e.2 ≠ [] := by decide +kernel
  rcases upperChar_eq_or c with ⟨t, ht⟩ | ⟨e, he, hupper⟩
  · simp [ht]
  · simpa [hupper] using hsome e he

theorem upperChar_of_isMark (h : (upperChar c).head? = some t) (ht : isMark t = true) :
    upperChar c = [t] := by
  have hnone : ∀ e ∈ upperExpansions, (e.2.map Char.ofNat).head?.any isMark = false := by
    decide +kernel
  rcases upperChar_eq_or c with ⟨t', ht'⟩ | ⟨e, he, hupper⟩
  · rw [ht', List.head?_cons, Option.some_inj] at h
    rw [ht', h]
  · have hfirst := hnone e he
    rw [← hupper, h, Option.any_some, ht] at hfirst
    cases hfirst

/-- A text whose upper case is made of the marker's characters has one character for each. -/
theorem map_upperChar_of_flatMap (h : cs.flatMap upperChar = marker)
    (hmark : ∀ t ∈ marker, isMark t = true) : cs.map upperChar = marker.map ([·]) := by
  induction cs generalizing marker with
  | nil => simp [← h]
  | cons c cs ih =>
    cases marker with
    | nil =>
      rw [List.flatMap_cons, List.append_eq_nil_iff] at h
      exact absurd h.1 (upperChar_ne_nil c)
    | cons t marker =>
      rw [List.forall_mem_cons] at hmark
      rw [List.flatMap_cons] at h
      have hhead : (upperChar c).head? = some t := by
        rw [← List.head?_append_of_ne_nil _ (upperChar_ne_nil c), h, List.head?_cons]
      have hone := upperChar_of_isMark hhead hmark.1
      rw [hone, List.singleton_append, List.cons.injEq] at h
      rw [List.map_cons, List.map_cons, hone, ih h.2 hmark.2]

/-! ## Backslashes -/

/-- Characters beyond ASCII are not shifted to the backslash, if no run of the table meets it. -/
theorem ofNat_shiftCase_ne_backslash {shifts : List CaseShift} {n : Nat} (hn : 128 ≤ n)
    (hshifts : ∀ s ∈ shifts, s.last < 128 ∨ (92 : Int) < s.first + s.shift ∨
      (s.last : Int) + s.shift < 92) : Char.ofNat (shiftCase shifts n) ≠ '\\' := by
  intro heq
  have hcode : shiftCase shifts n = 92 := by
    have hchar := congrArg Char.toNat heq
    by_cases hvalid : (shiftCase shifts n).isValidChar
    · rw [Char.ofNat, dif_pos hvalid] at hchar
      exact hchar
    · rw [Char.ofNat, dif_neg hvalid] at hchar
      cases hchar
  rw [shiftCase] at hcode
  split at hcode
  · next s hs =>
    have hbound := hshifts s (List.mem_of_find?_eq_some hs)
    have hrange := List.find?_some hs
    simp only [Bool.and_eq_true, decide_eq_true_eq] at hrange
    rw [Int.ofNat_eq_natCast] at hcode
    omega
  · omega

/-- No other character has a backslash for its upper case. -/
theorem eq_backslash_of_upperChar (h : upperChar c = ['\\']) : c = '\\' := by
  have hascii : ∀ n < 128, (Char.ofNat n).toUpper = '\\' → Char.ofNat n = '\\' := by decide
  have hexpand : ∀ e ∈ upperExpansions, e.2.map Char.ofNat ≠ ['\\'] := by decide +kernel
  rw [upperChar] at h
  split at h
  · next hlt =>
    rw [← Char.ofNat_toNat c] at h ⊢
    exact hascii c.toNat hlt (List.singleton_inj.mp h)
  · next hlt =>
    split at h
    · next ns hns =>
      obtain ⟨_, _, hsplit, -⟩ := List.lookup_eq_some_iff.mp hns
      exact absurd h (hexpand (c.toNat, ns) (by rw [hsplit]; simp))
    · exact absurd (List.singleton_inj.mp h)
        (ofNat_shiftCase_ne_backslash (Nat.le_of_not_lt hlt) (by decide +kernel))

/-- No other character has a backslash for its lower case. -/
theorem eq_backslash_of_lowerChar (h : (lowerChar c).head? = some '\\') : c = '\\' := by
  have hascii : ∀ n < 128, (Char.ofNat n).toLower = '\\' → Char.ofNat n = '\\' := by decide
  rw [lowerChar] at h
  split at h
  · next hlt =>
    rw [← Char.ofNat_toNat c] at h ⊢
    exact hascii c.toNat hlt (Option.some.inj h)
  split at h
  · cases h
  · next hlt _ =>
    exact absurd (Option.some.inj h)
      (ofNat_shiftCase_ne_backslash (Nat.le_of_not_lt hlt) (by decide +kernel))

theorem lowerChar_ne_nil (c : Char) : lowerChar c ≠ [] := by
  rw [lowerChar]
  split
  · simp
  · split <;> simp

theorem eq_backslash_of_lowerAfter (h : (lowerAfter before (c :: cs)).head? = some '\\') :
    c = '\\' := by
  rw [lowerAfter] at h
  split at h
  · split at h <;> cases h
  · apply eq_backslash_of_lowerChar
    rwa [List.head?_append_of_ne_nil _ (lowerChar_ne_nil c)] at h

/-! ## What stands behind a backslash -/

theorem meetsCased_cons (c : Char) (cs : List Char) :
    meetsCased (c :: cs) =
      if inRanges caseIgnorableRanges c.toNat then meetsCased cs
      else inRanges casedRanges c.toNat := by
  simp only [meetsCased, List.dropWhile_cons]
  cases inRanges caseIgnorableRanges c.toNat <;> rfl

/-- Letters are not looked for beyond a backslash. -/
theorem meetsCased_backslash (nearer before : List Char) :
    meetsCased (nearer ++ '\\' :: before) = meetsCased (nearer ++ ['\\']) := by
  have hstop : inRanges caseIgnorableRanges '\\'.toNat = false := by decide +kernel
  induction nearer with
  | nil =>
    rw [List.nil_append, List.nil_append, meetsCased_cons, meetsCased_cons, hstop]
    rfl
  | cons c nearer ih =>
    rw [List.cons_append, List.cons_append, meetsCased_cons, meetsCased_cons, ih]

/-- What stands in front of a backslash does not bear on the lower case of what stands behind. -/
theorem lowerAfter_backslash (nearer before cs : List Char) :
    lowerAfter (nearer ++ '\\' :: before) cs = lowerAfter (nearer ++ ['\\']) cs := by
  induction cs generalizing nearer with
  | nil => rfl
  | cons c cs ih =>
    have hrest := ih (c :: nearer)
    rw [List.cons_append, List.cons_append] at hrest
    rw [lowerAfter, lowerAfter, meetsCased_backslash, hrest]

/-! ## The length of the lower case -/

/-- The lower case of a text is as long as those of its characters together. -/
theorem length_lowerAfter (before cs : List Char) :
    (lowerAfter before cs).length = (cs.flatMap lowerChar).length := by
  have hsigma : (lowerChar '\u03A3').length = 1 := by decide +kernel
  induction cs generalizing before with
  | nil => rfl
  | cons c cs ih =>
    rw [lowerAfter, List.length_append, ih, List.flatMap_cons, List.length_append]
    split
    · next hc =>
      rw [hc, hsigma]
      split <;> rfl
    · rfl

/-- Dropping characters makes the lower case of a text shorter. -/
theorem length_flatMap_lowerChar_lt {part : List Char} (h : part.Sublist cs) :
    part = cs ∨ (part.flatMap lowerChar).length < (cs.flatMap lowerChar).length := by
  induction h with
  | slnil => exact .inl rfl
  | @cons part cs c _ ih =>
    have hpos : 0 < (lowerChar c).length := List.length_pos_iff.mpr (lowerChar_ne_nil c)
    rw [List.flatMap_cons, List.length_append]
    rcases ih with rfl | hlt
    · exact .inr (Nat.lt_add_of_pos_left hpos)
    · exact .inr (Nat.lt_add_left _ hlt)
  | cons_cons c _ ih =>
    rw [List.flatMap_cons, List.flatMap_cons, List.length_append, List.length_append]
    rcases ih with rfl | hlt
    · exact .inl rfl
    · exact .inr (Nat.add_lt_add_left hlt _)

theorem eq_of_sublist_of_lower {part : List Char} (h : part.Sublist cs)
    (hlower : lower (String.ofList part) = lower (String.ofList cs)) : part = cs := by
  have hsame := congrArg List.length (String.ofList_injective hlower)
  rw [String.toList_ofList, String.toList_ofList, length_lowerAfter, length_lowerAfter] at hsame
  exact (length_flatMap_lowerChar_lt h).resolve_right (Nat.ne_of_lt · hsame)

end BuildLens.Text
