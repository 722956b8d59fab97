import BuildLens.Text.Line

/-!
# What the lines of a text are

Lines and breaks make up a text in one way only. A line holds no break, each line is followed by a
break except that the last need not be, and a carriage return with a line feed behind it is one
break. A text that ends with a break has no empty line behind it.

Main definitions:

- `IsLineBreak`: a break, as it stands before the rest of a text.
- `Lined`: a text with its lines.

Main results:

- `lined_lines`: a text consists of the lines that it is cut into.
- `lines_eq_iff`: it consists of no others.
- `lines_append_newline`: the lines of two texts with a line feed between them.
-/

namespace BuildLens.Text

variable {cs rest line : List Char} {ls : List (List Char)}

/-- A break before the rest of a text: one character that ends a line, or a carriage return and a
line feed together. -/
inductive IsLineBreak (rest : List Char) : List Char → Prop
  | pair : IsLineBreak rest ['\r', '\n']
  | single {c : Char} (hbreak : isBreak c = true) (halone : c = '\r' → rest.head? ≠ some '\n') :
      IsLineBreak rest [c]

/-- The text consists of the lines. -/
inductive Lined : List Char → List (List Char) → Prop
  | empty : Lined [] []
  | unended {line : List Char} (hne : line ≠ []) (hline : ∀ c ∈ line, isBreak c = false) :
      Lined line [line]
  | ended {line br rest : List Char} {ls : List (List Char)}
      (hline : ∀ c ∈ line, isBreak c = false) (hbr : IsLineBreak rest br) (hrest : Lined rest ls) :
      Lined (line ++ (br ++ rest)) (line :: ls)

/-! ## Cutting at the first break -/

theorem lines_break {br : List Char} (h : IsLineBreak rest br) :
    lines (br ++ rest) = [] :: lines rest := by
  cases h with
  | pair => rfl
  | @single c hbreak halone =>
    rw [List.singleton_append, lines.eq_def]
    split
    · next heq => cases heq
    · next cs heq =>
      cases heq
      exact absurd rfl (halone rfl)
    · next heq =>
      cases heq
      rw [if_pos hbreak]

/-- A character that is no break belongs to the first line. -/
theorem lines_cons {c : Char} (h : isBreak c = false) (cs : List Char) :
    lines (c :: cs) = (c :: (lines cs).head?.getD []) :: (lines cs).tail := by
  rw [lines.eq_def]
  split
  · next heq => cases heq
  · next heq =>
    cases heq
    exact absurd h (by decide)
  · next c' cs' hpair heq =>
    cases heq
    rw [h, if_neg Bool.false_ne_true]
    cases lines cs <;> rfl

theorem lines_append {line : List Char} (h : ∀ c ∈ line, isBreak c = false) (hne : line ≠ [])
    (cs : List Char) :
    lines (line ++ cs) = (line ++ (lines cs).head?.getD []) :: (lines cs).tail := by
  induction line with
  | nil => exact absurd rfl hne
  | cons c line ih =>
    rw [List.forall_mem_cons] at h
    rw [List.cons_append, lines_cons h.1]
    by_cases hline : line = []
    · subst hline
      rfl
    · rw [ih h.2 hline]
      rfl

/-! ## The lines of a text -/

theorem Lined.lines_eq (h : Lined cs ls) : lines cs = ls := by
  induction h with
  | empty => rfl
  | @unended line hne hline =>
    have happend := lines_append hline hne []
    rw [List.append_nil] at happend
    rw [happend]
    simp [lines]
  | @ended line br rest ls hline hbr hrest ih =>
    by_cases hne : line = []
    · subst hne
      rw [List.nil_append, lines_break hbr, ih]
    · rw [lines_append hline hne, lines_break hbr, ih]
      simp

/-- One more character before a text lengthens its first line. -/
theorem Lined.cons {c : Char} (hc : isBreak c = false) (h : Lined cs ls) :
    Lined (c :: cs) ((c :: ls.head?.getD []) :: ls.tail) := by
  cases h with
  | empty => exact .unended (by simp) (by simpa using hc)
  | unended hne hline => exact .unended (by simp) (by simpa using ⟨hc, hline⟩)
  | @ended line br rest ls hline hbr hrest =>
    have hlonger : ∀ a ∈ c :: line, isBreak a = false := by simpa using ⟨hc, hline⟩
    have hended := Lined.ended hlonger hbr hrest
    exact hended

/-- A break before a text is the end of an empty line. -/
theorem Lined.blank {br : List Char} (hbr : IsLineBreak rest br) (h : Lined rest ls) :
    Lined (br ++ rest) ([] :: ls) := by
  have hempty : ∀ c ∈ ([] : List Char), isBreak c = false := nofun
  have hended := Lined.ended hempty hbr h
  exact hended

/-- A text consists of the lines that it is cut into. -/
theorem lined_lines (cs : List Char) : Lined cs (lines cs) := by
  induction cs using lines.induct with
  | case1 => exact .empty
  | case2 cs ih => exact ih.blank .pair
  | case3 c cs hpair hbreak ih =>
    have hbr : IsLineBreak cs [c] := by
      apply IsLineBreak.single hbreak
      intro hc hhead
      obtain ⟨rest, rfl⟩ := List.head?_eq_some_iff.mp hhead
      exact hpair rest hc rfl
    have hlines : lines (c :: cs) = [] :: lines cs := lines_break hbr
    rw [hlines]
    exact ih.blank hbr
  | case4 c cs hpair hbreak hnil ih =>
    have hc : isBreak c = false := Bool.eq_false_iff.mpr hbreak
    rw [lines_cons hc]
    exact ih.cons hc
  | case5 c cs hpair hbreak l ls hcons ih =>
    have hc : isBreak c = false := Bool.eq_false_iff.mpr hbreak
    rw [lines_cons hc]
    exact ih.cons hc

/-- A line holds no break. -/
theorem Lined.isBreak_eq_false (h : Lined cs ls) (hline : line ∈ ls) {c : Char} (hc : c ∈ line) :
    isBreak c = false := by
  induction h with
  | empty => cases hline
  | unended _ hclean =>
    rw [List.mem_singleton] at hline
    subst hline
    exact hclean c hc
  | ended hclean _ _ ih =>
    rcases List.mem_cons.mp hline with rfl | hline
    · exact hclean c hc
    · exact ih hline

/-- A text consists of no other lines. -/
theorem lines_eq_iff : lines cs = ls ↔ Lined cs ls := by
  constructor
  · intro h
    rw [← h]
    exact lined_lines cs
  · exact Lined.lines_eq

/-- A break stays one when the text behind it goes on. -/
theorem IsLineBreak.append {br : List Char} (h : IsLineBreak rest br) (hne : rest ≠ [])
    (more : List Char) : IsLineBreak (rest ++ more) br := by
  cases h with
  | pair => exact .pair
  | single hbreak halone =>
    obtain ⟨c, rest, rfl⟩ := List.exists_cons_of_ne_nil hne
    exact .single hbreak halone

/-- A line feed behind a text ends its last line, or is an empty line. -/
theorem lines_append_newline (cs rest : List Char) :
    lines (cs ++ '\n' :: rest) = lines cs ++ lines rest ∨
      lines (cs ++ '\n' :: rest) = lines cs ++ [] :: lines rest := by
  have hfeed : IsLineBreak rest ['\n'] := .single (by decide) nofun
  generalize hls : lines cs = ls
  rw [lines_eq_iff] at hls
  induction hls with
  | empty => exact .inr (lines_break hfeed)
  | unended hne hline =>
    exact .inl (Lined.ended hline hfeed (lined_lines rest)).lines_eq
  | @ended line br cs ls hline hbr hcs ih =>
    rw [List.append_assoc, List.append_assoc]
    by_cases hlast : br = ['\r'] ∧ cs = []
    · -- A carriage return that ended the text is now one break with the line feed.
      obtain ⟨rfl, rfl⟩ := hlast
      rw [← hcs.lines_eq]
      exact .inl (Lined.ended hline .pair (lined_lines rest)).lines_eq
    · have hbr' : IsLineBreak (cs ++ '\n' :: rest) br := by
        by_cases hcs : cs = []
        · subst hcs
          cases hbr with
          | pair => exact .pair
          | single hbreak => exact .single hbreak fun hc => hlast.elim ⟨by rw [hc], rfl⟩
        · exact hbr.append hcs _
      rw [(Lined.ended hline hbr' (lined_lines _)).lines_eq]
      exact ih.imp (congrArg (line :: ·)) (congrArg (line :: ·))

example : lines "a\r\nb\n\nc\r".toList = ["a".toList, "b".toList, [], "c".toList] := by decide

end BuildLens.Text
