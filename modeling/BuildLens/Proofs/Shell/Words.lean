import BuildLens.Shell.Words
import Mathlib

/-!
# What the scanner of command lines reads

The ways to write words in a command line are given as a grammar that knows nothing of the scanner's
modes: a word is written as pieces side by side, and blanks stand between words. Each relation has
the text that is left behind the part it describes as its last argument, since what a lone backslash
stands for depends on the character behind it.

Every text is a way of writing some words, and the scanner reads back exactly the words that were
written.

Main definitions:

- `Shell.SpanText`: what stands between the quotes of a span.
- `Shell.PieceText`, `Shell.WordText`: a piece of a word, and pieces side by side.
- `Shell.LineText`: a command line and the words written in it.

Main results:

- `Shell.wordsFrom_eq_of_lineText`: the scanner reads the words that were written.
- `Shell.exists_lineText`: every text is a way of writing words.
- `Shell.words_eq_iff`: the words of a command line are the words written in it.
-/

namespace BuildLens.Shell

open Text (isBlank)

variable {mode : Mode} {word text rest cs : List Char} {c q : Char}

/-! ## One step of the scanner -/

@[simp]
theorem wordsFrom_nil (mode : Mode) (word : List Char) : wordsFrom mode word [] = finish word := by
  rw [wordsFrom.eq_def]

/-- A backslash escapes the next character, or stands for itself. -/
theorem wordsFrom_backslash_cons (mode : Mode) (word : List Char) (c : Char) (rest : List Char) :
    wordsFrom mode word ('\\' :: c :: rest) =
      if mode.escapes c then wordsFrom mode (c :: word) rest
      else wordsFrom mode ('\\' :: word) (c :: rest) := by
  rw [wordsFrom.eq_def]
  rfl

/-- Outside spans a blank ends a word, a quote opens a span, and other characters stand for
themselves. -/
theorem wordsFrom_plain_cons (hc : c ≠ '\\' ∨ rest = []) :
    wordsFrom .plain word (c :: rest) =
      if isBlank c then finish word ++ wordsFrom .plain [] rest
      else if isQuote c then wordsFrom (.span c) word rest
      else wordsFrom .plain (c :: word) rest := by
  rw [wordsFrom.eq_def]
  split <;> grind

/-- Inside a span only its own quote is special. -/
theorem wordsFrom_span_cons (hc : c ≠ '\\' ∨ rest = []) :
    wordsFrom (.span q) word (c :: rest) =
      if c = q then wordsFrom .plain word rest else wordsFrom (.span q) (c :: word) rest := by
  rw [wordsFrom.eq_def]
  split <;> grind

/-- A character that is escaped stands for itself. -/
theorem wordsFrom_escape (h : mode.escapes c = true) :
    wordsFrom mode word ('\\' :: c :: rest) = wordsFrom mode (c :: word) rest := by
  rw [wordsFrom_backslash_cons, if_pos h]

/-- A backslash that is no escape stands for itself outside spans. -/
theorem wordsFrom_plain_backslash
    (h : ∀ next, rest.head? = some next → Mode.plain.escapes next = false) :
    wordsFrom .plain word ('\\' :: rest) = wordsFrom .plain ('\\' :: word) rest := by
  cases rest with
  | nil => rw [wordsFrom_plain_cons (.inr rfl), if_neg (by decide), if_neg (by decide)]
  | cons next rest => rw [wordsFrom_backslash_cons, if_neg (by simp [h next rfl])]

/-- A backslash that is no escape stands for itself in a span. -/
theorem wordsFrom_span_backslash (hq : q ≠ '\\')
    (h : ∀ next, rest.head? = some next → (Mode.span q).escapes next = false) :
    wordsFrom (.span q) word ('\\' :: rest) = wordsFrom (.span q) ('\\' :: word) rest := by
  cases rest with
  | nil => rw [wordsFrom_span_cons (.inr rfl), if_neg hq.symm]
  | cons next rest => rw [wordsFrom_backslash_cons, if_neg (by simp [h next rfl])]

/-- A blank ends a word. -/
theorem wordsFrom_blank (h : isBlank c = true) :
    wordsFrom .plain word (c :: rest) = finish word ++ wordsFrom .plain [] rest := by
  have hc : c ≠ '\\' := by
    rintro rfl
    cases h
  rw [wordsFrom_plain_cons (.inl hc), if_pos h]

/-- A quote opens a span. -/
theorem wordsFrom_open (h : isQuote c = true) :
    wordsFrom .plain word (c :: rest) = wordsFrom (.span c) word rest := by
  obtain rfl | rfl : c = '"' ∨ c = '\'' := by simpa [isQuote] using h
  all_goals rw [wordsFrom_plain_cons (.inl (by decide)), if_neg (by decide), if_pos h]

/-- A character that is not special stands for itself. -/
theorem wordsFrom_char (hblank : isBlank c = false) (hquote : isQuote c = false) (hc : c ≠ '\\') :
    wordsFrom .plain word (c :: rest) = wordsFrom .plain (c :: word) rest := by
  rw [wordsFrom_plain_cons (.inl hc), if_neg (by simp [hblank]), if_neg (by simp [hquote])]

/-- The quote that opened a span closes it. -/
theorem wordsFrom_close (hq : q ≠ '\\') :
    wordsFrom (.span q) word (q :: rest) = wordsFrom .plain word rest := by
  rw [wordsFrom_span_cons (.inl hq), if_pos rfl]

/-- A character in a span stands for itself. -/
theorem wordsFrom_span_char (hq : c ≠ q) (hc : c ≠ '\\') :
    wordsFrom (.span q) word (c :: rest) = wordsFrom (.span q) (c :: word) rest := by
  rw [wordsFrom_span_cons (.inl hc), if_neg hq]

/-! ## The grammar -/

/-- The text that stands behind the opening quote of a span, the characters written in it, and the
text behind the span. The last span of a command line may lack its closing quote. `escapable` are
the characters that a backslash escapes there; before any other one it stands for itself. -/
inductive SpanText (q : Char) (escapable : Char → Prop) :
    (text cs rest : List Char) → Prop where
  | close {rest : List Char} : SpanText q escapable (q :: rest) [] rest
  | unclosed : SpanText q escapable [] [] []
  | escape {c : Char} {text cs rest : List Char} (hc : escapable c)
      (h : SpanText q escapable text cs rest) :
      SpanText q escapable ('\\' :: c :: text) (c :: cs) rest
  | literal {c : Char} {text cs rest : List Char} (hq : c ≠ q)
      (hc : c = '\\' → ∀ next, text.head? = some next → ¬ escapable next)
      (h : SpanText q escapable text cs rest) :
      SpanText q escapable (c :: text) (c :: cs) rest

/-- Outside spans a backslash escapes a blank, a quote and a backslash. -/
def Escapable (c : Char) : Prop := isBlank c = true ∨ c = '"' ∨ c = '\'' ∨ c = '\\'

/-- A text that begins with a piece of a word, the characters for which the piece stands, and the
text behind the piece. A backslash escapes a blank, a quote or a backslash; in double quotes it
escapes a double quote and a backslash, and in single quotes a single quote. -/
inductive PieceText : (text cs rest : List Char) → Prop where
  | char {c : Char} {rest : List Char} (hc : ¬ Escapable c) : PieceText (c :: rest) [c] rest
  | escape {c : Char} {rest : List Char} (hc : Escapable c) :
      PieceText ('\\' :: c :: rest) [c] rest
  | backslash {rest : List Char} (h : ∀ next, rest.head? = some next → ¬ Escapable next) :
      PieceText ('\\' :: rest) ['\\'] rest
  | double {text cs rest : List Char}
      (h : SpanText '"' (fun c => c = '"' ∨ c = '\\') text cs rest) :
      PieceText ('"' :: text) cs rest
  | single {text cs rest : List Char} (h : SpanText '\'' (fun c => c = '\'') text cs rest) :
      PieceText ('\'' :: text) cs rest

/-- A text that begins with pieces side by side, the characters for which they stand, and the text
behind them. -/
inductive WordText : (text cs rest : List Char) → Prop where
  | nil {rest : List Char} : WordText rest [] rest
  | cons {text cs next cs' rest : List Char} (hpiece : PieceText text cs next)
      (hmore : WordText next cs' rest) : WordText text (cs ++ cs') rest

/-- A command line, and the words written in it. A word goes up to a blank or the end; spans without
characters that stand alone are no word. -/
inductive LineText : (text : List Char) → (words : List (List Char)) → Prop where
  | nil : LineText [] []
  | blank {c : Char} {text : List Char} {words : List (List Char)} (hc : isBlank c = true)
      (h : LineText text words) : LineText (c :: text) words
  | word {text cs rest : List Char} {words : List (List Char)} (hword : WordText text cs rest)
      (hne : cs ≠ []) (hend : ∀ c, rest.head? = some c → isBlank c = true)
      (h : LineText rest words) : LineText text (cs :: words)
  /-- Spans without characters that stand alone. -/
  | empty {text rest : List Char} {words : List (List Char)} (hword : WordText text [] rest)
      (hend : ∀ c, rest.head? = some c → isBlank c = true)
      (h : LineText rest words) : LineText text words

/-! ## The scanner reads what was written -/

theorem plain_escapes_iff : Mode.plain.escapes c = true ↔ Escapable c := by
  simp [Mode.escapes, isQuote, Escapable, or_assoc]

theorem plain_escapes_eq_false_iff : Mode.plain.escapes c = false ↔ ¬ Escapable c := by
  rw [← plain_escapes_iff, Bool.not_eq_true]

/-- In its span the scanner adds the characters of the span to the word begun. -/
theorem wordsFrom_spanText {escapable : Char → Prop} (hq : q ≠ '\\')
    (hesc : ∀ c, (Mode.span q).escapes c = true ↔ escapable c)
    (h : SpanText q escapable text cs rest) :
    wordsFrom (.span q) word text = wordsFrom .plain (cs.reverse ++ word) rest := by
  induction h generalizing word with
  | close => exact wordsFrom_close hq
  | unclosed => simp
  | escape hc _ ih =>
    rw [wordsFrom_escape ((hesc _).mpr hc), ih]
    simp
  | @literal c text cs rest hcq hc _ ih =>
    have hstep : wordsFrom (.span q) word (c :: text) = wordsFrom (.span q) (c :: word) text := by
      by_cases hslash : c = '\\'
      · subst hslash
        refine wordsFrom_span_backslash hq fun next hnext => ?_
        rw [← Bool.not_eq_true, hesc]
        exact hc rfl next hnext
      · exact wordsFrom_span_char hcq hslash
    rw [hstep, ih]
    simp

/-- A piece is read as the characters for which it stands. -/
theorem wordsFrom_pieceText (h : PieceText text cs rest) :
    wordsFrom .plain word text = wordsFrom .plain (cs.reverse ++ word) rest := by
  cases h with
  | @char c _ hc =>
    obtain ⟨hblank, hdouble, hsingle, hslash⟩ :
        isBlank c = false ∧ c ≠ '"' ∧ c ≠ '\'' ∧ c ≠ '\\' := by
      simpa [Escapable] using hc
    exact wordsFrom_char hblank (by simp [isQuote, hdouble, hsingle]) hslash
  | escape hc => exact wordsFrom_escape (plain_escapes_iff.mpr hc)
  | backslash h =>
    exact wordsFrom_plain_backslash fun next hnext => plain_escapes_eq_false_iff.mpr (h next hnext)
  | double h =>
    rw [wordsFrom_open rfl]
    exact wordsFrom_spanText (by decide) (fun c => by simp [Mode.escapes]) h
  | single h =>
    rw [wordsFrom_open rfl]
    exact wordsFrom_spanText (by decide) (fun c => by simp [Mode.escapes]) h

/-- Pieces side by side are read as one word. -/
theorem wordsFrom_wordText (h : WordText text cs rest) :
    wordsFrom .plain word text = wordsFrom .plain (cs.reverse ++ word) rest := by
  induction h generalizing word with
  | nil => rfl
  | cons hpiece _ ih =>
    rw [wordsFrom_pieceText hpiece, ih]
    simp

/-- A word ends at a blank and at the end of the text. -/
theorem wordsFrom_of_end (hend : ∀ c, rest.head? = some c → isBlank c = true) :
    wordsFrom .plain word rest = finish word ++ wordsFrom .plain [] rest := by
  cases rest with
  | nil => simp [finish]
  | cons c rest =>
    rw [wordsFrom_blank (hend c rfl), wordsFrom_blank (hend c rfl)]
    simp [finish]

/-- The scanner reads the words that were written. -/
theorem wordsFrom_eq_of_lineText {words : List (List Char)} (h : LineText text words) :
    wordsFrom .plain [] text = words := by
  induction h with
  | nil => simp [finish]
  | blank hc _ ih =>
    rw [wordsFrom_blank hc, ih]
    simp [finish]
  | word hword hne hend _ ih =>
    rw [wordsFrom_wordText hword, wordsFrom_of_end hend, ih]
    simp [finish, hne]
  | empty hword hend _ ih =>
    rw [wordsFrom_wordText hword, wordsFrom_of_end hend, ih]
    simp [finish]

/-! ## Every text is a way of writing words -/

/-- Any text can stand behind the opening quote of a span. -/
theorem exists_spanText (q : Char) (escapable : Char → Prop) (text : List Char) :
    ∃ cs rest, SpanText q escapable text cs rest ∧ rest.length ≤ text.length := by
  induction hlen : text.length using Nat.strong_induction_on generalizing text with
  | _ n ih =>
    cases text with
    | nil => exact ⟨_, _, .unclosed, by simp⟩
    | cons c text =>
      rw [List.length_cons] at hlen
      by_cases hesc : c = '\\' ∧ ∃ next more, text = next :: more ∧ escapable next
      · obtain ⟨rfl, next, more, rfl, hnext⟩ := hesc
        rw [List.length_cons] at hlen
        obtain ⟨cs, rest, hspan, hle⟩ := ih _ (by omega) more rfl
        exact ⟨_, rest, .escape hnext hspan, by omega⟩
      · by_cases hclose : c = q
        · subst hclose
          exact ⟨_, _, .close, by omega⟩
        · obtain ⟨cs, rest, hspan, hle⟩ := ih _ (by omega) text rfl
          refine ⟨_, rest, .literal hclose (fun hc next hnext hin => hesc ⟨hc, ?_⟩) hspan, by omega⟩
          obtain ⟨more, rfl⟩ := List.head?_eq_some_iff.mp hnext
          exact ⟨next, more, rfl, hin⟩

/-- A text that begins with no blank begins with a piece. -/
theorem exists_pieceText (hc : isBlank c = false) (text : List Char) :
    ∃ cs rest, PieceText (c :: text) cs rest ∧ rest.length < (c :: text).length := by
  simp only [List.length_cons, Nat.lt_succ_iff]
  by_cases hesc : Escapable c
  · rcases hesc with hblank | rfl | rfl | rfl
    · simp [hc] at hblank
    · obtain ⟨cs, rest, hspan, hle⟩ := exists_spanText '"' (fun c => c = '"' ∨ c = '\\') text
      exact ⟨cs, rest, .double hspan, hle⟩
    · obtain ⟨cs, rest, hspan, hle⟩ := exists_spanText '\'' (fun c => c = '\'') text
      exact ⟨cs, rest, .single hspan, hle⟩
    · by_cases hnext : ∃ next more, text = next :: more ∧ Escapable next
      · obtain ⟨next, more, rfl, hin⟩ := hnext
        exact ⟨_, more, .escape hin, by simp⟩
      · refine ⟨_, text, .backslash fun next hhead hin => hnext ?_, le_rfl⟩
        obtain ⟨more, rfl⟩ := List.head?_eq_some_iff.mp hhead
        exact ⟨next, more, rfl, hin⟩
  · exact ⟨_, text, .char hesc, le_rfl⟩

/-- Any text begins with pieces that reach up to a blank or the end. -/
theorem exists_wordText (text : List Char) :
    ∃ cs rest, WordText text cs rest ∧ (∀ c, rest.head? = some c → isBlank c = true) ∧
      rest.length ≤ text.length := by
  induction hlen : text.length using Nat.strong_induction_on generalizing text with
  | _ n ih =>
    cases text with
    | nil => exact ⟨[], [], .nil, by simp, by simp⟩
    | cons c text =>
      cases hc : isBlank c with
      | true => exact ⟨[], c :: text, .nil, by simp [hc], hlen.le⟩
      | false =>
        obtain ⟨cs, next, hpiece, hlt⟩ := exists_pieceText hc text
        obtain ⟨cs', rest, hword, hend, hle⟩ := ih _ (hlen ▸ hlt) next rfl
        exact ⟨_, rest, .cons hpiece hword, hend, by omega⟩

/-- Every text is a way of writing words. -/
theorem exists_lineText (text : List Char) : ∃ words, LineText text words := by
  induction hlen : text.length using Nat.strong_induction_on generalizing text with
  | _ n ih =>
    -- Behind the pieces at the start stands a blank, so what follows the blank is shorter.
    obtain ⟨cs, rest, hword, hend, hle⟩ := exists_wordText text
    obtain ⟨words, hrest⟩ : ∃ words, LineText rest words := by
      cases rest with
      | nil => exact ⟨[], .nil⟩
      | cons c rest =>
        rw [List.length_cons] at hle
        obtain ⟨words, h⟩ := ih _ (by omega) rest rfl
        exact ⟨words, .blank (hend c rfl) h⟩
    by_cases hne : cs = []
    · subst hne
      exact ⟨words, .empty hword hend hrest⟩
    · exact ⟨cs :: words, .word hword hne hend hrest⟩

/-- The words of a command line are exactly the words written in it. -/
theorem words_eq_iff (commandLine : String) (ws : List String) :
    words commandLine = ws ↔ LineText commandLine.toList (ws.map String.toList) := by
  have hmap : words commandLine = ws ↔
      wordsFrom .plain [] commandLine.toList = ws.map String.toList := by
    rw [words, ← List.map_inj_right (f := String.toList) (fun _ _ => String.toList_inj.mp),
      List.map_map]
    simp [Function.comp_def]
  rw [hmap]
  constructor
  · intro h
    obtain ⟨written, hline⟩ := exists_lineText commandLine.toList
    rw [← h, wordsFrom_eq_of_lineText hline]
    exact hline
  · exact wordsFrom_eq_of_lineText

example : words "a\\ b \"\" C:\\d'e'\"\\\"" = ["a b", "C:\\de\""] := by decide +kernel

end BuildLens.Shell
