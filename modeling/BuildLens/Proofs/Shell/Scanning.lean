import BuildLens.Proofs.Shell.Words

/-!
# The scanner between two characters

The scanner of command lines is given as a machine that reads one character at a time. Between two
characters it keeps the words that are complete, the word begun, whether it is in a span, and
whether it holds a backslash of which the next character will tell what it stands for. What it makes
of the rest of a command line depends on these alone.

Blanks complete a word unless they are part of one. They are part of one in a span, and the first of
them is behind a backslash that is held. So a command line can be cut at blanks exactly where the
machine is clear of both.

Main definitions:

- `Shell.Scan`, `Shell.Scan.step`: the machine.
- `Shell.Scan.ofText`: the machine behind a text.
- `Shell.Scan.IsClear`: outside spans, and no backslash held.

Main results:

- `Shell.Scan.wordsWith_ofText`: the machine reads the words that the scanner reads.
- `Shell.words_append_iff`: where command lines can be cut.
-/

namespace BuildLens.Shell

open Text (isBlank)

/-- What the scanner keeps between two characters. The word begun has its last character first. -/
structure Scan where
  mode : Mode := .plain
  /-- Whether the last character is a backslash that may escape the next one. -/
  held : Bool := false
  word : List Char := []
  words : List (List Char) := []
deriving DecidableEq, Repr

namespace Scan

variable {s : Scan} {c q : Char} {text rest blanks : List Char}

/-- A backslash that is held stands for itself. -/
def release (s : Scan) : Scan :=
  if s.held then { s with held := false, word := '\\' :: s.word } else s

/-- Reads a character that is not escaped. -/
def read (s : Scan) (c : Char) : Scan :=
  if c = '\\' then { s with held := true }
  else match s.mode with
    | .plain =>
      if isBlank c then { s with word := [], words := s.words ++ finish s.word }
      else if isQuote c then { s with mode := .span c }
      else { s with word := c :: s.word }
    | .span q => if c = q then { s with mode := .plain } else { s with word := c :: s.word }

/-- Reads a character. -/
def step (s : Scan) (c : Char) : Scan :=
  if s.held ∧ s.mode.escapes c then { s with held := false, word := c :: s.word }
  else s.release.read c

/-- The machine behind a text. -/
def ofText (text : List Char) : Scan := text.foldl step {}

/-- Outside spans, and no backslash held. -/
def IsClear (s : Scan) : Prop := s.mode = .plain ∧ s.held = false

instance (s : Scan) : Decidable s.IsClear := inferInstanceAs (Decidable (_ ∧ _))

/-- The words of what was read and a text behind it. -/
def wordsWith (s : Scan) (rest : List Char) : List (List Char) :=
  s.words ++ wordsFrom s.mode s.word (if s.held then '\\' :: rest else rest)

/-- Only quotes open a span. -/
def IsQuoted (s : Scan) : Prop := ∀ q, s.mode = .span q → isQuote q = true

/-! ## The machine reads what the scanner reads -/

/-- A quote is no backslash. -/
theorem ne_backslash_of_isQuote (h : isQuote q = true) : q ≠ '\\' := by
  rintro rfl
  cases h

/-- A quote is no blank. -/
theorem isBlank_of_isQuote (h : isQuote q = true) : isBlank q = false := by
  obtain rfl | rfl : q = '"' ∨ q = '\'' := by simpa [isQuote] using h
  · decide
  · decide

@[simp]
theorem held_release (s : Scan) : s.release.held = false := by
  cases h : s.held <;> simp [release, h]

@[simp]
theorem mode_release (s : Scan) : s.release.mode = s.mode := by
  cases h : s.held <;> simp [release, h]

/-- A character that is read opens a span only if it is a quote. -/
theorem IsQuoted.read (h : s.IsQuoted) (c : Char) : (s.read c).IsQuoted := by
  intro q hq
  rw [Scan.read] at hq
  split at hq
  · exact h q hq
  split at hq
  · split at hq
    · exact h q hq
    split at hq
    · next hquote =>
      cases hq
      exact hquote
    · exact h q hq
  · split at hq
    · cases hq
    · exact h q hq

/-- A step opens a span only at a quote. -/
theorem IsQuoted.step (h : s.IsQuoted) (c : Char) : (s.step c).IsQuoted := by
  rw [Scan.step]
  split
  · exact h
  · refine IsQuoted.read (fun q hq => h q ?_) c
    rwa [mode_release] at hq

/-- Behind a character that is not escaped, a backslash that is held stands for itself. -/
theorem wordsWith_release (hs : s.IsQuoted)
    (hc : ∀ next, rest.head? = some next → s.mode.escapes next = false) :
    s.release.wordsWith rest = s.wordsWith rest := by
  cases hheld : s.held with
  | false => simp [release, hheld]
  | true =>
    simp only [release, hheld, if_true, wordsWith]
    cases hmode : s.mode with
    | plain =>
      rw [hmode] at hc
      simp [wordsFrom_plain_backslash hc]
    | span q =>
      rw [hmode] at hc
      simp [wordsFrom_span_backslash (ne_backslash_of_isQuote (hs q hmode)) hc]

/-- The words are those of the scanner after the next character. -/
theorem wordsWith_read (hheld : s.held = false) (c : Char) (rest : List Char) :
    (s.read c).wordsWith rest = s.wordsWith (c :: rest) := by
  rw [read]
  split
  · next hc => simp [wordsWith, hheld, hc]
  · next hc =>
    cases hmode : s.mode with
    | plain =>
      rw [wordsWith.eq_def s, hmode, hheld, if_neg Bool.false_ne_true,
        wordsFrom_plain_cons (.inl hc)]
      dsimp only
      split
      · simp [wordsWith]
      split
      · simp [wordsWith]
      · simp [wordsWith]
    | span q =>
      rw [wordsWith.eq_def s, hmode, hheld, if_neg Bool.false_ne_true,
        wordsFrom_span_cons (.inl hc)]
      dsimp only
      split
      · simp [wordsWith]
      · simp [wordsWith]

/-- Reading a character leaves the words of the whole text as they are. -/
theorem wordsWith_step (hs : s.IsQuoted) (c : Char) (rest : List Char) :
    (s.step c).wordsWith rest = s.wordsWith (c :: rest) := by
  rw [step]
  split
  · next h => simp [wordsWith, h.1, wordsFrom_escape h.2]
  · next h =>
    rw [wordsWith_read (held_release s)]
    cases hheld : s.held with
    | false => simp [release, hheld]
    | true =>
      refine wordsWith_release hs fun next hnext => ?_
      obtain rfl : c = next := by simpa using hnext
      simpa [hheld] using h

/-- The words are those of the scanner after any part of the text. -/
theorem foldl_step (hs : s.IsQuoted) (text rest : List Char) :
    (text.foldl step s).IsQuoted ∧
      (text.foldl step s).wordsWith rest = s.wordsWith (text ++ rest) := by
  induction text generalizing s with
  | nil => exact ⟨hs, rfl⟩
  | cons c text ih =>
    obtain ⟨hquoted, hwords⟩ := ih (hs.step c)
    exact ⟨hquoted, by rw [List.foldl_cons, hwords, wordsWith_step hs, List.cons_append]⟩

/-- In any text only quotes open spans. -/
theorem isQuoted_ofText (text : List Char) : (ofText text).IsQuoted :=
  (foldl_step (fun _ h => by cases h) text []).1

/-- The machine reads the words that the scanner reads, whatever follows. -/
theorem wordsWith_ofText (text rest : List Char) :
    (ofText text).wordsWith rest = wordsFrom .plain [] (text ++ rest) :=
  (foldl_step (fun _ h => by cases h) text rest).2

/-! ## Blanks behind a text -/

/-- Blanks before the first word do not count. -/
theorem wordsFrom_blanks (hblanks : ∀ c ∈ blanks, isBlank c = true) (rest : List Char) :
    wordsFrom .plain [] (blanks ++ rest) = wordsFrom .plain [] rest := by
  induction blanks with
  | nil => rfl
  | cons c blanks ih =>
    rw [List.cons_append, wordsFrom_blank (hblanks c List.mem_cons_self),
      ih fun c hc => hblanks c (List.mem_cons_of_mem _ hc)]
    simp [finish]

/-- Blanks behind the last word end it. -/
theorem wordsFrom_plain_blanks {word : List Char} (hblanks : ∀ c ∈ blanks, isBlank c = true) :
    wordsFrom .plain word blanks = finish word := by
  have hend (c : Char) (hc : blanks.head? = some c) : isBlank c = true :=
    hblanks c (List.mem_of_head? hc)
  have hnone : wordsFrom .plain [] blanks = [] := by
    simpa [finish] using wordsFrom_blanks hblanks []
  rw [wordsFrom_of_end hend, hnone, List.append_nil]

/-- Blanks in the last span belong to its word. -/
theorem wordsFrom_span_blanks {word : List Char} (hq : isQuote q = true)
    (hblanks : ∀ c ∈ blanks, isBlank c = true) :
    wordsFrom (.span q) word blanks = finish (blanks.reverse ++ word) := by
  induction blanks generalizing word with
  | nil => simp
  | cons c blanks ih =>
    have hc : isBlank c = true := hblanks c List.mem_cons_self
    have hcq : c ≠ q := by
      rintro rfl
      simp [isBlank_of_isQuote hq] at hc
    have hslash : c ≠ '\\' := by
      rintro rfl
      cases hc
    rw [wordsFrom_span_char hcq hslash, ih fun c hc => hblanks c (List.mem_cons_of_mem _ hc)]
    simp

/-- Behind a clear machine, blanks complete the word begun. -/
theorem IsClear.wordsWith_blanks (h : s.IsClear) (hne : blanks ≠ [])
    (hblanks : ∀ c ∈ blanks, isBlank c = true) (rest : List Char) :
    s.wordsWith (blanks ++ rest) = s.wordsWith [] ++ wordsFrom .plain [] rest := by
  cases blanks with
  | nil => exact absurd rfl hne
  | cons c blanks =>
    rw [wordsWith, wordsWith, h.1, h.2, if_neg Bool.false_ne_true, if_neg Bool.false_ne_true,
      List.cons_append, wordsFrom_blank (hblanks c List.mem_cons_self),
      wordsFrom_blanks fun c hc => hblanks c (List.mem_cons_of_mem _ hc)]
    simp

/-- A word that is ended tells the characters that were read. -/
theorem finish_inj {word word' : List Char} (h : finish word = finish word') : word = word' := by
  cases word <;> cases word' <;> simp_all [finish]

/-- Behind a machine that is not clear, blanks are added to the word begun. -/
theorem isClear_of_wordsWith_blanks (hs : s.IsQuoted) (hne : blanks ≠ [])
    (hblanks : ∀ c ∈ blanks, isBlank c = true) (h : s.wordsWith blanks = s.wordsWith []) :
    s.IsClear := by
  obtain ⟨c, rest, rfl⟩ := List.exists_cons_of_ne_nil hne
  have hc : isBlank c = true := hblanks c List.mem_cons_self
  have hslash : c ≠ '\\' := by
    rintro rfl
    cases hc
  cases hmode : s.mode with
  | plain =>
    refine ⟨hmode, ?_⟩
    cases hheld : s.held with
    | false => rfl
    | true =>
      have hescape : Mode.plain.escapes c = true := by simp [Mode.escapes, hc]
      have hrest : wordsFrom .plain (c :: s.word) rest = finish (c :: s.word) :=
        wordsFrom_plain_blanks fun c hc => hblanks c (List.mem_cons_of_mem _ hc)
      have hlone : wordsFrom .plain s.word ['\\'] = finish ('\\' :: s.word) := by
        rw [wordsFrom_plain_backslash (by simp), wordsFrom_nil]
      simp only [wordsWith, hmode, hheld, if_true, wordsFrom_escape hescape, hrest, hlone] at h
      exact absurd (List.head_eq_of_cons_eq (finish_inj (List.append_cancel_left h))) hslash
  | span q =>
    have hq : isQuote q = true := hs q hmode
    have hcq : c ≠ q := by
      rintro rfl
      simp [isBlank_of_isQuote hq] at hc
    have hescape : (Mode.span q).escapes c = false := by simp [Mode.escapes, hcq, hslash]
    rw [← wordsWith_release hs (by simpa [hmode] using hescape),
      ← @wordsWith_release s [] hs (by simp)] at h
    simp only [wordsWith, mode_release, hmode, held_release, Bool.false_eq_true, if_false,
      wordsFrom_span_blanks hq hblanks, wordsFrom_nil] at h
    have hlength := congrArg List.length (finish_inj (List.append_cancel_left h))
    rw [List.length_append, List.length_reverse, List.length_cons] at hlength
    omega

end Scan

/-- Command lines can be cut at blanks exactly where the scanner is clear. -/
theorem words_append_iff (f blanks : String) (hne : blanks ≠ "")
    (hblanks : ∀ c ∈ blanks.toList, isBlank c = true) :
    (∀ f', words (f ++ blanks ++ f') = words f ++ words f') ↔ (Scan.ofText f.toList).IsClear := by
  have hlist : blanks.toList ≠ [] := by simpa using hne
  have hwords (rest : String) : words (f ++ rest) =
      ((Scan.ofText f.toList).wordsWith rest.toList).map String.ofList := by
    rw [Scan.wordsWith_ofText, words, String.toList_append]
  have hself : words f = ((Scan.ofText f.toList).wordsWith []).map String.ofList := by
    rw [Scan.wordsWith_ofText, words, List.append_nil]
  constructor
  · intro h
    have hempty : words (f ++ blanks) = words f := by
      have hcut := h ""
      rwa [String.append_empty, show words "" = [] by rfl, List.append_nil] at hcut
    rw [hwords, hself] at hempty
    have hinj : Function.Injective String.ofList := fun _ _ => String.ofList_inj.mp
    exact Scan.isClear_of_wordsWith_blanks (Scan.isQuoted_ofText _) hlist hblanks
      (List.map_injective_iff.mpr hinj hempty)
  · intro h f'
    rw [String.append_assoc, hwords, hself, String.toList_append,
      h.wordsWith_blanks hlist hblanks, List.map_append, words]

end BuildLens.Shell
