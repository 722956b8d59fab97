import BuildLens.Proofs.Shell.Words
import BuildLens.Shell.Quoting
import Mathlib

/-!
# Quoted words read again by the scanner

Words are quoted for a shell, where a backslash between single quotes stands for itself. The scanner
of flag strings takes a backslash before a single quote for an escape there, so a word in which a
backslash comes to stand before a quote is not read back; every other word is, unless it is empty.

Main definitions:

- `Shell.KeepsBackslashes`: no backslash of the word comes to stand before a single quote.

Main results:

- `Shell.quoteWord_cases`: the three ways in which a word is written.
- `Shell.wordsFrom_quoteWord`: a word that keeps its backslashes is read back.
- `Shell.exists_wordsFrom_quoteWord`: any other word comes back with a quote for a backslash.
- `Shell.words_quote_eq_iff`: the command lines that are read back.
-/

namespace BuildLens.Shell

open Text (isBlank)

variable {mode : Mode} {word text rest cs : List Char} {c : Char}

/-! ## How words are written -/

/-- A word is quoted as two quotes, as itself, or between quotes. -/
theorem quoteWord_cases (cs : List Char) :
    (cs = [] ∧ quoteWord cs = ['\'', '\'']) ∨
      (cs ≠ [] ∧ (∀ c ∈ cs, isHarmless c = true) ∧ quoteWord cs = cs) ∨
      (cs ≠ [] ∧ quoteWord cs = '\'' :: cs.flatMap quoteChar ++ ['\'']) := by
  by_cases hne : cs = []
  · exact .inl ⟨hne, by simp [quoteWord, hne]⟩
  · by_cases hall : cs.all isHarmless
    · exact .inr (.inl ⟨hne, List.all_eq_true.mp hall, by simp [quoteWord, hne, hall]⟩)
    · exact .inr (.inr ⟨hne, by simp [quoteWord, hne, hall]⟩)

@[simp]
theorem quoteChar_quote : quoteChar '\'' = ['\'', '"', '\'', '"', '\''] := rfl

theorem quoteChar_of_ne (h : c ≠ '\'') : quoteChar c = [c] := if_neg h

/-- What follows the first word of a command line that begins the words `ws` behind it. -/
def quoteRest (ws : List String) : List Char :=
  if ws = [] then [] else ' ' :: (quote ws).toList

/-- Words are quoted one after the other. -/
theorem toList_quote_cons (w : String) (ws : List String) :
    (quote (w :: ws)).toList = quoteWord w.toList ++ quoteRest ws := by
  cases ws with
  | nil => simp [quote, quoteRest]
  | cons v ws => simp [quote, quoteRest]

/-- A harmless character is a letter or a digit of the Latin alphabet, or one of a few signs. -/
theorem isHarmless_iff :
    isHarmless c = true ↔ (65 ≤ c.toNat ∧ c.toNat ≤ 90) ∨ (97 ≤ c.toNat ∧ c.toNat ≤ 122) ∨
      (48 ≤ c.toNat ∧ c.toNat ≤ 57) ∨ c ∈ "_@%+=:,./-".toList := by
  simp only [isHarmless, Char.isAlphanum, Char.isAlpha, Char.isUpper, Char.isLower, Char.isDigit,
    Bool.or_eq_true, Bool.and_eq_true, decide_eq_true_eq, UInt32.le_iff_toNat_le, ge_iff_le,
    List.contains_iff_mem, or_assoc]
  rfl

/-- A harmless character is no blank. -/
theorem isBlank_of_isHarmless (h : isHarmless c = true) : isBlank c = false := by
  have hsigns : "_@%+=:,./-".toList.all (fun c => !isBlank c) = true := by decide
  rw [← Bool.not_eq_true]
  intro hblank
  have hrange : (9 ≤ c.toNat ∧ c.toNat ≤ 32) ∨ 0x85 ≤ c.toNat := by
    simp only [isBlank, Bool.or_eq_true, Bool.and_eq_true, decide_eq_true_eq, beq_iff_eq] at hblank
    omega
  rw [isHarmless_iff] at h
  rcases h with h | h | h | h
  · omega
  · omega
  · omega
  · have hsign := List.all_eq_true.mp hsigns c h
    simp [hblank] at hsign

/-- Harmless characters mean nothing to the scanner either. -/
theorem not_escapable_of_isHarmless (h : isHarmless c = true) : ¬ Escapable c := by
  rintro (hblank | rfl | rfl | rfl)
  · simp [isBlank_of_isHarmless h] at hblank
  all_goals exact absurd h (by decide)

/-! ## Words that are read back -/

/-- Whether every backslash stands before another character than a single quote. -/
def KeepsBackslashes (cs : List Char) : Prop :=
  ∀ before behind, cs = before ++ '\\' :: behind → behind ≠ [] ∧ behind.head? ≠ some '\''

/-- A backslash is kept if neither a quote nor the end follows it. -/
theorem keepsBackslashes_cons :
    KeepsBackslashes (c :: cs) ↔
      (c = '\\' → cs ≠ [] ∧ cs.head? ≠ some '\'') ∧ KeepsBackslashes cs := by
  constructor
  · intro h
    exact ⟨fun hc => h [] cs (by rw [hc]; rfl), fun before behind heq => h (c :: before) behind
      (by rw [heq]; rfl)⟩
  · rintro ⟨hhead, htail⟩ before behind heq
    cases before with
    | nil =>
      obtain ⟨rfl, rfl⟩ := List.cons.inj heq
      exact hhead rfl
    | cons d before => exact htail before behind (List.cons.inj heq).2

/-- The way out of a span in single quotes to a quote and back is read as that quote. -/
theorem wordsFrom_quoteChar_quote :
    wordsFrom (.span '\'') word (quoteChar '\'' ++ rest) =
      wordsFrom (.span '\'') ('\'' :: word) rest := by
  rw [quoteChar_quote]
  simp only [List.cons_append, List.nil_append]
  rw [wordsFrom_close (by decide), wordsFrom_open rfl, wordsFrom_span_char (by decide) (by decide),
    wordsFrom_close (by decide), wordsFrom_open rfl]

/-- What stands first between single quotes. -/
theorem head?_flatMap_quoteChar (cs : List Char) :
    (cs.flatMap quoteChar ++ '\'' :: rest).head? = some (cs.head?.getD '\'') := by
  cases cs with
  | nil => rfl
  | cons c cs =>
    by_cases hc : c = '\''
    · simp [hc]
    · simp [quoteChar_of_ne hc]

/-- A character that is no backslash before a quote is read as itself. -/
theorem wordsFrom_quoteChar (h : c = '\\' → cs ≠ [] ∧ cs.head? ≠ some '\'') :
    wordsFrom (.span '\'') word (quoteChar c ++ (cs.flatMap quoteChar ++ '\'' :: rest)) =
      wordsFrom (.span '\'') (c :: word) (cs.flatMap quoteChar ++ '\'' :: rest) := by
  by_cases hquote : c = '\''
  · rw [hquote, wordsFrom_quoteChar_quote]
  · rw [quoteChar_of_ne hquote, List.singleton_append]
    by_cases hslash : c = '\\'
    · subst hslash
      obtain ⟨hne, hhead⟩ := h rfl
      refine wordsFrom_span_backslash (by decide) fun next hnext => ?_
      rw [head?_flatMap_quoteChar] at hnext
      cases cs with
      | nil => exact absurd rfl hne
      | cons d cs =>
        have hnext : d = next := by simpa using hnext
        have hd : d ≠ '\'' := by simpa using hhead
        simp [Mode.escapes, ← hnext, hd]
    · exact wordsFrom_span_char hquote hslash

/-- A word between quotes is read as its characters. -/
theorem wordsFrom_quoted (h : KeepsBackslashes cs) :
    wordsFrom (.span '\'') word (cs.flatMap quoteChar ++ '\'' :: rest) =
      wordsFrom .plain (cs.reverse ++ word) rest := by
  induction cs generalizing word with
  | nil => exact wordsFrom_close (by decide)
  | cons c cs ih =>
    rw [keepsBackslashes_cons] at h
    rw [List.flatMap_cons, List.append_assoc, wordsFrom_quoteChar h.1, ih h.2]
    simp

/-- Harmless characters are read as they are. -/
theorem wordsFrom_harmless (h : ∀ c ∈ cs, isHarmless c = true) :
    wordsFrom .plain word (cs ++ rest) = wordsFrom .plain (cs.reverse ++ word) rest := by
  induction cs generalizing word with
  | nil => rfl
  | cons c cs ih =>
    rw [List.forall_mem_cons] at h
    rw [List.cons_append, wordsFrom_pieceText (.char (not_escapable_of_isHarmless h.1)), ih h.2]
    simp

/-- A word that keeps its backslashes is read back. -/
theorem wordsFrom_quoteWord (h : KeepsBackslashes cs) :
    wordsFrom .plain [] (quoteWord cs ++ rest) = wordsFrom .plain cs.reverse rest := by
  obtain ⟨rfl, heq⟩ | ⟨-, hall, heq⟩ | ⟨-, heq⟩ := quoteWord_cases cs
  all_goals rw [heq]
  · exact (wordsFrom_open rfl).trans (wordsFrom_close (by decide))
  · rw [wordsFrom_harmless hall, List.append_nil]
  · rw [List.cons_append, List.cons_append, List.append_assoc, List.singleton_append,
      wordsFrom_open rfl, wordsFrom_quoted h, List.append_nil]

/-! ## Words that are not read back -/

/-- A word that was begun is the beginning of the first word read. -/
theorem exists_wordsFrom_eq_cons (mode : Mode) (hword : word ≠ []) (text : List Char) :
    ∃ w ws, wordsFrom mode word text = w :: ws ∧ word.reverse <+: w := by
  -- A step ends the word begun, leaves it as it is, or adds a character to it.
  have hadd {word : List Char} {c : Char} {words : List (List Char)}
      (h : ∃ w ws, words = w :: ws ∧ (c :: word).reverse <+: w) :
      ∃ w ws, words = w :: ws ∧ word.reverse <+: w := by
    obtain ⟨w, ws, heq, hle⟩ := h
    refine ⟨w, ws, heq, List.IsPrefix.trans ?_ hle⟩
    rw [List.reverse_cons]
    exact List.prefix_append ..
  fun_induction wordsFrom mode word text with
  | case1 mode word => exact ⟨word.reverse, [], by simp [finish, hword], List.prefix_rfl⟩
  | case2 mode word next rest hesc ih => exact hadd (ih (List.cons_ne_nil _ _))
  | case3 mode word next rest hesc ih => exact hadd (ih (List.cons_ne_nil _ _))
  | case4 word c rest hc hblank ih =>
    exact ⟨word.reverse, wordsFrom .plain [] rest, by simp [finish, hword], List.prefix_rfl⟩
  | case5 word c rest hc hblank hquote ih => exact ih hword
  | case6 word c rest hc hblank hquote ih => exact hadd (ih (List.cons_ne_nil _ _))
  | case7 word c rest hc ih => exact ih hword
  | case8 q word c rest hc hne ih => exact hadd (ih (List.cons_ne_nil _ _))

/-- A word that is ended is not empty. -/
theorem ne_nil_of_mem_finish {w : List Char} (h : w ∈ finish word) : w ≠ [] := by
  cases word with
  | nil => simp [finish] at h
  | cons c word => simp_all [finish]

/-- No word without characters is read. -/
theorem ne_nil_of_mem_wordsFrom {w : List Char} (h : w ∈ wordsFrom mode word text) : w ≠ [] := by
  fun_induction wordsFrom mode word text with
  | case1 => exact ne_nil_of_mem_finish h
  | case4 word c rest hc hblank ih =>
    rcases List.mem_append.mp h with h | h
    · exact ne_nil_of_mem_finish h
    · exact ih h
  | case2 _ _ _ _ _ ih | case3 _ _ _ _ _ ih | case5 _ _ _ _ _ _ ih | case6 _ _ _ _ _ _ ih
  | case7 _ _ _ _ ih | case8 _ _ _ _ _ _ ih => exact ih h

/-- The first backslash that comes to stand before a quote is read as an escape, so that the span
goes on with a quote in its place. -/
theorem exists_wordsFrom_quoted (h : ¬ KeepsBackslashes cs) (word rest : List Char) :
    ∃ before text, before ++ ['\\'] <+: cs ∧
      wordsFrom (.span '\'') word (cs.flatMap quoteChar ++ '\'' :: rest) =
        wordsFrom (.span '\'') ('\'' :: before.reverse ++ word) text := by
  induction cs generalizing word with
  | nil => exact absurd (fun before behind heq => by simp at heq) h
  | cons c cs ih =>
    rw [List.flatMap_cons, List.append_assoc]
    by_cases hescape : c = '\\' ∧ (cs = [] ∨ cs.head? = some '\'')
    · obtain ⟨rfl, hnext⟩ := hescape
      have hhead : (cs.flatMap quoteChar ++ '\'' :: rest).head? = some '\'' := by
        rw [head?_flatMap_quoteChar]
        rcases hnext with rfl | hnext
        · rfl
        · rw [hnext]
          rfl
      obtain ⟨text, htext⟩ := List.head?_eq_some_iff.mp hhead
      refine ⟨[], text, by simp, ?_⟩
      rw [quoteChar_of_ne (by decide), htext]
      exact wordsFrom_escape rfl
    · have htail : ¬ KeepsBackslashes cs := by
        intro hkeeps
        refine h (keepsBackslashes_cons.mpr ⟨fun hc => ?_, hkeeps⟩)
        exact not_or.mp (hescape ⟨hc, ·⟩)
      obtain ⟨before, text, hle, heq⟩ := ih htail (c :: word)
      refine ⟨c :: before, text, by simpa using hle, ?_⟩
      rw [wordsFrom_quoteChar fun hc => not_or.mp (hescape ⟨hc, ·⟩), heq]
      simp

/-- A word in which a backslash comes to stand before a quote is read as another word. -/
theorem exists_wordsFrom_quoteWord (h : ¬ KeepsBackslashes cs) (rest : List Char) :
    ∃ w ws, wordsFrom .plain [] (quoteWord cs ++ rest) = w :: ws ∧ w ≠ cs := by
  obtain ⟨rfl, -⟩ | ⟨-, hall, -⟩ | ⟨-, heq⟩ := quoteWord_cases cs
  · exact absurd (fun before behind heq => by simp at heq) h
  · refine absurd (fun before behind heq => ?_) h
    have hslash : isHarmless '\\' = true := hall _ (by simp [heq])
    exact absurd hslash (by decide)
  · obtain ⟨before, text, hle, hread⟩ := exists_wordsFrom_quoted h [] rest
    obtain ⟨w, ws, hws, hw⟩ :=
      exists_wordsFrom_eq_cons (.span '\'') (List.cons_ne_nil '\'' (before.reverse ++ [])) text
    refine ⟨w, ws, ?_, ?_⟩
    · rw [heq, List.cons_append, List.cons_append, List.append_assoc, List.singleton_append,
        wordsFrom_open rfl, hread]
      exact hws
    · rintro rfl
      -- Both a quote and a backslash would follow the same characters.
      have hquote : before ++ ['\''] <+: w := by simpa using hw
      have hsame := List.prefix_of_prefix_length_le hquote hle (by simp)
      simpa using hsame.eq_of_length (by simp)

/-! ## Command lines that are read back -/

/-- A quoted word is read as itself if it is not empty and its backslashes are kept. -/
theorem words_quote_cons {w : String} (hne : w ≠ "") (h : KeepsBackslashes w.toList)
    (ws : List String) : words (quote (w :: ws)) = w :: words (quote ws) := by
  have hrest : wordsFrom .plain w.toList.reverse (quoteRest ws) =
      w.toList :: wordsFrom .plain [] (quote ws).toList := by
    have hword : finish w.toList.reverse = [w.toList] := by
      simp [finish, hne]
    rw [quoteRest]
    split
    · next hnil =>
      rw [wordsFrom_nil, hword, hnil]
      simp [quote, finish]
    · rw [wordsFrom_blank rfl, hword, List.singleton_append]
  rw [words, toList_quote_cons, wordsFrom_quoteWord h, hrest]
  simp [words]

/-- The scanner reads quoted words back exactly if none is empty and in none a backslash stands at
the end or before a single quote. -/
theorem words_quote_eq_iff (ws : List String) :
    words (quote ws) = ws ↔ ∀ w ∈ ws, w ≠ "" ∧ KeepsBackslashes w.toList := by
  induction ws with
  | nil => simp [words, quote, finish]
  | cons w ws ih =>
    rw [List.forall_mem_cons]
    by_cases hne : w = ""
    · refine iff_of_false (fun heq => ?_) (by simp [hne])
      have hmem : "" ∈ words (quote (w :: ws)) := by
        rw [heq, hne]
        exact List.mem_cons_self
      obtain ⟨cs, hcs, hempty⟩ := List.mem_map.mp hmem
      exact ne_nil_of_mem_wordsFrom hcs (String.ofList_eq_empty_iff.mp hempty)
    · by_cases hkeeps : KeepsBackslashes w.toList
      · simp [words_quote_cons hne hkeeps, ih, hne, hkeeps]
      · refine iff_of_false (fun heq => ?_) (by simp [hkeeps])
        obtain ⟨u, us, hus, hu⟩ := exists_wordsFrom_quoteWord hkeeps (quoteRest ws)
        rw [words, toList_quote_cons, hus, List.map_cons] at heq
        exact hu (by rw [← (List.cons.inj heq).1, String.toList_ofList])

end BuildLens.Shell
