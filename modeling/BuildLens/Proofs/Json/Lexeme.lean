import BuildLens.Json.Reader
import Mathlib.Data.List.TakeWhile
import Mathlib.Tactic.FinCases

/-!
# Tokens of JSON

What a token of JSON looks like is said here, apart from how a reader finds it. A token never
depends on what stands around it, while a reader takes as many characters for a number as it can.
Both come to the same where the number ends with the text, or a blank comes, or a mark that may
follow a value.

Besides the standard numbers, `NaN` and the two infinities are numbers. Whole numbers with more
digits than a number may have are left out.

Main definitions:

- `Json.Quoted`, `Json.NumberText`, `Json.Lexeme`: how tokens are written.
- `Json.Ended`: a text before which a number ends.

Main results:

- `Json.Lexeme.token?_append`: a reader finds the token that is written.
- `Json.exists_lexeme`: a token that a reader finds is written.
-/

namespace BuildLens.Json

variable {limits : Limits} {cs rest : List Char}

/-! ## Strings -/

/-- The text between the quotes of a string, and its pieces. -/
inductive Quoted : List Char → List Piece → Prop
  | nil : Quoted [] []
  | char {c : Char} {w : List Char} {ps : List Piece} (hc : 0x20 ≤ c.toNat) (hquote : c ≠ '"')
    (hescape : c ≠ '\\') (h : Quoted w ps) : Quoted (c :: w) (.char c :: ps)
  | escape {e c : Char} {w : List Char} {ps : List Piece} (he : escapeOf? e = some c)
    (h : Quoted w ps) : Quoted ('\\' :: e :: w) (.char c :: ps)
  | unit {a b c d : Char} {n : Nat} {w : List Char} {ps : List Piece} (hn : unit? a b c d = some n)
    (h : Quoted w ps) : Quoted ('\\' :: 'u' :: a :: b :: c :: d :: w) (.unit n :: ps)

/-- The pieces of a string are read up to its closing quote. -/
theorem Quoted.pieces? {w : List Char} {ps : List Piece} (h : Quoted w ps) (found : List Piece)
    (rest : List Char) :
    Json.pieces? found (w ++ '"' :: rest) = some (ps.reverse ++ found, rest) := by
  induction h generalizing found with
  | nil => rfl
  | @char c w ps hc hquote hescape h ih =>
    rw [List.cons_append, Json.pieces?, if_neg, ih, List.reverse_cons, List.append_assoc]
    · rfl
    · exact not_or.mpr ⟨Nat.not_lt.mpr hc, hescape⟩
    · exact hquote
    · exact fun _ _ _ _ _ h _ => hescape h
    · exact fun _ _ h _ => hescape h
  | @escape e c w ps he h ih =>
    rw [List.cons_append, List.cons_append, Json.pieces?, he]
    · dsimp only
      rw [ih, List.reverse_cons, List.append_assoc]
      rfl
    · rintro _ _ _ _ _ rfl
      cases he
  | @unit a b c d n w ps hn h ih =>
    simp only [List.cons_append, Json.pieces?, hn]
    rw [ih, List.reverse_cons, List.append_assoc]
    rfl

/-- What is read up to a closing quote are the pieces of a string. -/
theorem exists_quoted {found ps : List Piece} (h : pieces? found cs = some (ps, rest)) :
    ∃ w qs, cs = w ++ '"' :: rest ∧ Quoted w qs ∧ ps = qs.reverse ++ found := by
  induction found, cs using pieces?.induct with
  | case1 found => cases h
  | case2 found more =>
    cases h
    exact ⟨[], [], rfl, .nil, rfl⟩
  | case3 found a b c d more n hn ih =>
    rw [pieces?, hn] at h
    obtain ⟨w, qs, rfl, hw, rfl⟩ := ih h
    exact ⟨_, _, rfl, .unit hn hw, by simp⟩
  | case4 found a b c d more hn =>
    rw [pieces?, hn] at h
    cases h
  | case5 found e more hne c hc ih =>
    rw [pieces?, hc] at h
    · obtain ⟨w, qs, rfl, hw, rfl⟩ := ih h
      exact ⟨_, _, rfl, .escape hc hw, by simp⟩
    · exact hne
  | case6 found e more hne hc =>
    rw [pieces?, hc] at h
    · cases h
    · exact hne
  | case7 found c more hquote hunit hescape hc =>
    rw [pieces?, if_pos hc] at h
    · cases h
    all_goals assumption
  | case8 found c more hquote hunit hescape hc ih =>
    rw [pieces?, if_neg hc] at h
    · obtain ⟨w, qs, rfl, hw, rfl⟩ := ih h
      rw [not_or, Nat.not_lt] at hc
      exact ⟨_, _, rfl, .char hc.1 hquote hc.2 hw, by simp⟩
    all_goals assumption

/-! ## Numbers -/

/-- A row of digits, one at least. -/
def Digits (ds : List Char) : Prop := ds ≠ [] ∧ ∀ c ∈ ds, c.isDigit = true

/-- The whole part of a number: a lone zero, or digits that begin with another one. -/
def WholeText (whole : List Char) : Prop :=
  whole = ['0'] ∨ Digits whole ∧ whole.head? ≠ some '0'

/-- The fraction of a number, which may be missing. -/
def FractionText (frac : List Char) : Prop := frac = [] ∨ ∃ ds, frac = '.' :: ds ∧ Digits ds

/-- The sign of an exponent, which may be missing. -/
def SignText (sign : List Char) : Prop := sign = [] ∨ sign = ['+'] ∨ sign = ['-']

/-- The exponent of a number, which may be missing. -/
def ExponentText (exp : List Char) : Prop :=
  exp = [] ∨ ∃ e sign ds, (e = 'e' ∨ e = 'E') ∧ SignText sign ∧ exp = e :: sign ++ ds ∧ Digits ds

/-- The parts of a number behind its sign. A whole number has no more digits than it may have. -/
structure NumberText (limits : Limits) (whole frac exp : List Char) : Prop where
  isWhole : WholeText whole
  isFraction : FractionText frac
  isExponent : ExponentText exp
  isShort : frac = [] → exp = [] → whole.length ≤ limits.digits

/-- The text does not begin with a character of the kind. -/
def Lacks (p : Char → Bool) (cs : List Char) : Prop := ∀ c ∈ cs.head?, p c = false

/-- The text ends, or a token in it ends here: a blank comes, or a mark that may follow a value. -/
def Ended (cs : List Char) : Prop :=
  Lacks (fun c => !(isSpace c || c == ',' || c == ']' || c == '\x7d')) cs

/-- A text lacks characters of a kind at its front if its first one is of another kind. -/
theorem lacks_cons {p : Char → Bool} {c : Char} : Lacks p (c :: cs) ↔ p c = false := by
  simp [Lacks]

/-- The blanks of JSON are four. -/
theorem isSpace_iff {c : Char} :
    isSpace c = true ↔ c = ' ' ∨ c = '\t' ∨ c = '\n' ∨ c = '\r' := by
  simp only [isSpace, Bool.or_eq_true, beq_iff_eq, or_assoc]

/-- Where a token may end no character of a token stands. -/
theorem Ended.lacks {p : Char → Bool} (h : Ended cs)
    (hp : [' ', '\t', '\n', '\r', ',', ']', '\x7d'].all (fun c => !p c) = true) : Lacks p cs := by
  intro c hc
  have hended := h c hc
  rw [List.all_eq_true] at hp
  refine Bool.not_eq_eq_eq_not.mp (hp c ?_)
  simpa only [Bool.not_eq_eq_eq_not, Bool.not_false, Bool.or_eq_true, isSpace_iff, beq_iff_eq,
    or_assoc, List.mem_cons, List.not_mem_nil, or_false] using hended

/-- All digits at the front of a text are read, one at least. -/
theorem digits?_eq_some_iff {ds : List Char} :
    digits? cs = some (ds, rest) ↔ cs = ds ++ rest ∧ Digits ds ∧ Lacks Char.isDigit rest := by
  rw [digits?]
  constructor
  · intro h
    split at h
    · cases h
    · next hne =>
      cases h
      refine ⟨List.takeWhile_append_dropWhile.symm, ⟨by simpa using hne, fun c hc =>
        List.mem_takeWhile_imp hc⟩, fun c hc => ?_⟩
      have hhead := List.head?_dropWhile_not Char.isDigit cs
      rw [hc] at hhead
      exact hhead
  · rintro ⟨rfl, ⟨hne, hds⟩, hrest⟩
    have hstop : rest.takeWhile Char.isDigit = [] ∧ rest.dropWhile Char.isDigit = rest := by
      cases rest with
      | nil => exact ⟨rfl, rfl⟩
      | cons c rest =>
        rw [lacks_cons] at hrest
        simp [hrest]
    rw [List.takeWhile_append_of_pos hds, List.dropWhile_append_of_pos hds, hstop.1, hstop.2,
      List.append_nil, if_neg (by simpa using hne)]

/-- A row of digits begins with no character of another kind. -/
theorem Digits.lacks_append {ds : List Char} (h : Digits ds) (p : Char → Bool)
    (hp : ∀ c, c.isDigit = true → p c = false) (more : List Char) : Lacks p (ds ++ more) := by
  obtain ⟨hne, hds⟩ := h
  obtain ⟨c, ds, rfl⟩ := List.exists_cons_of_ne_nil hne
  exact lacks_cons.mpr (hp c (hds c List.mem_cons_self))

/-! ### The parts of a number -/

/-- A whole part is read up to what is no digit. -/
theorem wholePart?_append {whole : List Char} (h : WholeText whole)
    (hrest : Lacks Char.isDigit rest) : wholePart? (whole ++ rest) = some (whole, rest) := by
  rcases h with rfl | ⟨hdigits, hzero⟩
  · rfl
  · have hread := digits?_eq_some_iff.mpr ⟨rfl, hdigits, hrest⟩
    obtain ⟨c, ds, rfl⟩ := List.exists_cons_of_ne_nil hdigits.1
    rw [List.cons_append, wholePart?]
    · exact hread
    · intro more heq
      exact hzero (congrArg some (List.cons.inj heq).1)

/-- What is read as a whole part is one. -/
theorem wholeText_of_wholePart? {whole : List Char} (h : wholePart? cs = some (whole, rest)) :
    cs = whole ++ rest ∧ WholeText whole := by
  rw [wholePart?.eq_def] at h
  split at h
  · cases h
    exact ⟨rfl, .inl rfl⟩
  · next hzero =>
    obtain ⟨rfl, hdigits, -⟩ := digits?_eq_some_iff.mp h
    refine ⟨rfl, .inr ⟨hdigits, fun hhead => ?_⟩⟩
    obtain ⟨ds, rfl⟩ := List.head?_eq_some_iff.mp hhead
    exact hzero (ds ++ rest) rfl

/-- A fraction is read up to what is no digit. -/
theorem fraction_append {frac : List Char} (h : FractionText frac)
    (hdigit : Lacks Char.isDigit rest) (hdot : Lacks (· == '.') rest) :
    fraction (frac ++ rest) = (frac, rest) := by
  rcases h with rfl | ⟨ds, rfl, hds⟩
  · rw [List.nil_append]
    cases rest with
    | nil => rfl
    | cons c rest =>
      rw [lacks_cons, beq_eq_false_iff_ne] at hdot
      rw [fraction.eq_def]
      split
      · next h => exact absurd (List.cons.inj h).1 hdot
      · rfl
  · rw [List.cons_append, fraction, digits?_eq_some_iff.mpr ⟨rfl, hds, hdigit⟩]

/-- What is read as a fraction is one. -/
theorem fractionText_fraction (cs : List Char) :
    cs = (fraction cs).1 ++ (fraction cs).2 ∧ FractionText (fraction cs).1 := by
  rw [fraction.eq_def]
  split
  · split
    · next hread =>
      obtain ⟨rfl, hds, -⟩ := digits?_eq_some_iff.mp hread
      exact ⟨rfl, .inr ⟨_, rfl, hds⟩⟩
    · exact ⟨rfl, .inl rfl⟩
  · exact ⟨rfl, .inl rfl⟩

/-- The sign at the front of a text, which may be missing, and the text after it. -/
def signOf (cs : List Char) : List Char × List Char :=
  match cs with
  | '+' :: rest => (['+'], rest)
  | '-' :: rest => (['-'], rest)
  | _ => ([], cs)

/-- An exponent begins with a letter, and digits follow behind any sign. -/
theorem exponent_cons {e : Char} (he : e = 'e' ∨ e = 'E') (cs : List Char) :
    exponent (e :: cs) = match digits? (signOf cs).2 with
      | some (ds, rest) => (e :: (signOf cs).1 ++ ds, rest)
      | none => ([], e :: cs) := by
  rw [exponent.eq_def]
  exact if_pos he

/-- Without the letter there is no exponent. -/
theorem exponent_of_lacks (h : Lacks (fun c => c == 'e' || c == 'E') cs) :
    exponent cs = ([], cs) := by
  cases cs with
  | nil => rfl
  | cons c cs =>
    rw [lacks_cons, Bool.or_eq_false_iff, beq_eq_false_iff_ne, beq_eq_false_iff_ne] at h
    rw [exponent.eq_def]
    exact if_neg (not_or.mpr h)

/-- A sign is read before digits. -/
theorem signOf_append {sign ds : List Char} (h : SignText sign) (hds : Digits ds)
    (rest : List Char) : signOf (sign ++ (ds ++ rest)) = (sign, ds ++ rest) := by
  rcases h with rfl | rfl | rfl
  · obtain ⟨c, more, rfl⟩ := List.exists_cons_of_ne_nil hds.1
    have hc : c.isDigit = true := hds.2 c List.mem_cons_self
    rw [List.nil_append, List.cons_append, signOf]
    · rintro more heq
      rw [(List.cons.inj heq).1] at hc
      cases hc
    · rintro more heq
      rw [(List.cons.inj heq).1] at hc
      cases hc
  · rfl
  · rfl

/-- What is read as a sign is one. -/
theorem signText_signOf (cs : List Char) :
    cs = (signOf cs).1 ++ (signOf cs).2 ∧ SignText (signOf cs).1 := by
  rw [signOf.eq_def]
  split
  · exact ⟨rfl, .inr (.inl rfl)⟩
  · exact ⟨rfl, .inr (.inr rfl)⟩
  · exact ⟨rfl, .inl rfl⟩

/-- An exponent is read up to what is no digit. -/
theorem exponent_append {exp : List Char} (h : ExponentText exp)
    (hdigit : Lacks Char.isDigit rest) (he : Lacks (fun c => c == 'e' || c == 'E') rest) :
    exponent (exp ++ rest) = (exp, rest) := by
  rcases h with rfl | ⟨e, sign, ds, he', hsign, rfl, hds⟩
  · exact exponent_of_lacks he
  · have hread := digits?_eq_some_iff.mpr ⟨rfl, hds, hdigit⟩
    rw [List.append_assoc, List.cons_append, exponent_cons he', signOf_append hsign hds, hread]

/-- What is read as an exponent is one. -/
theorem exponentText_exponent (cs : List Char) :
    cs = (exponent cs).1 ++ (exponent cs).2 ∧ ExponentText (exponent cs).1 := by
  by_cases he : ∃ e more, cs = e :: more ∧ (e = 'e' ∨ e = 'E')
  · obtain ⟨e, more, rfl, he⟩ := he
    obtain ⟨hmore, hsign⟩ := signText_signOf more
    rw [exponent_cons he]
    split
    · next ds behind hread =>
      obtain ⟨hbehind, hds, -⟩ := digits?_eq_some_iff.mp hread
      refine ⟨?_, .inr ⟨e, _, ds, he, hsign, rfl, hds⟩⟩
      rw [List.append_assoc, List.cons_append, ← hbehind, ← hmore]
    · exact ⟨rfl, .inl rfl⟩
  · have hlacks : Lacks (fun c => c == 'e' || c == 'E') cs := by
      intro c hc
      obtain ⟨more, rfl⟩ := List.head?_eq_some_iff.mp hc
      rw [Bool.or_eq_false_iff, beq_eq_false_iff_ne, beq_eq_false_iff_ne]
      exact not_or.mp fun hcase => he ⟨c, more, rfl, hcase⟩
    rw [exponent_of_lacks hlacks]
    exact ⟨rfl, .inl rfl⟩

/-- What stands behind the fraction goes on with neither a digit nor a dot. -/
theorem ExponentText.lacks_append {exp : List Char} (h : ExponentText exp) {p : Char → Bool}
    (he : p 'e' = false) (hE : p 'E' = false) (hrest : Lacks p rest) : Lacks p (exp ++ rest) := by
  rcases h with rfl | ⟨e, sign, ds, rfl | rfl, -, rfl, -⟩
  · exact hrest
  · exact lacks_cons.mpr he
  · exact lacks_cons.mpr hE

/-- A fraction begins with its dot, so other characters are still missing in front of it. -/
theorem FractionText.lacks_append {frac : List Char} (h : FractionText frac) {p : Char → Bool}
    (hdot : p '.' = false) (hrest : Lacks p rest) : Lacks p (frac ++ rest) := by
  rcases h with rfl | ⟨ds, rfl, -⟩
  · exact hrest
  · exact lacks_cons.mpr hdot

/-- A number in front of the end of a token is read as a whole. -/
theorem NumberText.number?_append {whole frac exp : List Char}
    (h : NumberText limits whole frac exp) (hrest : Ended rest) (sign : List Char) :
    number? limits sign (whole ++ (frac ++ (exp ++ rest))) =
      some (.scalar (.number (String.ofList (sign ++ whole ++ frac ++ exp))), rest) := by
  have hnext : Lacks Char.isDigit rest := hrest.lacks rfl
  have hdigit : Lacks Char.isDigit (exp ++ rest) := h.isExponent.lacks_append rfl rfl hnext
  have hdot : Lacks (· == '.') (exp ++ rest) :=
    h.isExponent.lacks_append rfl rfl (hrest.lacks rfl)
  have hwhole := wholePart?_append h.isWhole (h.isFraction.lacks_append rfl hdigit)
  have hshort : ¬ (frac.isEmpty ∧ exp.isEmpty ∧ limits.digits < whole.length) := by
    rintro ⟨hfrac, hexp, hlong⟩
    exact Nat.not_lt.mpr (h.isShort (by simpa using hfrac) (by simpa using hexp)) hlong
  simp only [number?, hwhole, Option.map_some, fraction_append h.isFraction hdigit hdot,
    exponent_append h.isExponent hnext (hrest.lacks rfl), if_neg hshort]

/-- What is read as a number has the parts of one, unless its digits are too many. -/
theorem exists_numberText {sign : List Char} {t : Token}
    (h : number? limits sign cs = some (t, rest)) (hlong : ∀ n, t ≠ .longNumber n) :
    ∃ whole frac exp, NumberText limits whole frac exp ∧ cs = whole ++ (frac ++ (exp ++ rest)) ∧
      t = .scalar (.number (String.ofList (sign ++ whole ++ frac ++ exp))) := by
  rw [number?, Option.map_eq_some_iff] at h
  obtain ⟨⟨whole, more⟩, hwhole, h⟩ := h
  obtain ⟨rfl, hisWhole⟩ := wholeText_of_wholePart? hwhole
  obtain ⟨hfrac, hisFraction⟩ := fractionText_fraction more
  obtain ⟨hexp, hisExponent⟩ := exponentText_exponent (fraction more).2
  dsimp only at h
  split at h
  · cases h
    exact absurd rfl (hlong _)
  · next hshort =>
    cases h
    refine ⟨whole, _, _, ⟨hisWhole, hisFraction, hisExponent, fun hf he => ?_⟩, ?_, rfl⟩
    · rw [hf, he] at hshort
      exact Nat.not_lt.mp fun hlong => hshort ⟨rfl, rfl, hlong⟩
    · rw [← hexp, ← hfrac]

/-! ## Tokens -/

/-- The marks. -/
def marks : List (Char × Token) :=
  [('[', .openArray), (']', .closeArray), ('\x7b', .openObject), ('\x7d', .closeObject),
    (',', .comma), (':', .colon)]

/-- How a token is written. -/
inductive Lexeme (limits : Limits) : List Char → Token → Prop
  | mark {c : Char} {t : Token} (h : (c, t) ∈ marks) : Lexeme limits [c] t
  | string {w : List Char} {ps : List Piece} (h : Quoted w ps) :
    Lexeme limits ('"' :: (w ++ ['"'])) (.string (combine ps))
  | word {w : List Char} {v : Json} (h : (w, v) ∈ words) : Lexeme limits w (.scalar v)
  | number {sign whole frac exp : List Char} (hsign : sign = [] ∨ sign = ['-'])
    (h : NumberText limits whole frac exp) : Lexeme limits (sign ++ whole ++ frac ++ exp)
      (.scalar (.number (String.ofList (sign ++ whole ++ frac ++ exp))))

/-- A whole part begins with a digit. -/
theorem WholeText.exists_digit {whole : List Char} (h : WholeText whole) :
    ∃ c more, whole = c :: more ∧ c.isDigit = true := by
  rcases h with rfl | ⟨⟨hne, hds⟩, -⟩
  · exact ⟨'0', [], rfl, rfl⟩
  · obtain ⟨c, more, rfl⟩ := List.exists_cons_of_ne_nil hne
    exact ⟨c, more, rfl, hds c List.mem_cons_self⟩

/-- What is read as a word is one of the words. -/
theorem exists_word {v : Json} (h : word? cs = some (v, rest)) :
    ∃ w, cs = w ++ rest ∧ (w, v) ∈ words := by
  obtain ⟨⟨w, v'⟩, hmem, hw⟩ := List.exists_of_findSome?_eq_some h
  dsimp only at hw
  split at hw
  · next hprefix =>
    cases hw
    obtain ⟨more, rfl⟩ := List.isPrefixOf_iff_prefix.mp hprefix
    exact ⟨w, by rw [List.drop_left], hmem⟩
  · cases hw

/-- No word begins with a digit, nor with a sign and a digit. -/
theorem word?_of_isDigit {c : Char} (hc : c.isDigit = true) (cs : List Char) :
    word? (c :: cs) = none ∧ word? ('-' :: c :: cs) = none := by
  have hne (d : Char) (hd : d.isDigit = false) : d ≠ c := by
    rintro rfl
    rw [hd] at hc
    cases hc
  constructor <;> simp [word?, words, hne 'n' rfl, hne 't' rfl, hne 'f' rfl, hne 'N' rfl,
    hne 'I' rfl, hne '-' rfl]

/-- Without a word and a sign a value that is no string is a number. -/
theorem scalar?_of_word?_eq_none {c : Char} (hword : word? (c :: cs) = none) (hc : c ≠ '-') :
    scalar? limits (c :: cs) = number? limits [] (c :: cs) := by
  rw [scalar?, hword]
  exact fun _ h => hc (List.cons.inj h).1

/-- What begins with a digit or a sign is no mark and no string. -/
theorem token?_of_head {c : Char} (hc : c.isDigit = true ∨ c = '-') (cs : List Char) :
    token? limits (c :: cs) = scalar? limits (c :: cs) := by
  rw [token?.eq_def]
  split
  case h_8 => rfl
  all_goals
    next h =>
      rw [(List.cons.inj h).1] at hc
      rcases hc with hc | hc <;> cases hc

/-- A token is read as it is written, whatever follows it. A value that is no string has to end
there. -/
theorem Lexeme.token?_append {w : List Char} {t : Token} (h : Lexeme limits w t)
    (hrest : (∃ v, t = .scalar v) → Ended rest) : token? limits (w ++ rest) = some (t, rest) := by
  cases h with
  | mark h =>
    fin_cases h <;> rfl
  | @string w ps h =>
    rw [List.cons_append, List.append_assoc, token?]
    simp [h.pieces? []]
  | word h =>
    fin_cases h <;> rfl
  | @number sign whole frac exp hsign h =>
    have hread := h.number?_append (hrest ⟨_, rfl⟩)
    obtain ⟨c, more, rfl, hc⟩ := h.isWhole.exists_digit
    rcases hsign with rfl | rfl
    · have hnot : c ≠ '-' := fun h => by rw [h] at hc; cases hc
      simp only [List.nil_append, List.append_assoc, List.cons_append] at hread ⊢
      rw [token?_of_head (.inl hc), scalar?_of_word?_eq_none (word?_of_isDigit hc _).1 hnot]
      exact hread []
    · simp only [List.nil_append, List.append_assoc, List.cons_append] at hread ⊢
      rw [token?_of_head (.inr rfl), scalar?, (word?_of_isDigit hc _).2]
      exact hread ['-']

/-- A token that a reader finds, other than a number with too many digits, is written. -/
theorem exists_lexeme {t : Token} (h : token? limits cs = some (t, rest))
    (hlong : ∀ n, t ≠ .longNumber n) : ∃ w, cs = w ++ rest ∧ Lexeme limits w t := by
  have hnumber {sign cs : List Char} (hsign : sign = [] ∨ sign = ['-'])
      (h : number? limits sign cs = some (t, rest)) :
      ∃ w, sign ++ cs = w ++ rest ∧ Lexeme limits w t := by
    obtain ⟨whole, frac, exp, htext, rfl, rfl⟩ := exists_numberText h hlong
    exact ⟨_, by simp only [List.append_assoc], .number hsign htext⟩
  rw [token?.eq_def] at h
  split at h
  case h_7 more =>
    obtain ⟨⟨ps, behind⟩, hps, h⟩ := Option.map_eq_some_iff.mp h
    cases h
    obtain ⟨w, qs, rfl, hw, rfl⟩ := exists_quoted hps
    rw [List.append_nil, List.reverse_reverse]
    exact ⟨_, by simp, .string hw⟩
  case h_8 =>
    rw [scalar?.eq_def] at h
    split at h
    · next hword =>
      cases h
      obtain ⟨w, rfl, hw⟩ := exists_word hword
      exact ⟨w, rfl, .word hw⟩
    · split at h
      · exact hnumber (.inr rfl) h
      · exact hnumber (.inl rfl) h
  all_goals
    cases h
    exact ⟨[_], rfl, .mark (by simp [marks])⟩

end BuildLens.Json
