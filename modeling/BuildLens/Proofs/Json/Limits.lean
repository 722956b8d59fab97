import BuildLens.Json.Reader
import Mathlib.Data.List.TakeWhile

/-!
# Texts within the limits of reading JSON

A text goes beyond a limit of the reader only if there is cause for it in its characters: more
brackets and braces are opened in it than may be open at a time, or it has a row of more digits than
a whole number may have. What the text means is of no account for that.

Main definitions:

- `Json.opens`: the characters with which arrays and objects begin.
- `Json.Moderate`: texts without such a cause.

Main results:

- `Json.token?_suffix`: a token leaves the rest of the text.
- `Json.State.beyond_of_run`: the causes of going beyond a limit.
- `Json.Moderate.parse_ne_beyond`: moderate texts are read within the limits.
-/

namespace BuildLens.Json

variable {limits : Limits} {cs rest : List Char}

/-! ## The rest of a text behind a token -/

/-- The pieces of a string leave the rest of the text. -/
theorem pieces?_suffix {found ps : List Piece} (h : pieces? found cs = some (ps, rest)) :
    rest <:+ cs := by
  induction found, cs using pieces?.induct with
  | case1 found => cases h
  | case2 found more =>
    cases h
    exact List.suffix_cons _ _
  | case3 found a b c d more n hn ih =>
    rw [pieces?, hn] at h
    exact (ih h).trans (List.suffix_append ['\\', 'u', a, b, c, d] more)
  | case4 found a b c d more hn =>
    rw [pieces?, hn] at h
    cases h
  | case5 found e more hne c hc ih =>
    rw [pieces?, hc] at h
    · exact (ih h).trans (List.suffix_append ['\\', e] more)
    · exact hne
  | case6 found e more hne hc =>
    rw [pieces?, hc] at h
    · cases h
    · exact hne
  | case7 found c more hquote hunit hescape hc =>
    rw [pieces?, if_pos hc] at h
    · cases h
    all_goals assumption
  | case8 found c more hquote hunit hescape hc ih =>
    rw [pieces?, if_neg hc] at h
    · exact (ih h).trans (List.suffix_cons c more)
    all_goals assumption

/-- Digits are read from the front of a text. -/
theorem digits?_suffix {ds : List Char} (h : digits? cs = some (ds, rest)) :
    rest <:+ cs ∧ ds <+: cs ∧ ∀ c ∈ ds, c.isDigit = true := by
  simp only [digits?] at h
  split at h
  · cases h
  · cases h
    exact ⟨List.dropWhile_suffix _, List.takeWhile_prefix _, fun c hc => List.mem_takeWhile_imp hc⟩

/-- The digits of a whole part are read from the front of a text. -/
theorem wholePart?_suffix {ds : List Char} (h : wholePart? cs = some (ds, rest)) :
    rest <:+ cs ∧ ds <+: cs ∧ ∀ c ∈ ds, c.isDigit = true := by
  rw [wholePart?.eq_def] at h
  split at h
  · cases h
    exact ⟨List.suffix_cons _ _, by simp, by simp⟩
  · exact digits?_suffix h

/-- A fraction leaves the rest of the text. -/
theorem fraction_suffix (cs : List Char) : (fraction cs).2 <:+ cs := by
  rw [fraction.eq_def]
  split
  · next more =>
    split
    · next h => exact (digits?_suffix h).1.trans (List.suffix_cons _ _)
    · exact List.suffix_rfl
  · exact List.suffix_rfl

/-- An exponent leaves the rest of the text. -/
theorem exponent_suffix (cs : List Char) : (exponent cs).2 <:+ cs := by
  rw [exponent.eq_def]
  split
  · next e more =>
    split
    · dsimp only
      split
      · next ds rest h =>
        refine (digits?_suffix h).1.trans (List.IsSuffix.trans ?_ (List.suffix_cons e more))
        split
        · exact List.suffix_cons _ _
        · exact List.suffix_cons _ _
        · exact List.suffix_rfl
      · exact List.suffix_rfl
    · exact List.suffix_rfl
  · exact List.suffix_rfl

/-! ## Tokens -/

/-- The characters with which arrays and objects begin. -/
def opens (c : Char) : Bool := c == '[' || c == '\x7b'

/-- A row of more digits than a whole number may have, somewhere in the text. -/
def LongRow (limits : Limits) (ds cs : List Char) : Prop :=
  limits.digits < ds.length ∧ ds <:+: cs ∧ ∀ c ∈ ds, c.isDigit = true

/-- A long row of digits is one of any text that ends with it. -/
theorem LongRow.of_suffix {ds more : List Char} (h : LongRow limits ds more)
    (hmore : more <:+ cs) : LongRow limits ds cs :=
  ⟨h.1, h.2.1.trans hmore.isInfix, h.2.2⟩

/-- Whether an array or object begins with the token. -/
def Token.isOpening : Token → Bool
  | .openArray | .openObject => true
  | _ => false

/-- A token, a text that begins with it, and the text behind it. An array or object begins with a
character of its own, and a number with too many digits is a row of digits. -/
structure TokenText (limits : Limits) (t : Token) (cs rest : List Char) : Prop where
  suffix : rest <:+ cs
  opening : t.isOpening = true → ∃ c, opens c = true ∧ cs = c :: rest
  row : ∀ n, t = .longNumber n → ∃ ds, ds.length = n ∧ LongRow limits ds cs

/-- A token that opens nothing and is no long number only leaves the rest of the text. -/
theorem TokenText.of_other {t : Token} (hopening : t.isOpening = false)
    (hnumber : ∀ n, t ≠ .longNumber n) (h : rest <:+ cs) : TokenText limits t cs rest where
  suffix := h
  opening h := by simp [hopening] at h
  row n ht := absurd ht (hnumber n)

/-- A token that opens nothing may stand further back in the text. -/
theorem TokenText.of_suffix {t : Token} {more : List Char} (h : TokenText limits t more rest)
    (hnot : t.isOpening = false) (hmore : more <:+ cs) : TokenText limits t cs rest where
  suffix := h.suffix.trans hmore
  opening hopening := by simp [hnot] at hopening
  row n ht := by
    obtain ⟨ds, hn, hrow⟩ := h.row n ht
    exact ⟨ds, hn, hrow.of_suffix hmore⟩

/-- A number opens nothing, and if it is too long there is a row of digits. -/
theorem tokenText_number {sign : List Char} {t : Token}
    (h : number? limits sign cs = some (t, rest)) :
    t.isOpening = false ∧ TokenText limits t cs rest := by
  rw [number?, Option.map_eq_some_iff] at h
  obtain ⟨⟨whole, more⟩, hwhole, h⟩ := h
  obtain ⟨hmore, hprefix, hdigits⟩ := wholePart?_suffix hwhole
  have hrest : (exponent (fraction more).2).2 <:+ cs :=
    (exponent_suffix _).trans ((fraction_suffix _).trans hmore)
  dsimp only at h
  split at h
  · next hlong =>
    cases h
    refine ⟨rfl, hrest, by simp [Token.isOpening], ?_⟩
    rintro n ⟨⟩
    exact ⟨whole, rfl, hlong.2.2, hprefix.isInfix, hdigits⟩
  · cases h
    exact ⟨rfl, .of_other rfl (by simp) hrest⟩

/-- A value that is no string opens nothing, and neither does it hide a long number. -/
theorem tokenText_scalar {t : Token} (h : scalar? limits cs = some (t, rest)) :
    t.isOpening = false ∧ TokenText limits t cs rest := by
  rw [scalar?.eq_def] at h
  split at h
  · next v more hword =>
    cases h
    obtain ⟨⟨w, v'⟩, -, hw⟩ := List.exists_of_findSome?_eq_some hword
    dsimp only at hw
    split at hw
    · cases hw
      exact ⟨rfl, .of_other rfl (by simp) (List.drop_suffix _ _)⟩
    · cases hw
  · split at h
    · obtain ⟨hnot, htext⟩ := tokenText_number h
      exact ⟨hnot, htext.of_suffix hnot (List.suffix_cons _ _)⟩
    · exact tokenText_number h

/-- A mark opens something only if it is a bracket or a brace. -/
theorem TokenText.of_mark {t : Token} {c : Char} (hopening : t.isOpening = true → opens c = true)
    (hnot : ∀ n, t ≠ .longNumber n) (rest : List Char) : TokenText limits t (c :: rest) rest where
  suffix := List.suffix_cons _ _
  opening h := ⟨c, hopening h, rfl⟩
  row n ht := absurd ht (hnot n)

/-- The reader finds a token at the start of a text. -/
theorem tokenText_of_token? {t : Token} (h : token? limits cs = some (t, rest)) :
    TokenText limits t cs rest := by
  rw [token?.eq_def] at h
  split at h
  case h_7 more =>
    rw [Option.map_eq_some_iff] at h
    obtain ⟨⟨ps, behind⟩, hps, h⟩ := h
    cases h
    exact .of_other rfl (by simp) ((pieces?_suffix hps).trans (List.suffix_cons _ _))
  case h_8 => exact (tokenText_scalar h).2
  all_goals
    cases h
    exact .of_mark (by decide) (by simp) rest

/-- Behind a token that opens something one bracket or brace less is left. -/
theorem TokenText.countP_le {t : Token} (h : TokenText limits t cs rest) :
    (rest.countP opens + if t.isOpening then 1 else 0) ≤ cs.countP opens := by
  cases ht : t.isOpening with
  | false => exact h.suffix.sublist.countP_le
  | true =>
    obtain ⟨c, hc, rfl⟩ := h.opening ht
    simp [hc]

/-! ## The machine -/

namespace State

variable {s s' : State} {t : Token} {limit : Limit}

/-- What a token can do to the machine: it opens one array or object more at most. A limit is met by
one that is too many, and by a number that is too long. -/
def Bounded (limits : Limits) (s : State) (t : Token) : Except ReadError State → Prop
  | .ok s' => s'.depth ≤ s.depth + if t.isOpening then 1 else 0
  | .error .malformed => True
  | .error (.beyond (.nesting _)) => t.isOpening = true ∧ limits.nesting ≤ s.depth
  | .error (.beyond (.digits _ n)) => t = .longNumber n

/-- A state that is no deeper than before is bounded. -/
theorem bounded_of_depth_le (h : s'.depth ≤ s.depth) : Bounded limits s t (.ok s') :=
  Nat.le_add_right_of_le h

/-- To enter an array or an object goes one deeper, if that may be. -/
theorem bounded_enter (ht : t.isOpening = true) (c : Container) (stack : List Pending)
    (place : Place) : Bounded limits s t (s.enter limits c stack place) := by
  rw [enter]
  split
  · simp [Bounded, ht]
  · next h => exact ⟨ht, Nat.le_of_not_lt h⟩

/-- A token in the place of a value goes one deeper at most. -/
theorem bounded_takeValue (limits : Limits) (s : State) (t : Token) :
    Bounded limits s t (s.takeValue limits t) := by
  cases t with
  | openArray => exact bounded_enter rfl _ _ _
  | openObject => exact bounded_enter rfl _ _ _
  | longNumber n => exact rfl
  | string cs => exact bounded_of_depth_le le_rfl
  | scalar v => exact bounded_of_depth_le le_rfl
  | closeArray | closeObject | comma | colon => trivial

/-- A token behind a value goes no deeper. -/
theorem bounded_takeAfter (limits : Limits) (s : State) (v : Json) (stack : List Pending)
    (t : Token) : Bounded limits s t (s.takeAfter v stack t) := by
  rw [takeAfter.eq_def]
  split
  · exact bounded_of_depth_le le_rfl
  · exact bounded_of_depth_le (Nat.sub_le _ _)
  · exact bounded_of_depth_le le_rfl
  · exact bounded_of_depth_le (Nat.sub_le _ _)
  · trivial

/-- A token goes one deeper at most, and only if it opens something. -/
theorem bounded_take (limits : Limits) (s : State) (t : Token) :
    Bounded limits s t (s.take limits t) := by
  rw [take.eq_def]
  split
  · exact bounded_takeValue limits s _
  · exact bounded_of_depth_le (Nat.sub_le _ _)
  · exact bounded_takeValue limits s _
  · exact bounded_of_depth_le (Nat.sub_le _ _)
  · exact bounded_of_depth_le le_rfl
  · exact bounded_of_depth_le le_rfl
  · exact bounded_of_depth_le le_rfl
  · exact bounded_takeAfter limits s _ _ _
  · trivial

/-- A limit is met where more is opened than may be open, or at a long row of digits. -/
theorem beyond_of_run {fuel : Nat} (h : run limits fuel s cs = .error (.beyond limit)) :
    (∃ c, limit = .nesting c ∧ limits.nesting < s.depth + cs.countP opens) ∨
      ∃ most ds, limit = .digits most ds.length ∧ LongRow limits ds cs := by
  induction fuel generalizing s cs with
  | zero => cases h
  | succ fuel ih =>
    have hspace : cs.dropWhile isSpace <:+ cs := List.dropWhile_suffix _
    have hcount := hspace.sublist.countP_le (p := opens)
    rw [run] at h
    split at h
    · rw [result.eq_def] at h
      split at h <;> cases h
    split at h
    · cases h
    next t rest htoken =>
    have htext := tokenText_of_token? htoken
    have hopened := htext.countP_le
    have hbounded := bounded_take limits s t
    split at h
    · next e he =>
      rw [he] at hbounded
      cases h
      cases limit with
      | nesting c =>
        obtain ⟨hopening, hfull⟩ := hbounded
        rw [if_pos hopening] at hopened
        exact .inl ⟨c, rfl, by omega⟩
      | digits most n =>
        obtain ⟨ds, rfl, hrow⟩ := htext.row n hbounded
        exact .inr ⟨most, ds, rfl, hrow.of_suffix hspace⟩
    · next s' hs' =>
      rw [hs'] at hbounded
      have hdepth : s'.depth ≤ s.depth + if t.isOpening then 1 else 0 := hbounded
      rcases ih h with ⟨c, hc, hmax⟩ | ⟨most, ds, hds, hrow⟩
      · exact .inl ⟨c, hc, by omega⟩
      · exact .inr ⟨most, ds, hds, hrow.of_suffix (htext.suffix.trans hspace)⟩

end State

/-- A text in which no more is opened than may be open, and no row of digits is too long. -/
structure Moderate (limits : Limits) (cs : List Char) : Prop where
  opened : cs.countP opens ≤ limits.nesting
  rows : ∀ ds, ds <:+: cs → (∀ c ∈ ds, c.isDigit = true) →
    ds.length ≤ limits.digits

/-- Moderate texts are read within the limits. -/
theorem Moderate.parse_ne_beyond (h : Moderate limits cs) (limit : Limit) :
    parse limits (String.ofList cs) ≠ .error (.beyond limit) := by
  intro hparse
  rw [parse, String.toList_ofList] at hparse
  rcases State.beyond_of_run hparse with ⟨_, _, hmax⟩ | ⟨_, ds, _, hlong, hrow, hdigits⟩
  · rw [Nat.zero_add] at hmax
    exact absurd h.opened (Nat.not_le_of_lt hmax)
  · exact absurd (h.rows ds hrow hdigits) (Nat.not_le_of_lt hlong)

end BuildLens.Json
