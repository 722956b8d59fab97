import BuildLens.Path.FilePath

/-!
# Windows paths stay absolute

Reading an absolute text and joining plain names to the path again give absolute texts, since both
keep what the text begins with.

Main results:

- `Windows.isAbsolute_ofUnixChars_iff`: which texts with a slash in front are absolute.
- `Windows.isAbsolute_normalize`: the normal spelling of an absolute text is absolute.
- `Windows.isAbsolute_joinText`: plain names joined to an absolute text leave it absolute.
- `FilePath.absolute_of_ofText`: a path that was read is absolute.
- `FilePath.Absolute.exists_join_eq_ok`: plain names below an absolute path lead to a path.
-/

namespace BuildLens

namespace Windows

variable {cs : List Char}

/-! ## What absolute texts begin with -/

/-- A text is absolute if it begins with a separator, or with a drive and a separator. -/
theorem isAbsolute_iff :
    isAbsolute cs = true ↔
      (∃ a rest, cs = a :: rest ∧ isSeparator a = true) ∨
        ∃ a b rest, cs = a :: ':' :: b :: rest ∧ isSeparator b = true := by
  rw [isAbsolute.eq_def]
  split
  · next a rest =>
    rw [Bool.or_eq_true]
    split <;> grind
  · simp

/-- A text is absolute if its drive begins with a separator or a separator follows its drive. -/
structure Rooted (drive rest : List Char) : Prop where
  cases : (∃ a d, drive = a :: d ∧ isSeparator a = true) ∨
    (∃ b r, rest = b :: r ∧ isSeparator b = true) ∧ (drive = [] ∨ ∃ a, drive = [a, ':'])

/-- A drive with a root is absolute. -/
theorem Rooted.isAbsolute {drive rest : List Char} (h : Rooted drive rest) :
    isAbsolute (drive ++ rest) = true := by
  rw [isAbsolute_iff]
  rcases h.cases with ⟨a, d, rfl, ha⟩ | ⟨⟨b, r, rfl, hb⟩, rfl | ⟨a, rfl⟩⟩
  · exact .inl ⟨a, _, rfl, ha⟩
  · exact .inl ⟨b, r, rfl, hb⟩
  · exact .inr ⟨a, b, r, rfl, hb⟩

/-- What follows does not take the root away. -/
theorem Rooted.append {drive rest : List Char} (h : Rooted drive rest) (tail : List Char) :
    Rooted drive (rest ++ tail) := by
  rcases h.cases with h | ⟨⟨b, r, rfl, hb⟩, hd⟩
  · exact ⟨.inl h⟩
  · exact ⟨.inr ⟨⟨b, r ++ tail, rfl, hb⟩, hd⟩⟩

/-- The name of a share takes two characters at least. -/
theorem two_le_shareLength {a b : Char} {rest : List Char} {start : Nat} (h : 2 ≤ start) :
    2 ≤ shareLength start (a :: b :: rest) := by
  rw [shareLength]
  split
  · simp
  · split
    · simp
    · omega

/-- A drive and what follows it make up the text. -/
theorem splitDrive_append (cs : List Char) : (splitDrive cs).1 ++ (splitDrive cs).2 = cs := by
  rw [splitDrive.eq_def]
  split
  · split
    · exact List.splitAt_eq .. ▸ List.take_append_drop ..
    · split
      · exact List.splitAt_eq .. ▸ List.take_append_drop ..
      · rfl
  · rfl

/-- An absolute text has a root behind its drive. -/
theorem rooted_splitDrive (h : isAbsolute cs = true) :
    Rooted (splitDrive cs).1 (splitDrive cs).2 := by
  rw [splitDrive.eq_def]
  split
  · next a b rest =>
    split
    · next hsep =>
      rw [Bool.and_eq_true] at hsep
      have htwo :
          2 ≤ shareLength (if isLongShare (a :: b :: rest) then 8 else 2) (a :: b :: rest) :=
        two_le_shareLength (by split <;> omega)
      obtain ⟨k, hk⟩ := Nat.exists_eq_add_of_le' htwo
      rw [hk, List.splitAt_eq]
      exact ⟨.inl ⟨a, _, rfl, hsep.1⟩⟩
    · split
      · next hsep hcolon =>
        subst hcolon
        rw [List.splitAt_eq]
        rcases isAbsolute_iff.mp h with ⟨_, _, heq, ha⟩ | ⟨_, c, r, heq, hc⟩
        · cases heq
          exact ⟨.inl ⟨a, [':'], rfl, ha⟩⟩
        · cases heq
          exact ⟨.inr ⟨⟨c, r, rfl, hc⟩, .inr ⟨a, rfl⟩⟩⟩
      · next hsep hcolon =>
        rcases isAbsolute_iff.mp h with ⟨_, _, heq, ha⟩ | ⟨_, c, r, heq, hc⟩
        · cases heq
          exact ⟨.inr ⟨⟨a, _, rfl, ha⟩, .inl rfl⟩⟩
        · cases heq
          exact absurd rfl hcolon
  · rcases isAbsolute_iff.mp h with ⟨a, rest, heq, ha⟩ | ⟨a, b, rest, heq, hb⟩
    · exact ⟨.inr ⟨⟨a, rest, heq, ha⟩, .inl rfl⟩⟩
    · next hshort => exact absurd heq (hshort _ _ _)

/-! ## The normal spelling -/

/-- A slash that becomes a backslash stays a separator. -/
theorem isSeparator_backslash (c : Char) :
    isSeparator (if c = '/' then '\\' else c) = isSeparator c := by
  split
  · next h => rw [h]; rfl
  · rfl

/-- A text stays absolute when its slashes become backslashes. -/
theorem isAbsolute_backslashed (h : isAbsolute cs = true) : isAbsolute (backslashed cs) = true := by
  rw [isAbsolute_iff] at h ⊢
  rcases h with ⟨a, rest, rfl, ha⟩ | ⟨a, b, rest, rfl, hb⟩
  · exact .inl ⟨_, _, rfl, (isSeparator_backslash a).trans ha⟩
  · exact .inr ⟨_, _, _, rfl, (isSeparator_backslash b).trans hb⟩

/-- A letter is an ASCII character. -/
theorem toNat_lt_of_isAlpha {d : Char} (h : d.isAlpha = true) : d.toNat < 128 := by
  have hletter : d.isAlpha = (decide (65 ≤ d.val ∧ d.val ≤ 90) ||
      (decide (97 ≤ d.val) && decide (d.val ≤ 122))) := rfl
  simp only [hletter, Bool.or_eq_true, Bool.and_eq_true, decide_eq_true_eq,
    UInt32.le_iff_toNat_le] at h
  change d.val.toNat < 128
  rcases h with ⟨-, h⟩ | ⟨-, h⟩
  · exact Nat.lt_of_le_of_lt h (by decide)
  · exact Nat.lt_of_le_of_lt h (by decide)

/-- A lone drive with a line feed behind it becomes a drive with a line feed for its only name. -/
theorem isAbsolute_loneDrive {d : Char} (hd : d.isAlpha = true) :
    isAbsolute (ofUnixChars ['/', d, '\n']) = false := by
  have hletter : ∀ n < 128, (Char.ofNat n).isAlpha = true →
      isAbsolute (backslashed [(Char.ofNat n).toUpper, ':', '\n']) = false := by
    decide
  have htext : ofUnixChars ['/', d, '\n'] = backslashed [d.toUpper, ':', '\n'] := by
    simp [ofUnixChars, hd]
  have hnot := hletter d.toNat (toNat_lt_of_isAlpha hd)
  rw [Char.ofNat_toNat] at hnot
  rw [htext, hnot hd]

/-- A text that begins with a slash is absolute, also where it names a drive, unless it is a lone
drive with a line feed behind it. -/
theorem isAbsolute_ofUnixChars_iff (h : cs.head? = some '/') :
    isAbsolute (ofUnixChars cs) = true ↔ ∀ d, d.isAlpha = true → cs ≠ ['/', d, '\n'] := by
  constructor
  · rintro habs d hd rfl
    rw [isAbsolute_loneDrive hd] at habs
    cases habs
  · intro hlone
    have hroot (rest : List Char) : isAbsolute ('/' :: rest) = true :=
      isAbsolute_iff.mpr (.inl ⟨'/', rest, rfl, rfl⟩)
    rw [ofUnixChars.eq_def]
    dsimp only
    apply isAbsolute_backslashed
    split
    · next d rest =>
      split
      · next hdrive =>
        rw [isAbsolute_iff]
        -- The drive is followed by nothing, for which a slash is put, or by a slash.
        cases rest with
        | nil => exact .inr ⟨_, '/', [], rfl, rfl⟩
        | cons c rest =>
          rw [Bool.and_eq_true] at hdrive
          have hfeed : c :: rest ≠ ['\n'] := fun heq => hlone d hdrive.1 (by rw [heq])
          simp only [Bool.or_eq_true, beq_iff_eq, hfeed, reduceCtorEq, false_or, List.head?_cons,
            Option.some_inj] at hdrive
          exact .inr ⟨_, c, rest, rfl, by rw [hdrive.2]; rfl⟩
      · exact hroot _
    · obtain ⟨rest, rfl⟩ := List.head?_eq_some_iff.mp h
      exact hroot rest

/-- A text with forward slashes is absolute if it begins with one. -/
theorem isAbsolute_ofUnixChars (h : cs.head? = some '/') (hn : '\n' ∉ cs) :
    isAbsolute (ofUnixChars cs) = true :=
  (isAbsolute_ofUnixChars_iff h).mpr fun d _ heq => hn (heq ▸ by simp)

/-- Backslashes are the only separators that are left. -/
theorem eq_backslash_of_mem {c : Char} (h : c ∈ backslashed cs) (hc : isSeparator c = true) :
    c = '\\' := by
  obtain ⟨x, _, rfl⟩ := List.mem_map.mp h
  split
  · rfl
  · next hx => simpa [isSeparator, hx] using hc

/-- A text stays absolute when it is normalized. -/
theorem isAbsolute_normalize (h : isAbsolute cs = true) : isAbsolute (normalize cs) = true := by
  have hroot := rooted_splitDrive (isAbsolute_backslashed h)
  have hwhole := splitDrive_append (backslashed cs)
  rw [normalize]
  generalize splitDrive (backslashed cs) = parts at hroot hwhole
  obtain ⟨drive, rest⟩ := parts
  dsimp only at hroot hwhole ⊢
  -- Whatever names follow, the text begins with the drive and, if there is one, the root.
  have hstart (start : List Char) (names : List (List Char)) (hs : isAbsolute start = true) :
      isAbsolute (if start = [] ∧ names = [] then ['.']
        else start ++ ['\\'].intercalate names) = true := by
    have hne : start ≠ [] := by
      rintro rfl
      cases hs
    rw [if_neg fun h => hne h.1]
    rw [isAbsolute_iff] at hs ⊢
    grind
  rcases hroot.cases with ⟨a, d, rfl, ha⟩ | ⟨⟨b, r, rfl, hb⟩, hd⟩
  · split
    · exact hstart _ _ (isAbsolute_iff.mpr (.inl ⟨a, d ++ ['\\'], rfl, ha⟩))
    · exact hstart _ _ (isAbsolute_iff.mpr (.inl ⟨a, d, rfl, ha⟩))
  · have hmem : b ∈ backslashed cs := hwhole ▸ List.mem_append_right drive List.mem_cons_self
    obtain rfl := eq_backslash_of_mem hmem hb
    exact hstart _ _ (Rooted.isAbsolute ⟨.inr ⟨⟨'\\', [], rfl, hb⟩, hd⟩⟩)

/-! ## Joining names -/

/-- A name that has no drive and does not begin with a separator. -/
structure PlainName (part : List Char) : Prop where
  drive : splitDrive part = ([], part)
  head : part.head?.any isSeparator = false

instance (part : List Char) : Decidable (PlainName part) :=
  decidable_of_iff (splitDrive part = ([], part) ∧ part.head?.any isSeparator = false)
    ⟨fun h => ⟨h.1, h.2⟩, fun h => ⟨h.drive, h.head⟩⟩

/-- A plain name that is joined does not take the root away. -/
theorem Rooted.add {drive rest part : List Char} (h : Rooted drive rest) (hpart : PlainName part) :
    Rooted (Joined.add ⟨drive, rest⟩ part).drive (Joined.add ⟨drive, rest⟩ part).rest := by
  have hadd : Joined.add ⟨drive, rest⟩ part =
      ⟨drive, (if rest.getLast?.any (!isSeparator ·) then rest ++ ['\\'] else rest) ++ part⟩ := by
    rw [Joined.add, hpart.drive]
    simp [hpart.head]
  rw [hadd]
  dsimp only
  split
  · exact (h.append _).append _
  · exact h.append _

/-- Plain names that are joined do not take the root away. -/
theorem Rooted.foldl_add {parts : List (List Char)} (hparts : ∀ part ∈ parts, PlainName part)
    {j : Joined} (h : Rooted j.drive j.rest) :
    Rooted (parts.foldl Joined.add j).drive (parts.foldl Joined.add j).rest := by
  induction parts generalizing j with
  | nil => exact h
  | cons part parts ih =>
    rw [List.forall_mem_cons] at hparts
    exact ih hparts.2 (h.add hparts.1)

/-- What is joined is absolute if it has a root. -/
theorem isAbsolute_text {j : Joined} (h : Rooted j.drive j.rest) : isAbsolute j.text = true := by
  rw [Joined.text]
  split
  · next hapart =>
    rcases h.cases with ⟨a, d, hd, ha⟩ | ⟨⟨b, r, hr, hb⟩, -⟩
    · rw [hd]
      exact isAbsolute_iff.mpr (.inl ⟨a, _, rfl, ha⟩)
    · simp [hr, hb] at hapart
  · exact h.isAbsolute

/-- An absolute text stays so when plain names are joined to it. -/
theorem isAbsolute_joinText (h : isAbsolute cs = true) {parts : List (List Char)}
    (hparts : ∀ part ∈ parts, PlainName part) : isAbsolute (joinText cs parts) = true := by
  rw [joinText]
  exact isAbsolute_text (Rooted.foldl_add hparts (j := ⟨_, _⟩) (rooted_splitDrive h))

end Windows

/-- A path that was read is the normal spelling of an absolute text. -/
theorem Windows.exists_eq_normalize {platform : Platform} {s : String} {p : Windows.Path}
    (h : FilePath.ofText platform s = .ok (.windows p)) :
    ∃ cs, isAbsolute cs = true ∧ p.chars = normalize cs := by
  rw [FilePath.ofText] at h
  cases hread : FilePath.ofText? platform s with
  | none =>
    rw [hread] at h
    cases h
  | some q =>
    rw [hread] at h
    cases h
    cases platform with
    | windows =>
      rw [FilePath.ofText?, Option.map_eq_some_iff] at hread
      obtain ⟨q, hq, heq⟩ := hread
      cases heq
      rw [Path.ofChars?] at hq
      split at hq
      · next habs =>
        cases hq
        exact ⟨s.toList, habs, rfl⟩
      · cases hq
    | linux => simp [FilePath.ofText?] at hread
    | darwin => simp [FilePath.ofText?] at hread

namespace FilePath

/-- A path read from a URI is read from a text. -/
theorem exists_ofText_of_ofUri {platform : Platform} {s : String} {p : FilePath}
    (h : ofUri platform s = .ok p) : ∃ t, ofText platform t = .ok p := by
  rw [ofUri] at h
  split at h
  · cases h
  · split at h
    · exact ⟨_, h⟩
    · split at h
      · cases h
      · exact ⟨s, h⟩

/-- Whether the text of the path is absolute, as that of every path is that was read or reached
from one. -/
def Absolute : FilePath → Prop
  | .posix _ => True
  | .windows p => Windows.isAbsolute p.chars = true

/-- A path that is read is absolute. -/
theorem absolute_of_ofText {platform : Platform} {s : String} {p : FilePath}
    (h : ofText platform s = .ok p) : p.Absolute := by
  cases p with
  | posix p => trivial
  | windows p =>
    obtain ⟨cs, habs, hcs⟩ := Windows.exists_eq_normalize h
    rw [Absolute, hcs]
    exact Windows.isAbsolute_normalize habs

/-- Plain names below an absolute path lead to an absolute path. -/
theorem Absolute.exists_join_eq_ok {p : FilePath} (hp : p.Absolute) {names : List String}
    (hnames : ∀ name ∈ names, Windows.PlainName name.toList) :
    ∃ q, p.join names = .ok q ∧ q.Absolute := by
  cases p with
  | posix p => exact ⟨_, rfl, trivial⟩
  | windows p =>
    have hjoin : Windows.isAbsolute (Windows.joinText p.chars (names.map String.toList)) = true :=
      Windows.isAbsolute_joinText hp (by simpa using hnames)
    refine ⟨.windows ⟨Windows.normalize (Windows.joinText p.chars (names.map String.toList))⟩, ?_,
      Windows.isAbsolute_normalize hjoin⟩
    simp only [join]
    rw [Windows.Path.ofChars?, if_pos hjoin]

end FilePath

end BuildLens
