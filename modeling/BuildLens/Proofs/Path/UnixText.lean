import BuildLens.Proofs.Path.Spelling

/-!
# Windows paths with forward slashes

Tools of another system print a path on a drive as `/c/a`, and a path on a share with slashes for
its backslashes. A path is read back from what is written so: the letter of the drive comes back as
a capital, which does not make it another path.

Main definitions:

- `Windows.Path.OnDrive`, `Windows.Path.OnShare`: what a path begins with.

Main results:

- `Windows.lowerAfter_toUpper`: the case of the letter does not count.
- `FilePath.ofUnixText_unixText`: a path is read back.
-/

namespace BuildLens

namespace Windows

open Text (lowerAfter)

variable {d : Char} {cs rest : List Char}

/-! ## Letters -/

/-- What is asked of a letter is asked of the ASCII characters. -/
theorem forall_isAlpha {P : Char → Prop}
    (h : ∀ n < 128, (Char.ofNat n).isAlpha = true → P (Char.ofNat n)) (hd : d.isAlpha = true) :
    P d := by
  have hchar := h d.toNat (toNat_lt_of_isAlpha hd)
  rw [Char.ofNat_toNat] at hchar
  exact hchar hd

/-- A letter is no separator. -/
theorem isSeparator_of_isAlpha (hd : d.isAlpha = true) : isSeparator d = false :=
  forall_isAlpha (P := fun d => isSeparator d = false) (by decide) hd

theorem isAlpha_toLower (hd : d.isAlpha = true) : d.toLower.isAlpha = true :=
  forall_isAlpha (P := fun d => d.toLower.isAlpha = true) (by decide) hd

theorem isAlpha_toUpper (hd : d.isAlpha = true) : d.toUpper.isAlpha = true :=
  forall_isAlpha (P := fun d => d.toUpper.isAlpha = true) (by decide) hd

theorem toUpper_ne_slash (hd : d.isAlpha = true) : d.toUpper ≠ '/' :=
  forall_isAlpha (P := fun d => d.toUpper ≠ '/') (by decide) hd

theorem toUpper_toLower (hd : d.isAlpha = true) : d.toLower.toUpper = d.toUpper :=
  forall_isAlpha (P := fun d => d.toLower.toUpper = d.toUpper) (by decide) hd

/-- The letter of a drive is lowered without what stands around it. -/
theorem lowerAfter_drive (hd : d.isAlpha = true) (cs : List Char) :
    lowerAfter [] (d :: ':' :: '\\' :: cs) =
      Text.lowerChar d ++ ':' :: '\\' :: lowerAfter ['\\'] cs := by
  have hplain : d ≠ '\u03A3' := by
    rintro rfl
    cases hd
  have hcut := Text.lowerAfter_backslash [] [':', d] cs
  rw [List.nil_append, List.nil_append] at hcut
  rw [lowerAfter, if_neg hplain, lowerAfter, lowerAfter, hcut]
  rfl

/-- The case of the letter of a drive does not count. -/
theorem lowerAfter_toUpper (hd : d.isAlpha = true) (cs : List Char) :
    lowerAfter [] (d.toUpper :: ':' :: '\\' :: cs) = lowerAfter [] (d :: ':' :: '\\' :: cs) := by
  have hlower : Text.lowerChar d.toUpper = Text.lowerChar d :=
    forall_isAlpha (P := fun d => Text.lowerChar d.toUpper = Text.lowerChar d) (by decide) hd
  rw [lowerAfter_drive (isAlpha_toUpper hd), lowerAfter_drive hd, hlower]

/-! ## Slashes for backslashes and back -/

/-- The text with slashes for its backslashes. -/
def slashed (cs : List Char) : List Char := cs.map fun c => if c = '\\' then '/' else c

/-- Slashes that were backslashes become backslashes again. -/
theorem backslashed_slashed (h : '/' ∉ cs) : backslashed (slashed cs) = cs := by
  rw [backslashed, slashed, List.map_map]
  conv_rhs => rw [← List.map_id cs]
  apply List.map_congr_left
  intro c hc
  have hslash : c ≠ '/' := fun heq => h (heq ▸ hc)
  by_cases hback : c = '\\' <;> simp [hback, hslash]

/-- A drive is written as a directory of the root, in lower case. -/
theorem toUnixChars_letter (hd : d.isAlpha = true) (rest : List Char) :
    toUnixChars (d :: ':' :: '\\' :: rest) = '/' :: d.toLower :: '/' :: slashed rest := by
  have hback : d.toLower ≠ '\\' :=
    forall_isAlpha (P := fun d => d.toLower ≠ '\\') (by decide) hd
  simp [toUnixChars, slashed, hd, hback, isSeparator]

/-- A share keeps both of its separators. -/
theorem toUnixChars_share (rest : List Char) :
    toUnixChars ('\\' :: '\\' :: rest) = '/' :: '/' :: slashed rest := by
  simp [toUnixChars, slashed]

/-- A directory of the root with a letter for a name is read as a drive. -/
theorem ofUnixChars_letter (hd : d.isAlpha = true) (rest : List Char) :
    ofUnixChars ('/' :: d :: '/' :: rest) = d.toUpper :: ':' :: '\\' :: backslashed rest := by
  simp [ofUnixChars, backslashed, hd, toUpper_ne_slash hd]

/-- Two slashes are read as those of a share. -/
theorem ofUnixChars_share (rest : List Char) :
    ofUnixChars ('/' :: '/' :: rest) = '\\' :: '\\' :: backslashed rest := by
  have hletter : ('/').isAlpha = false := by decide
  simp [ofUnixChars, backslashed, hletter]

/-! ## Paths on drives and on shares -/

/-- The path begins with the letter of a drive and a colon. -/
def Path.OnDrive (p : Path) : Prop := ∃ d rest, p.chars = d :: ':' :: rest ∧ d.isAlpha = true

/-- The path begins with two backslashes, as the names of a share do. -/
def Path.OnShare (p : Path) : Prop := ∃ rest, p.chars = '\\' :: '\\' :: rest

end Windows

namespace FilePath

variable {s : String} {p : Windows.Path}

/-- An absolute text is read as its normal form. -/
theorem ofText_of_isAbsolute {cs : List Char} (habs : Windows.isAbsolute cs = true) :
    ofText .windows (String.ofList cs) = .ok (.windows ⟨Windows.normalize cs⟩) := by
  simp [ofText, ofText?, Windows.Path.ofChars?, habs]

/-- A drive with settled names is read as it is. -/
theorem ofText_letter {d : Char} {names : List (List Char)} (hd : d.isAlpha = true)
    (hnames : Windows.Settled true names) :
    ofText .windows (String.ofList (d :: ':' :: '\\' :: ['\\'].intercalate names)) =
      .ok (.windows ⟨d :: ':' :: '\\' :: ['\\'].intercalate names⟩) := by
  have hseated := Windows.seated_letter (Windows.isSeparator_of_isAlpha hd) hnames
  rw [ofText_of_isAbsolute (Windows.isAbsolute_iff.mpr (.inr ⟨_, _, _, rfl, rfl⟩)),
    hseated.normalize_eq]

/-- Paths that differ in the case of the letter of their drive are the same. -/
theorem same_letter {d : Char} (hd : d.isAlpha = true) (cs : List Char) :
    (windows ⟨d.toUpper :: ':' :: '\\' :: cs⟩).same (windows ⟨d :: ':' :: '\\' :: cs⟩) = true := by
  rw [same, beq_iff_eq, key, key, Windows.Path.key, Windows.Path.key, Windows.Path.text,
    Windows.Path.text, Text.lower, Text.lower, String.toList_ofList, String.toList_ofList,
    Windows.lowerAfter_toUpper hd]

/-- The names of a path on a drive. -/
theorem exists_names_of_ofText {d : Char} {rest : List Char}
    (hp : ofText .windows s = .ok (.windows p)) (hchars : p.chars = d :: ':' :: rest)
    (hd : d.isAlpha = true) :
    ∃ names, Windows.Settled true names ∧
      p = ⟨d :: ':' :: '\\' :: ['\\'].intercalate names⟩ := by
  obtain ⟨cs, habs, hcs⟩ := Windows.exists_eq_normalize hp
  obtain ⟨names, hnames, rfl⟩ := Windows.exists_names_of_letter habs
    (Windows.isSeparator_of_isAlpha hd) (hcs.symm.trans hchars)
  exact ⟨names, hnames, by rw [← hchars]⟩

/-- A path on a drive is read back with a capital for its letter. -/
theorem ofUnixText_unixText_letter {d : Char} {names : List (List Char)} (hd : d.isAlpha = true)
    (hnames : Windows.Settled true names) :
    ofUnixText .windows
        (windows ⟨d :: ':' :: '\\' :: ['\\'].intercalate names⟩).unixText =
      .ok (.windows ⟨d.toUpper :: ':' :: '\\' :: ['\\'].intercalate names⟩) := by
  have hread := Windows.toUnixChars_letter hd (['\\'].intercalate names)
  have hslash := Windows.slash_not_mem_intercalate hnames
  rw [unixText, ofUnixText, String.toList_ofList, hread,
    Windows.ofUnixChars_letter (Windows.isAlpha_toLower hd), Windows.toUpper_toLower hd,
    Windows.backslashed_slashed hslash]
  exact ofText_letter (Windows.isAlpha_toUpper hd) hnames

/-- A path on a share is read back as it stands. -/
theorem ofUnixText_unixText_share (hp : ofText .windows s = .ok (.windows p)) (hplace : p.OnShare) :
    ofUnixText .windows (windows p).unixText = .ok (.windows p) := by
  obtain ⟨cs, habs, hcs⟩ := Windows.exists_eq_normalize hp
  obtain ⟨rest, hchars⟩ := hplace
  have hnormal : Windows.IsNormal p.chars := (normal_of_ofText hp).2
  have htwo : (Windows.normalize cs).take 2 = ['\\', '\\'] := by
    rw [← hcs, hchars]
    rfl
  obtain ⟨drive, hseated⟩ := Windows.exists_seated_of_share
    (Windows.take_backslashed_of_take_normalize habs htwo)
  have hself : Windows.normalize p.chars = p.chars := hcs ▸ hseated.normalize_eq
  have hread : Windows.ofUnixChars (Windows.toUnixChars p.chars) = p.chars := by
    have hslash := hnormal.noSlash
    rw [hchars, List.mem_cons, List.mem_cons, not_or, not_or] at hslash
    rw [hchars, Windows.toUnixChars_share, Windows.ofUnixChars_share,
      Windows.backslashed_slashed hslash.2.2]
  rw [unixText, ofUnixText, String.toList_ofList, hread, ofText_of_isAbsolute hnormal.isAbsolute,
    hself]

/-- A path on a drive or on a share is read back from its text with forward slashes. The letter of
the drive comes back as a capital, and the path is the same as before. -/
theorem ofUnixText_unixText (hp : ofText .windows s = .ok (.windows p))
    (hplace : p.OnDrive ∨ p.OnShare) :
    ∃ q : Windows.Path, ofUnixText .windows (windows p).unixText = .ok (.windows q) ∧
      q.chars = p.chars.modifyHead Char.toUpper ∧ (windows q).same (windows p) = true := by
  rcases hplace with ⟨d, rest, hchars, hd⟩ | hshare
  · obtain ⟨names, hnames, rfl⟩ := exists_names_of_ofText hp hchars hd
    exact ⟨_, ofUnixText_unixText_letter hd hnames, rfl, same_letter hd _⟩
  · refine ⟨p, ofUnixText_unixText_share hp hshare, ?_, by simp [same]⟩
    obtain ⟨rest, hchars⟩ := hshare
    rw [hchars]
    rfl

/-- The root of a drive, a name on it that looks like a drive, and a share by its long name. -/
theorem ofUnixText_unixText_places :
    (ofText .windows "c:/" = .ok (.windows ⟨"c:\\".toList⟩) ∧
      ∃ q : Windows.Path, ofUnixText .windows (windows ⟨"c:\\".toList⟩).unixText =
          .ok (.windows q) ∧ (windows q).same (windows ⟨"c:\\".toList⟩) = true) ∧
    (ofText .windows "c:/d:/e" = .ok (.windows ⟨"c:\\d:\\e".toList⟩) ∧
      ∃ q : Windows.Path, ofUnixText .windows (windows ⟨"c:\\d:\\e".toList⟩).unixText =
          .ok (.windows q) ∧ (windows q).same (windows ⟨"c:\\d:\\e".toList⟩) = true) ∧
    ofText .windows "//?/unc/h/s" = .ok (.windows ⟨"\\\\?\\unc\\h\\s".toList⟩) ∧
      ∃ q : Windows.Path, ofUnixText .windows (windows ⟨"\\\\?\\unc\\h\\s".toList⟩).unixText =
          .ok (.windows q) ∧ (windows q).same (windows ⟨"\\\\?\\unc\\h\\s".toList⟩) = true := by
  have hroot : ofText .windows "c:/" = .ok (.windows ⟨"c:\\".toList⟩) := by decide +kernel
  have hname : ofText .windows "c:/d:/e" = .ok (.windows ⟨"c:\\d:\\e".toList⟩) := by
    decide +kernel
  have hshare : ofText .windows "//?/unc/h/s" =
      .ok (.windows ⟨"\\\\?\\unc\\h\\s".toList⟩) := by decide +kernel
  refine ⟨⟨hroot, ?_⟩, ⟨hname, ?_⟩, hshare, ?_⟩
  · obtain ⟨q, hq, -, hsame⟩ :=
      ofUnixText_unixText hroot (.inl ⟨'c', ['\\'], by simp, by decide⟩)
    exact ⟨q, hq, hsame⟩
  · obtain ⟨q, hq, -, hsame⟩ :=
      ofUnixText_unixText hname (.inl ⟨'c', "\\d:\\e".toList, by simp, by decide⟩)
    exact ⟨q, hq, hsame⟩
  · obtain ⟨q, hq, -, hsame⟩ :=
      ofUnixText_unixText hshare (.inr ⟨"?\\unc\\h\\s".toList, by simp⟩)
    exact ⟨q, hq, hsame⟩

end FilePath

end BuildLens
