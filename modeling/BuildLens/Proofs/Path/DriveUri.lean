import BuildLens.Proofs.Path.UnixText
import BuildLens.Proofs.Path.Uri

/-!
# Paths on drives as URIs

A URI is written for every path on a drive whose names hold no colon, but the path is not read back
from it: the form that the drive is given brings slashes of its own, so that there are two too many,
and the drive is taken for a name of a share. With the slashes of that form alone the path would be
read back, unless it is the root of the drive.

Main definitions:

- `Windows.driveUri`, `Windows.driveText`: a drive and names, as they are written and as they are
  read.
- `Windows.slashedDrive`: what becomes of the drive behind too many slashes.

Main results:

- `Windows.toUriPath_letter`: what is written for a path on a drive.
- `Windows.normalize_slashes_driveText`: what is read behind all the slashes.
- `FilePath.ofUri_toUri_letter`: a path on a drive is not read back.
-/

namespace BuildLens

/-! ## Paths on drives -/

namespace Windows

open Text (splitAt)

variable {d : Char} {names : List (List Char)}

/-- The path of the URI of a path on a drive, from the letter on. -/
def driveUri (d : Char) (names : List (List Char)) : List Char :=
  d.toUpper :: ':' :: names.flatMap fun n => '/' :: Percent.encode n

theorem upperChar_letter (hd : d.isAlpha = true) : Text.upperChar d = [d.toUpper] := by
  rw [Text.upperChar, if_pos (toNat_lt_of_isAlpha hd)]

theorem encode_letter (hd : d.isAlpha = true) : Percent.encode [d] = [d] := by
  have hplain : Percent.isUnreserved d = true := by simp [Percent.isUnreserved, Char.isAlphanum, hd]
  simp [Percent.encode, Percent.encodeChar, hplain]

/-- The names between the backslashes behind a root. -/
theorem filter_splitAt (hnames : Settled true names) :
    (splitAt '\\' ('\\' :: ['\\'].intercalate names)).filter (· ≠ []) = names := by
  have hroot : splitAt '\\' ('\\' :: ['\\'].intercalate names) =
      [] :: splitAt '\\' (['\\'].intercalate names) := by rw [splitAt, if_pos rfl]
  rw [hroot]
  by_cases hne : names = []
  · rw [hne]
    rfl
  · rw [hnames.splitAt_intercalate hne, List.filter_cons_of_neg (by simp), List.filter_eq_self]
    intro n hn
    exact decide_eq_true (hnames.name n hn).1

/-- What is written for a path on a drive. -/
theorem toUriPath_letter (hd : d.isAlpha = true) (hnames : Settled true names)
    (hcolon : ':' ∉ ['\\'].intercalate names) :
    toUriPath (d :: ':' :: '\\' :: ['\\'].intercalate names) =
      .ok ('/' :: '/' :: '/' :: driveUri d names) := by
  have hmark : Text.dropPrefix? "\\\\?\\".toList (d :: ':' :: '\\' :: ['\\'].intercalate names) =
      none := by
    have hback : '\\' ≠ d := by
      rintro rfl
      cases hd
    simp [Text.dropPrefix?, hback]
  have hparts : splitAt ':' (d :: ':' :: '\\' :: ['\\'].intercalate names) =
      [[d], '\\' :: ['\\'].intercalate names] := by
    have hletter : d ≠ ':' := by
      rintro rfl
      cases hd
    have hall : ∀ w ∈ [[d], '\\' :: ['\\'].intercalate names], ':' ∉ w := by
      simp [Ne.symm hletter, hcolon]
    have hsplit := Text.splitAt_intercalate (List.cons_ne_nil _ _) hall
    rwa [List.intercalate_cons_cons, List.intercalate_singleton] at hsplit
  rw [toUriPath, hmark]
  dsimp only [Except.bind]
  rw [hparts]
  dsimp only
  rw [filter_splitAt hnames, List.flatMap_singleton, upperChar_letter hd,
    encode_letter (isAlpha_toUpper hd)]
  simp [driveUri]

/-- What is read from the path of the URI of a path on a drive. -/
def driveText (d : Char) (names : List (List Char)) : List Char :=
  d.toUpper :: ':' :: names.flatMap ('/' :: ·)

theorem writes_driveUri (hd : d.isAlpha = true) (names : List (List Char)) :
    Percent.Writes (driveUri d names) (driveText d names) := by
  have hletter : Percent.Writes [d.toUpper] [d.toUpper] := by
    have hself := Percent.writes_encode [d.toUpper]
    rwa [encode_letter (isAlpha_toUpper hd)] at hself
  have hcolon : Percent.Writes [':'] [':'] := Percent.writes_char rfl (by decide)
  have hnames : Percent.Writes (names.flatMap fun n => '/' :: Percent.encode n)
      (names.flatMap ('/' :: ·)) := by
    induction names with
    | nil => exact .nil
    | cons n names ih => exact (Percent.writes_encode n).slash.append ih
  exact hletter.append (hcolon.append hnames)

theorem isKept_of_mem_driveUri (hd : d.isAlpha = true) :
    ∀ c ∈ driveUri d names, Uri.isKept c = true := by
  have hletter : Uri.isKept d.toUpper = true :=
    forall_isAlpha (P := fun d => Uri.isKept d.toUpper = true) (by decide) hd
  simp only [driveUri, List.forall_mem_cons]
  refine ⟨hletter, rfl, fun c hc => ?_⟩
  obtain ⟨n, -, hn⟩ := List.mem_flatMap.mp hc
  rcases List.mem_cons.mp hn with rfl | hn
  · rfl
  · exact (Percent.isKept_of_mem_encode hn).1

/-! ## What is read -/

/-- The names with a separator in front of each. -/
theorem flatMap_cons_eq {sep : Char} (hne : names ≠ []) :
    names.flatMap (sep :: ·) = sep :: [sep].intercalate names := by
  induction names with
  | nil => exact absurd rfl hne
  | cons n names ih =>
    cases names with
    | nil => simp
    | cons m names =>
      rw [List.flatMap_cons, ih (List.cons_ne_nil m names), List.intercalate_cons_cons]
      simp

theorem backslashed_append (cs cs' : List Char) :
    backslashed (cs ++ cs') = backslashed cs ++ backslashed cs' :=
  List.map_append

theorem backslashed_driveText (hd : d.isAlpha = true) (hnames : Settled true names) :
    backslashed (driveText d names) = d.toUpper :: ':' :: names.flatMap ('\\' :: ·) := by
  have hfront : backslashed [d.toUpper, ':'] = [d.toUpper, ':'] := by
    simp [backslashed, toUpper_ne_slash hd]
  have hbehind : backslashed (names.flatMap ('/' :: ·)) = names.flatMap ('\\' :: ·) := by
    rw [backslashed, List.map_flatMap]
    apply List.flatMap_congr
    intro n hn
    have hslash : '/' ∉ n := by
      intro hmem
      have hsep := (hnames.name n hn).2.2 '/' hmem
      cases hsep
    exact congrArg ('\\' :: ·) (backslashed_eq_self hslash)
  calc backslashed (driveText d names)
      = backslashed ([d.toUpper, ':'] ++ names.flatMap ('/' :: ·)) := rfl
    _ = [d.toUpper, ':'] ++ names.flatMap ('\\' :: ·) := by
        rw [backslashed_append, hfront, hbehind]

/-- A drive with names behind it is read as the path on the drive. -/
theorem normalize_driveText (hd : d.isAlpha = true) (hnames : Settled true names)
    (hne : names ≠ []) :
    normalize (driveText d names) = d.toUpper :: ':' :: '\\' :: ['\\'].intercalate names := by
  have hseated := seated_letter (isSeparator_of_isAlpha (isAlpha_toUpper hd)) hnames
  apply hseated.normalize_of_backslashed
  rw [backslashed_driveText hd hnames, flatMap_cons_eq hne]

/-- The drive of a text whose first two names are empty and a drive. -/
def slashedDrive (d : Char) : List Char := ['\\', '\\', '\\', d.toUpper, ':']

theorem isLongShare_of_third {rest : List Char} :
    isLongShare ('\\' :: '\\' :: '\\' :: rest) = false := by
  by_contra hlong
  have hmark := map_of_isLongShare (Bool.eq_true_of_not_eq_false hlong)
  have hself : Text.upperChar '\\' = ['\\'] := by decide
  simp [backslashed, hself] at hmark

theorem splitDrive_slashedDrive (hd : d.isAlpha = true) (names : List (List Char)) :
    splitDrive (slashedDrive d ++ names.flatMap ('\\' :: ·)) =
      (slashedDrive d, names.flatMap ('\\' :: ·)) := by
  have hletter : ∀ c ∈ [d.toUpper, ':'], isSeparator c = false := by
    simp only [List.forall_mem_cons, List.not_mem_nil, false_imp_iff, implies_true, and_true]
    exact ⟨isSeparator_of_isAlpha (isAlpha_toUpper hd), rfl⟩
  by_cases hne : names = []
  · have hlength : shareLength 2 (slashedDrive d) = (slashedDrive d).length := by
      have hfirst : toSeparator? ['\\', d.toUpper, ':'] = some 0 := rfl
      have hnone : toSeparator? [d.toUpper, ':'] = none := by
        simpa [toSeparator?, List.findIdx?_eq_none_iff] using hletter
      simp [slashedDrive, shareLength, hfirst, hnone]
    have hlong : isLongShare (slashedDrive d) = false := isLongShare_of_third
    have htwo : (slashedDrive d).take 2 = ['\\', '\\'] := rfl
    rw [hne, List.flatMap_nil, List.append_nil, splitDrive_share htwo, hlong, if_neg (by decide),
      hlength, List.splitAt_eq, List.take_length, List.drop_length]
  · have hshort : ['\\', '\\'].length =
        if isLongShare (slashedDrive d ++ '\\' :: ['\\'].intercalate names) then 8 else 2 := by
      rw [slashedDrive, List.cons_append, List.cons_append, List.cons_append,
        isLongShare_of_third, if_neg (by decide)]
      rfl
    have hempty : ∀ c ∈ ([] : List Char), isSeparator c = false := by simp
    rw [flatMap_cons_eq hne]
    exact splitDrive_names hempty hletter rfl hshort

/-- Behind three slashes the drive is taken for a name of a share. -/
theorem normalize_slashes_driveText (hd : d.isAlpha = true) (hnames : Settled true names) :
    normalize ('/' :: '/' :: '/' :: driveText d names) =
      slashedDrive d ++ names.flatMap ('\\' :: ·) := by
  have hseated : Seated (slashedDrive d) (slashedDrive d ++ names.flatMap ('\\' :: ·)) := by
    refine ⟨List.cons_ne_nil _ _, ?_, congrArg Prod.fst (splitDrive_slashedDrive hd names), ?_⟩
    · simp [slashedDrive, (toUpper_ne_slash hd).symm]
    · by_cases hne : names = []
      · exact .inl (by rw [hne, List.flatMap_nil, List.append_nil])
      · exact .inr ⟨names, hnames, by rw [flatMap_cons_eq hne]⟩
  apply hseated.normalize_of_backslashed
  exact congrArg ('\\' :: '\\' :: '\\' :: ·) (backslashed_driveText hd hnames)

end Windows

namespace FilePath

variable {s : String} {p : Windows.Path} {d : Char} {rest : List Char} {names : List (List Char)}

/-- A drive behind three slashes is taken for a name of a share. -/
theorem ofUri_slashes (hd : d.isAlpha = true) (hnames : Windows.Settled true names) :
    ofUri .windows ("file://" ++ String.ofList ('/' :: '/' :: '/' :: Windows.driveUri d names)) =
      .ok (.windows ⟨Windows.slashedDrive d ++ names.flatMap ('\\' :: ·)⟩) := by
  have hread : Percent.Writes ('/' :: '/' :: '/' :: Windows.driveUri d names)
      ('/' :: '/' :: '/' :: Windows.driveText d names) :=
    (Windows.writes_driveUri hd names).slash.slash.slash
  have hkept : ∀ c ∈ '/' :: '/' :: '/' :: Windows.driveUri d names, Uri.isKept c = true := by
    simp only [List.forall_mem_cons]
    exact ⟨rfl, rfl, rfl, Windows.isKept_of_mem_driveUri hd⟩
  have htaken : Uri.taken .windows ('/' :: '/' :: '/' :: Windows.driveText d names) =
      '/' :: '/' :: '/' :: Windows.driveText d names := rfl
  have habs : Windows.isAbsolute ('/' :: '/' :: '/' :: Windows.driveText d names) = true :=
    Windows.isAbsolute_iff.mpr (.inl ⟨_, _, rfl, rfl⟩)
  rw [ofUri_file rfl hkept hread, htaken, ofText_of_isAbsolute habs,
    Windows.normalize_slashes_driveText hd hnames]

/-- The slash in front of a drive is not read. -/
theorem ofUri_driveUri (hd : d.isAlpha = true) (names : List (List Char)) :
    ofUri .windows ("file://" ++ String.ofList ('/' :: Windows.driveUri d names)) =
      ofText .windows (String.ofList (Windows.driveText d names)) := by
  have hkept : ∀ c ∈ '/' :: Windows.driveUri d names, Uri.isKept c = true :=
    List.forall_mem_cons.mpr ⟨rfl, Windows.isKept_of_mem_driveUri hd⟩
  have htaken : Uri.taken .windows ('/' :: Windows.driveText d names) =
      Windows.driveText d names := by
    simp [Uri.taken, Windows.driveText, Windows.isAlpha_toUpper hd]
  rw [ofUri_file rfl hkept (Windows.writes_driveUri hd names).slash, htaken]

theorem ofText_driveText (hd : d.isAlpha = true) (hnames : Windows.Settled true names)
    (hne : names ≠ []) :
    ofText .windows (String.ofList (Windows.driveText d names)) =
      .ok (.windows ⟨d.toUpper :: ':' :: '\\' :: ['\\'].intercalate names⟩) := by
  obtain ⟨n, names, rfl⟩ := List.exists_cons_of_ne_nil hne
  have habs : Windows.isAbsolute (Windows.driveText d (n :: names)) = true :=
    Windows.isAbsolute_iff.mpr (.inr ⟨_, _, _, rfl, rfl⟩)
  rw [ofText_of_isAbsolute habs, Windows.normalize_driveText hd hnames hne]

/-- A drive without a root is no path. -/
theorem ofText_driveText_nil (hd : d.isAlpha = true) :
    ofText .windows (String.ofList (Windows.driveText d [])) =
      .error (.notAbsolute (String.ofList [d.toUpper, ':'])) := by
  have hsep := Windows.isSeparator_of_isAlpha (Windows.isAlpha_toUpper hd)
  apply ofText_eq_error
  rw [isAbsoluteText, String.toList_ofList, Bool.eq_false_iff]
  intro habs
  rcases Windows.isAbsolute_iff.mp habs with ⟨a, more, heq, ha⟩ | ⟨a, b, more, heq, -⟩
  · cases heq
    rw [hsep] at ha
    cases ha
  · cases heq

/-- A URI is written for a path on a drive whose names hold no colon. What is read from the URI is
another path: the drive has become a name of a share. If two slashes less were written, the path
would be read back with a capital for its letter, and the root of a drive would be no path. -/
theorem ofUri_toUri_letter (hp : ofText .windows s = .ok (.windows p))
    (hchars : p.chars = d :: ':' :: rest) (hd : d.isAlpha = true) (hcolon : ':' ∉ rest) :
    ∃ path, (windows p : FilePath).toUri = .ok ("file://" ++ path) ∧
      (∃ q : Windows.Path, ofUri .windows ("file://" ++ path) = .ok (.windows q) ∧
        q.chars = '\\' :: '\\' :: '\\' :: d.toUpper :: ':' ::
          (if rest = ['\\'] then [] else rest) ∧
        (windows q).same (windows p) = false) ∧
      (rest ≠ ['\\'] → ∃ r : Windows.Path, ofUri .windows ("file:" ++ path) = .ok (.windows r) ∧
        r.chars = d.toUpper :: ':' :: rest ∧ (windows r).same (windows p) = true) ∧
      (rest = ['\\'] → ofUri .windows ("file:" ++ path) =
        .error (.notAbsolute (String.ofList [d.toUpper, ':']))) := by
  obtain ⟨names, hnames, rfl⟩ := exists_names_of_ofText hp hchars hd
  obtain rfl : '\\' :: ['\\'].intercalate names = rest := by simpa using hchars
  have hroot : '\\' :: ['\\'].intercalate names = ['\\'] ↔ names = [] := by
    simpa using hnames.intercalate_eq_nil
  have hbehind : (if '\\' :: ['\\'].intercalate names = ['\\'] then []
      else '\\' :: ['\\'].intercalate names) = names.flatMap ('\\' :: ·) := by
    simp only [hroot]
    split
    · next hnone => rw [hnone, List.flatMap_nil]
    · next hne => rw [Windows.flatMap_cons_eq hne]
  have htwo : "file:" ++ String.ofList ('/' :: '/' :: '/' :: Windows.driveUri d names) =
      "file://" ++ String.ofList ('/' :: Windows.driveUri d names) := by
    simp [← String.toList_inj]
  refine ⟨String.ofList ('/' :: '/' :: '/' :: Windows.driveUri d names), ?_,
    ⟨_, ofUri_slashes hd hnames, ?_, ?_⟩, fun hne => ?_, fun hnone => ?_⟩
  · rw [toUri, Windows.toUriPath_letter hd hnames (mt (List.mem_cons_of_mem _) hcolon)]
    rfl
  · rw [hbehind]
    rfl
  · rw [Bool.eq_false_iff]
    intro hsame
    have hback := Windows.eq_backslash_of_sameText (BEq.symm hsame)
    rw [hback] at hd
    cases hd
  · rw [htwo, ofUri_driveUri hd]
    exact ⟨_, ofText_driveText hd hnames (mt hroot.mpr hne), rfl, same_letter hd _⟩
  · rw [htwo, ofUri_driveUri hd, hroot.mp hnone, ofText_driveText_nil hd]

/-- A path with a name and the root of a drive. -/
theorem ofUri_toUri_letter_places :
    (ofText .windows "c:/x y" = .ok (.windows ⟨"c:\\x y".toList⟩) ∧
      ∃ path, (windows ⟨"c:\\x y".toList⟩ : FilePath).toUri = .ok ("file://" ++ path) ∧
        ∃ q : Windows.Path, ofUri .windows ("file://" ++ path) = .ok (.windows q) ∧
          (windows q).same (windows ⟨"c:\\x y".toList⟩) = false) ∧
    ofText .windows "c:/" = .ok (.windows ⟨"c:\\".toList⟩) ∧
      ∃ path, (windows ⟨"c:\\".toList⟩ : FilePath).toUri = .ok ("file://" ++ path) ∧
        ofUri .windows ("file:" ++ path) = .error (.notAbsolute "C:") := by
  have hname : ofText .windows "c:/x y" = .ok (.windows ⟨"c:\\x y".toList⟩) := by
    decide +kernel
  have hroot : ofText .windows "c:/" = .ok (.windows ⟨"c:\\".toList⟩) := by decide +kernel
  have hletter : ('c').isAlpha = true := by decide
  refine ⟨⟨hname, ?_⟩, hroot, ?_⟩
  · have hchars : "c:\\x y".toList = 'c' :: ':' :: "\\x y".toList := by decide +kernel
    obtain ⟨path, huri, ⟨q, hq, -, hsame⟩, -, -⟩ :=
      ofUri_toUri_letter hname hchars hletter (by decide +kernel)
    exact ⟨path, huri, q, hq, hsame⟩
  · have hchars : "c:\\".toList = 'c' :: ':' :: ['\\'] := by decide +kernel
    obtain ⟨path, huri, -, -, herror⟩ := ofUri_toUri_letter hroot hchars hletter (by decide)
    exact ⟨path, huri, herror rfl⟩

/-- What is written for a path on a drive, and what is read from it. -/
theorem ofUri_toUri_spacedName :
    ofText .windows "C:\\a b" = .ok (.windows ⟨"C:\\a b".toList⟩) ∧
    (windows ⟨"C:\\a b".toList⟩ : FilePath).toUri = .ok "file://///C:/a%20b" ∧
    ofUri .windows "file://///C:/a%20b" = .ok (.windows ⟨"\\\\\\C:\\a b".toList⟩) ∧
    (windows ⟨"\\\\\\C:\\a b".toList⟩).same (windows ⟨"C:\\a b".toList⟩) = false := by
  decide +kernel

end FilePath

end BuildLens
