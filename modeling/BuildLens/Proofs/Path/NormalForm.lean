import BuildLens.Proofs.Path.Reading
import BuildLens.Proofs.Path.Windows
import BuildLens.Proofs.Text.LetterCase

/-!
# The normal form of Windows paths

A normal path has a drive, a root, and names with single backslashes between them. No name is empty
or stays in place, and below a root no name goes up. Reading a text and joining one to a path give
normal paths, where they give any. A text that is not absolute is joined to all paths but those on
another drive than its own.

Main definitions:

- `Windows.IsDrive`, `Windows.Settled`: what a normal path may begin with, and its names.
- `Windows.IsNormal`: the normal form.
- `Windows.OnOtherDrive`: a text that names a drive, and another one than a directory is on.
- `FilePath.Normal`: a path of the system in its normal form.

Main results:

- `Windows.isNormal_normalize`: the normal spelling of an absolute text is normal.
- `Windows.isAbsolute_joinText_iff`: which texts can be joined to a path.
- `FilePath.normal_of_ofText`, `FilePath.normal_of_join`: paths are normal.
-/

namespace BuildLens

namespace Windows

open Text (splitAt lowerAfter)

variable {cs part dir : List Char} {names : List (List Char)} {rooted : Bool}

/-! ## The normal form -/

/-- What a path may begin with: nothing, one character and a colon, or the names of a share behind
two backslashes or the longer marker of one. -/
inductive IsDrive : List Char → Prop
  | none : IsDrive []
  | letter (c : Char) : IsDrive [c, ':']
  | share {start : List Char} {names : List (List Char)}
      (hstart : start = ['\\', '\\'] ∨ isLongShare start = true)
      (hnames : ∀ n ∈ names, ∀ c ∈ n, isSeparator c = false) (hlength : names.length ≤ 2) :
      IsDrive (start ++ ['\\'].intercalate names)

/-- The names of a normal path: none is empty or stays in place, and below a root none goes up. -/
structure Settled (rooted : Bool) (names : List (List Char)) : Prop where
  name : ∀ n ∈ names, n ≠ [] ∧ n ≠ ['.'] ∧ ∀ c ∈ n, isSeparator c = false
  climb : rooted = true → ['.', '.'] ∉ names

/-- The normal form of absolute paths: a drive, a root, and names, with backslashes as the only
separators. -/
structure IsNormal (cs : List Char) : Prop where
  isAbsolute : isAbsolute cs = true
  noSlash : '/' ∉ cs
  parts : ∃ drive root names, cs = drive ++ (root ++ ['\\'].intercalate names) ∧ IsDrive drive ∧
    (root = [] ∨ root = ['\\']) ∧ Settled (root == ['\\']) names

theorem settled_nil (rooted : Bool) : Settled rooted [] where
  name n h := by cases h
  climb _ h := by cases h

/-- One step along the names keeps them settled. -/
theorem Settled.walk (h : Settled rooted names) (hpart : ∀ c ∈ part, isSeparator c = false) :
    Settled rooted (walk rooted names part) := by
  rw [Windows.walk.eq_def]
  split
  · exact h
  next hstay =>
  rw [not_or] at hstay
  have hadd (hclimb : rooted = true → part ≠ ['.', '.']) : Settled rooted (names ++ [part]) := by
    refine ⟨fun n hn => ?_, fun hrooted hmem => ?_⟩
    · rcases List.mem_append.mp hn with hn | hn
      · exact h.name n hn
      · obtain rfl := List.mem_singleton.mp hn
        exact ⟨hstay.1, hstay.2, hpart⟩
    · rcases List.mem_append.mp hmem with hmem | hmem
      · exact h.climb hrooted hmem
      · exact hclimb hrooted (List.mem_singleton.mp hmem).symm
  split
  · split
    · next last hlast =>
      split
      · next hup =>
        -- A name that goes up was kept, so that there is no root.
        exact hadd fun hrooted _ => h.climb hrooted (hup ▸ List.mem_of_getLast? hlast)
      · exact ⟨fun n hn => h.name n ((List.dropLast_sublist names).subset hn),
          fun hrooted hmem => h.climb hrooted ((List.dropLast_sublist names).subset hmem)⟩
    · next hlast =>
      obtain rfl : names = [] := List.getLast?_eq_none_iff.mp hlast
      split
      · exact settled_nil rooted
      · next hnot => exact hadd fun hrooted => absurd hrooted hnot
  · next hname => exact hadd fun _ => hname

theorem Settled.foldl_walk {pieces : List (List Char)} (h : Settled rooted names)
    (hpieces : ∀ piece ∈ pieces, ∀ c ∈ piece, isSeparator c = false) :
    Settled rooted (pieces.foldl (Windows.walk rooted) names) := by
  induction pieces generalizing names with
  | nil => exact h
  | cons piece pieces ih =>
    rw [List.forall_mem_cons] at hpieces
    exact ih (h.walk hpieces.1) hpieces.2

theorem slash_not_mem_backslashed (cs : List Char) : '/' ∉ backslashed cs := by
  intro h
  have hslash := eq_backslash_of_mem h rfl
  cases hslash

/-- A text up to its first separator, that separator, and the rest. -/
theorem exists_of_toSeparator? {i : Nat} (h : toSeparator? cs = some i) :
    ∃ name sep rest, cs = name ++ sep :: rest ∧ (∀ c ∈ name, isSeparator c = false) ∧
      isSeparator sep = true ∧ name.length = i := by
  rw [toSeparator?, List.findIdx?_eq_some_iff_getElem] at h
  obtain ⟨hi, hsep, hname⟩ := h
  refine ⟨cs.take i, cs[i], cs.drop (i + 1), ?_, ?_, hsep, ?_⟩
  · rw [← List.drop_eq_getElem_cons hi, List.take_append_drop]
  · intro c hc
    obtain ⟨j, hj, rfl⟩ := List.mem_take_iff_getElem.mp hc
    have hlt : j < i := by omega
    simpa using hname j hlt
  · rw [List.length_take]
    omega

theorem eq_backslash_of_isSeparator (h : '/' ∉ cs) {c : Char} (hc : c ∈ cs)
    (hsep : isSeparator c = true) : c = '\\' := by
  simp only [isSeparator, Bool.or_eq_true, beq_iff_eq] at hsep
  exact hsep.resolve_right fun hslash => h (hslash ▸ hc)

/-- The drive of a share has two names at most. -/
theorem exists_take_shareLength (h : '/' ∉ cs) (start : Nat) :
    ∃ names : List (List Char), (∀ n ∈ names, ∀ c ∈ n, isSeparator c = false) ∧
      names.length ≤ 2 ∧
      cs.take (shareLength start cs) = cs.take start ++ ['\\'].intercalate names := by
  have hplain {cs : List Char} (hnone : toSeparator? cs = none) :
      ∀ c ∈ cs, isSeparator c = false := by
    simpa [toSeparator?, List.findIdx?_eq_none_iff] using hnone
  rw [shareLength]
  cases hfirst : toSeparator? (cs.drop start) with
  | none =>
    refine ⟨[cs.drop start], by simpa using hplain hfirst, by simp, ?_⟩
    rw [List.take_length, List.intercalate_singleton, List.take_append_drop]
  | some i =>
    obtain ⟨name, sep, rest, hdrop, hname, hsep, rfl⟩ := exists_of_toSeparator? hfirst
    have hmem : sep ∈ cs := List.mem_of_mem_drop (hdrop ▸ by simp : sep ∈ cs.drop start)
    obtain rfl := eq_backslash_of_isSeparator h hmem hsep
    have hrest : cs.drop (start + name.length + 1) = rest := by
      rw [Nat.add_assoc, ← List.drop_drop, hdrop]
      simp
    dsimp only
    rw [hrest]
    cases hsecond : toSeparator? rest with
    | none =>
      refine ⟨[name, rest], by simpa using ⟨hname, hplain hsecond⟩, by simp, ?_⟩
      rw [List.intercalate_cons_cons, List.intercalate_singleton, List.append_assoc,
        List.singleton_append, ← hdrop, List.take_append_drop, List.take_length]
    | some j =>
      obtain ⟨name', sep, rest, rfl, hname', -, rfl⟩ := exists_of_toSeparator? hsecond
      refine ⟨[name, name'], by simpa using ⟨hname, hname'⟩, by simp, ?_⟩
      have htwo : (name ++ '\\' :: (name' ++ sep :: rest)).take (name.length + (1 + name'.length)) =
          name ++ '\\' :: name' := by
        rw [List.take_length_add_append, Nat.add_comm 1, List.take_succ_cons, List.take_left]
      dsimp only
      rw [Nat.add_assoc, Nat.add_assoc, List.take_add, hdrop, htwo, List.intercalate_cons_cons,
        List.intercalate_singleton, List.append_assoc, List.singleton_append]

/-- The drive of a text with backslashes only. -/
theorem isDrive_splitDrive (h : '/' ∉ cs) : IsDrive (splitDrive cs).1 := by
  rw [splitDrive.eq_def]
  split
  · next a b rest =>
    split
    · next hsep =>
      rw [Bool.and_eq_true] at hsep
      obtain rfl := eq_backslash_of_isSeparator h (by simp) hsep.1
      obtain rfl := eq_backslash_of_isSeparator h (by simp) hsep.2
      obtain ⟨names, hnames, hlength, htake⟩ := exists_take_shareLength h
        (if isLongShare ('\\' :: '\\' :: rest) then 8 else 2)
      rw [List.splitAt_eq, htake]
      refine .share ?_ hnames hlength
      by_cases hlong : isLongShare ('\\' :: '\\' :: rest) = true
      · rw [if_pos hlong]
        refine .inr ?_
        rw [isLongShare, List.take_take, Nat.min_self]
        exact hlong
      · rw [if_neg hlong]
        exact .inl rfl
    · split
      · next hcolon =>
        rw [hcolon, List.splitAt_eq]
        exact .letter a
      · exact .none
  · exact .none

/-- The characters of a joined text are those of its pieces, the separator apart. -/
theorem mem_intercalate_iff {sep c : Char} (hc : c ≠ sep) {pieces : List (List Char)} :
    c ∈ [sep].intercalate pieces ↔ ∃ piece ∈ pieces, c ∈ piece := by
  induction pieces with
  | nil => simp
  | cons first rest ih =>
    cases rest with
    | nil => simp
    | cons second rest =>
      rw [List.intercalate_cons_cons, List.mem_append, List.mem_append, List.mem_singleton, ih,
        or_iff_left hc]
      simp

theorem slash_not_mem_intercalate (h : Settled rooted names) :
    '/' ∉ ['\\'].intercalate names := by
  rw [mem_intercalate_iff (by decide)]
  rintro ⟨name, hname, hslash⟩
  have hsep := (h.name name hname).2.2 '/' hslash
  cases hsep

/-- The pieces between backslashes of a text without slashes hold no separators. -/
theorem isSeparator_of_mem_splitAt (h : '/' ∉ cs) :
    ∀ piece ∈ splitAt '\\' cs, ∀ c ∈ piece, isSeparator c = false := by
  intro piece hpiece c hc
  have hback : c ≠ '\\' := fun heq => Text.not_mem_of_mem_splitAt hpiece (heq ▸ hc)
  have hmem : c ∈ cs := by
    rw [← Text.intercalate_splitAt '\\' cs, mem_intercalate_iff hback]
    exact ⟨piece, hpiece, hc⟩
  have hslash : c ≠ '/' := fun heq => h (heq ▸ hmem)
  simp [isSeparator, hback, hslash]

/-- A drive, a root and settled names make up a normal text, if they make up an absolute one. -/
theorem isNormal_append {drive root : List Char} (hdrive : IsDrive drive) (hslash : '/' ∉ drive)
    (hroot : root = [] ∨ root = ['\\']) (hnames : Settled (root == ['\\']) names)
    (habs : isAbsolute (drive ++ (root ++ ['\\'].intercalate names)) = true) :
    IsNormal (drive ++ (root ++ ['\\'].intercalate names)) where
  isAbsolute := habs
  noSlash := by
    have hnot : '/' ∉ root := by rcases hroot with rfl | rfl <;> decide
    rw [List.mem_append, List.mem_append]
    rintro (h | h | h)
    · exact hslash h
    · exact hnot h
    · exact slash_not_mem_intercalate hnames h
  parts := ⟨drive, root, names, rfl, hdrive, hroot, hnames⟩

/-- The parts of the normal spelling of an absolute text. -/
theorem exists_normalize_eq (h : isAbsolute cs = true) : ∃ drive root rest rooted,
    normalize cs =
      drive ++ (root ++ ['\\'].intercalate ((splitAt '\\' rest).foldl (walk rooted) [])) ∧
    IsDrive drive ∧ '/' ∉ drive ∧ '/' ∉ rest ∧ (root = [] ∨ root = ['\\'] ∧ rooted = true) := by
  have habs := isAbsolute_normalize h
  have hslash := slash_not_mem_backslashed cs
  have hdrive := isDrive_splitDrive hslash
  rw [← splitDrive_append (backslashed cs), List.mem_append, not_or] at hslash
  -- Only an empty text has neither a beginning nor names, and it is not absolute.
  have hwhole (start : List Char) (names : List (List Char))
      (habs : isAbsolute (if start = [] ∧ names = [] then ['.']
        else start ++ ['\\'].intercalate names) = true) :
      (if start = [] ∧ names = [] then ['.'] else start ++ ['\\'].intercalate names) =
        start ++ ['\\'].intercalate names := by
    split at habs
    · cases habs
    · next hnot => exact if_neg hnot
  rw [normalize] at habs ⊢
  generalize splitDrive (backslashed cs) = parts at habs hslash hdrive ⊢
  obtain ⟨drive, rest⟩ := parts
  dsimp only at habs hslash hdrive ⊢
  revert habs
  split
  · intro habs
    refine ⟨drive, ['\\'], _, _, (hwhole _ _ habs).trans (List.append_assoc ..), hdrive, hslash.1,
      fun hmem => hslash.2 ((List.dropWhile_sublist (· == '\\')).subset hmem), .inr ⟨rfl, ?_⟩⟩
    simp
  · intro habs
    exact ⟨drive, [], rest, _, hwhole _ _ habs, hdrive, hslash.1, hslash.2, .inl rfl⟩

/-- The normal spelling of an absolute text is normal. -/
theorem isNormal_normalize (h : isAbsolute cs = true) : IsNormal (normalize cs) := by
  have habs := isAbsolute_normalize h
  obtain ⟨drive, root, rest, rooted, heq, hdrive, hslash, hrest, hroot⟩ := exists_normalize_eq h
  have hnames : Settled rooted ((splitAt '\\' rest).foldl (walk rooted) []) :=
    (settled_nil rooted).foldl_walk (isSeparator_of_mem_splitAt hrest)
  rw [heq] at habs ⊢
  rcases hroot with rfl | ⟨rfl, rfl⟩
  · exact isNormal_append hdrive hslash (.inl rfl) ⟨hnames.name, nofun⟩ habs
  · exact isNormal_append hdrive hslash (.inr rfl) hnames habs

/-! ## Texts that can be joined -/

/-- The text names a drive, and the directory is on another one, in whatever letter case. -/
def OnOtherDrive (dir part : List Char) : Prop :=
  ∃ c rest, part = c :: ':' :: rest ∧ sameText [c, ':'] (splitDrive dir).1 = false

/-- A drive that is another text up to letter case begins with a backslash only if that does. -/
theorem eq_backslash_of_sameText {c : Char} {cs rest : List Char}
    (h : sameText (c :: cs) ('\\' :: rest) = true) : c = '\\' := by
  have hlower := String.ofList_injective (beq_iff_eq.mp h)
  rw [String.toList_ofList, String.toList_ofList] at hlower
  have hfirst : (lowerAfter [] (c :: cs)).head? = some '\\' := by
    rw [hlower]
    rfl
  exact Text.eq_backslash_of_lowerAfter hfirst

/-- A text that is not absolute has no drive, or one of two characters. -/
theorem splitDrive_of_not_isAbsolute (h : isAbsolute part = false) :
    (∃ c rest, part = c :: ':' :: rest ∧ splitDrive part = ([c, ':'], rest) ∧
      isSeparator c = false ∧ rest.head?.any isSeparator = false) ∨
    PlainName part ∧ ∀ c rest, part ≠ c :: ':' :: rest := by
  have hnot := mt isAbsolute_iff.mpr (Bool.eq_false_iff.mp h)
  rw [not_or] at hnot
  have hfirst {a : Char} {rest : List Char} (hpart : part = a :: rest) : isSeparator a = false :=
    Bool.eq_false_iff.mpr fun ha => hnot.1 ⟨a, rest, hpart, ha⟩
  cases part with
  | nil => exact .inr ⟨by decide, nofun⟩
  | cons a part =>
    have ha : isSeparator a = false := hfirst rfl
    cases part with
    | nil => exact .inr ⟨⟨rfl, ha⟩, nofun⟩
    | cons b rest =>
      by_cases hb : b = ':'
      · subst hb
        refine .inl ⟨a, rest, rfl, by simp [splitDrive, ha], ha, ?_⟩
        cases rest with
        | nil => rfl
        | cons b rest => exact Bool.eq_false_iff.mpr fun hb => hnot.2 ⟨a, b, rest, rfl, hb⟩
      · refine .inr ⟨⟨by simp [splitDrive, ha, hb], ha⟩, ?_⟩
        rintro c rest heq
        cases heq
        exact hb rfl

/-- A directory on the drive that a text names is that drive and then a separator. -/
theorem rooted_of_sameText (hdir : IsNormal dir) {c : Char} (hc : isSeparator c = false)
    (hsame : sameText [c, ':'] (splitDrive dir).1 = true) :
    Rooted [c, ':'] (splitDrive dir).2 := by
  have hroot := rooted_splitDrive hdir.isAbsolute
  rcases hroot.cases with ⟨a, d, hdrive, ha⟩ | ⟨hrest, -⟩
  · -- The drive would begin with a backslash, and so would the text.
    have hmem : a ∈ dir := by
      rw [← splitDrive_append dir, hdrive]
      exact List.mem_cons_self
    have hback : a = '\\' := eq_backslash_of_isSeparator hdir.noSlash hmem ha
    rw [hdrive, hback] at hsame
    rw [eq_backslash_of_sameText hsame] at hc
    cases hc
  · exact ⟨.inr ⟨hrest, .inr ⟨c, rfl⟩⟩⟩

/-- A text that is not absolute can be joined to the paths on its drive, if it names one, and to all
paths if it names none. -/
theorem isAbsolute_joinText_iff (hdir : IsNormal dir) (hpart : isAbsolute part = false) :
    isAbsolute (joinText dir [part]) = true ↔ ¬OnOtherDrive dir part := by
  rcases splitDrive_of_not_isAbsolute hpart with ⟨c, rest, rfl, hsplit, hc, hrest⟩ | ⟨hplain, hnot⟩
  · have hother : OnOtherDrive dir (c :: ':' :: rest) ↔
        sameText [c, ':'] (splitDrive dir).1 = false := by
      constructor
      · rintro ⟨c, rest, ⟨⟩, h⟩
        exact h
      · intro h
        exact ⟨c, rest, rfl, h⟩
    have hjoined : joinText dir [c :: ':' :: rest] =
        (Joined.add ⟨(splitDrive dir).1, (splitDrive dir).2⟩ (c :: ':' :: rest)).text := rfl
    rw [hother, hjoined]
    cases hsame : sameText [c, ':'] (splitDrive dir).1 with
    | false =>
      -- The text replaces the directory, and is not absolute.
      have hadd : Joined.add ⟨(splitDrive dir).1, (splitDrive dir).2⟩ (c :: ':' :: rest) =
          ⟨[c, ':'], rest⟩ := by
        simp [Joined.add, hsplit, hrest, hsame]
      rw [hadd, Joined.text]
      simp [hpart]
    | true =>
      obtain ⟨front, hfront, hadd⟩ : ∃ front, Rooted [c, ':'] front ∧
          Joined.add ⟨(splitDrive dir).1, (splitDrive dir).2⟩ (c :: ':' :: rest) =
            ⟨[c, ':'], front ++ rest⟩ := by
        have hroot := rooted_of_sameText hdir hc hsame
        refine ⟨if (splitDrive dir).2.getLast?.any (!isSeparator ·)
          then (splitDrive dir).2 ++ ['\\'] else (splitDrive dir).2, ?_,
          by simp [Joined.add, hsplit, hrest, hsame]⟩
        split
        · exact hroot.append _
        · exact hroot
      rw [hadd]
      exact iff_of_true (isAbsolute_text (hfront.append rest)) (by decide)
  · have hjoined : isAbsolute (joinText dir [part]) = true :=
      isAbsolute_joinText hdir.isAbsolute (by simpa using hplain)
    refine iff_of_true hjoined ?_
    rintro ⟨c, rest, heq, -⟩
    exact hnot c rest heq

end Windows

namespace FilePath

variable {platform : Platform} {s : String} {p q : FilePath}

/-- A path of the system in its normal form. A path of a POSIX system has no other. -/
def Normal (platform : Platform) : FilePath → Prop
  | .posix _ => platform ≠ .windows
  | .windows p => platform = .windows ∧ Windows.IsNormal p.chars

theorem isAbsoluteText_of_slash (platform : Platform) (h : s.toList.head? = some '/') :
    isAbsoluteText platform s = true := by
  by_cases hp : platform = .windows
  · subst hp
    obtain ⟨rest, hrest⟩ := List.head?_eq_some_iff.mp h
    exact Windows.isAbsolute_iff.mpr (.inl ⟨'/', rest, hrest, rfl⟩)
  · exact isAbsoluteText_of_head? hp h

/-- A text is taken as a path if it is absolute, and only then. -/
theorem ofText_eq_error (h : isAbsoluteText platform s = false) :
    ofText platform s = .error (.notAbsolute s) := by
  rw [ofText]
  cases hread : ofText? platform s with
  | none => rfl
  | some p =>
    rw [← isSome_ofText?, hread] at h
    cases h

theorem normal_of_ofText (h : ofText platform s = .ok p) : p.Normal platform := by
  cases p with
  | windows p =>
    obtain ⟨cs, habs, hcs⟩ := Windows.exists_eq_normalize h
    refine ⟨?_, hcs ▸ Windows.isNormal_normalize habs⟩
    cases platform with
    | windows => rfl
    | linux | darwin => cases hread : Posix.Path.ofText? s <;> simp [ofText, ofText?, hread] at h
  | posix p =>
    rintro rfl
    rw [ofText, ofText?] at h
    cases hread : Windows.Path.ofChars? s.toList <;> simp [hread] at h

theorem exists_normal_of_isAbsoluteText (h : isAbsoluteText platform s = true) :
    ∃ p : FilePath, p.Normal platform ∧ ofText platform s = .ok p := by
  rw [← isSome_toOption_ofText] at h
  cases hread : ofText platform s with
  | ok p => exact ⟨p, normal_of_ofText hread, rfl⟩
  | error e =>
    rw [hread] at h
    cases h

/-- What is joined to a normal path is normal, where it is a path. -/
theorem normal_of_join {parts : List String} (hp : p.Normal platform)
    (h : p.join parts = .ok q) : q.Normal platform := by
  cases p with
  | posix p =>
    cases h
    exact hp
  | windows p =>
    rw [join, Windows.Path.ofChars?] at h
    split at h
    · next q' hread =>
      split at hread
      · next habs =>
        cases hread
        cases h
        exact ⟨hp.1, Windows.isNormal_normalize habs⟩
      · cases hread
    · cases h

/-- A text that is not absolute leads to a path from every directory that is not on another drive,
and to none from the others. -/
theorem join_singleton_windows {dir : Windows.Path} (hdir : Windows.IsNormal dir.chars)
    (hs : Windows.isAbsolute s.toList = false) :
    (∃ p, (windows dir).join [s] = .ok p) ∧ ¬Windows.OnOtherDrive dir.chars s.toList ∨
      (∃ text, (windows dir).join [s] = .error (.notAbsolute text)) ∧
        Windows.OnOtherDrive dir.chars s.toList := by
  have hiff := Windows.isAbsolute_joinText_iff hdir hs
  simp only [join, List.map_cons, List.map_nil, Windows.Path.ofChars?]
  by_cases hother : Windows.OnOtherDrive dir.chars s.toList
  · rw [if_neg fun habs => hiff.mp habs hother]
    exact .inr ⟨⟨_, rfl⟩, hother⟩
  · rw [if_pos (hiff.mpr hother)]
    exact .inl ⟨⟨_, rfl⟩, hother⟩

end FilePath

end BuildLens
