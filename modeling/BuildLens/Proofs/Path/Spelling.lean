import BuildLens.Proofs.Path.NormalForm
import BuildLens.Proofs.Path.Posix

/-!
# The spelling of Windows paths stays

A path on a drive or on a share is its own normal spelling: reading its text again changes nothing.
Where a path begins with neither, this need not be so.

Main definitions:

- `Windows.Seated`: a text that is its drive, or has the root and settled names behind that.

Main results:

- `Windows.Seated.normalize_of_backslashed`, `Windows.Seated.normalize_eq`: such a text is the
  normal spelling of what differs from it in slashes, and its own.
- `Windows.exists_names_of_letter`: the names of a path on a drive.
- `Windows.exists_seated_of_share`: the normal spelling of a text on a share is such a text.
-/

namespace BuildLens.Windows

open Text (splitAt)

variable {cs drive rest : List Char} {names : List (List Char)} {rooted : Bool}

/-! ## Settled names are found again -/

/-- A text without slashes stays as it is. -/
theorem backslashed_eq_self (h : '/' ∉ cs) : backslashed cs = cs := by
  rw [backslashed, List.map_congr_left (g := id), List.map_id]
  intro c hc
  rw [if_neg]
  · rfl
  · rintro rfl
    exact h hc

/-- Settled names are walked one after the other, and none is dropped. -/
theorem Settled.foldl_walk_eq (h : Settled true names) (front : List (List Char)) :
    names.foldl (Windows.walk true) front = front ++ names := by
  induction names generalizing front with
  | nil => simp
  | cons n names ih =>
    have hname := h.name n List.mem_cons_self
    have hup : n ≠ ['.', '.'] := fun heq => h.climb rfl (heq ▸ List.mem_cons_self)
    have hrest : Settled true names :=
      ⟨fun m hm => h.name m (List.mem_cons_of_mem n hm),
        fun hr hm => h.climb hr (List.mem_cons_of_mem n hm)⟩
    have hstep : Windows.walk true front n = front ++ [n] := by
      simp [Windows.walk, hname.1, hname.2.1, hup]
    rw [List.foldl_cons, hstep, ih hrest, List.append_assoc, List.singleton_append]

/-- The text of settled names does not begin with a backslash. -/
theorem Settled.head?_intercalate (h : Settled rooted names) :
    (['\\'].intercalate names).head? ≠ some '\\' := by
  cases names with
  | nil => simp
  | cons n names =>
    have hname := h.name n List.mem_cons_self
    obtain ⟨c, n, rfl⟩ := List.exists_cons_of_ne_nil hname.1
    have hc : c ≠ '\\' := by
      rintro rfl
      have hsep := hname.2.2 '\\' List.mem_cons_self
      cases hsep
    cases names <;> simp [List.intercalate_cons_cons, hc]

/-- The text of settled names is empty only if there are none. -/
theorem Settled.intercalate_eq_nil (h : Settled rooted names) :
    ['\\'].intercalate names = [] ↔ names = [] := by
  cases names with
  | nil => simp
  | cons n names =>
    have hname := (h.name n List.mem_cons_self).1
    cases names <;> simp [List.intercalate_cons_cons, hname]

/-- The text of settled names is split into them. -/
theorem Settled.splitAt_intercalate (h : Settled rooted names) (hne : names ≠ []) :
    splitAt '\\' (['\\'].intercalate names) = names := by
  apply Text.splitAt_intercalate hne
  intro n hn hmem
  have hsep := (h.name n hn).2.2 '\\' hmem
  cases hsep

/-- A walk through the text of settled names leads along them. -/
theorem Settled.foldl_walk_splitAt (h : Settled true names) :
    (splitAt '\\' (['\\'].intercalate names)).foldl (Windows.walk true) [] = names := by
  by_cases hne : names = []
  · rw [hne]
    rfl
  · rw [h.splitAt_intercalate hne, h.foldl_walk_eq, List.nil_append]

/-! ## The normal spelling by its drive -/

/-- A drive with nothing behind it is its own normal form. -/
theorem normalize_of_bare (hsplit : splitDrive (backslashed cs) = (drive, [])) (hne : drive ≠ []) :
    normalize cs = drive := by
  rw [normalize, hsplit]
  simp [splitAt, walk, hne]

/-- What follows a drive and a root is walked through. -/
theorem normalize_of_rooted (hsplit : splitDrive (backslashed cs) = (drive, '\\' :: rest)) :
    normalize cs = drive ++ '\\' :: ['\\'].intercalate
      ((splitAt '\\' (rest.dropWhile (· == '\\'))).foldl (walk true) []) := by
  rw [normalize, hsplit]
  simp

/-- What stands behind the root of a normal spelling are settled names. -/
theorem exists_names_of_rooted (hsplit : splitDrive (backslashed cs) = (drive, '\\' :: rest)) :
    ∃ names, Settled true names ∧ normalize cs = drive ++ '\\' :: ['\\'].intercalate names := by
  have hslash : '/' ∉ rest.dropWhile (· == '\\') := by
    intro hmem
    apply slash_not_mem_backslashed cs
    rw [← splitDrive_append (backslashed cs), hsplit]
    have hrest := (List.dropWhile_sublist (· == '\\')).subset hmem
    simp [hrest]
  exact ⟨_, (settled_nil true).foldl_walk (isSeparator_of_mem_splitAt hslash),
    normalize_of_rooted hsplit⟩

/-! ## Texts that are their own normal spelling -/

/-- The text begins with a drive, and nothing follows that, or the root and settled names. -/
structure Seated (drive cs : List Char) : Prop where
  ne_nil : drive ≠ []
  noSlash : '/' ∉ drive
  drive_eq : (splitDrive cs).1 = drive
  tail : cs = drive ∨ ∃ names, Settled true names ∧ cs = drive ++ '\\' :: ['\\'].intercalate names

/-- A text behind a drive holds no slash. -/
theorem Seated.slash_not_mem (h : Seated drive cs) : '/' ∉ cs := by
  rcases h.tail with rfl | ⟨names, hnames, rfl⟩
  · exact h.noSlash
  · rw [List.mem_append, List.mem_cons]
    rintro (hmem | hmem | hmem)
    · exact h.noSlash hmem
    · cases hmem
    · exact slash_not_mem_intercalate hnames hmem

/-- A drive is split from what follows it. -/
theorem splitDrive_of_append (h : (splitDrive (drive ++ rest)).1 = drive) :
    splitDrive (drive ++ rest) = (drive, rest) := by
  have hwhole := splitDrive_append (drive ++ rest)
  rw [h] at hwhole
  exact Prod.ext h (List.append_cancel_left hwhole)

/-- Such a text is the normal spelling of what becomes that text with backslashes. -/
theorem Seated.normalize_of_backslashed {cs' : List Char} (h : Seated drive cs)
    (hback : backslashed cs' = cs) : normalize cs' = cs := by
  have hdrive := h.drive_eq
  rcases h.tail with rfl | ⟨names, hnames, rfl⟩
  · rw [← List.append_nil cs] at hdrive
    have hsplit := splitDrive_of_append (hdrive.trans (List.append_nil cs))
    rw [List.append_nil] at hsplit
    exact normalize_of_bare (hback.symm ▸ hsplit) h.ne_nil
  · have hhead : (['\\'].intercalate names).dropWhile (· == '\\') = ['\\'].intercalate names := by
      have hfirst := hnames.head?_intercalate
      cases hcs : ['\\'].intercalate names with
      | nil => rfl
      | cons c cs =>
        rw [hcs, List.head?_cons, ne_eq, Option.some_inj] at hfirst
        simp [hfirst]
    rw [normalize_of_rooted (hback.symm ▸ splitDrive_of_append hdrive), hhead,
      hnames.foldl_walk_splitAt]

/-- Such a text is its own normal spelling. -/
theorem Seated.normalize_eq (h : Seated drive cs) : normalize cs = cs :=
  h.normalize_of_backslashed (backslashed_eq_self h.slash_not_mem)

/-! ## Drives -/

variable {d : Char}

/-- A letter and a colon are a drive. -/
theorem splitDrive_letter (hd : isSeparator d = false) (rest : List Char) :
    splitDrive (d :: ':' :: rest) = ([d, ':'], rest) := by
  simp [splitDrive, hd]

/-- Settled names may follow a letter, a colon and a root. -/
theorem seated_letter (hd : isSeparator d = false) (hnames : Settled true names) :
    Seated [d, ':'] (d :: ':' :: '\\' :: ['\\'].intercalate names) where
  ne_nil := List.cons_ne_nil _ _
  noSlash := by
    rintro (_ | ⟨_, _ | ⟨_, ⟨⟩⟩⟩)
    cases hd
  drive_eq := congrArg Prod.fst (splitDrive_letter hd _)
  tail := .inr ⟨names, hnames, rfl⟩

/-- A normal spelling begins with the drive of the text. -/
theorem exists_normalize_append (hsplit : splitDrive (backslashed cs) = (drive, rest))
    (hne : drive ≠ []) : ∃ tail, normalize cs = drive ++ tail := by
  rw [normalize, hsplit]
  dsimp only
  split
  · exact ⟨_, (if_neg fun h => hne (List.append_eq_nil_iff.mp h.1).1).trans
      (List.append_assoc ..)⟩
  · exact ⟨_, if_neg fun h => hne h.1⟩

/-- What follows the letter and the colon of a path are the root and settled names. -/
theorem exists_names_of_letter (habs : isAbsolute cs = true) (hd : isSeparator d = false)
    (h : normalize cs = d :: ':' :: rest) :
    ∃ names, Settled true names ∧ rest = '\\' :: ['\\'].intercalate names := by
  have hwhole := splitDrive_append (backslashed cs)
  have hroot := rooted_splitDrive (isAbsolute_backslashed habs)
  obtain ⟨drive, behind, hsplit⟩ : ∃ drive behind, splitDrive (backslashed cs) = (drive, behind) :=
    ⟨_, _, rfl⟩
  rw [hsplit] at hwhole hroot
  -- A separator is a backslash, and a path on a drive does not begin with one.
  have hback {a : Char} (hmem : a ∈ drive ++ behind) (ha : isSeparator a = true) : a = '\\' :=
    eq_backslash_of_mem (hwhole ▸ hmem) ha
  have hfirst {a : Char} {tail : List Char} (heq : normalize cs = a :: tail) :
      isSeparator a = false := by
    rw [h, List.cons.injEq] at heq
    exact heq.1 ▸ hd
  rcases hroot.cases with ⟨a, more, rfl, ha⟩ | ⟨⟨b, r, rfl, hb⟩, hdrive⟩
  · obtain ⟨tail, htail⟩ := exists_normalize_append hsplit (List.cons_ne_nil a more)
    rw [hfirst htail] at ha
    cases ha
  · obtain rfl := hback (by simp) hb
    obtain ⟨names, hnames, heq⟩ := exists_names_of_rooted hsplit
    rcases hdrive with rfl | ⟨a, rfl⟩
    · rw [hfirst heq] at hb
      cases hb
    · rw [h] at heq
      simp only [List.cons_append, List.nil_append, List.cons.injEq, true_and] at heq
      exact ⟨names, hnames, heq.2⟩

/-! ## Shares -/

variable {name name' : List Char} {sep sep' : Char} {start : Nat}

/-- A separator is found behind a name that holds none. -/
theorem toSeparator?_append (hname : ∀ c ∈ name, isSeparator c = false)
    (hsep : isSeparator sep = true) (rest : List Char) :
    toSeparator? (name ++ sep :: rest) = some name.length := by
  rw [toSeparator?]
  induction name with
  | nil => simp [List.findIdx?_cons, hsep]
  | cons c name ih =>
    rw [List.forall_mem_cons] at hname
    rw [List.cons_append, List.findIdx?_cons, hname.1, ih hname.2]
    rfl

/-- The drive of a share ends behind its second name. -/
theorem shareLength_append (hname : ∀ c ∈ name, isSeparator c = false)
    (hname' : ∀ c ∈ name', isSeparator c = false) (hsep : isSeparator sep = true)
    (hsep' : isSeparator sep' = true) (front rest : List Char) :
    shareLength front.length (front ++ (name ++ sep :: (name' ++ sep' :: rest))) =
      front.length + name.length + 1 + name'.length := by
  have hdrop : (front ++ (name ++ sep :: (name' ++ sep' :: rest))).drop
      (front.length + name.length + 1) = name' ++ sep' :: rest := by
    rw [Nat.add_assoc, List.drop_length_add_append, List.drop_length_add_append]
    rfl
  rw [shareLength, List.drop_left, toSeparator?_append hname hsep]
  dsimp only
  rw [hdrop, toSeparator?_append hname' hsep']

/-- All of a text belongs to the drive of the share, or two names do and a separator follows. -/
theorem shareLength_eq_or (start : Nat) (cs : List Char) :
    shareLength start cs = cs.length ∨
      ∃ name sep name' sep' rest, cs.drop start = name ++ sep :: (name' ++ sep' :: rest) ∧
        (∀ c ∈ name, isSeparator c = false) ∧ (∀ c ∈ name', isSeparator c = false) ∧
        isSeparator sep = true ∧ isSeparator sep' = true := by
  rw [shareLength]
  cases hfirst : toSeparator? (cs.drop start) with
  | none => exact .inl rfl
  | some i =>
    obtain ⟨name, sep, tail, hdrop, hname, hsep, rfl⟩ := exists_of_toSeparator? hfirst
    have htail : cs.drop (start + name.length + 1) = tail := by
      rw [Nat.add_assoc, ← List.drop_drop, hdrop, List.drop_length_add_append]
      rfl
    dsimp only
    rw [htail]
    cases hsecond : toSeparator? tail with
    | none => exact .inl rfl
    | some j =>
      obtain ⟨name', sep', rest, rfl, hname', hsep', -⟩ := exists_of_toSeparator? hsecond
      exact .inr ⟨name, sep, name', sep', rest, hdrop, hname, hname', hsep, hsep'⟩

/-- Whether a share is long is told by eight characters. -/
theorem isLongShare_congr {cs' : List Char} (h : cs.take 8 = cs'.take 8) :
    isLongShare cs = isLongShare cs' := by
  rw [isLongShare, isLongShare, h]

/-- The characters of the marker of a long network path, each by its upper case. -/
theorem map_of_isLongShare (h : isLongShare cs = true) :
    (backslashed (cs.take 8)).map Text.upperChar =
      [['\\'], ['\\'], ['?'], ['\\'], ['U'], ['N'], ['C'], ['\\']] := by
  have hmarker : "\\\\?\\UNC\\".toList = ['\\', '\\', '?', '\\', 'U', 'N', 'C', '\\'] := by simp
  rw [isLongShare, beq_iff_eq, hmarker] at h
  exact Text.map_upperChar_of_flatMap h (by simp [Text.isMark])

/-- Whether two backslashes and two names are followed by the marker is not decided by what stands
behind them. -/
theorem isLongShare_of_isLongShare (hname : ∀ c ∈ name, isSeparator c = false) {rest : List Char}
    (h : isLongShare ('\\' :: '\\' :: (name ++ '\\' :: (name' ++ '\\' :: rest))) = true)
    (rest' : List Char) :
    isLongShare ('\\' :: '\\' :: (name ++ '\\' :: (name' ++ '\\' :: rest'))) = true := by
  have hmark := map_of_isLongShare h
  have hback {c : Char} : Text.upperChar (if c = '/' then '\\' else c) = ['\\'] →
      isSeparator c = true := by
    intro hupper
    rw [← isSeparator_backslash, Text.eq_backslash_of_upperChar hupper]
    rfl
  have hself : Text.upperChar '\\' = ['\\'] := by decide
  -- The marker has its fourth backslash in the eighth place, and the names have one more each.
  match name, name' with
  | [], _ => simp [backslashed, hself] at hmark
  | _ :: b :: _, _ =>
    have hb : Text.upperChar (if b = '/' then '\\' else b) = ['\\'] := by
      simp only [backslashed, List.cons_append, List.take_succ_cons, List.map_cons,
        List.cons.injEq] at hmark
      exact hmark.2.2.2.1
    have hnot := hname b (by simp)
    rw [hback hb] at hnot
    cases hnot
  | [a], [] => simp [backslashed, hself] at hmark
  | [a], [x] => simp [backslashed, hself] at hmark
  | [a], [x, y] => simp [backslashed, hself] at hmark
  | [a], x :: y :: z :: more =>
    rw [← h]
    apply isLongShare_congr
    cases more <;> rfl

/-- The marker of a long network path is seen in the first of two texts if it is in the second, the
two being equal up to what stands behind the names of the share. -/
theorem isLongShare_append (hname : ∀ c ∈ name, isSeparator c = false) (rest rest' : List Char) :
    isLongShare ('\\' :: '\\' :: (name ++ '\\' :: (name' ++ '\\' :: rest))) =
      isLongShare ('\\' :: '\\' :: (name ++ '\\' :: (name' ++ '\\' :: rest'))) :=
  Bool.eq_iff_iff.mpr
    ⟨fun h => isLongShare_of_isLongShare hname h rest',
      fun h => isLongShare_of_isLongShare hname h rest⟩

/-- A text that begins with two backslashes has its share for a drive. -/
theorem splitDrive_share (h : cs.take 2 = ['\\', '\\']) :
    splitDrive cs = cs.splitAt (shareLength (if isLongShare cs then 8 else 2) cs) := by
  match cs, h with
  | _ :: _ :: rest, h =>
    cases h
    rfl

/-- The drive of a share with two names and a separator behind them. -/
theorem splitDrive_names {front rest : List Char} (hname : ∀ c ∈ name, isSeparator c = false)
    (hname' : ∀ c ∈ name', isSeparator c = false) (htwo : front.take 2 = ['\\', '\\'])
    (hlength : front.length =
      if isLongShare (front ++ (name ++ '\\' :: (name' ++ '\\' :: rest))) then 8 else 2) :
    splitDrive (front ++ (name ++ '\\' :: (name' ++ '\\' :: rest))) =
      (front ++ (name ++ '\\' :: name'), '\\' :: rest) := by
  have hle : 2 ≤ front.length := by
    have hcount := congrArg List.length htwo
    rw [List.length_take] at hcount
    exact min_eq_left_iff.mp hcount
  have hdrive : (front ++ (name ++ '\\' :: name')).length =
      front.length + name.length + 1 + name'.length := by
    simp only [List.length_append, List.length_cons]
    omega
  have hwhole : front ++ (name ++ '\\' :: (name' ++ '\\' :: rest)) =
      (front ++ (name ++ '\\' :: name')) ++ '\\' :: rest := by
    simp [List.append_assoc]
  rw [splitDrive_share (by rw [List.take_append_of_le_length hle, htwo]), ← hlength,
    shareLength_append hname hname' rfl rfl, ← hdrive, hwhole, List.splitAt_eq, List.take_left,
    List.drop_left]

/-- What stands behind the drive does not bear on where it ends. -/
theorem splitDrive_names_congr {front rest : List Char} (hname : ∀ c ∈ name, isSeparator c = false)
    (hname' : ∀ c ∈ name', isSeparator c = false) (htwo : front.take 2 = ['\\', '\\'])
    (hlength : front.length =
      if isLongShare (front ++ (name ++ '\\' :: (name' ++ '\\' :: rest))) then 8 else 2)
    (rest' : List Char) :
    splitDrive (front ++ (name ++ '\\' :: (name' ++ '\\' :: rest'))) =
      (front ++ (name ++ '\\' :: name'), '\\' :: rest') := by
  have hlong : isLongShare (front ++ (name ++ '\\' :: (name' ++ '\\' :: rest'))) =
      isLongShare (front ++ (name ++ '\\' :: (name' ++ '\\' :: rest))) := by
    cases hmark : isLongShare (front ++ (name ++ '\\' :: (name' ++ '\\' :: rest))) with
    | true =>
      rw [hmark, if_pos rfl] at hlength
      rw [← hmark]
      apply isLongShare_congr
      rw [List.take_append_of_le_length (by omega), List.take_append_of_le_length (by omega)]
    | false =>
      rw [hmark, if_neg (by simp)] at hlength
      rw [List.take_of_length_le (by omega)] at htwo
      rw [← hmark, htwo]
      exact isLongShare_append hname _ _
  exact splitDrive_names hname hname' htwo (by rw [hlong, hlength])

/-- The normal spelling of a text on a share is its own normal spelling. -/
theorem exists_seated_of_share (h : (backslashed cs).take 2 = ['\\', '\\']) :
    ∃ drive, Seated drive (normalize cs) := by
  have hslash := slash_not_mem_backslashed cs
  generalize hb : backslashed cs = b at h hslash
  have hne : b ≠ [] := by
    rintro rfl
    cases h
  obtain ⟨start, hstart⟩ : ∃ start, start = if isLongShare b then 8 else 2 := ⟨_, rfl⟩
  rcases shareLength_eq_or start b with
    hall | ⟨name, sep, name', sep', rest, hdrop, hname, hname', hsep, hsep'⟩
  · -- All of the text is the drive of the share.
    have hsplit : splitDrive b = (b, []) := by
      rw [splitDrive_share h, ← hstart, hall, List.splitAt_eq, List.take_length, List.drop_length]
    rw [normalize_of_bare (hb.symm ▸ hsplit) hne]
    exact ⟨b, hne, hslash, congrArg Prod.fst hsplit, .inl rfl⟩
  · obtain ⟨front, rfl, hlength⟩ : ∃ front,
        b = front ++ (name ++ sep :: (name' ++ sep' :: rest)) ∧ front.length = start := by
      refine ⟨b.take start, by rw [← hdrop, List.take_append_drop], ?_⟩
      have hlt : ¬b.length ≤ start := by
        rw [← List.drop_eq_nil_iff, hdrop]
        simp
      rw [List.length_take]
      omega
    obtain rfl : sep = '\\' := eq_backslash_of_isSeparator hslash (by simp) hsep
    obtain rfl : sep' = '\\' := eq_backslash_of_isSeparator hslash (by simp) hsep'
    have htwo : front.take 2 = ['\\', '\\'] := by
      rwa [List.take_append_of_le_length (by rw [hlength, hstart]; split <;> omega)] at h
    have hsplit := splitDrive_names_congr hname hname' htwo (hlength.trans hstart)
    obtain ⟨names, hnames, hnormal⟩ := exists_names_of_rooted (hb.symm ▸ hsplit rest)
    refine ⟨front ++ (name ++ '\\' :: name'), by simp, fun hmem => hslash ?_, ?_,
      .inr ⟨names, hnames, hnormal⟩⟩
    · simp only [List.mem_append, List.mem_cons] at hmem ⊢
      tauto
    · have hdrive := congrArg Prod.fst (hsplit (['\\'].intercalate names))
      rw [hnormal]
      simpa only [List.append_assoc, List.cons_append] using hdrive

/-- A path that begins with two backslashes is read from a text that does. -/
theorem take_backslashed_of_take_normalize (habs : isAbsolute cs = true)
    (h : (normalize cs).take 2 = ['\\', '\\']) : (backslashed cs).take 2 = ['\\', '\\'] := by
  have hback {a : Char} (hmem : a ∈ backslashed cs) (ha : isSeparator a = true) : a = '\\' :=
    eq_backslash_of_mem hmem ha
  have hroot := rooted_splitDrive (isAbsolute_backslashed habs)
  -- Without a drive, the first name would stand behind the root.
  have hdrive : (splitDrive (backslashed cs)).1 ≠ [] := by
    intro hnone
    have hwhole := splitDrive_append (backslashed cs)
    rcases hroot.cases with ⟨a, more, heq, -⟩ | ⟨⟨b, rest, hrest, hb⟩, -⟩
    · rw [hnone] at heq
      cases heq
    · obtain rfl := hback (by rw [← hwhole, hrest]; simp) hb
      obtain ⟨names, hnames, heq⟩ := exists_names_of_rooted (Prod.ext hnone hrest)
      rw [heq, List.nil_append, List.take_succ_cons, List.cons.injEq] at h
      have hhead := congrArg List.head? h.2
      rw [List.head?_take, if_neg (by decide)] at hhead
      exact hnames.head?_intercalate hhead
  match hb : backslashed cs with
  | [] | [_] =>
    rw [hb] at hdrive
    exact absurd rfl hdrive
  | a :: b :: rest =>
    rw [hb] at hback hdrive
    by_cases hsep : isSeparator a = true ∧ isSeparator b = true
    · rw [hback (by simp) hsep.1, hback (by simp) hsep.2]
      rfl
    · have hcolon : splitDrive (a :: b :: rest) = ([a, b], rest) ∧ b = ':' := by
        rw [splitDrive, if_neg (by simpa using hsep)] at hdrive ⊢
        split
        · next hcolon => exact ⟨List.splitAt_eq .., hcolon⟩
        · next hcolon => simp [hcolon] at hdrive
      obtain ⟨tail, htail⟩ := exists_normalize_append (hb.symm ▸ hcolon.1) (by simp)
      rw [htail, hcolon.2] at h
      cases h

end BuildLens.Windows
