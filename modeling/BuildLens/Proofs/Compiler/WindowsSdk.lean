import BuildLens.Compiler.WindowsSdk
import BuildLens.Proofs.Path.UnixText

/-!
# Where the version of the Windows SDK stands

The separators of a path cut its text into components. The search for the version goes through the
text character by character, but what it finds is told by the components alone: the names that lead
to the version stand in a row behind the first component, and the version found is the one behind
the first such names.

Main definitions:

- `WindowsSdk.Spells`, `WindowsSdk.Named`: letters and names up to case.
- `WindowsSdk.components`: the components of a text.
- `WindowsSdk.Leads`: components that begin with the names and the version.
- `WindowsSdk.TellsAt`: the place among the components where the names stand.

Main results:

- `WindowsSdk.versionAt?_eq_some_iff`: the search at one separator reads the components behind it.
- `WindowsSdk.versionIn?_eq_some_iff`: the search through a text finds the first place.
- `WindowsSdk.version?_told_first`: the version of a list is told by the first place in the first
  path that tells one.
-/

namespace BuildLens.WindowsSdk

open Windows (isSeparator)

variable {c l : Char} {cs name n rest v : List Char} {row more : List (List Char)}

/-! ## Letters up to case -/

/-- The spellings of a small letter. What is no letter has only itself. -/
inductive Spells : Char → Char → Prop
  | small (l : Char) : Spells l l
  | capital (l : Char) : Spells l l.toUpper
  | longS : Spells 's' '\u017F'
  | kelvin : Spells 'k' '\u212A'
  | dottedI : Spells 'i' '\u0130'
  | dotlessI : Spells 'i' '\u0131'

/-- The name, up to letter case, of a component. -/
def Named (name n : List Char) : Prop := List.Forall₂ Spells name n

/-- A character of the names that are looked for is no capital and no separator. -/
def Plain (l : Char) : Prop := l.toLower = l ∧ isSeparator l = false

/-- A character is the same as a letter in lower case if it spells that letter. -/
theorem sameLetter_iff (hl : l.toLower = l) : Text.sameLetter l c = true ↔ Spells l c := by
  simp only [Text.sameLetter, Bool.or_eq_true, Bool.and_eq_true, beq_iff_eq]
  constructor
  · rintro (((h | ⟨rfl, rfl⟩) | ⟨rfl, rfl⟩) | ⟨rfl, rfl | rfl⟩)
    · by_cases hc : c.isUpper = true
      · have hcapital : c = l.toUpper := by
          rw [← h, Char.toUpper_toLower_eq_toUpper,
            Char.toUpper_eq_of_not_isLower (Char.not_isLower_of_isUpper hc)]
        exact hcapital ▸ .capital l
      · rw [Char.toLower_eq_of_not_isUpper hc] at h
        exact h ▸ .small c
    · exact .longS
    · exact .kelvin
    · exact .dottedI
    · exact .dotlessI
  · intro h
    cases h with
    | small | capital => simp [hl]
    | longS | kelvin | dottedI | dotlessI => simp

/-- What spells a letter is no separator. -/
theorem Spells.isSeparator_eq (h : Spells l c) (hl : isSeparator l = false) :
    isSeparator c = false := by
  cases h with
  | small => exact hl
  | capital =>
    by_cases hlower : l.isLower = true
    · exact Windows.isSeparator_of_isAlpha (by simp [Char.isAlpha, hlower])
    · rwa [Char.toUpper_eq_of_not_isLower hlower]
  | longS | kelvin | dottedI | dotlessI => decide

/-- What spells a name holds no separator. -/
theorem Named.isSeparator_eq (h : Named name n) (hname : ∀ l ∈ name, Plain l) :
    ∀ c ∈ n, isSeparator c = false := by
  induction h with
  | nil => simp
  | cons hspells _ ih =>
    rw [List.forall_mem_cons] at hname ⊢
    exact ⟨hspells.isSeparator_eq hname.1.2, ih hname.2⟩

/-- The letters of a name are dropped from any spelling of it at the front of a text. -/
theorem dropLetters?_eq_some_iff (hname : ∀ l ∈ name, Plain l) :
    dropLetters? name cs = some rest ↔ ∃ n, Named name n ∧ cs = n ++ rest := by
  induction name generalizing cs with
  | nil => simp [dropLetters?, Named]
  | cons l name ih =>
    rw [List.forall_mem_cons] at hname
    simp only [Named, List.forall₂_cons_left_iff]
    cases cs with
    | nil =>
      refine iff_of_false nofun ?_
      rintro ⟨n, ⟨c, n, -, -, rfl⟩, hcs⟩
      cases hcs
    | cons c cs =>
      rw [dropLetters?, Option.ite_none_right_eq_some, sameLetter_iff hname.1.1, ih hname.2]
      constructor
      · rintro ⟨hspells, n, hn, rfl⟩
        exact ⟨c :: n, ⟨c, n, hspells, hn, rfl⟩, rfl⟩
      · rintro ⟨_, ⟨c, n, hspells, hn, rfl⟩, hcs⟩
        cases hcs
        exact ⟨hspells, n, hn, rfl⟩

/-- A name without letters has one spelling. -/
theorem named_iff_of_isAlpha (hname : ∀ l ∈ name, l.isAlpha = false) : Named name n ↔ n = name := by
  have hspells {l c : Char} (hl : l.isAlpha = false) : Spells l c ↔ c = l := by
    constructor
    · intro h
      cases h with
      | small => rfl
      | capital => exact Char.toUpper_eq_of_not_isLower (by simp_all [Char.isAlpha])
      | longS | kelvin | dottedI | dotlessI => cases hl
    · rintro rfl
      exact .small c
  induction name generalizing n with
  | nil => simp [Named]
  | cons l name ih =>
    rw [List.forall_mem_cons] at hname
    rw [Named, List.forall₂_cons_left_iff]
    constructor
    · rintro ⟨c, n, hc, hn, rfl⟩
      rw [(hspells hname.1).mp hc, (ih hname.2).mp hn]
    · rintro rfl
      exact ⟨l, name, .small l, (ih hname.2).mpr rfl, rfl⟩

/-! ## Components -/

/-- The components of a text, which its separators cut. -/
def components (cs : List Char) : List (List Char) := cs.splitOnP isSeparator

/-- A separator ends a component at once. -/
theorem components_cons_of_isSeparator (hc : isSeparator c = true) (cs : List Char) :
    components (c :: cs) = [] :: components cs := by
  rw [components, List.splitOnP_cons_eq_if_modifyHead, if_pos hc, components]

/-- A character that is no separator leaves the components behind the first one. -/
theorem tail_components_cons (hc : isSeparator c = false) (cs : List Char) :
    (components (c :: cs)).tail = (components cs).tail := by
  rw [components, List.splitOnP_cons_eq_if_modifyHead, hc, components]
  cases cs.splitOnP isSeparator <;> rfl

/-- The first component ends at the first separator, or it is the text. -/
theorem components_eq_cons_iff : components cs = n :: more ↔
    (∀ c ∈ n, isSeparator c = false) ∧ (cs = n ∧ more = [] ∨
      ∃ sep rest, isSeparator sep = true ∧ cs = n ++ sep :: rest ∧ components rest = more) := by
  constructor
  · intro h
    cases hfind : cs.find? isSeparator with
    | none =>
      have hplain : ∀ c ∈ cs, isSeparator c = false := by simpa using hfind
      rw [components, List.splitOnP_eq_singleton hplain, List.cons.injEq] at h
      exact ⟨h.1 ▸ hplain, .inl ⟨h.1, h.2.symm⟩⟩
    | some sep =>
      obtain ⟨hsep, front, rest, rfl, hfront⟩ := List.find?_eq_some_iff_append.mp hfind
      have hplain : ∀ c ∈ front, isSeparator c = false := by simpa using hfront
      rw [components, List.splitOnP_append_cons_of_forall_mem hplain sep hsep, List.cons.injEq] at h
      exact ⟨h.1 ▸ hplain, .inr ⟨sep, rest, hsep, h.1 ▸ rfl, h.2⟩⟩
  · rintro ⟨hplain, ⟨rfl, rfl⟩ | ⟨sep, rest, hsep, rfl, rfl⟩⟩
    · exact List.splitOnP_eq_singleton hplain
    · exact List.splitOnP_append_cons_of_forall_mem hplain sep hsep rest

/-! ## The names that lead to a version -/

/-- The form of a version. -/
def IsVersion (v : List Char) : Prop :=
  ∃ digits, v = "10.".toList ++ digits ∧ digits ≠ [] ∧ ∀ c ∈ digits, c.isDigit = true ∨ c = '.'

/-- The components begin with the names that lead to the version, and the version. A line feed may
stand behind the version at the end of the text. -/
inductive Leads : List (List Char) → List Char → Prop
  | intro {kits headers last v : List Char} {more : List (List Char)}
      (hkits : Named "windows kits".toList kits) (hheaders : Named "include".toList headers)
      (hversion : IsVersion v) (hlast : last = v ∨ last = v ++ ['\n'] ∧ more = []) :
      Leads (kits :: "10".toList :: headers :: last :: more) v

/-! ## The search at one separator -/

/-- What a search gives for the text behind a separator, if it asks for that separator, is told by
the components there. Without a separator nothing is found, and without components nothing is
told. -/
structure Reads (search : List Char → Option (List Char))
    (told : List (List Char) → List Char → Prop) : Prop where
  nil : search [] = none
  not_told_nil : ∀ v, ¬told [] v
  cons : ∀ c cs v, search (c :: cs) = some v ↔ isSeparator c = true ∧ told (components cs) v

/-- A name in front of what the other components tell. -/
def Behind (name : List Char) (told : List (List Char) → List Char → Prop)
    (row : List (List Char)) (v : List Char) : Prop :=
  ∃ n more, row = n :: more ∧ Named name n ∧ told more v

/-- Asking for one more name in front asks for one more component. -/
theorem Reads.behind {search : List Char → Option (List Char)}
    {told : List (List Char) → List Char → Prop} (h : Reads search told)
    (hname : ∀ l ∈ name, Plain l) :
    Reads (fun cs => (dropName? name cs).bind search) (Behind name told) where
  nil := rfl
  not_told_nil v := by
    rintro ⟨n, more, hrow, -⟩
    cases hrow
  cons c cs v := by
    rw [dropName?, Option.bind_eq_some_iff]
    simp only [Option.ite_none_right_eq_some, dropLetters?_eq_some_iff hname]
    constructor
    · rintro ⟨rest, ⟨hc, n, hn, rfl⟩, hv⟩
      -- The next step asks for a separator, so that the component ends where the name does.
      cases rest with
      | nil => cases h.nil.symm.trans hv
      | cons sep rest =>
        obtain ⟨hsep, htold⟩ := (h.cons sep rest v).mp hv
        refine ⟨hc, n, components rest, ?_, hn, htold⟩
        exact components_eq_cons_iff.mpr ⟨hn.isSeparator_eq hname, .inr ⟨sep, rest, hsep, rfl, rfl⟩⟩
    · rintro ⟨hc, n, more, hrow, hn, htold⟩
      rcases (components_eq_cons_iff.mp hrow).2 with ⟨-, rfl⟩ | ⟨sep, rest, hsep, rfl, rfl⟩
      · exact absurd htold (h.not_told_nil v)
      · exact ⟨sep :: rest, ⟨hc, n, hn, rfl⟩, (h.cons sep rest v).mpr ⟨hsep, htold⟩⟩

/-- The version, if the text begins with a separator and a version. -/
def lastVersion? (cs : List Char) : Option (List Char) :=
  (dropName? "10.".toList cs).bind fun rest =>
    let tail := rest.takeWhile isVersionChar
    if tail ≠ [] ∧ endsName (rest.dropWhile isVersionChar) then some ("10.".toList ++ tail)
    else none

/-- The components begin with the version. -/
def EndsIn (row : List (List Char)) (v : List Char) : Prop :=
  ∃ last more, row = last :: more ∧ IsVersion v ∧ (last = v ∨ last = v ++ ['\n'] ∧ more = [])

/-- A version stands behind three names, each behind a separator. -/
theorem versionAt?_eq_bind (cs : List Char) : versionAt? cs =
    (dropName? "windows kits".toList cs).bind fun cs => (dropName? "10".toList cs).bind fun cs =>
      (dropName? "include".toList cs).bind lastVersion? :=
  rfl

/-- A version is its prefix and at least one digit or dot. -/
theorem IsVersion.eq_append (h : IsVersion v) : ∃ digits, v = "10.".toList ++ digits ∧ digits ≠ [] ∧
    ∀ c ∈ digits, isVersionChar c = true := by
  simpa [IsVersion, isVersionChar] using h

/-- No character of a version is a separator. -/
theorem isSeparator_of_isVersionChar (hc : isVersionChar c = true) : isSeparator c = false := by
  simp only [isSeparator, Bool.or_eq_false_iff, beq_eq_false_iff_ne]
  constructor
  · rintro rfl
    cases hc
  · rintro rfl
    cases hc

/-- What may stand behind a version: nothing, a last line feed, or a separator. -/
theorem endsName_iff : endsName cs = true ↔
    cs = [] ∨ cs = ['\n'] ∨ ∃ sep rest, cs = sep :: rest ∧ isSeparator sep = true := by
  rw [endsName.eq_def]
  split
  · simp
  · simp
  · next c rest hcs =>
    have hnot : c :: rest ≠ ['\n'] := by
      intro h
      exact hcs (List.cons.inj h).1 (List.cons.inj h).2
    simp [hnot]

/-- The digits end where no character of a version stands. -/
theorem digits_append {digits : List Char} (hdigits : ∀ c ∈ digits, isVersionChar c = true)
    (hrest : rest.head?.any isVersionChar = false) :
    (digits ++ rest).takeWhile isVersionChar = digits ∧
      (digits ++ rest).dropWhile isVersionChar = rest := by
  rw [List.takeWhile_append_of_pos hdigits, List.dropWhile_append_of_pos hdigits]
  cases rest with
  | nil => simp
  | cons c rest =>
    have hc : isVersionChar c = false := hrest
    simp [hc]

/-- Where a name ends no character of a version stands. -/
theorem head?_of_endsName (h : endsName cs = true) : cs.head?.any isVersionChar = false := by
  rcases endsName_iff.mp h with rfl | rfl | ⟨sep, rest, rfl, hsep⟩
  · rfl
  · rfl
  · refine Bool.eq_false_iff.mpr fun hversion => ?_
    rw [isSeparator_of_isVersionChar hversion] at hsep
    cases hsep

/-- The last step finds a version in front of what may stand behind one. -/
theorem lastVersion?_eq_some_iff : lastVersion? (c :: cs) = some v ↔
    isSeparator c = true ∧ ∃ rest, cs = v ++ rest ∧ IsVersion v ∧ endsName rest = true := by
  have hplain : ∀ l ∈ "10.".toList, Plain l := by simp [Plain, isSeparator]
  have hname {n : List Char} : Named "10.".toList n ↔ n = "10.".toList :=
    named_iff_of_isAlpha (by simp)
  rw [lastVersion?, dropName?, Option.bind_eq_some_iff]
  simp only [Option.ite_none_right_eq_some, dropLetters?_eq_some_iff hplain, hname,
    exists_eq_left, Option.some_inj]
  constructor
  · rintro ⟨rest, ⟨hc, rfl⟩, ⟨hne, hends⟩, rfl⟩
    refine ⟨hc, rest.dropWhile isVersionChar, ?_, ⟨_, rfl, hne, fun c hc => ?_⟩, hends⟩
    · rw [List.append_assoc, List.takeWhile_append_dropWhile]
    · simpa [isVersionChar] using List.mem_takeWhile_imp hc
  · rintro ⟨hc, rest, rfl, hversion, hends⟩
    obtain ⟨digits, rfl, hne, hdigits⟩ := hversion.eq_append
    -- Taking all digits there are is no loss: a version that ends earlier has one behind it.
    obtain ⟨htake, hdrop⟩ := digits_append hdigits (head?_of_endsName hends)
    refine ⟨digits ++ rest, ⟨hc, List.append_assoc ..⟩, ?_, ?_⟩
    · rw [htake, hdrop]
      exact ⟨hne, hends⟩
    · rw [htake]

/-- A version holds no separator. -/
theorem IsVersion.isSeparator_eq (h : IsVersion v) : ∀ c ∈ v, isSeparator c = false := by
  obtain ⟨digits, rfl, -, hdigits⟩ := h.eq_append
  have hten : ∀ c ∈ "10.".toList, isVersionChar c = true := by simp [isVersionChar]
  intro c hc
  exact isSeparator_of_isVersionChar ((List.mem_append.mp hc).elim (hten c) (hdigits c))

/-- The search for a version behind a separator finds the one with which the components begin. -/
theorem reads_lastVersion? : Reads lastVersion? EndsIn where
  nil := rfl
  not_told_nil v := by
    rintro ⟨last, more, hrow, -⟩
    cases hrow
  cons c cs v := by
    rw [lastVersion?_eq_some_iff]
    refine and_congr_right fun _ => ?_
    simp only [EndsIn, components_eq_cons_iff]
    constructor
    · rintro ⟨rest, rfl, hversion, hends⟩
      have hplain := hversion.isSeparator_eq
      rcases endsName_iff.mp hends with rfl | rfl | ⟨sep, rest, rfl, hsep⟩
      · exact ⟨v, [], ⟨hplain, .inl ⟨v.append_nil, rfl⟩⟩, hversion, .inl rfl⟩
      · have hfeed : ∀ c ∈ v ++ ['\n'], isSeparator c = false := by
          simpa [or_imp, forall_and] using ⟨hplain, by decide⟩
        exact ⟨v ++ ['\n'], [], ⟨hfeed, .inl ⟨rfl, rfl⟩⟩, hversion, .inr ⟨rfl, rfl⟩⟩
      · exact ⟨v, _, ⟨hplain, .inr ⟨sep, rest, hsep, rfl, rfl⟩⟩, hversion, .inl rfl⟩
    · rintro ⟨last, more, ⟨-, htext⟩, hversion, hlast⟩
      rcases htext with ⟨rfl, rfl⟩ | ⟨sep, rest, hsep, rfl, rfl⟩
      · rcases hlast with rfl | ⟨rfl, -⟩
        · exact ⟨[], cs.append_nil.symm, hversion, rfl⟩
        · exact ⟨['\n'], rfl, hversion, rfl⟩
      · rcases hlast with rfl | ⟨-, hnil⟩
        · exact ⟨sep :: rest, rfl, hversion, endsName_iff.mpr (.inr (.inr ⟨sep, rest, rfl, hsep⟩))⟩
        · exact absurd hnil (List.splitOnP_ne_nil isSeparator rest)

/-- The names in front of a version, one behind another. -/
theorem leads_iff : Leads row v ↔
    Behind "windows kits".toList (Behind "10".toList (Behind "include".toList EndsIn)) row v := by
  have hten {n : List Char} : Named "10".toList n ↔ n = "10".toList :=
    named_iff_of_isAlpha (by simp)
  simp only [Behind, EndsIn, hten]
  constructor
  · rintro ⟨hkits, hheaders, hversion, hlast⟩
    exact ⟨_, _, rfl, hkits, _, _, rfl, rfl, _, _, rfl, hheaders, _, _, rfl, hversion, hlast⟩
  · rintro ⟨_, _, rfl, hkits, _, _, rfl, rfl, _, _, rfl, hheaders, _, _, rfl, hversion, hlast⟩
    exact ⟨hkits, hheaders, hversion, hlast⟩

/-- The search at a separator finds the version to which the components behind it lead. -/
theorem versionAt?_eq_some_iff : versionAt? (c :: cs) = some v ↔
    isSeparator c = true ∧ Leads (components cs) v := by
  have hkits : ∀ l ∈ "windows kits".toList, Plain l := by simp [Plain, isSeparator]
  have hten : ∀ l ∈ "10".toList, Plain l := by simp [Plain, isSeparator]
  have hheaders : ∀ l ∈ "include".toList, Plain l := by simp [Plain, isSeparator]
  rw [leads_iff, versionAt?_eq_bind]
  exact (((reads_lastVersion?.behind hheaders).behind hten).behind hkits).cons c cs v

/-! ## The search through a text -/

/-- The version to which the first components that lead to one lead. -/
def FirstLed (row : List (List Char)) (v : List Char) : Prop :=
  ∃ i, Leads (row.drop i) v ∧ ∀ j < i, ∀ w, ¬Leads (row.drop j) w

theorem not_leads_nil (v : List Char) : ¬Leads [] v := nofun

/-- The first names lead to the version, or they lead to none and the later ones decide. -/
theorem firstLed_cons : FirstLed (n :: more) v ↔
    Leads (n :: more) v ∨ (∀ w, ¬Leads (n :: more) w) ∧ FirstLed more v := by
  constructor
  · rintro ⟨i, hled, hfirst⟩
    cases i with
    | zero => exact .inl hled
    | succ i =>
      refine .inr ⟨hfirst 0 i.succ_pos, i, hled, fun j hj => ?_⟩
      exact hfirst (j + 1) (Nat.succ_lt_succ hj)
  · rintro (hled | ⟨hnot, i, hled, hfirst⟩)
    · exact ⟨0, hled, nofun⟩
    · refine ⟨i + 1, hled, fun j hj => ?_⟩
      cases j with
      | zero => exact hnot
      | succ j => exact hfirst j (Nat.lt_of_succ_lt_succ hj)

/-- If components lead to a version somewhere, there is a first place where they do. -/
theorem exists_firstLed {i : Nat} (h : Leads (row.drop i) v) : ∃ w, FirstLed row w := by
  classical
  have hsome : ∃ i, ∃ w, Leads (row.drop i) w := ⟨i, v, h⟩
  obtain ⟨w, hw⟩ := Nat.find_spec hsome
  exact ⟨w, Nat.find hsome, hw, fun j hj w hled => Nat.find_min hsome hj ⟨w, hled⟩⟩

/-- The search finds the version that is led to first behind the first component. -/
theorem versionIn?_eq_some_iff_firstLed :
    versionIn? cs = some v ↔ FirstLed (components cs).tail v := by
  induction cs with
  | nil =>
    refine iff_of_false nofun ?_
    rintro ⟨i, hled, -⟩
    have hnil : (components []).tail = [] := rfl
    rw [hnil, List.drop_nil] at hled
    exact not_leads_nil v hled
  | cons c cs ih =>
    rw [versionIn?, Option.or_eq_some_iff, Option.eq_none_iff_forall_ne_some, ih]
    simp only [ne_eq, versionAt?_eq_some_iff]
    -- A separator begins a component, and any other character still belongs to the first one.
    cases hc : isSeparator c with
    | false => simp [tail_components_cons hc]
    | true =>
      obtain ⟨n, more, hrow⟩ := List.exists_cons_of_ne_nil (List.splitOnP_ne_nil isSeparator cs)
      rw [components_cons_of_isSeparator hc, List.tail_cons, components, hrow, firstLed_cons]
      simp

/-- The version stands in the text behind the names that lead to it, the first of which is the
component `i`. A separator stands in front of that. -/
structure TellsAt (cs : List Char) (i : Nat) (v : List Char) : Prop where
  pos : 1 ≤ i
  leads : Leads ((components cs).drop i) v

/-- Behind a separator the version stands as in the components from there. -/
theorem tellsAt_succ_iff {i : Nat} :
    TellsAt cs (i + 1) v ↔ Leads ((components cs).tail.drop i) v := by
  rw [List.drop_tail]
  exact ⟨fun h => h.leads, fun h => ⟨i.succ_pos, h⟩⟩

/-- The search finds the version at the first place where one is told. -/
theorem versionIn?_eq_some_iff : versionIn? cs = some v ↔
    ∃ i, TellsAt cs i v ∧ ∀ j < i, ∀ w, ¬TellsAt cs j w := by
  rw [versionIn?_eq_some_iff_firstLed]
  constructor
  · rintro ⟨i, hled, hfirst⟩
    refine ⟨i + 1, tellsAt_succ_iff.mpr hled, fun j hj w htold => ?_⟩
    obtain ⟨j, rfl⟩ := Nat.exists_eq_add_of_le' htold.pos
    exact hfirst j (Nat.lt_of_succ_lt_succ hj) w (tellsAt_succ_iff.mp htold)
  · rintro ⟨i, htold, hfirst⟩
    obtain ⟨i, rfl⟩ := Nat.exists_eq_add_of_le' htold.pos
    refine ⟨i, tellsAt_succ_iff.mp htold, fun j hj w hled => ?_⟩
    exact hfirst (j + 1) (Nat.succ_lt_succ hj) w (tellsAt_succ_iff.mpr hled)

/-- Nothing is found only where nothing is told. -/
theorem versionIn?_eq_none_iff : versionIn? cs = none ↔ ∀ i w, ¬TellsAt cs i w := by
  rw [Option.eq_none_iff_forall_ne_some]
  constructor
  · intro hnone i w htold
    obtain ⟨i, rfl⟩ := Nat.exists_eq_add_of_le' htold.pos
    obtain ⟨v, hv⟩ := exists_firstLed (tellsAt_succ_iff.mp htold)
    exact hnone v (versionIn?_eq_some_iff_firstLed.mpr hv)
  · intro hnot v hv
    obtain ⟨i, htold, -⟩ := versionIn?_eq_some_iff.mp hv
    exact hnot i v htold

/-! ## The search through a list of paths -/

/-- The version of a list of paths is the one that stands at the first place in the first path that
tells one. There is none only if no path tells one. -/
theorem version?_told_first (paths : List FilePath) :
    (∀ v, version? paths = some v ↔
      ∃ before p after i, paths = before ++ p :: after ∧
        (∀ q ∈ before, ∀ j w, ¬TellsAt q.text.toList j w) ∧
        TellsAt p.text.toList i v.toList ∧ ∀ j < i, ∀ w, ¬TellsAt p.text.toList j w) ∧
    (version? paths = none ↔ ∀ p ∈ paths, ∀ i w, ¬TellsAt p.text.toList i w) := by
  have hnone (p : FilePath) : (versionIn? p.text.toList).map String.ofList = none ↔
      ∀ i w, ¬TellsAt p.text.toList i w := by
    rw [Option.map_eq_none_iff, versionIn?_eq_none_iff]
  have hsome (p : FilePath) (v : String) :
      (versionIn? p.text.toList).map String.ofList = some v ↔
        ∃ i, TellsAt p.text.toList i v.toList ∧ ∀ j < i, ∀ w, ¬TellsAt p.text.toList j w := by
    rw [← versionIn?_eq_some_iff, Option.map_eq_some_iff]
    constructor
    · rintro ⟨w, hw, rfl⟩
      rw [hw, String.toList_ofList]
    · exact fun hv => ⟨v.toList, hv, String.ofList_toList⟩
  constructor
  · intro v
    rw [version?, List.findSome?_eq_some_iff]
    simp only [hsome, hnone]
    constructor
    · rintro ⟨before, p, after, hpaths, ⟨i, htold, hfirst⟩, hbefore⟩
      exact ⟨before, p, after, i, hpaths, hbefore, htold, hfirst⟩
    · rintro ⟨before, p, after, i, hpaths, hbefore, htold, hfirst⟩
      exact ⟨before, p, after, hpaths, ⟨i, htold, hfirst⟩, hbefore⟩
  · rw [version?, List.findSome?_eq_none_iff]
    simp only [hnone]

example : versionIn? "/WINDOWS \u212Aitſ\\10/ınclude\\10.0.22621\n".toList =
    some "10.0.22621".toList := by
  decide

end BuildLens.WindowsSdk
