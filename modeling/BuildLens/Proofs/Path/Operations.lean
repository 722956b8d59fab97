import BuildLens.Proofs.Path.Parent

/-!
# Operations on the texts of POSIX paths

A path of a POSIX system has one normal text. Joining parts, going up and changing the extension can
be done on that text: what comes out is an absolute text, and reading it gives the path that the
operation on names gives. So no such operation fails, and whatever is made of paths is normal.

Main definitions:

- `Posix.IsNormal`: the normal form of the texts of paths.
- `Posix.joinText`, `Posix.directoryText`, `Posix.suffixedText`: the operations on texts.
- `FilePath.Made`: the paths that calls on a platform make.

Main results:

- `Posix.isNormal_iff`: the normal texts are those of paths.
- `Posix.Path.ofChars?_joinText`, `Posix.Path.directoryText_chars`,
  `Posix.Path.ofChars?_suffixedText`: reading the text that an operation gives.
- `FilePath.made_posix`: all paths that calls make are normal, and calls on them do not fail.
-/

namespace BuildLens

open Text (splitAt)
open Text.Alphabet (slash dot)

namespace Posix

variable {α : Type} [Text.Alphabet α]

/-! ## The normal form -/

/-- The normal form: one slash or two, then names with single slashes between them. -/
def IsNormal (cs : List α) : Prop :=
  ∃ (slashes : Nat) (names : List (List α)), (slashes = 1 ∨ slashes = 2) ∧
    (∀ n ∈ names, IsName n) ∧ cs = List.replicate slashes slash ++ [slash].intercalate names

/-- Texts that are names. -/
theorem exists_names {texts : List (List α)} (h : ∀ n ∈ texts, IsName n) :
    ∃ names : List (Name α), names.map Name.chars = texts :=
  ⟨texts.attach.map fun n => ⟨n.1, h n.1 n.2⟩, by simp⟩

/-- The normal texts are those of paths. -/
theorem isNormal_iff {cs : List α} : IsNormal cs ↔ ∃ p : Path α, p.chars = cs := by
  constructor
  · rintro ⟨slashes, texts, hslashes, htexts, rfl⟩
    obtain ⟨names, rfl⟩ := exists_names htexts
    rcases hslashes with rfl | rfl
    · exact ⟨⟨.single, names⟩, rfl⟩
    · exact ⟨⟨.double, names⟩, rfl⟩
  · rintro ⟨⟨root, names⟩, rfl⟩
    have hnames : ∀ n ∈ names.map Name.chars, IsName n := by
      intro n hn
      obtain ⟨name, -, rfl⟩ := List.mem_map.mp hn
      exact name.isName
    cases root with
    | single => exact ⟨1, _, .inl rfl, hnames, rfl⟩
    | double => exact ⟨2, _, .inr rfl, hnames, rfl⟩

/-! ## Operations on texts -/

section

variable [DecidableEq α]

/-- The text of a part behind that of a directory. An absolute part takes the place of all, and a
slash is put between them where none stands. -/
def joinPartText (dir part : List α) : List α :=
  if part.head? = some slash then part
  else if dir = [] ∨ dir.getLast? = some slash then dir ++ part
  else dir ++ slash :: part

/-- The text of parts behind that of a directory. -/
def joinText (dir : List α) (parts : List (List α)) : List α :=
  parts.foldl joinPartText dir

/-- The text in front of the last slash, or the slashes there if nothing else stands there. -/
def directoryText (cs : List α) : List α :=
  let head := (Text.cutAfterLast (· = slash) cs).1
  if head.all (· = slash) then head else (head.reverse.dropWhile (· = slash)).reverse

/-- The text with another extension behind its last name; a dot is put in front if there is none. -/
def suffixedText (cs suffix : List α) : List α :=
  let (head, name) := Text.cutAfterLast (· = slash) cs
  head ++ (splitExtension name).1 ++ (if suffix.head? = some dot then suffix else dot :: suffix)

end

namespace Path

variable [DecidableEq α] {p : Path α} {dir part : List α} {root : Root}

/-! ## Reading a text that is continued -/

/-- A text with a slash in it is followed in two parts. -/
theorem follow_append_cons (p : Path α) (front back : List α) :
    p.follow (front ++ slash :: back) = (p.follow front).follow back := by
  simp only [follow, Text.splitAt_append_cons, List.foldl_append]

/-- An empty text leads nowhere else. -/
theorem follow_nil (p : Path α) : p.follow [] = p := by
  simp [follow, splitAt, walk_nil]

/-- A root has two slashes if a second one follows on the first, and no third one on that. -/
theorem rootOf?_slash_cons (cs : List α) : rootOf? (slash :: cs) =
    some (if cs.head? = some slash ∧ cs.tail.head? ≠ some slash then .double else .single) := by
  rw [rootOf?, List.head?_cons, if_pos rfl, apply_ite some]
  simp [List.head?_eq_getElem?]

/-- What is put behind a text leaves its root, if no slash comes to stand behind a last slash. -/
theorem rootOf?_append (hdir : rootOf? dir = some root)
    (hmeet : part.head? = some slash → dir.getLast? ≠ some slash) :
    rootOf? (dir ++ part) = some root := by
  obtain ⟨dir, rfl⟩ : ∃ rest, dir = slash :: rest :=
    List.head?_eq_some_iff.mp (isSome_rootOf?.mp (Option.isSome_of_eq_some hdir))
  rw [rootOf?_slash_cons] at hdir
  rw [List.cons_append, rootOf?_slash_cons, ← hdir]
  rcases dir with _ | ⟨a, _ | ⟨b, dir⟩⟩
  · have hpart : part.head? ≠ some slash := fun hslash => hmeet hslash rfl
    simp [hpart]
  · by_cases ha : a = slash
    · have hpart : part.head? ≠ some slash := fun hslash => hmeet hslash (by simp [ha])
      simp [hpart]
    · simp [ha]
  · rfl

/-- A text is read as a path if it begins with a root, and then it is followed from there. -/
theorem ofChars?_eq_some_iff {cs : List α} :
    ofChars? cs = some p ↔ ∃ root, rootOf? cs = some root ∧ follow ⟨root, []⟩ cs = p :=
  Option.map_eq_some_iff

/-- A relative text behind a last slash leads on from the path of the text in front. -/
theorem ofChars?_append (hdir : ofChars? dir = some p) (hlast : dir.getLast? = some slash)
    (hpart : part.head? ≠ some slash) : ofChars? (dir ++ part) = some (p.follow part) := by
  obtain ⟨root, hroot, rfl⟩ := ofChars?_eq_some_iff.mp hdir
  obtain ⟨front, rfl⟩ := List.getLast?_eq_some_iff.mp hlast
  refine ofChars?_eq_some_iff.mpr ⟨root, rootOf?_append hroot fun hslash => absurd hslash hpart, ?_⟩
  rw [follow_append_cons, follow_nil, List.append_assoc, List.singleton_append, follow_append_cons]

/-- The text with a slash at its end. -/
def slashed (cs : List α) : List α := if cs.getLast? = some slash then cs else cs ++ [slash]

/-- A text that has been given a slash ends with one. -/
theorem getLast?_slashed (cs : List α) : (slashed cs).getLast? = some slash := by
  rw [slashed]
  split
  · assumption
  · exact List.getLast?_concat ..

/-- A slash at the end changes nothing about the path of a text. -/
theorem ofChars?_slashed (hdir : ofChars? dir = some p) : ofChars? (slashed dir) = some p := by
  rw [slashed]
  split
  · exact hdir
  · next hlast =>
    obtain ⟨root, hroot, rfl⟩ := ofChars?_eq_some_iff.mp hdir
    refine ofChars?_eq_some_iff.mpr ⟨root, rootOf?_append hroot fun _ => hlast, ?_⟩
    rw [follow_append_cons, follow_nil]

/-! ## Joining -/

/-- A part that is no root is joined behind a slash. -/
theorem joinPartText_of_relative (hdir : dir ≠ []) (hpart : part.head? ≠ some slash) :
    joinPartText dir part = slashed dir ++ part := by
  rw [joinPartText, if_neg hpart, slashed]
  by_cases hlast : dir.getLast? = some slash <;> simp [hdir, hlast]

/-- A text that is joined to that of a directory is read in the directory. -/
theorem ofChars?_joinPartText (hdir : ofChars? dir = some p) (part : List α) :
    ofChars? (joinPartText dir part) = some (p.enter part) := by
  rw [enter]
  by_cases habs : part.head? = some slash
  · obtain ⟨root, hroot⟩ := Option.isSome_iff_exists.mp (isSome_rootOf?.mpr habs)
    rw [joinPartText, if_pos habs, ofChars?, hroot, Option.map_some]
  · have hnone : ofChars? part = none := by
      rw [ofChars?, Option.map_eq_none_iff, ← Option.not_isSome_iff_eq_none]
      exact fun hsome => habs (isSome_rootOf?.mp hsome)
    have hne : dir ≠ [] := by
      rintro rfl
      cases hdir
    rw [hnone, joinPartText_of_relative hne habs]
    exact ofChars?_append (ofChars?_slashed hdir) (getLast?_slashed dir) habs

/-- The joined text is read as the path that the parts lead to. -/
theorem ofChars?_joinText {p : Path} {dir : List Char} (hdir : ofChars? dir = some p)
    (parts : List String) :
    ofChars? (joinText dir (parts.map String.toList)) = some (p.join parts) := by
  induction parts generalizing dir p with
  | nil => exact hdir
  | cons part parts ih => exact ih (ofChars?_joinPartText hdir part.toList)

/-! ## Going up, and the last name -/

/-- The text of a directory's entry is that of the directory, a slash and the name. -/
theorem chars_below_singleton (base : Path α) (n : Name α) :
    (base.below [n]).chars = slashed base.chars ++ n.chars := by
  rw [chars_below, List.map_singleton, List.intercalate_singleton, continued, slashed,
    if_neg n.isName.1]
  split
  · rfl
  · rw [List.append_assoc, List.singleton_append]

omit [DecidableEq α] in
@[simp]
theorem parent_below_singleton (base : Path α) (n : Name α) : (base.below [n]).parent = base := by
  simp [parent, below]

omit [DecidableEq α] in
@[simp]
theorem lastChars_below_singleton (base : Path α) (n : Name α) :
    (base.below [n]).lastChars = n.chars := by
  simp [lastChars, below]

omit [DecidableEq α] in
/-- A path is a root, or leads on from its parent by one name. -/
theorem eq_root_or_below (p : Path α) : p.names = [] ∨ ∃ base n, p = Path.below base [n] := by
  obtain ⟨root, names⟩ := p
  rcases names.eq_nil_or_concat' with rfl | ⟨front, n, rfl⟩
  · exact .inl rfl
  · exact .inr ⟨⟨root, front⟩, n, rfl⟩

/-- The text of a path is that of its parent, a slash, and the last name. -/
theorem cutAfterLast_chars (p : Path α) :
    Text.cutAfterLast (· = slash) p.chars = (slashed p.parent.chars, p.lastChars) := by
  rcases eq_root_or_below p with hroot | ⟨base, n, rfl⟩
  · obtain ⟨root, names⟩ := p
    cases hroot
    cases root <;> simp [chars, Root.text, parent, lastChars, slashed, Text.cutAfterLast]
  · obtain ⟨dir, hdir⟩ := List.getLast?_eq_some_iff.mp (getLast?_slashed base.chars)
    have hname : ∀ c ∈ n.chars, decide (c = slash) = false := by
      intro c hc
      exact decide_eq_false fun heq => n.isName.2.2.2 (heq ▸ hc)
    rw [chars_below_singleton, parent_below_singleton, lastChars_below_singleton, hdir,
      List.append_assoc, List.singleton_append]
    exact Text.cutAfterLast_append_cons (p := (· = slash)) (decide_eq_true rfl) hname dir

/-- The text in front of the last slash is that of the parent. -/
theorem directoryText_chars (p : Path α) : directoryText p.chars = p.parent.chars := by
  rw [directoryText, cutAfterLast_chars]
  generalize p.parent = base
  by_cases hroot : base.names = []
  · -- The slashes of a root stay, since nothing else stands in front of the name.
    have hslashed : slashed base.chars = base.root.text := by
      obtain ⟨root, names⟩ := base
      cases hroot
      cases root <;> simp [slashed, chars, Root.text]
    have hchars : base.chars = base.root.text := by simp [chars, hroot]
    have hall : (base.root.text : List α).all (· = slash) = true := by
      cases base.root <;> simp [Root.text]
    rw [hslashed, if_pos hall, hchars]
  · obtain ⟨c, hc, hslash⟩ := getLast?_intercalate_names hroot
    have hlast : base.chars.getLast? = some c := by
      rw [chars, List.getLast?_append, hc, Option.some_or]
    obtain ⟨front, hfront⟩ := List.getLast?_eq_some_iff.mp hlast
    have hslashed : slashed base.chars = base.chars ++ [slash] := by
      rw [slashed, hlast, if_neg (by simpa using hslash)]
    have hall : (base.chars ++ [slash]).all (· = slash) = false := by
      simp [hfront, hslash]
    rw [hslashed, hall, hfront]
    simp [hslash]

omit [DecidableEq α] in
/-- The last name holds no slash. -/
theorem slash_not_mem_lastChars (p : Path α) : slash ∉ p.lastChars := by
  rw [lastChars]
  cases p.names.getLast? with
  | none => simp
  | some n => exact n.isName.2.2.2

/-- The text with another extension is read as the path with that extension. -/
theorem ofChars?_suffixedText (p : Path α) (suffix : List α) :
    ofChars? (suffixedText p.chars suffix) = some (p.suffixed suffix) := by
  rw [suffixedText, cutAfterLast_chars]
  dsimp only
  rw [List.append_assoc]
  -- Neither what is left of the last name nor the suffix begins with a slash.
  refine ofChars?_append (ofChars?_slashed (ofChars?_chars p.parent)) (getLast?_slashed _)
    fun hhead => ?_
  rw [List.head?_append, Option.or_eq_some_iff] at hhead
  rcases hhead with hstem | ⟨-, hdot⟩
  · have hmem := List.mem_append_left (splitExtension p.lastChars).2 (List.mem_of_mem_head? hstem)
    rw [splitExtension_append] at hmem
    exact slash_not_mem_lastChars p hmem
  · split at hdot
    · next hsuffix => exact Text.Alphabet.dot_ne_slash (Option.some.inj (hsuffix.symm.trans hdot))
    · exact Text.Alphabet.dot_ne_slash (Option.some.inj hdot)

end Path

end Posix

/-! ## What calls make -/

namespace FilePath

variable {platform : Platform} {p q : FilePath}

/-- The paths that calls on the platform make, one from another. -/
inductive Made (platform : Platform) : FilePath → Prop
  | ofText {s : String} {p : FilePath} (h : ofText platform s = .ok p) : Made platform p
  | ofUnixText {s : String} {p : FilePath} (h : ofUnixText platform s = .ok p) : Made platform p
  | ofUri {s : String} {p : FilePath} (h : ofUri platform s = .ok p) : Made platform p
  | join {p q : FilePath} {parts : List String} (hp : Made platform p) (h : p.join parts = .ok q) :
      Made platform q
  | parent {p : FilePath} (hp : Made platform p) : Made platform p.parent
  | withSuffix {p : FilePath} (hp : Made platform p) (suffix : String) :
      Made platform (p.withSuffix suffix)
  | rebase {p base target q : FilePath} (hp : Made platform p) (hbase : Made platform base)
      (htarget : Made platform target) (h : p.rebase base target = .ok q) : Made platform q

/-- Away from Windows each call makes a path of a POSIX system. -/
theorem Made.exists_posix (hplatform : platform ≠ .windows) (h : Made platform p) :
    ∃ q, p = posix q := by
  have hread {s : String} {p : FilePath} (h : FilePath.ofText platform s = .ok p) :
      ∃ q, p = posix q := by
    have hnormal := normal_of_ofText h
    cases p with
    | posix q => exact ⟨q, rfl⟩
    | windows q => exact absurd hnormal.1 hplatform
  induction h with
  | ofText h => exact hread h
  | ofUnixText h => exact hread (ofUnixText_eq_ofText hplatform _ ▸ h)
  | ofUri h =>
    obtain ⟨t, ht⟩ := exists_ofText_of_ofUri h
    exact hread ht
  | join _ h ih =>
    obtain ⟨q, rfl⟩ := ih
    cases h
    exact ⟨_, rfl⟩
  | parent _ ih =>
    obtain ⟨q, rfl⟩ := ih
    exact ⟨_, rfl⟩
  | withSuffix _ suffix ih =>
    obtain ⟨q, rfl⟩ := ih
    exact ⟨_, rfl⟩
  | @rebase p base target q _ _ _ h _ _ ihtarget =>
    obtain ⟨target, rfl⟩ := ihtarget
    rw [FilePath.rebase] at h
    split at h
    · cases h
      exact ⟨_, rfl⟩
    · cases h

/-- Away from Windows a text is read as a POSIX path. -/
theorem ofText_of_ofChars? (hplatform : platform ≠ .windows) {cs : List Char} {p : Posix.Path}
    (h : Posix.Path.ofChars? cs = some p) : ofText platform (String.ofList cs) = .ok (posix p) := by
  rw [ofText, ofText?_posix hplatform, Posix.Path.ofText?, String.toList_ofList, h]
  rfl

/-- Away from Windows every path that calls make is absolute and normal, a normal text is read as
the path that has it, and calls that change a path do not fail: each gives the path that is read
from the text that it makes. -/
theorem made_posix (hplatform : platform ≠ .windows) :
    (∀ p, Made platform p →
      isAbsoluteText platform p.text = true ∧ Posix.IsNormal p.text.toList) ∧
    (∀ s, Posix.IsNormal s.toList → ∃ p, ofText platform s = .ok p ∧ p.text = s) ∧
    (∀ p, Made platform p → ∀ (parts : List String) (suffix : String),
      (∃ q, p.join parts = .ok q ∧ ofText platform (String.ofList
        (Posix.joinText p.text.toList (parts.map String.toList))) = .ok q) ∧
      ofText platform (String.ofList (Posix.directoryText p.text.toList)) = .ok p.parent ∧
      ofText platform (String.ofList (Posix.suffixedText p.text.toList suffix.toList)) =
        .ok (p.withSuffix suffix)) := by
  have htext (p : Posix.Path) : (posix p).text.toList = p.chars := String.toList_ofList
  refine ⟨fun p hp => ?_, fun s hs => ?_, fun p hp parts suffix => ?_⟩
  · obtain ⟨p, rfl⟩ := hp.exists_posix hplatform
    rw [isAbsoluteText_posix hplatform, htext, Posix.Path.rootOf?_chars]
    exact ⟨rfl, Posix.isNormal_iff.mpr ⟨p, rfl⟩⟩
  · obtain ⟨p, hp⟩ := Posix.isNormal_iff.mp hs
    have hread := ofText_of_ofChars? hplatform (Posix.Path.ofChars?_chars p)
    rw [hp, String.ofList_toList] at hread
    exact ⟨posix p, hread, String.toList_injective ((htext p).trans hp)⟩
  · obtain ⟨p, rfl⟩ := hp.exists_posix hplatform
    rw [htext]
    refine ⟨⟨posix (p.join parts), rfl, ?_⟩, ?_, ?_⟩
    · exact ofText_of_ofChars? hplatform
        (Posix.Path.ofChars?_joinText (Posix.Path.ofChars?_chars p) parts)
    · rw [Posix.Path.directoryText_chars]
      exact ofText_of_ofChars? hplatform (Posix.Path.ofChars?_chars p.parent)
    · exact ofText_of_ofChars? hplatform (Posix.Path.ofChars?_suffixedText p suffix.toList)

/-- The path `//x/c` is made of the text `//x/./a//` through `//x/b.tar.gz`. -/
theorem made_posix_respelled : ∃ p, Made .linux p ∧ p.text = "//x/c" ∧
    isAbsoluteText .linux p.text = true ∧ Posix.IsNormal p.text.toList ∧
    ∃ q, p.join ["", "/y/../..", "z"] = .ok q ∧ q.text = "/z" := by
  have hread : ofText .linux "//x/./a//" =
      .ok (posix ⟨.double, [⟨['x'], by decide⟩, ⟨['a'], by decide⟩]⟩) := by rfl
  have hjoined : Made .linux
      (posix ⟨.double, [⟨['x'], by decide⟩, ⟨"b.tar.gz".toList, by decide⟩]⟩) :=
    @Made.join .linux _ _ ["..", "b.tar.gz"] (.ofText hread) rfl
  have hmade := hjoined.withSuffix "/../c"
  obtain ⟨hnormal, -, hcalls⟩ := @made_posix .linux (by decide)
  obtain ⟨⟨q, hq, -⟩, -⟩ := hcalls _ hmade ["", "/y/../..", "z"] ""
  have htext : q.text = "/z" := by
    cases hq
    rfl
  exact ⟨_, hmade, by rfl, (hnormal _ hmade).1, (hnormal _ hmade).2, q, hq, htext⟩

end FilePath

end BuildLens
