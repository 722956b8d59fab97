import BuildLens.Proofs.Path.Rebasing
import BuildLens.Proofs.Path.Spelling

/-!
# The directories above a path

Going up from a path drops characters of its text, until a path is reached that is its own parent.
So the directories above a path are finitely many, and a path is the same as its parent only if it
is its parent.

Main definitions:

- `FilePath.Climbs`: the step from a path to its parent.

Main results:

- `Windows.normalize_sublist`: the normal spelling of a text drops characters of it.
- `FilePath.parent_eq_or_length_lt`: the parent of a path has a shorter text, or is the path.
- `FilePath.same_parent_iff`: a path is the same as its parent only if it is its parent.
- `FilePath.climbs_posix_iff`, `FilePath.climbs_letter_iff`: what is above a path, by its names.
-/

namespace BuildLens

open Text (splitAt)

/-! ## What a text keeps -/

/-- Pieces that are left out take characters out of the joined text, and add none. -/
theorem Text.intercalate_sublist {sep : List Char} {pieces pieces' : List (List Char)}
    (h : pieces.Sublist pieces') : (sep.intercalate pieces).Sublist (sep.intercalate pieces') := by
  induction h with
  | slnil => exact .refl _
  | @cons pieces pieces' piece _ ih =>
    cases pieces' with
    | nil => exact ih.trans (List.nil_sublist _)
    | cons next pieces' =>
      rw [List.intercalate_cons_cons]
      exact ih.trans (List.sublist_append_right _ _)
  | @cons_cons pieces pieces' piece hsub ih =>
    cases pieces' with
    | nil => rw [List.sublist_nil.mp hsub]
    | cons next pieces' =>
      rw [List.intercalate_cons_cons]
      cases pieces with
      | nil =>
        rw [List.intercalate_singleton, List.append_assoc]
        exact List.sublist_append_left _ _
      | cons first pieces =>
        rw [List.intercalate_cons_cons]
        exact (List.Sublist.refl _).append ih

/-- The parts of a text make it up. -/
theorem Text.cutAfterLast_append (p : Char → Bool) (cs : List Char) :
    (cutAfterLast p cs).1 ++ (cutAfterLast p cs).2 = cs := by
  rw [cutAfterLast, ← List.reverse_append, List.takeWhile_append_dropWhile, List.reverse_reverse]

/-- If a text begins with a character of the class, so does its part up to the last such one. -/
theorem Text.cutAfterLast_cons {p : Char → Bool} {c : Char} (hc : p c = true) (cs : List Char) :
    ∃ rest, (cutAfterLast p (c :: cs)).1 = c :: rest := by
  rw [cutAfterLast, List.reverse_cons, List.dropWhile_append]
  split
  · exact ⟨[], by simp [hc]⟩
  · exact ⟨_, List.reverse_concat ..⟩

/-- A text is cut behind the last character of the class, whatever stands in front of that. -/
theorem Text.cutAfterLast_append_cons {α : Type} {p : α → Bool} {c : α} {last : List α}
    (hc : p c = true) (hlast : ∀ x ∈ last, p x = false) (head : List α) :
    cutAfterLast p (head ++ c :: last) = (head ++ [c], last) := by
  have hnot : ∀ x ∈ last.reverse, (!p x) = true := by simpa using hlast
  have hwhole : (head ++ c :: last).reverse = last.reverse ++ c :: head.reverse := by simp
  rw [cutAfterLast, hwhole, List.dropWhile_append_of_pos hnot, List.takeWhile_append_of_pos hnot]
  simp [hc]

namespace Windows

variable {cs : List Char} {rooted : Bool}

/-- A step of a walk adds one name at most. -/
theorem walk_sublist (rooted : Bool) (names : List (List Char)) (piece : List Char) :
    (walk rooted names piece).Sublist (names ++ [piece]) := by
  have hkeep : names.Sublist (names ++ [piece]) := List.sublist_append_left names [piece]
  rw [walk]
  split
  · exact hkeep
  split
  · split
    · split
      · exact .refl _
      · exact (List.dropLast_sublist names).trans hkeep
    · split
      · exact List.nil_sublist _
      · exact List.sublist_append_right names [piece]
  · exact .refl _

/-- A walk adds no names but those that it comes by. -/
theorem foldl_walk_sublist (rooted : Bool) (names pieces : List (List Char)) :
    (pieces.foldl (walk rooted) names).Sublist (names ++ pieces) := by
  induction pieces generalizing names with
  | nil => simp
  | cons piece pieces ih =>
    rw [List.foldl_cons, ← List.singleton_append, ← List.append_assoc]
    exact (ih _).trans ((walk_sublist rooted names piece).append (.refl pieces))

/-- A walk through a text leaves some of its characters. -/
theorem intercalate_walk_sublist (rooted : Bool) (cs : List Char) :
    (['\\'].intercalate ((splitAt '\\' cs).foldl (walk rooted) [])).Sublist cs := by
  have hsub := @Text.intercalate_sublist ['\\'] _ _
    (foldl_walk_sublist rooted [] (splitAt '\\' cs))
  rwa [List.nil_append, Text.intercalate_splitAt] at hsub

/-- The normal spelling of a text with backslashes only drops characters of it. -/
theorem normalize_sublist (hslash : '/' ∉ cs) (habs : isAbsolute cs = true) :
    (normalize cs).Sublist cs := by
  have hback := backslashed_eq_self hslash
  have hroot := rooted_splitDrive habs
  obtain ⟨drive, rest, hsplit⟩ : ∃ drive rest, splitDrive cs = (drive, rest) := ⟨_, _, rfl⟩
  have hwhole := splitDrive_append cs
  rw [hsplit] at hwhole hroot
  dsimp only at hwhole hroot
  by_cases hrest : ∃ behind, rest = '\\' :: behind
  · obtain ⟨behind, rfl⟩ := hrest
    have hnames := (intercalate_walk_sublist true (behind.dropWhile (· == '\\'))).trans
      (List.dropWhile_sublist _)
    rw [normalize_of_rooted (hback.symm ▸ hsplit), ← hwhole]
    exact (List.Sublist.refl drive).append (hnames.cons_cons '\\')
  · have hne : drive ≠ [] := by
      rintro rfl
      rcases hroot.cases with ⟨a, d, heq, -⟩ | ⟨⟨b, r, rfl, hb⟩, -⟩
      · cases heq
      · rw [eq_backslash_of_isSeparator hslash (hwhole ▸ by simp) hb] at hrest
        exact hrest ⟨r, rfl⟩
    rw [normalize, hback, hsplit, ← hwhole]
    dsimp only
    split
    · next behind => exact absurd ⟨behind, rfl⟩ hrest
    · rw [if_neg fun h => hne h.1]
      exact (List.Sublist.refl drive).append (intercalate_walk_sublist _ rest)

/-! ## The parent of a path of Windows -/

namespace Path

/-- What stands before the last name begins the text. -/
theorem splitLast_prefix (cs : List Char) : (splitLast cs).1 <+: cs := by
  obtain ⟨drive, rest, hsplit⟩ : ∃ drive rest, splitDrive cs = (drive, rest) := ⟨_, _, rfl⟩
  have hwhole := splitDrive_append cs
  have hhead : (Text.cutAfterLast isSeparator rest).1 <+: rest :=
    ⟨_, Text.cutAfterLast_append isSeparator rest⟩
  rw [hsplit] at hwhole
  rw [splitLast, hsplit, ← hwhole]
  dsimp only
  rw [List.prefix_append_right_inj]
  split
  · exact hhead
  · refine List.IsPrefix.trans ?_ hhead
    have hbare := @List.dropWhile_suffix _ (Text.cutAfterLast isSeparator rest).1.reverse
      isSeparator
    rwa [← List.reverse_prefix, List.reverse_reverse] at hbare

/-- The directory part of an absolute text is absolute. -/
theorem isAbsolute_splitLast (habs : isAbsolute cs = true) :
    isAbsolute (splitLast cs).1 = true := by
  obtain ⟨drive, rest, hsplit⟩ : ∃ drive rest, splitDrive cs = (drive, rest) := ⟨_, _, rfl⟩
  have hroot := rooted_splitDrive habs
  rw [hsplit] at hroot
  rw [splitLast, hsplit]
  dsimp only
  apply Rooted.isAbsolute
  refine ⟨hroot.cases.imp id fun ⟨⟨b, r, hrest, hb⟩, hdrive⟩ => ⟨?_, hdrive⟩⟩
  dsimp only at hrest
  obtain ⟨more, hmore⟩ := Text.cutAfterLast_cons hb r
  rw [hrest, hmore]
  split
  · exact ⟨b, more, rfl, hb⟩
  · next hbare =>
    -- What is left of the text when the separators at its end are dropped still begins as it does.
    have hfront := List.dropWhile_suffix (l := (b :: more).reverse) isSeparator
    rw [← List.reverse_prefix, List.reverse_reverse] at hfront
    obtain ⟨c, left, hleft⟩ := List.exists_cons_of_ne_nil hbare
    rw [hleft, List.cons_prefix_cons] at hfront
    exact ⟨c, left, hleft, hfront.1 ▸ hb⟩

/-- The parent of a normal path is normal. -/
theorem isNormal_parent {p : Path} (hp : IsNormal p.chars) : IsNormal p.parent.chars :=
  isNormal_normalize (isAbsolute_splitLast hp.isAbsolute)

/-- Going up drops characters of the text. -/
theorem parent_sublist {p : Path} (hp : IsNormal p.chars) : p.parent.chars.Sublist p.chars := by
  have hfront := splitLast_prefix p.chars
  have hslash : '/' ∉ (splitLast p.chars).1 := fun hmem => hp.noSlash (hfront.subset hmem)
  exact (normalize_sublist hslash (isAbsolute_splitLast hp.isAbsolute)).trans hfront.sublist

end Path

end Windows

/-! ## Going up -/

namespace FilePath

variable {platform : Platform} {p q : FilePath}

/-- The parent of a normal path of a platform is one. -/
theorem Normal.parent (hp : p.Normal platform) : p.parent.Normal platform := by
  cases p with
  | posix p => exact hp
  | windows p => exact ⟨hp.1, Windows.Path.isNormal_parent hp.2⟩

/-- The text of a parent holds only characters of the path, in their order. -/
theorem parent_sublist (hp : p.Normal platform) : p.parent.text.toList.Sublist p.text.toList := by
  cases p with
  | posix p =>
    change (String.ofList p.parent.chars).toList.Sublist (String.ofList p.chars).toList
    rw [String.toList_ofList, String.toList_ofList, Posix.Path.chars, Posix.Path.chars]
    exact (List.Sublist.refl _).append
      (Text.intercalate_sublist ((List.dropLast_sublist p.names).map _))
  | windows p =>
    change (String.ofList p.parent.chars).toList.Sublist (String.ofList p.chars).toList
    rw [String.toList_ofList, String.toList_ofList]
    exact Windows.Path.parent_sublist hp.2

/-- Paths of one system are told apart by their texts. -/
theorem Normal.text_inj (hp : p.Normal platform) (hq : q.Normal platform) :
    p.text = q.text ↔ p = q := by
  refine ⟨fun h => ?_, congrArg text⟩
  cases p with
  | posix p =>
    cases q with
    | posix q => exact congrArg posix (Posix.Path.text_inj.mp h)
    | windows q => exact absurd hq.1 hp
  | windows p =>
    cases q with
    | posix q => exact absurd hp.1 hq
    | windows q => exact congrArg (windows ∘ Windows.Path.mk) (String.ofList_injective h)

/-- The parent of a path has a shorter text, or is the path. -/
theorem parent_eq_or_length_lt (hp : p.Normal platform) :
    p.parent = p ∨ p.parent.text.length < p.text.length := by
  have hsub := parent_sublist hp
  rcases Nat.lt_or_eq_of_le hsub.length_le with hlt | heq
  · exact .inr hlt
  · exact .inl ((hp.parent.text_inj hp).mp (String.toList_injective (hsub.eq_of_length heq)))

/-- A path is the same as its parent only if it is its parent, also where letter case does not
count. -/
theorem same_parent_iff (hp : p.Normal platform) : p.parent.same p = true ↔ p.parent = p := by
  constructor
  · intro h
    cases p with
    | posix p => exact congrArg posix (same_posix.mp h)
    | windows p =>
      rw [same, beq_iff_eq] at h
      have hchars := Text.eq_of_sublist_of_lower (Windows.Path.parent_sublist hp.2) h
      exact congrArg (windows ∘ Windows.Path.mk) hchars
  · intro h
    rw [h, same, beq_self_eq_true]

/-- The step from a path to its parent; there is none from a root. -/
def Climbs (p q : FilePath) : Prop := p.parent = q ∧ q ≠ p

/-- Nothing is above a path that is its own parent. -/
theorem not_transGen_climbs (h : p.parent = p) : ¬Relation.TransGen Climbs p q := by
  rw [Relation.TransGen.head'_iff]
  rintro ⟨next, ⟨rfl, hne⟩, -⟩
  exact hne h

/-- What is above a path is its parent or above that. -/
theorem transGen_climbs_iff (h : p.parent ≠ p) :
    Relation.TransGen Climbs p q ↔ Relation.ReflTransGen Climbs p.parent q := by
  rw [Relation.TransGen.head'_iff]
  constructor
  · rintro ⟨next, ⟨rfl, -⟩, hmore⟩
    exact hmore
  · exact fun hmore => ⟨_, ⟨rfl, h⟩, hmore⟩

/-- Where names tell paths apart and going up drops the last name, the paths above a path are those
of the beginnings of its names. -/
theorem climbs_iff_of_names {N : Type} {path : List N → FilePath} {names : List N}
    (hparent : ∀ front, front <+: names → (path front).parent = path front.dropLast)
    (hinj : ∀ front back, front <+: names → back <+: names → path front = path back →
      front = back) :
    Relation.TransGen Climbs (path names) q ↔
      ∃ front, front <+: names ∧ front ≠ names ∧ q = path front := by
  induction names using List.reverseRecOn with
  | nil =>
    refine iff_of_false (not_transGen_climbs (hparent [] List.prefix_rfl)) ?_
    rintro ⟨front, hfront, hne, -⟩
    exact hne (List.prefix_nil.mp hfront)
  | append_singleton names n ih =>
    have hfront {front : List N} (h : front <+: names) : front <+: names ++ [n] :=
      h.trans (List.prefix_append names [n])
    have hup : (path (names ++ [n])).parent = path names := by
      rw [hparent _ List.prefix_rfl, List.dropLast_concat]
    have hne : (path (names ++ [n])).parent ≠ path (names ++ [n]) := by
      intro heq
      have hsame := hinj _ _ (List.prefix_append names [n]) List.prefix_rfl (hup.symm.trans heq)
      simpa using congrArg List.length hsame
    rw [transGen_climbs_iff hne, hup, Relation.reflTransGen_iff_eq_or_transGen,
      ih (fun front h => hparent front (hfront h))
        (fun front back h h' => hinj front back (hfront h) (hfront h'))]
    constructor
    · rintro (rfl | ⟨front, h, -, rfl⟩)
      · exact ⟨names, List.prefix_append names [n], by simp, rfl⟩
      · refine ⟨front, hfront h, fun heq => ?_, rfl⟩
        have hlength := h.length_le
        rw [heq, List.length_append, List.length_singleton] at hlength
        omega
    · rintro ⟨front, h, hother, rfl⟩
      rcases List.prefix_concat_iff.mp h with heq | h
      · exact absurd heq hother
      · by_cases heq : front = names
        · exact .inl (congrArg path heq)
        · exact .inr ⟨front, h, heq, rfl⟩

/-- The directories above a path of a POSIX system are those that it lies below, itself apart. -/
theorem climbs_posix_iff {p : Posix.Path} : Relation.TransGen Climbs (posix p) q ↔
    ∃ base, (posix p).isUnder (posix base) = true ∧ base ≠ p ∧ q = posix base := by
  have hnames := @climbs_iff_of_names q Posix.Name (fun names => posix ⟨p.root, names⟩) p.names
    (fun front _ => rfl) fun front back _ _ h => by simpa using h
  rw [hnames]
  constructor
  · rintro ⟨front, hfront, hne, rfl⟩
    refine ⟨⟨p.root, front⟩, isUnder_posix.mpr ⟨rfl, hfront⟩, fun heq => ?_, rfl⟩
    exact hne (congrArg Posix.Path.names heq)
  · rintro ⟨⟨root, front⟩, hunder, hne, rfl⟩
    obtain ⟨hroot, hfront⟩ := isUnder_posix.mp hunder
    dsimp only at hroot hfront
    subst hroot
    exact ⟨front, hfront, fun heq => hne (by rw [heq]), rfl⟩

end FilePath

/-! ## Paths on a drive -/

namespace Windows

variable {d : Char} {names : List (List Char)}

/-- The path on a drive to which the names lead. -/
def Path.ofNames (d : Char) (names : List (List Char)) : Path :=
  ⟨d :: ':' :: '\\' :: ['\\'].intercalate names⟩

/-- The first of some settled names are settled. -/
theorem Settled.of_prefix {front : List (List Char)} (h : Settled true names)
    (hfront : front <+: names) : Settled true front where
  name n hn := h.name n (hfront.subset hn)
  climb hrooted hmem := h.climb hrooted (hfront.subset hmem)

/-- Two paths on a drive differ if their names do. -/
theorem Path.ofNames_inj {front : List (List Char)} (h : Settled true names)
    (hfront : Settled true front) (heq : ofNames d names = ofNames d front) : names = front := by
  have hchars := congrArg Path.chars heq
  simp only [ofNames, List.cons.injEq, true_and] at hchars
  rw [← h.foldl_walk_splitAt, hchars, hfront.foldl_walk_splitAt]

/-- The text of settled names does not end with a separator. -/
theorem Settled.getLast?_intercalate (h : Settled true names) :
    (['\\'].intercalate names).getLast?.any isSeparator = false := by
  rcases names.eq_nil_or_concat' with rfl | ⟨front, n, rfl⟩
  · rfl
  have hname := h.name n (by simp)
  have hlast : n.getLast?.any isSeparator = false := by
    cases hc : n.getLast? with
    | none => rfl
    | some c => exact hname.2.2 c (List.mem_of_getLast? hc)
  by_cases hfront : front = []
  · simpa [hfront] using hlast
  · obtain ⟨c, n, rfl⟩ := List.exists_cons_of_ne_nil hname.1
    rw [Text.intercalate_append hfront (List.cons_ne_nil _ _), List.intercalate_singleton,
      List.getLast?_append_of_ne_nil _ (List.cons_ne_nil _ _), List.getLast?_cons_cons]
    exact hlast

/-- One separator at the end is all that is dropped from a text that does not end with another. -/
theorem dropWhile_concat {head : List Char} (h : head.getLast?.any isSeparator = false) :
    ((head ++ ['\\']).reverse.dropWhile isSeparator).reverse = head := by
  have hsep : isSeparator '\\' = true := rfl
  rw [List.reverse_concat, List.dropWhile_cons_of_pos hsep]
  rcases head.eq_nil_or_concat' with rfl | ⟨head, c, rfl⟩
  · rfl
  · rw [List.getLast?_concat, Option.any_some] at h
    rw [List.reverse_concat, List.dropWhile_cons_of_neg (by simp [h]), List.reverse_cons,
      List.reverse_reverse]

/-- The parent of a path lacks its last name. -/
theorem Path.parent_ofNames (hd : isSeparator d = false) (h : Settled true names) :
    (ofNames d names).parent = ofNames d names.dropLast := by
  have hsep : isSeparator '\\' = true := rfl
  have hnormal := (seated_letter hd (h.of_prefix (List.dropLast_prefix names))).normalize_eq
  suffices hsplit : (splitLast (ofNames d names).chars).1 = (ofNames d names.dropLast).chars by
    rw [parent, hsplit]
    exact congrArg Path.mk hnormal
  rw [splitLast, ofNames, splitDrive_letter hd, ofNames]
  dsimp only
  rcases names.eq_nil_or_concat' with rfl | ⟨front, n, rfl⟩
  · rfl
  have hname := (h.name n (by simp)).2.2
  rw [List.dropLast_concat]
  by_cases hfront : front = []
  · subst hfront
    have hcut := Text.cutAfterLast_append_cons hsep hname []
    rw [List.nil_append] at hcut
    rw [List.nil_append, List.intercalate_singleton, hcut]
    rfl
  · have hsettled : Settled true front := h.of_prefix (List.prefix_append front [n])
    have hbare : ('\\' :: ['\\'].intercalate front).getLast?.any isSeparator = false := by
      have hlast := hsettled.getLast?_intercalate
      cases htext : ['\\'].intercalate front with
      | nil => exact absurd (hsettled.intercalate_eq_nil.mp htext) hfront
      | cons c cs => rwa [htext, ← List.getLast?_cons_cons] at hlast
    rw [Text.intercalate_append hfront (List.cons_ne_nil _ _), List.intercalate_singleton,
      ← List.cons_append, Text.cutAfterLast_append_cons hsep hname]
    dsimp only
    rw [dropWhile_concat hbare, if_neg (List.cons_ne_nil _ _)]
    rfl

end Windows

/-- The directories above a path on a drive are those to which beginnings of its names lead. -/
theorem FilePath.climbs_letter_iff {d : Char} {names : List (List Char)} {q : FilePath}
    (hd : Windows.isSeparator d = false) (h : Windows.Settled true names) :
    Relation.TransGen Climbs (windows (.ofNames d names)) q ↔
      ∃ front, front <+: names ∧ front ≠ names ∧ q = windows (.ofNames d front) :=
  @climbs_iff_of_names q _ (fun names => windows (.ofNames d names)) names
    (fun _ hfront => congrArg windows (Windows.Path.parent_ofNames hd (h.of_prefix hfront)))
    fun _ _ hfront hback heq => Windows.Path.ofNames_inj (h.of_prefix hfront) (h.of_prefix hback)
      (windows.inj heq)

end BuildLens
