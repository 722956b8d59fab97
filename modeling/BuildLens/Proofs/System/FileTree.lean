import BuildLens.System.FileTree
import Mathlib.Logic.Relation

/-!
# How a path is looked up

A path is looked up in small steps: up to the directory above, down to an entry that is no link, or
along a link. Each step is possible from a directory only, and no step ends on a link. So a look-up
comes to an end in one of four ways: it arrives, the next name is missing, it stands on a regular
file with names left, or it meets one link too many.

Main definitions:

- `FileTree.Walker`, `FileTree.Goes`: a look-up in progress, and its steps.
- `FileTree.Halts`: how a look-up ends.
- `FileTree.Misses`, `FileTree.Barred`, `FileTree.Tangled`: the ways in which a path leads nowhere.

Main results:

- `FileTree.walk_eq_iff`: the walk is the run of the steps.
- `FileTree.exists_walk_of_concat`: the last name of a walk that arrives is one in a directory.
- `FileTree.find_eq_noEntry_iff`, `FileTree.find_eq_notDirectory_iff`,
  `FileTree.find_eq_tooManyLinks_iff`: what each error of a look-up means.
- `FileTree.leadsSomewhere_eq_false_iff`: a path leads nowhere in one of three ways.
-/

namespace BuildLens

namespace FileTree

variable {t : FileTree} {here : Place} {path : List Char} {o : Except Errno Place}

/-! ## Small steps -/

/-- A look-up in progress that follows links: how many links it may still follow, the place reached,
and the names that are left. -/
structure Walker where
  links : Nat
  here : Place
  names : Place

variable {w w' : Walker}

/-- One step of a look-up: up to the directory above, down to an entry that is no link, or along a
link, from the root or from where the link is. -/
inductive Goes (t : FileTree) : Walker → Walker → Prop
  | up {links : Nat} {here rest : Place} (hhere : t.at? here = some .directory) :
      t.Goes ⟨links, here, ['.', '.'] :: rest⟩ ⟨links, here.dropLast, rest⟩
  | down {links : Nat} {here rest : Place} {name : List Char} {e : Entry}
      (hhere : t.at? here = some .directory) (hname : name ≠ ['.', '.'])
      (hnext : t.at? (here ++ [name]) = some e) (hlink : ∀ target, e ≠ .link target) :
      t.Goes ⟨links, here, name :: rest⟩ ⟨links, here ++ [name], rest⟩
  | follow {links : Nat} {here rest : Place} {name target : List Char}
      (hhere : t.at? here = some .directory) (hname : name ≠ ['.', '.'])
      (hnext : t.at? (here ++ [name]) = some (.link target)) :
      t.Goes ⟨links + 1, here, name :: rest⟩
        ⟨links, if isAbsolute target then [] else here, Place.ofChars target ++ rest⟩

/-- How a look-up ends when no step is possible: no names are left, there is no entry of the next
name, names are left below something that is no directory, or the next name is a link and no more
links may be followed. -/
inductive Halts (t : FileTree) : Walker → Except Errno Place → Prop
  | arrived {links : Nat} {here : Place} : t.Halts ⟨links, here, []⟩ (.ok here)
  | missing {links : Nat} {here rest : Place} {name : List Char}
      (hhere : t.at? here = some .directory) (hname : name ≠ ['.', '.'])
      (hnext : t.at? (here ++ [name]) = none) :
      t.Halts ⟨links, here, name :: rest⟩ (.error .noEntry)
  | barred {links : Nat} {here rest : Place} {name : List Char}
      (hhere : t.at? here ≠ some .directory) :
      t.Halts ⟨links, here, name :: rest⟩ (.error .notDirectory)
  | tangled {here rest : Place} {name target : List Char}
      (hhere : t.at? here = some .directory) (hname : name ≠ ['.', '.'])
      (hnext : t.at? (here ++ [name]) = some (.link target)) :
      t.Halts ⟨0, here, name :: rest⟩ (.error .tooManyLinks)

/-- An entry may be a directory in one way only. -/
theorem any_isDirectory_iff {e : Option Entry} :
    e.any Entry.isDirectory = true ↔ e = some .directory := by
  rcases e with _ | _ | _ | _ <;> simp [Entry.isDirectory]

/-- The walk that a look-up has still to make. -/
def Walker.run (t : FileTree) (w : Walker) : Except Errno Place :=
  t.walk true w.links w.here w.names

/-- A step does not change where a walk leads. -/
theorem run_of_goes (h : t.Goes w w') : w.run t = w'.run t := by
  cases h with
  | up hhere =>
    rw [Walker.run, walk, any_isDirectory_iff.mpr hhere]
    rfl
  | @down links here rest name e hhere hname hnext hlink =>
    rw [Walker.run, walk, any_isDirectory_iff.mpr hhere]
    simp only [Bool.not_true, Bool.false_eq_true, if_false, hname, hnext]
    cases e with
    | link target => exact absurd rfl (hlink target)
    | directory => rfl
    | file => rfl
  | follow hhere hname hnext =>
    rw [Walker.run, walk, any_isDirectory_iff.mpr hhere]
    simp [hname, hnext, Walker.run]

/-- A walk that halts has the end that it has there. -/
theorem run_of_halts (h : t.Halts w o) : w.run t = o := by
  cases h with
  | arrived => rw [Walker.run, walk]
  | missing hhere hname hnext =>
    rw [Walker.run, walk, any_isDirectory_iff.mpr hhere]
    simp [hname, hnext]
  | barred hhere =>
    rw [Walker.run, walk, Bool.eq_false_iff.mpr (mt any_isDirectory_iff.mp hhere)]
    rfl
  | tangled hhere hname hnext =>
    rw [Walker.run, walk, any_isDirectory_iff.mpr hhere]
    simp [hname, hnext]

/-- A look-up can go on or has ended. -/
theorem goes_or_halts (t : FileTree) (w : Walker) :
    (∃ w', t.Goes w w') ∨ ∃ o, t.Halts w o := by
  obtain ⟨links, here, names⟩ := w
  cases names with
  | nil => exact .inr ⟨_, .arrived⟩
  | cons name rest =>
    by_cases hhere : t.at? here = some .directory
    · by_cases hname : name = ['.', '.']
      · subst hname
        exact .inl ⟨_, .up hhere⟩
      · cases hnext : t.at? (here ++ [name]) with
        | none => exact .inr ⟨_, .missing hhere hname hnext⟩
        | some e =>
          cases e with
          | directory => exact .inl ⟨_, .down hhere hname hnext nofun⟩
          | file => exact .inl ⟨_, .down hhere hname hnext nofun⟩
          | link target =>
            cases links with
            | zero => exact .inr ⟨_, .tangled hhere hname hnext⟩
            | succ links => exact .inl ⟨_, .follow hhere hname hnext⟩
    · exact .inr ⟨_, .barred hhere⟩

/-- A step uses up a link or a name. -/
theorem lt_of_goes (h : t.Goes w w') : Prod.Lex (· < ·) (· < ·)
    (w'.links, w'.names.length) (w.links, w.names.length) := by
  cases h with
  | up => exact .right _ (Nat.lt_succ_self _)
  | down => exact .right _ (Nat.lt_succ_self _)
  | follow => exact .left _ _ (Nat.lt_succ_self _)

/-- Every look-up comes to an end. -/
theorem exists_halts (t : FileTree) (w : Walker) :
    ∃ w' o, Relation.ReflTransGen t.Goes w w' ∧ t.Halts w' o := by
  rcases goes_or_halts t w with ⟨w', hgoes⟩ | ⟨o, hhalts⟩
  · obtain ⟨last, o, hrun, hhalts⟩ := exists_halts t w'
    exact ⟨last, o, .head hgoes hrun, hhalts⟩
  · exact ⟨w, o, .refl, hhalts⟩
termination_by (w.links, w.names.length)
decreasing_by exact lt_of_goes hgoes

/-- Any number of steps do not change where a walk leads. -/
theorem run_of_reaches (h : Relation.ReflTransGen t.Goes w w') : w.run t = w'.run t := by
  induction h with
  | refl => rfl
  | tail _ hgoes ih => rw [ih, run_of_goes hgoes]

/-- The walk is the run of the steps. -/
theorem walk_eq_iff {links : Nat} {names : Place} : t.walk true links here names = o ↔
    ∃ w, Relation.ReflTransGen t.Goes ⟨links, here, names⟩ w ∧ t.Halts w o := by
  obtain ⟨last, o', hrun, hhalts⟩ := exists_halts t ⟨links, here, names⟩
  have hwalk : t.walk true links here names = o' :=
    (run_of_reaches hrun).trans (run_of_halts hhalts)
  constructor
  · intro h
    exact ⟨last, hrun, hwalk.symm.trans h ▸ hhalts⟩
  · rintro ⟨w, hreaches, hw⟩
    exact (run_of_reaches hreaches).trans (run_of_halts hw)

/-- A step is made from a directory. -/
theorem at?_of_goes (h : t.Goes w w') : t.at? w.here = some .directory := by
  cases h with
  | up hhere => exact hhere
  | down hhere => exact hhere
  | follow hhere => exact hhere

/-- Names behind the next one do not bear on a step. -/
theorem exists_goes_of_append {links : Nat} {n : List Char} {rest behind : Place}
    (h : t.Goes ⟨links, here, n :: (rest ++ behind)⟩ w') :
    ∃ w, t.Goes ⟨links, here, n :: rest⟩ w ∧ w' = ⟨w.links, w.here, w.names ++ behind⟩ := by
  cases h with
  | up hhere => exact ⟨_, .up hhere, rfl⟩
  | down hhere hname hnext hlink => exact ⟨_, .down hhere hname hnext hlink, rfl⟩
  | follow hhere hname hnext =>
    exact ⟨_, .follow hhere hname hnext, by rw [List.append_assoc]⟩

/-- Before the last of its names, a walk that arrives is in a directory. -/
theorem exists_walk_of_concat {links : Nat} {names : Place} {name : List Char} {place : Place}
    (h : t.walk true links here (names ++ [name]) = .ok place) :
    ∃ there, t.walk true links here names = .ok there ∧ t.at? there = some .directory := by
  obtain ⟨last, hreaches, hhalts⟩ := walk_eq_iff.mp h
  cases hhalts
  generalize hw : Walker.mk links here (names ++ [name]) = w at hreaches
  induction hreaches using Relation.ReflTransGen.head_induction_on
    generalizing links here names with
  | refl => simp at hw
  | head hgoes _ ih =>
    subst hw
    cases names with
    | nil => exact ⟨here, by rw [walk], at?_of_goes hgoes⟩
    | cons n rest =>
      obtain ⟨w, hfirst, rfl⟩ := exists_goes_of_append hgoes
      have hsame : t.walk true links here (n :: rest) = t.walk true w.links w.here w.names :=
        run_of_goes hfirst
      rw [hsame]
      exact ih ((run_of_goes hgoes).symm.trans h) rfl

/-! ## Where a look-up stands -/

/-- A place on which a look-up may stand: it has an entry that is no link, and all places above it
are directories. -/
structure Firm (t : FileTree) (here : Place) : Prop where
  above : ∀ i < here.length, t.at? (here.take i) = some .directory
  entry : ∃ e, t.at? here = some e ∧ ∀ target, e ≠ .link target

theorem at?_nil (t : FileTree) : t.at? [] = some .directory := rfl

/-- The root is a place to stand on. -/
theorem firm_nil (t : FileTree) : t.Firm [] where
  above i h := absurd h (Nat.not_lt_zero i)
  entry := ⟨_, t.at?_nil, nofun⟩

/-- Above a firm place everything is firm. -/
theorem Firm.dropLast (h : t.Firm here) : t.Firm here.dropLast := by
  by_cases hnil : here = []
  · subst hnil
    exact t.firm_nil
  · have hlast : here.length - 1 < here.length :=
      Nat.sub_one_lt (mt List.length_eq_zero_iff.mp hnil)
    rw [List.dropLast_eq_take]
    refine ⟨fun i hi => ?_, _, h.above _ hlast, nofun⟩
    rw [List.length_take] at hi
    rw [List.take_take, Nat.min_eq_left (by omega)]
    exact h.above i (by omega)

/-- An entry of a directory is firm if it is no link. -/
theorem Firm.append_singleton (h : t.Firm here) {name : List Char} {e : Entry}
    (hhere : t.at? here = some .directory) (hnext : t.at? (here ++ [name]) = some e)
    (hlink : ∀ target, e ≠ .link target) : t.Firm (here ++ [name]) where
  above i hi := by
    rw [List.length_append, List.length_singleton] at hi
    rw [List.take_append_of_le_length (by omega)]
    rcases Nat.lt_succ_iff_lt_or_eq.mp hi with hi | rfl
    · exact h.above i hi
    · rw [List.take_length, hhere]
  entry := ⟨e, hnext, hlink⟩

/-- A step leads from a firm place to a firm one. -/
theorem Firm.of_goes (h : t.Firm w.here) (hgoes : t.Goes w w') : t.Firm w'.here := by
  cases hgoes with
  | up => exact h.dropLast
  | down hhere _ hnext hlink => exact h.append_singleton hhere hnext hlink
  | follow =>
    dsimp only
    split
    · exact t.firm_nil
    · exact h

/-- Any number of steps lead to firm places. -/
theorem Firm.of_reaches (h : t.Firm w.here) (hreaches : Relation.ReflTransGen t.Goes w w') :
    t.Firm w'.here := by
  induction hreaches with
  | refl => exact h
  | tail _ hgoes ih => exact ih.of_goes hgoes

/-- What is firm and no directory is a regular file. -/
theorem Firm.exists_file (h : t.Firm here) (hnot : t.at? here ≠ some .directory) :
    ∃ f, t.at? here = some (.file f) := by
  obtain ⟨e, he, hlink⟩ := h.entry
  cases e with
  | directory => exact absurd he hnot
  | file f => exact ⟨f, he⟩
  | link target => exact absurd rfl (hlink target)

/-! ## Paths that lead nowhere -/

/-- The look-up of a path comes by where the walker is. -/
def Meets (t : FileTree) (path : List Char) (w : Walker) : Prop :=
  path ≠ [] ∧ Relation.ReflTransGen t.Goes ⟨maxLinks, [], t.namesOf path⟩ w

/-- The path is empty, or some name of it is missing in a directory to which the names before it
lead. -/
def Misses (t : FileTree) (path : List Char) : Prop :=
  path = [] ∨ ∃ links here name rest, t.Meets path ⟨links, here, name :: rest⟩ ∧
    t.at? here = some .directory ∧ name ≠ ['.', '.'] ∧ t.at? (here ++ [name]) = none

/-- The names of the path lead to a regular file before the last of them. -/
def Barred (t : FileTree) (path : List Char) : Prop :=
  ∃ links here name rest f, t.Meets path ⟨links, here, name :: rest⟩ ∧
    t.at? here = some (.file f)

/-- The names of the path lead to a link after as many links as may be followed. -/
def Tangled (t : FileTree) (path : List Char) : Prop :=
  ∃ here name rest target, t.Meets path ⟨0, here, name :: rest⟩ ∧
    t.at? here = some .directory ∧ name ≠ ['.', '.'] ∧
    t.at? (here ++ [name]) = some (.link target)

/-- All places at which a look-up comes by are firm. -/
theorem Meets.firm (h : t.Meets path w) : t.Firm w.here :=
  Firm.of_reaches t.firm_nil h.2

/-- A path leads to where its look-up halts. -/
theorem resolve_eq_iff (hne : path ≠ []) :
    t.resolve path true = o ↔ ∃ w, t.Meets path w ∧ t.Halts w o := by
  rw [resolve, if_neg hne, walk_eq_iff]
  simp only [Meets, hne, ne_eq, not_false_eq_true, true_and]

/-- A look-up that arrives finds what is there. -/
theorem exists_find_of_resolve {place : Place} (h : t.resolve path true = .ok place) :
    ∃ e, t.find path = .ok e := by
  have hne : path ≠ [] := by
    rintro rfl
    cases h
  obtain ⟨w, hmeets, hhalts⟩ := (resolve_eq_iff hne).mp h
  cases hhalts
  obtain ⟨e, he, -⟩ := hmeets.firm.entry
  dsimp only at he
  exact ⟨e, by simp only [find, h, bind, Except.bind, he]⟩

/-- An entry is not found if its path does not lead to it. -/
theorem find_eq_error_iff {errno : Errno} :
    t.find path = .error errno ↔ t.resolve path true = .error errno := by
  cases hresolve : t.resolve path true with
  | error e => simp only [find, hresolve, bind, Except.bind, Except.error.injEq]
  | ok place =>
    obtain ⟨e, he⟩ := exists_find_of_resolve hresolve
    simp [he]

/-- There is no entry if a name of the path is missing. -/
theorem find_eq_noEntry_iff : t.find path = .error .noEntry ↔ t.Misses path := by
  rw [find_eq_error_iff, Misses]
  by_cases hne : path = []
  · subst hne
    exact ⟨fun _ => .inl rfl, fun _ => rfl⟩
  · rw [resolve_eq_iff hne, or_iff_right hne]
    constructor
    · rintro ⟨w, hmeets, hhalts⟩
      cases hhalts with
      | missing hhere hname hnext => exact ⟨_, _, _, _, hmeets, hhere, hname, hnext⟩
    · rintro ⟨links, here, name, rest, hmeets, hhere, hname, hnext⟩
      exact ⟨_, hmeets, .missing hhere hname hnext⟩

/-- Something is no directory if the path leads through a regular file. -/
theorem find_eq_notDirectory_iff : t.find path = .error .notDirectory ↔ t.Barred path := by
  rw [find_eq_error_iff]
  constructor
  · intro h
    have hne : path ≠ [] := by
      rintro rfl
      cases h
    obtain ⟨w, hmeets, hhalts⟩ := (resolve_eq_iff hne).mp h
    cases hhalts with
    | barred hhere =>
      obtain ⟨f, hf⟩ := hmeets.firm.exists_file hhere
      exact ⟨_, _, _, _, f, hmeets, hf⟩
  · rintro ⟨links, here, name, rest, f, hmeets, hf⟩
    refine (resolve_eq_iff hmeets.1).mpr ⟨_, hmeets, .barred ?_⟩
    rw [hf]
    nofun

/-- There are too many links if the path leads to one after those that may be followed. -/
theorem find_eq_tooManyLinks_iff : t.find path = .error .tooManyLinks ↔ t.Tangled path := by
  rw [find_eq_error_iff]
  constructor
  · intro h
    have hne : path ≠ [] := by
      rintro rfl
      cases h
    obtain ⟨w, hmeets, hhalts⟩ := (resolve_eq_iff hne).mp h
    cases hhalts with
    | tangled hhere hname hnext => exact ⟨_, _, _, _, hmeets, hhere, hname, hnext⟩
  · rintro ⟨here, name, rest, target, hmeets, hhere, hname, hnext⟩
    exact (resolve_eq_iff hmeets.1).mpr ⟨_, hmeets, .tangled hhere hname hnext⟩

/-- A path that leads nowhere misses a name, is barred by a regular file, or has too many links. -/
theorem find_error_cases {errno : Errno} (h : t.find path = .error errno) :
    errno = .noEntry ∨ errno = .notDirectory ∨ errno = .tooManyLinks := by
  rw [find_eq_error_iff] at h
  by_cases hne : path = []
  · subst hne
    cases h
    exact .inl rfl
  · obtain ⟨w, -, hhalts⟩ := (resolve_eq_iff hne).mp h
    cases hhalts with
    | missing => exact .inl rfl
    | barred => exact .inr (.inl rfl)
    | tangled => exact .inr (.inr rfl)

/-- A path leads nowhere in just these three cases. -/
theorem leadsSomewhere_eq_false_iff :
    t.leadsSomewhere path = false ↔ t.Misses path ∨ t.Barred path ∨ t.Tangled path := by
  rw [← find_eq_noEntry_iff, ← find_eq_notDirectory_iff, ← find_eq_tooManyLinks_iff,
    leadsSomewhere]
  cases hfind : t.find path with
  | ok e => simp
  | error errno =>
    rcases find_error_cases hfind with rfl | rfl | rfl <;> simp

end FileTree

end BuildLens
