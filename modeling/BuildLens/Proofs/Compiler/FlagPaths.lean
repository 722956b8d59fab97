import BuildLens.Proofs.Compiler.Flags
import BuildLens.Proofs.Path.NormalForm

/-!
# Paths among the flags of a file

A path in a command line is taken as it is, or read where the file is built. A text that has no path
there is dropped: it is empty, or it is relative and no directory is told. On Windows there are two
kinds of texts that are not dropped although no path can be made of them: one that names another
drive than the one on which the file is built, and a lone drive with a line feed behind it. One of
these makes the whole command line fail.

Main definitions:

- `Argument.Pathless`: a text that is dropped.
- `Argument.Stray`, `FlagEvent.Stray`: a text that is refused, and an event with one.

Main results:

- `Argument.toPath?_eq_none`, `Argument.toPath?_eq_error`, `Argument.exists_toPath?_eq_some`: what
  is made of a value.
- `FileConfig.addArguments_succeeds_iff`: a command line fails by a stray text only, and what it
  adds otherwise.
- `FileConfig.addArguments_otherDrive`: command lines that fail.
-/

namespace BuildLens

variable {platform : Platform} {cwd : Option FilePath} {value : Argument} {d : Dialect}
  {args : List Argument} {events : List FlagEvent}

/-! ## What is made of a value -/

/-- The text has no path: it is empty, or it is relative and there is no directory. -/
inductive Argument.Pathless (platform : Platform) (cwd : Option FilePath) : Argument → Prop
  | empty : Pathless platform cwd (.text "")
  | relative {s : String} (hcwd : cwd = none) (hs : FilePath.isAbsoluteText platform s = false) :
      Pathless platform cwd (.text s)

/-- No path can be made of the text on Windows: it names another drive than the directory is on, or
it is a lone drive with a line feed behind it. -/
inductive Argument.Stray (platform : Platform) (cwd : Option FilePath) : Argument → Prop
  | loneDrive {d : Char} (hp : platform = .windows) (hd : d.isAlpha = true) :
      Stray platform cwd (.text (String.ofList ['/', d, '\n']))
  | otherDrive {dir : Windows.Path} {s : String} (hp : platform = .windows)
      (hcwd : cwd = some (.windows dir)) (hs : Windows.isAbsolute s.toList = false)
      (hother : Windows.OnOtherDrive dir.chars s.toList) : Stray platform cwd (.text s)

theorem Argument.toPath?_of_slash {s : String} (cwd : Option FilePath)
    (h : s.toList.head? = some '/') :
    (text s).toPath? platform cwd = (FilePath.ofUnixText platform s).map some := by
  have hne : s.isEmpty = false := by
    cases hempty : s.isEmpty with
    | false => rfl
    | true => simp [String.isEmpty_iff.mp hempty] at h
  rw [toPath?.eq_def]
  dsimp only
  rw [hne, if_neg Bool.false_ne_true, if_pos h]

theorem Argument.toPath?_of_absolute {s : String} (cwd : Option FilePath)
    (hslash : s.toList.head? ≠ some '/') (h : FilePath.isAbsoluteText platform s = true) :
    (text s).toPath? platform cwd = (FilePath.ofText platform s).map some := by
  have hne : s.isEmpty = false := by
    cases hempty : s.isEmpty with
    | false => rfl
    | true =>
      rw [String.isEmpty_iff.mp hempty] at h
      cases platform <;> cases h
  rw [toPath?.eq_def]
  dsimp only
  rw [hne, if_neg Bool.false_ne_true, if_neg hslash, if_pos h]

theorem Argument.toPath?_of_relative {s : String} (cwd : Option FilePath) (hne : s ≠ "")
    (h : FilePath.isAbsoluteText platform s = false) :
    (text s).toPath? platform cwd =
      (cwd.map fun dir => (dir.join [s]).map some).getD (.ok none) := by
  have hslash : s.toList.head? ≠ some '/' := by
    intro hslash
    rw [FilePath.isAbsoluteText_of_slash platform hslash] at h
    cases h
  rw [toPath?.eq_def]
  dsimp only
  rw [if_neg (by simpa using hne), if_neg hslash, h, if_neg Bool.false_ne_true]
  cases cwd <;> rfl

/-- A text without a path is dropped. -/
theorem Argument.toPath?_eq_none (h : value.Pathless platform cwd) :
    value.toPath? platform cwd = .ok none := by
  cases h with
  | empty => rfl
  | @relative s hcwd hs =>
    by_cases hne : s = ""
    · subst hne
      rfl
    · rw [toPath?_of_relative cwd hne hs, hcwd]
      rfl

/-- A stray text is refused. -/
theorem Argument.toPath?_eq_error (hcwd : ∀ dir, cwd = some dir → dir.Normal platform)
    (h : value.Stray platform cwd) :
    ∃ text, value.toPath? platform cwd = .error (.notAbsolute text) := by
  cases h with
  | @loneDrive d hp hd =>
    subst hp
    have habs : FilePath.isAbsoluteText .windows
        (String.ofList (Windows.ofUnixChars ['/', d, '\n'])) = false := by
      rw [FilePath.isAbsoluteText, String.toList_ofList, Windows.isAbsolute_loneDrive hd]
    rw [toPath?_of_slash cwd (by simp), FilePath.ofUnixText, String.toList_ofList,
      FilePath.ofText_eq_error habs]
    exact ⟨_, rfl⟩
  | @otherDrive dir s hp hdir hs hother =>
    subst hp
    have hne : s ≠ "" := by
      rintro rfl
      obtain ⟨c, rest, heq, -⟩ := hother
      cases heq
    have hrelative : FilePath.isAbsoluteText .windows s = false := hs
    rw [toPath?_of_relative cwd hne hrelative, hdir, Option.map_some, Option.getD_some]
    rcases FilePath.join_singleton_windows (hcwd _ hdir).2 hs with ⟨-, hnot⟩ | ⟨⟨text, hjoin⟩, -⟩
    · exact absurd hother hnot
    · rw [hjoin]
      exact ⟨text, rfl⟩

/-- Any other value has a path, which is in its normal form. -/
theorem Argument.exists_toPath?_eq_some (hcwd : ∀ dir, cwd = some dir → dir.Normal platform)
    (hvalue : ∀ p, value = .path p → p.Normal platform) (hpath : ¬value.Pathless platform cwd)
    (hstray : ¬value.Stray platform cwd) :
    ∃ p : FilePath, p.Normal platform ∧ value.toPath? platform cwd = .ok (some p) := by
  cases value with
  | path p => exact ⟨p, hvalue p rfl, rfl⟩
  | text s =>
    have hne : s ≠ "" := by
      rintro rfl
      exact hpath .empty
    cases habs : FilePath.isAbsoluteText platform s with
    | true =>
      obtain ⟨p, hp, hread⟩ := FilePath.exists_normal_of_isAbsoluteText habs
      by_cases hslash : s.toList.head? = some '/'
      · rw [toPath?_of_slash cwd hslash]
        by_cases hw : platform = .windows
        · subst hw
          have hunix : FilePath.isAbsoluteText .windows
              (String.ofList (Windows.ofUnixChars s.toList)) = true := by
            rw [FilePath.isAbsoluteText, String.toList_ofList,
              Windows.isAbsolute_ofUnixChars_iff hslash]
            intro d hd heq
            refine hstray ?_
            rw [← String.ofList_toList (s := s), heq]
            exact .loneDrive rfl hd
          obtain ⟨q, hq, hread⟩ := FilePath.exists_normal_of_isAbsoluteText hunix
          exact ⟨q, hq, by rw [FilePath.ofUnixText, hread]; rfl⟩
        · exact ⟨p, hp, by rw [FilePath.ofUnixText_eq_ofText hw, hread]; rfl⟩
      · exact ⟨p, hp, by rw [toPath?_of_absolute cwd hslash habs, hread]; rfl⟩
    | false =>
      rw [toPath?_of_relative cwd hne habs]
      cases hdir : cwd with
      | none => exact absurd (.relative hdir habs) hpath
      | some dir =>
        have hnormal := hcwd dir hdir
        obtain ⟨p, hp⟩ : ∃ p, dir.join [s] = .ok p := by
          cases dir with
          | posix dir => exact ⟨_, rfl⟩
          | windows dir =>
            obtain ⟨rfl, hnormal⟩ := hnormal
            rcases FilePath.join_singleton_windows hnormal habs with ⟨hjoin, -⟩ | ⟨-, hother⟩
            · exact hjoin
            · exact absurd (.otherDrive rfl hdir habs hother) hstray
        exact ⟨p, FilePath.normal_of_join hnormal hp, by rw [Option.map_some, hp]; rfl⟩

/-- A value means nothing if it has no path or is refused. -/
theorem Argument.meant?_eq_none_iff (hcwd : ∀ dir, cwd = some dir → dir.Normal platform)
    (hvalue : ∀ p, value = .path p → p.Normal platform) :
    value.meant? platform cwd = none ↔ value.Pathless platform cwd ∨ value.Stray platform cwd := by
  constructor
  · intro h
    by_contra hnot
    rw [not_or] at hnot
    obtain ⟨p, -, hp⟩ := exists_toPath?_eq_some hcwd hvalue hnot.1 hnot.2
    rw [meant?, hp] at h
    cases h
  · rintro (h | h)
    · rw [meant?, toPath?_eq_none h]
      rfl
    · obtain ⟨text, herror⟩ := toPath?_eq_error hcwd h
      rw [meant?, herror]
      rfl

/-- Nothing but a stray text is refused, and always as a text that is not absolute. -/
theorem Argument.stray_of_toPath?_eq_error (hcwd : ∀ dir, cwd = some dir → dir.Normal platform)
    (hvalue : ∀ p, value = .path p → p.Normal platform) {error : PathError}
    (h : value.toPath? platform cwd = .error error) :
    value.Stray platform cwd ∧ ∃ text, error = .notAbsolute text := by
  have hmeant : value.meant? platform cwd = none := by
    rw [meant?, h]
    rfl
  rcases (meant?_eq_none_iff hcwd hvalue).mp hmeant with hpath | hstray
  · rw [toPath?_eq_none hpath] at h
    cases h
  · obtain ⟨text, herror⟩ := toPath?_eq_error hcwd hstray
    rw [h] at herror
    exact ⟨hstray, text, Except.error.inj herror⟩

theorem Argument.normal_of_meant? (hcwd : ∀ dir, cwd = some dir → dir.Normal platform)
    (hvalue : ∀ p, value = .path p → p.Normal platform) {p : FilePath}
    (h : value.meant? platform cwd = some p) : p.Normal platform := by
  have hnone := mt (meant?_eq_none_iff hcwd hvalue).mpr (by rw [h]; nofun)
  rw [not_or] at hnone
  obtain ⟨q, hq, hread⟩ := exists_toPath?_eq_some hcwd hvalue hnone.1 hnone.2
  rw [meant?, hread] at h
  cases h
  exact hq

/-! ## Events -/

namespace FlagEvent

/-- The value of the event is a stray text. -/
def Stray (platform : Platform) (cwd : Option FilePath) (e : FlagEvent) : Prop :=
  ∃ kind value, e.value? kind = some value ∧ value.Stray platform cwd

end FlagEvent

/-- What a flag says of a path is said of its value. -/
theorem FlagKind.Says.eq_of_value? {kind kind' : FlagKind} {v : Argument} {e : FlagEvent}
    (h : kind'.Says value (some e)) (hv : e.value? kind = some v) : v = value := by
  cases h <;> cases kind <;> cases hv <;> rfl

/-- A path among the values of the events was one of the arguments. -/
theorem CommandText.mem_of_value? {waiting : Option FlagKind} {e : FlagEvent} {kind : FlagKind}
    {p : FilePath} (h : CommandText d args events waiting) (he : e ∈ events)
    (hv : e.value? kind = some (.path p)) : .path p ∈ args := by
  induction h with
  | nil => cases he
  | other _ _ ih => exact List.mem_cons_of_mem _ (ih he)
  | attached _ _ hsaid _ ih =>
    rcases List.mem_append.mp he with he | he
    · rw [Option.mem_toList.mp he] at hsaid
      cases hsaid.eq_of_value? hv
    · exact List.mem_cons_of_mem _ (ih he)
  | separate _ hsaid _ ih =>
    rcases List.mem_append.mp he with he | he
    · rw [Option.mem_toList.mp he] at hsaid
      rw [hsaid.eq_of_value? hv]
      simp
    · exact List.mem_cons_of_mem _ (List.mem_cons_of_mem _ (ih he))
  | waiting => cases he

namespace FileConfig

variable {config config' : FileConfig} {e : FlagEvent} {kind : FlagKind} {error : PathError}

/-- An event is refused with its value. -/
theorem apply_eq_error_iff : config.apply platform cwd e = .error error ↔
    ∃ kind value, e.value? kind = some value ∧ value.toPath? platform cwd = .error error := by
  have hadd (s : PathSet) (value : Argument) (f : PathSet → FileConfig) :
      (addPath platform cwd s value).map f = .error error ↔
        value.toPath? platform cwd = .error error := by
    rw [addPath]
    cases value.toPath? platform cwd <;> simp [Except.map]
  constructor
  · intro h
    cases e with
    | define | undefine => cases h
    | forcedInclude value => exact ⟨.forcedInclude, value, rfl, (hadd _ _ _).mp h⟩
    | includeDirectory value => exact ⟨.includeDirectory, value, rfl, (hadd _ _ _).mp h⟩
    | frameworkDirectory value => exact ⟨.frameworkDirectory, value, rfl, (hadd _ _ _).mp h⟩
  · rintro ⟨kind, value, hv, h⟩
    cases e <;> cases kind <;> cases hv <;> exact (hadd _ _ _).mpr h

/-- An event is refused with a stray value, and only then. -/
theorem exists_apply_eq_ok_iff (hcwd : ∀ dir, cwd = some dir → dir.Normal platform)
    (he : ∀ kind p, e.value? kind = some (.path p) → p.Normal platform) :
    (∃ config', config.apply platform cwd e = .ok config') ↔ ¬e.Stray platform cwd := by
  cases happly : config.apply platform cwd e with
  | ok config' =>
    refine iff_of_true ⟨config', rfl⟩ ?_
    rintro ⟨kind, value, hv, hstray⟩
    obtain ⟨text, herror⟩ := Argument.toPath?_eq_error hcwd hstray
    rw [apply_eq_error_iff.mpr ⟨kind, value, hv, herror⟩] at happly
    cases happly
  | error error =>
    refine iff_of_false nofun (not_not.mpr ?_)
    obtain ⟨kind, value, hv, herror⟩ := apply_eq_error_iff.mp happly
    have hvalue : ∀ p, value = .path p → p.Normal platform := fun p hp => he kind p (hp ▸ hv)
    exact ⟨kind, value, hv, (Argument.stray_of_toPath?_eq_error hcwd hvalue herror).1⟩

theorem apply_error (hcwd : ∀ dir, cwd = some dir → dir.Normal platform)
    (he : ∀ kind p, e.value? kind = some (.path p) → p.Normal platform)
    (h : config.apply platform cwd e = .error error) : ∃ text, error = .notAbsolute text := by
  obtain ⟨kind, value, hv, herror⟩ := apply_eq_error_iff.mp h
  have hvalue : ∀ p, value = .path p → p.Normal platform := fun p hp => he kind p (hp ▸ hv)
  exact (Argument.stray_of_toPath?_eq_error hcwd hvalue herror).2

/-! ## Command lines -/

theorem exists_foldlM_apply_eq_ok_iff (hcwd : ∀ dir, cwd = some dir → dir.Normal platform)
    (hevents : ∀ e ∈ events, ∀ kind p, e.value? kind = some (.path p) → p.Normal platform) :
    (∃ config', events.foldlM (apply platform cwd) config = .ok config') ↔
      ∀ e ∈ events, ¬e.Stray platform cwd := by
  induction events generalizing config with
  | nil => exact iff_of_true ⟨config, rfl⟩ nofun
  | cons e events ih =>
    rw [List.forall_mem_cons] at hevents
    rw [List.forall_mem_cons, List.foldlM_cons, ← exists_apply_eq_ok_iff hcwd hevents.1]
    cases config.apply platform cwd e with
    | error => exact iff_of_false nofun nofun
    | ok next => exact (ih hevents.2).trans (and_iff_right ⟨next, rfl⟩).symm

theorem foldlM_apply_error (hcwd : ∀ dir, cwd = some dir → dir.Normal platform)
    (hevents : ∀ e ∈ events, ∀ kind p, e.value? kind = some (.path p) → p.Normal platform)
    (h : events.foldlM (apply platform cwd) config = .error error) :
    ∃ text, error = .notAbsolute text := by
  induction events generalizing config with
  | nil => cases h
  | cons e events ih =>
    rw [List.forall_mem_cons] at hevents
    rw [List.foldlM_cons] at h
    cases hstep : config.apply platform cwd e with
    | error error' =>
      rw [hstep] at h
      cases h
      exact apply_error hcwd hevents.1 hstep
    | ok next =>
      rw [hstep] at h
      exact ih hevents.2 h

/-- Which command lines fail, and what the others add, on every platform and in every directory. A
command line fails if one of its paths is a stray text, and only then, so that it never does away
from Windows. Otherwise the paths of each kind are those that were there and those that the values
mean, in order, and these are in their normal form. A value means nothing if it has no path or is
stray. -/
theorem addArguments_succeeds_iff (hcwd : ∀ dir, cwd = some dir → dir.Normal platform)
    (d : Dialect) (config : FileConfig) (args : List Argument)
    (hargs : ∀ p, .path p ∈ args → p.Normal platform) :
    ((∃ config', config.addArguments platform d cwd args = .ok config') ↔
      ∀ e ∈ FlagEvent.ofArguments d args, ¬e.Stray platform cwd) ∧
    (platform ≠ .windows → ∃ config', config.addArguments platform d cwd args = .ok config') ∧
    (∀ error, config.addArguments platform d cwd args = .error error →
      ∃ text, error = .notAbsolute text) ∧
    (∀ config', config.addArguments platform d cwd args = .ok config' → ∀ kind,
      (config'.pathsOf kind).toList = ((config.pathsOf kind).toList ++
        FlagEvent.meant platform cwd kind (FlagEvent.ofArguments d args)).eraseDupsBy
          FilePath.same) ∧
    (∀ kind, ∀ p ∈ FlagEvent.meant platform cwd kind (FlagEvent.ofArguments d args),
      p.Normal platform) ∧
    ∀ e ∈ FlagEvent.ofArguments d args, ∀ kind value, e.value? kind = some value →
      (value.meant? platform cwd = none ↔
        value.Pathless platform cwd ∨ value.Stray platform cwd) := by
  obtain ⟨waiting, hread⟩ := exists_commandText d args
  have hevents : ∀ e ∈ FlagEvent.ofArguments d args, ∀ kind p,
      e.value? kind = some (.path p) → p.Normal platform :=
    fun e he kind p hv => hargs p (hread.mem_of_value? he hv)
  have hsucceeds : (∃ config', config.addArguments platform d cwd args = .ok config') ↔
      ∀ e ∈ FlagEvent.ofArguments d args, ¬e.Stray platform cwd :=
    exists_foldlM_apply_eq_ok_iff hcwd hevents
  refine ⟨hsucceeds, fun hp => hsucceeds.mpr ?_, fun error => foldlM_apply_error hcwd hevents,
    fun config' h kind => ?_, fun kind p hmem => ?_, fun e he kind value hv => ?_⟩
  · rintro e he ⟨kind, value, hv, hstray⟩
    cases hstray with
    | loneDrive hw => exact hp hw
    | otherDrive hw => exact hp hw
  · rw [pathsOf_foldlM_apply kind h, PathSet.toList_insertMany]
  · obtain ⟨e, he, hmeant⟩ := List.mem_filterMap.mp hmem
    obtain ⟨value, hv, hmeant⟩ := Option.bind_eq_some_iff.mp hmeant
    exact Argument.normal_of_meant? hcwd (fun p hp => hevents e he kind p (hp ▸ hv)) hmeant
  · exact Argument.meant?_eq_none_iff hcwd fun p hp => hevents e he kind p (hp ▸ hv)

/-- The directory `C:\obj`. -/
def objectsOnC : FilePath := .windows ⟨"C:\\obj".toList⟩

theorem normal_objectsOnC : ∀ dir, some objectsOnC = some dir → dir.Normal .windows := by
  rintro _ ⟨⟩
  have hnormal : Windows.normalize "C:\\obj".toList = "C:\\obj".toList := by decide +kernel
  have habs : Windows.isAbsolute "C:\\obj".toList = true := by decide
  exact ⟨rfl, hnormal ▸ Windows.isNormal_normalize habs⟩

/-- A relative path that names the drive of the directory is read there. -/
theorem addArguments_succeeds_iff_sameDrive :
    (∀ e ∈ FlagEvent.ofArguments .clang [.text "-IC:foo", .text "-I/c/inc"],
      ¬e.Stray .windows (some objectsOnC)) ∧
    (addArguments .windows .clang (some objectsOnC) {} [.text "-IC:foo", .text "-I/c/inc"]).map
      (·.includes.texts) = .ok ["C:\\obj\\foo", "C:\\inc"] := by
  have hadd : (addArguments .windows .clang (some objectsOnC) {}
      [.text "-IC:foo", .text "-I/c/inc"]).map (·.includes.texts) =
        .ok ["C:\\obj\\foo", "C:\\inc"] := by
    decide +kernel
  refine ⟨?_, hadd⟩
  obtain ⟨hsucceeds, -⟩ := addArguments_succeeds_iff normal_objectsOnC .clang {}
    [.text "-IC:foo", .text "-I/c/inc"] (by simp)
  refine hsucceeds.mp ?_
  cases hconfig : addArguments .windows .clang (some objectsOnC) {}
      [.text "-IC:foo", .text "-I/c/inc"] with
  | ok config' => exact ⟨config', rfl⟩
  | error =>
    rw [hconfig] at hadd
    cases hadd

/-- A relative path on another drive is not dropped, nor is a lone drive with a line feed behind it:
nothing is added at all. -/
theorem addArguments_otherDrive :
    ∃ dir : FilePath, dir.Normal .windows ∧
      addArguments .windows .clang (some dir) {} [.text "-DA=1", .text "-ID:foo"] =
        .error (.notAbsolute "D:foo") ∧
      addArguments .windows .clang (some dir) {} [.text "-DA=1", .text "-I/d\n"] =
        .error (.notAbsolute "D:\n") :=
  ⟨objectsOnC, normal_objectsOnC _ rfl, by decide +kernel, by decide +kernel⟩

end FileConfig

end BuildLens
