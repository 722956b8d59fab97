import BuildLens.CommandLine.Root
import BuildLens.Proofs.Path.Parent
import BuildLens.Proofs.System.FileTree

/-!
# The search for the root of a tree

The root of the tree that holds a file is searched for from the inside out. Going up ends at a root,
and so the search ends. It finds the innermost directory at or above the file that holds the build
tool.

Main definitions:

- `FileSystem`: what the search asks of a file system.
- `FileSystem.Search`: the search step by step, without a bound on its steps.
- `FileSystem.Candidate`: the places at which the tool may be found.

Main results:

- `FilePath.upward_eq`: the directories that are gone through.
- `FileTree.fileSystem`: every file tree answers what the search asks.
- `FileSystem.findRoot_innermost`: the search ends with the innermost candidate that holds the tool.
-/

namespace BuildLens

/-! ## The directories that are gone through -/

namespace FilePath

variable {platform : Platform} {p q : FilePath}

/-- More fuel than the text has characters is not used up. -/
theorem upwardFrom_eq {fuel fuel' : Nat} (hp : p.Normal platform) (h : p.text.length ≤ fuel)
    (h' : p.text.length ≤ fuel') : upwardFrom fuel p = upwardFrom fuel' p := by
  induction fuel generalizing p fuel' with
  | zero =>
    have htop : p.parent = p := (parent_eq_or_length_lt hp).resolve_right (by omega)
    cases fuel' with
    | zero => rfl
    | succ fuel' => rw [upwardFrom, upwardFrom, if_pos ((same_parent_iff hp).mpr htop)]
  | succ fuel ih =>
    rcases parent_eq_or_length_lt hp with htop | hlt
    · have hsame := (same_parent_iff hp).mpr htop
      cases fuel' with
      | zero => rw [upwardFrom, upwardFrom, if_pos hsame]
      | succ fuel' => rw [upwardFrom, upwardFrom, if_pos hsame, if_pos hsame]
    · cases fuel' with
      | zero => omega
      | succ fuel' =>
        have hmore : upwardFrom fuel p.parent = upwardFrom fuel' p.parent :=
          ih hp.parent (by omega) (by omega)
        rw [upwardFrom, upwardFrom, hmore]

/-- The directories at and above a path are the path and those at and above its parent, unless it is
its own parent. -/
theorem upward_eq (hp : p.Normal platform) :
    p.upward = if p.parent = p then [p] else p :: p.parent.upward := by
  have hsame := same_parent_iff hp
  have hmore : p.upward = upwardFrom (p.text.length + 1) p :=
    upwardFrom_eq hp (Nat.le_refl _) (Nat.le_succ _)
  rw [hmore, upwardFrom]
  split
  · next h => rw [if_pos (hsame.mp h)]
  · next h =>
    have hne := mt hsame.mpr h
    have hlt := (parent_eq_or_length_lt hp).resolve_left hne
    rw [if_neg hne, upward, upwardFrom_eq hp.parent hlt.le (Nat.le_refl _)]

/-- What is proved of a path from what holds of its parent holds of every path. -/
theorem Normal.induction_on_parent {motive : FilePath → Prop} (hp : p.Normal platform)
    (step : ∀ p : FilePath, p.Normal platform → (p.parent ≠ p → motive p.parent) → motive p) :
    motive p := by
  induction hn : p.text.length using Nat.strong_induction_on generalizing p with
  | _ n ih =>
    refine step p hp fun hne => ?_
    have hlt := (parent_eq_or_length_lt hp).resolve_left hne
    exact ih _ (hn ▸ hlt) hp.parent rfl

end FilePath

/-! ## What is asked of a file system -/

/-- A file system, by what the search asks of it, links being followed. Only directories hold the
build tool. -/
structure FileSystem where
  isDirectory : FilePath → Bool
  isFile : FilePath → Bool
  isDirectory_of_isFile : ∀ {dir tool}, dir.join [Mach.fileName] = .ok tool → isFile tool = true →
    isDirectory dir = true

namespace FileSystem

variable {platform : Platform} {fs : FileSystem} {path cwd dir : FilePath}

/-- The directory holds the build tool. -/
def HoldsTool (fs : FileSystem) (dir : FilePath) : Prop :=
  ∃ tool, dir.join [Mach.fileName] = .ok tool ∧ fs.isFile tool = true

/-- The places at which the tool may be found: the path, if it is a directory, and the directories
above it. -/
def Candidate (fs : FileSystem) (path dir : FilePath) : Prop :=
  dir = path ∧ fs.isDirectory path = true ∨ Relation.TransGen FilePath.Climbs path dir

/-- The search from a directory on, which ends with a directory that holds the tool or else with the
current one. It may take any number of steps. -/
inductive Search (fs : FileSystem) (cwd : FilePath) : (here root : FilePath) → Prop
  | found {here : FilePath} (h : fs.HoldsTool here) : fs.Search cwd here here
  | top {here : FilePath} (h : ¬fs.HoldsTool here) (htop : here.parent.same here = true) :
      fs.Search cwd here cwd
  | up {here root : FilePath} (h : ¬fs.HoldsTool here) (hup : here.parent.same here = false)
      (hmore : fs.Search cwd here.parent root) : fs.Search cwd here root

/-- A candidate that holds the tool, with no other one below it. -/
structure Innermost (fs : FileSystem) (path root : FilePath) : Prop where
  candidate : fs.Candidate path root
  holdsTool : fs.HoldsTool root
  least : ∀ dir, fs.Candidate path dir → fs.HoldsTool dir →
    Relation.ReflTransGen FilePath.Climbs root dir

/-! ## The search -/

variable {m : Type → Type} [Monad m] [LawfulMonad m] {here root : FilePath} {rest : List FilePath}

theorem firstRoot_of_holdsTool (h : fs.HoldsTool here) (rest : List FilePath) :
    firstRoot (m := m) (fun p => pure (fs.isFile p)) (here :: rest) = pure (some here) := by
  obtain ⟨tool, htool, hfile⟩ := h
  rw [firstRoot, htool]
  simp [hfile]

theorem firstRoot_of_not_holdsTool (h : ¬fs.HoldsTool here) (rest : List FilePath) :
    firstRoot (m := m) (fun p => pure (fs.isFile p)) (here :: rest) =
      firstRoot (fun p => pure (fs.isFile p)) rest := by
  rw [firstRoot]
  cases htool : here.join [Mach.fileName] with
  | error e => rfl
  | ok tool =>
    have hfile : fs.isFile tool = false := by
      rw [← Bool.not_eq_true]
      exact fun hfile => h ⟨tool, htool, hfile⟩
    simp [hfile]

/-- From every directory the search ends, as it does with a bound on its steps. -/
theorem exists_search (fs : FileSystem) (cwd : FilePath) (hhere : here.Normal platform) :
    ∃ root, fs.Search cwd here root ∧
      (fun root? : Option FilePath => root?.getD cwd) <$>
        firstRoot (m := m) (fun p => pure (fs.isFile p)) here.upward = pure root := by
  refine hhere.induction_on_parent (motive := fun here => ∃ root, fs.Search cwd here root ∧
    (fun root? : Option FilePath => root?.getD cwd) <$>
      firstRoot (m := m) (fun p => pure (fs.isFile p)) here.upward = pure root) ?_
  intro here hhere ih
  by_cases h : fs.HoldsTool here
  · refine ⟨here, .found h, ?_⟩
    rw [FilePath.upward_eq hhere]
    split <;> rw [firstRoot_of_holdsTool h, map_pure, Option.getD_some]
  · have hsame := FilePath.same_parent_iff hhere
    by_cases htop : here.parent = here
    · refine ⟨cwd, .top h (hsame.mpr htop), ?_⟩
      rw [FilePath.upward_eq hhere, if_pos htop, firstRoot_of_not_holdsTool h, firstRoot, map_pure,
        Option.getD_none]
    · obtain ⟨root, hsearch, hroot⟩ := ih htop
      refine ⟨root, .up h (Bool.eq_false_iff.mpr (mt hsame.mp htop)) hsearch, ?_⟩
      rw [FilePath.upward_eq hhere, if_neg htop, firstRoot_of_not_holdsTool h, hroot]

/-- What the search finds is at or above the directory in which it begins, and nothing that is
passed by holds the tool. -/
theorem Search.sound (h : fs.Search cwd here root) (hhere : here.Normal platform) :
    Relation.ReflTransGen FilePath.Climbs here root ∧ fs.HoldsTool root ∧
        (∀ dir, Relation.ReflTransGen FilePath.Climbs here dir → fs.HoldsTool dir →
          Relation.ReflTransGen FilePath.Climbs root dir) ∨
      root = cwd ∧ ∀ dir, Relation.ReflTransGen FilePath.Climbs here dir → ¬fs.HoldsTool dir := by
  induction h with
  | found h => exact .inl ⟨.refl, h, fun dir hdir _ => hdir⟩
  | @top here h htop =>
    refine .inr ⟨rfl, fun dir hdir => ?_⟩
    rw [FilePath.same_parent_iff hhere] at htop
    rcases Relation.reflTransGen_iff_eq_or_transGen.mp hdir with rfl | hdir
    · exact h
    · exact absurd hdir (FilePath.not_transGen_climbs htop)
  | @up here root h hup hmore ih =>
    have hne : here.parent ≠ here := by
      rw [← Bool.not_eq_true, FilePath.same_parent_iff hhere] at hup
      exact hup
    -- Apart from the directory itself, what is at or above it is at or above its parent.
    have hdir {dir : FilePath} (hdir : Relation.ReflTransGen FilePath.Climbs here dir)
        (htool : fs.HoldsTool dir) : Relation.ReflTransGen FilePath.Climbs here.parent dir := by
      rcases Relation.reflTransGen_iff_eq_or_transGen.mp hdir with rfl | hdir
      · exact absurd htool h
      · exact (FilePath.transGen_climbs_iff hne).mp hdir
    rcases ih hhere.parent with ⟨hroot, htool, hleast⟩ | ⟨hroot, hnone⟩
    · exact .inl ⟨.head ⟨rfl, hne⟩ hroot, htool, fun dir h h' => hleast dir (hdir h h') h'⟩
    · exact .inr ⟨hroot, fun dir h h' => hnone dir (hdir h h') h'⟩

/-- The directory in which the search begins is the first candidate, and there is none if it is a
root that is no directory. -/
theorem candidate_iff (fs : FileSystem) (path dir : FilePath) (htool : fs.HoldsTool dir) :
    fs.Candidate path dir ↔ Relation.ReflTransGen FilePath.Climbs
      (if fs.isDirectory path then path else path.parent) dir := by
  rw [Candidate]
  split
  · next hdir => rw [Relation.reflTransGen_iff_eq_or_transGen, and_iff_left hdir]
  · next hdir =>
    have hpath : dir ≠ path := by
      rintro rfl
      obtain ⟨tool, hjoin, hfile⟩ := htool
      exact hdir (fs.isDirectory_of_isFile hjoin hfile)
    rw [or_iff_right fun h => hpath h.1]
    by_cases htop : path.parent = path
    · rw [htop, Relation.reflTransGen_iff_eq_or_transGen, or_iff_right hpath]
    · exact FilePath.transGen_climbs_iff htop

/-- The search for a root ends for every path. It finds the innermost directory that holds the tool,
among the path, if that is a directory, and those above it, or else the current directory. Above a
path of a POSIX system are the directories that it lies below, and above one on a drive those to
which beginnings of its names lead. -/
theorem findRoot_innermost (m : Type → Type) [Monad m] [LawfulMonad m] {platform : Platform}
    {path : FilePath} (hpath : path.Normal platform) (fs : FileSystem) (cwd : FilePath) :
    (∃ root, findRoot (m := m) (fun p => pure (fs.isDirectory p)) (fun p => pure (fs.isFile p))
          cwd path = pure root ∧
        fs.Search cwd (if fs.isDirectory path then path else path.parent) root ∧
        (fs.Innermost path root ∨
          root = cwd ∧ ∀ dir, fs.Candidate path dir → ¬fs.HoldsTool dir)) ∧
      (∀ p, path = .posix p → ∀ dir, Relation.TransGen FilePath.Climbs path dir ↔
        ∃ base, path.isUnder (.posix base) = true ∧ base ≠ p ∧ dir = .posix base) ∧
      ∀ d names, path = .windows (.ofNames d names) → Windows.isSeparator d = false →
        Windows.Settled true names → ∀ dir, Relation.TransGen FilePath.Climbs path dir ↔
          ∃ front, front <+: names ∧ front ≠ names ∧ dir = .windows (.ofNames d front) := by
  refine ⟨?_, ?_, ?_⟩
  · have hstart : (if fs.isDirectory path then path else path.parent).Normal platform := by
      split
      · exact hpath
      · exact hpath.parent
    obtain ⟨root, hsearch, hroot⟩ := fs.exists_search (m := m) cwd hstart
    refine ⟨root, ?_, hsearch, ?_⟩
    · rw [findRoot]
      simpa using hroot
    · rcases hsearch.sound hstart with ⟨hmore, htool, hleast⟩ | ⟨hroot, hnone⟩
      · exact .inl ⟨(fs.candidate_iff path root htool).mpr hmore, htool,
          fun dir hdir h => hleast dir ((fs.candidate_iff path dir h).mp hdir) h⟩
      · exact .inr ⟨hroot, fun dir hdir h => hnone dir ((fs.candidate_iff path dir h).mp hdir) h⟩
  · rintro p rfl dir
    exact FilePath.climbs_posix_iff
  · rintro d names rfl hd hnames dir
    exact FilePath.climbs_letter_iff hd hnames

end FileSystem

/-! ## File trees -/

/-- The name of the build tool. -/
def Mach.name : Posix.Name := ⟨fileName.toList, by decide⟩

theorem FilePath.join_posix_fileName (p : Posix.Path) :
    (posix p).join [Mach.fileName] = .ok (.posix (p.below [Mach.name])) :=
  congrArg (fun p => Except.ok (posix p)) (p.join_names [Mach.name])

namespace FileTree

variable {t : FileTree}

/-- The names of a path are those along which it is looked up. -/
theorem namesOf_chars (t : FileTree) (p : Posix.Path) :
    t.namesOf p.chars = p.names.map Posix.Name.chars := by
  have hkeep : ∀ n ∈ p.names.map Posix.Name.chars, decide (n ≠ [] ∧ n ≠ ['.']) = true := by
    intro n hn
    obtain ⟨name, -, rfl⟩ := List.mem_map.mp hn
    exact decide_eq_true ⟨name.isName.1, name.isName.2.1⟩
  have hnames : Place.ofChars (['/'].intercalate (p.names.map Posix.Name.chars)) =
      p.names.map Posix.Name.chars := by
    rw [Place.ofChars]
    by_cases hne : p.names = []
    · rw [hne]
      rfl
    · rw [Text.splitAt_intercalate (by simpa using hne), List.filter_eq_self.mpr hkeep]
      intro n hn
      obtain ⟨name, -, rfl⟩ := List.mem_map.mp hn
      exact name.isName.2.2.2
  have hslash (cs : List Char) : Place.ofChars ('/' :: cs) = Place.ofChars cs := by
    rw [Place.ofChars, Text.splitAt, if_pos rfl, List.filter_cons_of_neg (by simp), ← Place.ofChars]
  rw [namesOf, Posix.Path.chars]
  cases p.root with
  | single => exact (if_pos rfl).trans ((hslash _).trans hnames)
  | double => exact (if_pos rfl).trans ((hslash _).trans ((hslash _).trans hnames))

theorem resolve_chars (t : FileTree) (p : Posix.Path) :
    t.resolve p.chars true = t.walk true maxLinks [] (p.names.map Posix.Name.chars) := by
  have hne : p.chars ≠ [] := by
    rw [Posix.Path.chars]
    cases p.root <;> exact List.cons_ne_nil _ _
  rw [resolve, if_neg hne, namesOf_chars]

theorem isFile_chars_iff {p : Posix.Path} : t.isFile p.chars = true ↔
    ∃ place f, t.walk true maxLinks [] (p.names.map Posix.Name.chars) = .ok place ∧
      t.at? place = some (.file f) := by
  rw [isFile, find, resolve_chars]
  cases t.walk true maxLinks [] (p.names.map Posix.Name.chars) with
  | error e => simp [bind, Except.bind]
  | ok place =>
    cases hentry : t.at? place with
    | none => simp [bind, Except.bind, hentry]
    | some e => cases e <;> simp [bind, Except.bind, hentry]

/-- A regular file lies in a directory. -/
theorem isDirectory_of_isFile {p : Posix.Path} {name : Posix.Name}
    (h : t.isFile (p.below [name]).chars = true) : t.isDirectory p.chars = true := by
  obtain ⟨place, f, hwalk, -⟩ := isFile_chars_iff.mp h
  rw [Posix.Path.below, List.map_append] at hwalk
  obtain ⟨there, hthere, hdir⟩ := exists_walk_of_concat hwalk
  simp [isDirectory, find, resolve_chars, hthere, hdir, bind, Except.bind]

/-- What a file tree answers to a search. Its paths are those of POSIX systems. -/
def fileSystem (t : FileTree) : FileSystem where
  isDirectory
    | .posix p => t.isDirectory p.chars
    | .windows _ => false
  isFile
    | .posix p => t.isFile p.chars
    | .windows _ => false
  isDirectory_of_isFile := by
    intro dir tool hjoin hfile
    cases dir with
    | posix p =>
      rw [FilePath.join_posix_fileName] at hjoin
      cases hjoin
      exact isDirectory_of_isFile hfile
    | windows p =>
      cases tool with
      | posix q => rw [FilePath.join] at hjoin; split at hjoin <;> cases hjoin
      | windows q => cases hfile

theorem holdsTool_fileSystem_iff {p : Posix.Path} : t.fileSystem.HoldsTool (.posix p) ↔
    ∃ place f, t.walk true maxLinks [] (p.names.map Posix.Name.chars ++ [Mach.name.chars]) =
      .ok place ∧ t.at? place = some (.file f) := by
  have hnames : p.names.map Posix.Name.chars ++ [Mach.name.chars] =
      (p.below [Mach.name]).names.map Posix.Name.chars := by
    rw [Posix.Path.below, List.map_append]
    rfl
  rw [hnames, ← isFile_chars_iff, FileSystem.HoldsTool, FilePath.join_posix_fileName]
  constructor
  · rintro ⟨tool, ⟨⟩, hfile⟩
    exact hfile
  · intro hfile
    exact ⟨_, rfl, hfile⟩

/-- A tree whose only file is a build tool at the root. -/
def toolAtRoot : FileTree :=
  (FileTree.empty []).put [Mach.name.chars] (.file { content := [] })

/-- A path below the root of two slashes. The tree has nothing of it but that root. -/
def missingFile : Posix.Path :=
  ⟨.double, [⟨"no".toList, by decide⟩, ⟨"file".toList, by decide⟩]⟩

/-- For a file that is missing in a directory that is missing too, the root of two slashes is
found. -/
theorem findRoot_innermost_missing :
    findRoot (m := Id) (fun p => pure (toolAtRoot.fileSystem.isDirectory p))
      (fun p => pure (toolAtRoot.fileSystem.isFile p)) (.posix ⟨.single, []⟩)
      (.posix missingFile) = .posix ⟨.double, []⟩ := by
  have hnormal : (FilePath.posix missingFile).Normal .linux := (by decide : Platform.linux ≠ _)
  obtain ⟨⟨root, hroot, -, hfound⟩, habove, -⟩ :=
    FileSystem.findRoot_innermost Id hnormal toolAtRoot.fileSystem (.posix ⟨.single, []⟩)
  have hentry : toolAtRoot.at? ([] ++ [Mach.name.chars]) = some (.file { content := [] }) := by
    decide
  have hholds : toolAtRoot.fileSystem.HoldsTool (.posix ⟨.double, []⟩) :=
    holdsTool_fileSystem_iff.mpr ⟨_, _,
      walk_eq_iff.mpr ⟨_, .single (.down rfl (by decide) hentry nofun), .arrived⟩, hentry⟩
  have hmissing (names : List Posix.Name) (base : Posix.Path)
      (h : base.names = ⟨"no".toList, by decide⟩ :: names) :
      ¬toolAtRoot.fileSystem.HoldsTool (.posix base) := by
    rw [holdsTool_fileSystem_iff, h]
    rintro ⟨place, f, hwalk, -⟩
    have hnone : toolAtRoot.walk true maxLinks []
        ("no".toList :: (names.map Posix.Name.chars ++ [Mach.name.chars])) = .error .noEntry :=
      walk_eq_iff.mpr ⟨_, .refl, .missing rfl (by decide) (by decide)⟩
    rw [List.map_cons, List.cons_append, hnone] at hwalk
    cases hwalk
  have hbelow : (FilePath.posix missingFile).isUnder (.posix ⟨.double, []⟩) = true := by decide
  rcases hfound with hfound | ⟨-, hnone⟩
  · obtain ⟨base, hunder, rfl⟩ : ∃ base,
        (FilePath.posix missingFile).isUnder (.posix base) = true ∧ root = .posix base := by
      rcases hfound.candidate with ⟨rfl, -⟩ | hmore
      · exact ⟨missingFile, FilePath.isUnder_refl _, rfl⟩
      · obtain ⟨base, hunder, -, hbase⟩ := (habove missingFile rfl root).mp hmore
        exact ⟨base, hunder, hbase⟩
    obtain ⟨hdouble, hnames⟩ := FilePath.isUnder_posix.mp hunder
    obtain ⟨start, names⟩ := base
    cases names with
    | nil =>
      obtain rfl : Posix.Root.double = start := hdouble
      exact hroot
    | cons n names =>
      obtain rfl := (List.cons_prefix_cons.mp hnames).1
      exact absurd hfound.holdsTool (hmissing names _ rfl)
  · refine absurd hholds (hnone _ (.inr ?_))
    exact (habove missingFile rfl _).mpr ⟨_, hbelow, by decide, rfl⟩

end FileTree

end BuildLens
