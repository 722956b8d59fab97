import BuildLens.Folder.Basic
import BuildLens.Proofs.Build.Discovery
import BuildLens.Proofs.Path.Windows
import BuildLens.Proofs.Table

/-!
# Looking at a folder

Whatever the files hold and whatever the commands answer, a look at a folder ends: the folder is
then a build tree with both its compilers, or it is none and has nothing to offer.

Main results:

- `Folder.probe_ends`: what is known of a folder after a look at it in any world, and that a further
  look adds nothing.
-/

namespace BuildLens

/-! ## Worlds -/

namespace World

theorem files_answerer (q : Request) (w : World) : ((answerer q).run w).2.files = w.files := by
  cases q with
  | run args cwd environment =>
    change ((World.run args cwd environment).run w).2.files = w.files
    rw [World.run.eq_def]
    split <;> rfl
  | isFile path => rfl
  | mtime path => rfl
  | read path => rfl
  | realPath path => rfl

/-- What a world with the same files may reply. -/
abbrev replies (w : World) : Replies :=
  Inquiry.repliesOf answerer fun w' => w'.files = w.files

theorem replies_isFile {w : World} {path : FilePath} {there : Bool} :
    w.replies (.isFile path) there ↔ w.files.isFile path.text.toList = there := by
  constructor
  · rintro ⟨w', hfiles, rfl⟩
    rw [← hfiles]
    rfl
  · rintro rfl
    exact ⟨w, rfl, rfl⟩

end World

/-! ## A folder without the tool -/

/-- Where the tool is no file, a look at a folder asks for nothing else. -/
theorem Build.discoverWith_of_isFile_eq_false {s : Surroundings} {root mach : FilePath}
    {settings : FolderSettings} {w : World}
    {assemble : SourceTree → Except Failure Compiler → Except Failure Compiler →
      Except Failure Build}
    (hmach : root.join [Mach.fileName] = .ok mach)
    (hfile : w.files.isFile mach.text.toList = false) :
    (discoverWith World.answerer s root settings assemble).run w = (.ok none, w) := by
  have hsurvey : ((SourceTree.survey s root settings).conduct World.answerer {}).run w =
      ((.ok none, {}), w) := by
    rw [SourceTree.survey, Mach.find_eq hmach]
    change (Inquiry.conduct World.answerer (Inquiry.bind (.answer
      (if w.files.isFile mach.text.toList then _ else none)) _) {}).run w = _
    rw [hfile]
    rfl
  rw [discoverWith, StateT.run_bind, hsurvey]
  rfl

/-! ## What is known after a look -/

namespace Folder

variable {s : Surroundings} {settings : Settings} {source : EditorFolder} {root : FilePath}
  {assemble : SourceTree → Except Failure Compiler → Except Failure Compiler →
    Except Failure Build}

/-- The path of a folder is absolute. -/
theorem absolute_of_path (hroot : source.path s.platform = .ok root) : root.Absolute := by
  obtain ⟨t, ht⟩ := FilePath.exists_ofText_of_ofUri hroot
  exact FilePath.absolute_of_ofText ht

/-- The tool of a folder has a path. -/
theorem exists_mach (hroot : source.path s.platform = .ok root) :
    ∃ mach, root.join [Mach.fileName] = .ok mach := by
  have hname : ∀ name ∈ [Mach.fileName], Windows.PlainName name.toList := by decide
  obtain ⟨mach, hmach, -⟩ := (absolute_of_path hroot).exists_join_eq_ok hname
  exact ⟨mach, hmach⟩

theorem run_probeWith_of_unprobed {f : Folder} (hf : f.phase = .unprobed) (ms : Messages)
    {w w' : World} {o : Except Failure (Option Build)}
    (hlook : (Build.discoverWith World.answerer s f.root f.settings assemble).run w = (o, w')) :
    (f.probeWith World.answerer s ms assemble).run w = ((f.conclude o, f.report o ms), w') := by
  rw [probeWith.eq_def, hf]
  dsimp only
  rw [StateT.run_bind, hlook]
  rfl

theorem probeWith_of_probed {m : Type → Type} [Monad m] {answerer : Answerer m} {f : Folder}
    (hf : f.phase ≠ .unprobed) (ms : Messages) :
    f.probeWith answerer s ms assemble = pure (f, ms) := by
  rw [probeWith.eq_def]
  split
  · next h => exact absurd h hf
  · rfl

/-- A look at a folder ends in any world, with a build tree or without one. A build tree has a
compiler for each language, with macros, and there is no failure. Any other folder has nothing to
offer, and there is no failure if and only if the tool is no file, in which case nothing was run. A
further look in any world changes nothing and asks for nothing. -/
theorem probe_ends (hroot : source.path s.platform = .ok root) (generation : Nat)
    (ha : assemble = Build.ofCompilers ∨ assemble = Build.ofProcesses) (ms : Messages)
    (w : World) :
    ∃ mach f ms' w',
      root.join [Mach.fileName] = .ok mach ∧
      ((take s.platform settings source root generation).probeWith World.answerer s ms
        assemble).run w = ((f, ms'), w') ∧
      (match f.phase with
        | .recognized b => f.build? = some b ∧ f.error? = none ∧
            ∀ l, (b.compiler l).language = l ∧ 0 < (b.compiler l).defaults.macros.size
        | .notBuildTree error => f.build? = none ∧ f.error? = error ∧
            (∀ classifier file, f.configure s classifier file = return none) ∧
            (∀ classifier file, f.testCompile s classifier file = return none) ∧
            f.searchPaths = ∅ ∧
            (error = none ↔ w.files.isFile mach.text.toList = false) ∧
            (error = none → w' = w)
        | .unprobed | .probing => False) ∧
      ∀ ms₂ w₂, (f.probeWith World.answerer s ms₂ assemble).run w₂ = ((f, ms₂), w₂) := by
  obtain ⟨mach, hmach⟩ := exists_mach hroot
  have hkeeps : ∀ q w', w'.files = w.files → ((World.answerer q).run w').2.files = w.files :=
    fun q w' h => (World.files_answerer q w').trans h
  let own := settings.forFolder s.platform root
  have hfinding : Build.Finding w.replies s root own
      ((Build.discoverWith World.answerer s root own assemble).run w).1 :=
    Build.finding_discoverWith ha hkeeps rfl
  have hnothing : w.files.isFile mach.text.toList = false →
      (Build.discoverWith World.answerer s root own assemble).run w = (.ok none, w) :=
    Build.discoverWith_of_isFile_eq_false hmach
  generalize hlook : (Build.discoverWith World.answerer s root own assemble).run w = look
    at hfinding hnothing
  obtain ⟨o, w'⟩ := look
  have hfile := hfinding.eq_none hmach
  simp only [World.replies_isFile] at hfile
  refine ⟨mach, (take s.platform settings source root generation).conclude o,
    (take s.platform settings source root generation).report o ms, w', hmach,
    run_probeWith_of_unprobed rfl ms hlook, ?_, ?_⟩
  · rcases o with e | _ | b
    · have hthere : ¬ w.files.isFile mach.text.toList = false := by
        simpa using hfile
      exact ⟨rfl, rfl, fun _ _ => rfl, fun _ _ => rfl, rfl, iff_of_false nofun hthere, nofun⟩
    · have habsent : w.files.isFile mach.text.toList = false := by
        simpa using hfile
      cases hnothing habsent
      exact ⟨rfl, rfl, fun _ _ => rfl, fun _ _ => rfl, rfl, iff_of_true rfl habsent, fun _ => rfl⟩
    · refine ⟨rfl, rfl, fun l => ⟨(hfinding.compiler_eq l).1, ?_⟩⟩
      exact Table.size_pos_iff.mpr (hfinding.compiler_eq l).2
  · intro ms₂ w₂
    rw [probeWith_of_probed]
    · rfl
    · rcases o with e | _ | b <;> nofun

/-- A world that holds a tool, and in which no command can be started. -/
def deniedWorld : World where
  files := (FileTree.empty []).put ["r".toList, "mach".toList] (.file { content := [] })
  script := [{ answer := .fault .permission }]

/-- A world in which the tree `/r` has been built in `/o`. -/
def builtWorld : World where
  files := ((FileTree.empty []).put ["r".toList, "mach".toList] (.file { content := [] })).put
    ["o".toList, "config".toList, "autoconf.mk".toList]
    (.file { content := "_CC=cc\n_CXX=cc\nCC_TYPE=gcc\n".toUTF8.toList })
  script := [
    { having := ["environment"]
      answer := .output "\x7b\"topobjdir\": \"/o\", \"topsrcdir\": \"/r\"\x7d" "" 0 },
    { answer := .output "#define A 1\n" "" 0 }]

/-- The answers of worlds, where those about two files of `builtWorld` need no walk in its tree. -/
def builtAnswerer : Answerer (StateM World)
  | .isFile path => fun w =>
    (if w.files = builtWorld.files ∧ path.text = "/r/mach" then true
      else w.files.isFile path.text.toList, w)
  | .read path => fun w =>
    (if w.files = builtWorld.files ∧ path.text = "/o/config/autoconf.mk" then
      .ok "_CC=cc\n_CXX=cc\nCC_TYPE=gcc\n".toUTF8.toList
      else w.files.readBytes path.text.toList, w)
  | q => World.answerer q

theorem builtAnswerer_eq : builtAnswerer = World.answerer := by
  have hmach : builtWorld.files.isFile "/r/mach".toList = true := by cbv
  have hfragment : builtWorld.files.readBytes "/o/config/autoconf.mk".toList =
      .ok "_CC=cc\n_CXX=cc\nCC_TYPE=gcc\n".toUTF8.toList := by cbv
  funext q
  cases q with
  | isFile path =>
    funext w
    dsimp only [builtAnswerer]
    split
    · next h =>
      rw [← hmach, ← h.1, ← h.2]
      rfl
    · rfl
  | read path =>
    funext w
    dsimp only [builtAnswerer]
    split
    · next h =>
      rw [← hfragment, ← h.1, ← h.2]
      rfl
    · rfl
  | _ => rfl

/-- Where the tree has been built, the tool and the two compilers are asked once each, and both
compilers have a macro. Where no command can be started, the tool is asked once, and the folder
counts as none. -/
theorem probe_ends_worlds :
    ∃ root, EditorFolder.path .linux { uri := "/r" } = .ok root ∧
      (∃ f b ms' w',
        ((take .linux {} { uri := "/r" } root).probeWith World.answerer {} {}).run builtWorld =
          ((f, ms'), w') ∧
        f.phase = .recognized b ∧ w'.launches.length = 3 ∧ f.error? = none ∧
        ∀ l, (b.compiler l).language = l ∧ 0 < (b.compiler l).defaults.macros.size) ∧
      ∃ f ms' w',
        ((take .linux {} { uri := "/r" } root).probeWith World.answerer {} {}).run deniedWorld =
          ((f, ms'), w') ∧
        f.error?.isSome ∧ w'.launches.length = 1 ∧ f.searchPaths = ∅ ∧
        (f.probeWith World.answerer {} ms').run w' = ((f, ms'), w') := by
  have hroot : EditorFolder.path .linux { uri := "/r" } =
      .ok (.posix ⟨.single, [⟨"r".toList, by decide⟩]⟩) := rfl
  refine ⟨_, hroot, ?_, ?_⟩
  · obtain ⟨mach, f, ms', w', -, hrun, hphase, -⟩ :=
      @probe_ends {} {} _ _ _ hroot 0 (.inl rfl) {} builtWorld
    have hresult := hrun
    rw [← builtAnswerer_eq] at hresult
    have hbuilt : f.build?.isSome = true := by
      rw [← congrArg (·.1.1.build?.isSome) hresult]
      decide +kernel
    have hlaunches : w'.launches.length = 3 := by
      rw [← congrArg (·.2.launches.length) hresult]
      decide +kernel
    split at hphase
    · next b hb => exact ⟨f, b, ms', w', hrun, hb, hlaunches, hphase.2.1, hphase.2.2⟩
    · next h =>
      rw [hphase.1] at hbuilt
      cases hbuilt
    · exact hphase.elim
    · exact hphase.elim
  · obtain ⟨mach, f, ms', w', -, hrun, hphase, hagain⟩ :=
      @probe_ends {} {} _ _ _ hroot 0 (.inl rfl) {} deniedWorld
    have herror : f.error?.isSome := by
      rw [← congrArg (·.1.1.error?.isSome) hrun]
      cbv
    have hlaunches : w'.launches.length = 1 := by
      rw [← congrArg (·.2.launches.length) hrun]
      cbv
    refine ⟨f, ms', w', hrun, herror, hlaunches, ?_, hagain ms' w'⟩
    split at hphase
    · next h => rw [hphase.2.1] at herror; cases herror
    · exact hphase.2.2.2.2.1
    · exact hphase.elim
    · exact hphase.elim

end Folder

end BuildLens
