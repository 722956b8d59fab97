import BuildLens.Folder.Basic
import BuildLens.Proofs.Build.Tidiness
import BuildLens.Proofs.Inquiry.Answered
import BuildLens.Proofs.Path.Posix
import BuildLens.Proofs.Path.Windows

/-!
# The make fragment that configures a file

A file of a build tree is configured by the make fragment of its object directory. That directory
stands below the object directory of the build as the directory of the file stands below the source
directory that the build tool told. The tool may spell the source directory in another way than the
editor spells the folder, as long as both lead to the same place, and files come in the spelling of
the editor. So the files of a folder are configured where both spellings agree, and where they do
not a file of the folder is configured only if it happens to lie below the other spelling too.

Main definitions:

- `FragmentCache.Agrees`: what is kept is what the files hold.
- `fragmentAt`: what a make fragment says.
- `Build.BuiltIn`: the object directory of a file's directory.
- `Build.configurationOf`: the configuration that a fragment gives a file.

Main results:

- `fetchFragment_answered`: fragments that are kept make no difference.
- `Folder.configure_below_sourceDirectory`: which files of a folder are configured, and by which
  fragment.
- `Folder.configure_otherSpelling`: a folder that counts as a build tree and whose files are not
  configured.
-/

namespace BuildLens

variable {R : Replies} {s : Surroundings} {reply : (q : Request) → q.Reply} {cache : FragmentCache}

/-! ## Make fragments -/

/-- What the make fragment at a path says, if there is one. -/
def fragmentAt (reply : (q : Request) → q.Reply) (path : FilePath) :
    Except Failure (Option Variables) :=
  match reply (.mtime path) with
  | .error .noEntry => .ok none
  | .error errno => .error (.system ⟨errno, path.text⟩)
  | .ok _ =>
    match reply (.read path) with
    | .ok bytes => .ok (some (Variables.read ∅ (Text.ofBytes bytes)))
    | .error errno => .error (.system ⟨errno, path.text⟩)

/-- Whether a fragment that is kept with the time at which its file was changed last says what the
file says. -/
def FragmentCache.Agrees (cache : FragmentCache) (reply : (q : Request) → q.Reply) : Prop :=
  ∀ path kept, cache.find? path = some kept → reply (.mtime path) = .ok kept.mtime →
    fragmentAt reply path = .ok (some kept.values)

/-- A fragment that can be read says what is in its text. -/
theorem readFragment_answered_ok {path : FilePath} {bytes : List UInt8}
    (h : reply (.read path) = .ok bytes) :
    (readFragment path).answered reply cache =
      (.ok (.ok (Variables.read ∅ (Text.ofBytes bytes))), cache) := by
  rw [readFragment, Inquiry.answered_bind_ok (Inquiry.answered_request _), h]
  rfl

/-- A fragment that cannot be read leaves the error of the system. -/
theorem readFragment_answered_error {path : FilePath} {errno : Errno}
    (h : reply (.read path) = .error errno) :
    (readFragment path).answered reply cache = (.ok (.error ⟨errno, path.text⟩), cache) := by
  rw [readFragment, Inquiry.answered_bind_ok (Inquiry.answered_request _), h]
  rfl

/-- Fragments that are kept make no difference. -/
theorem fetchFragment_answered (hcache : cache.Agrees reply) (path : FilePath) :
    ((fetchFragment path).answered reply cache).1 = fragmentAt reply path := by
  rw [fetchFragment, Inquiry.answered_bind_ok (Inquiry.answered_request _)]
  cases hmtime : reply (.mtime path) with
  | error errno =>
    rw [fragmentAt, hmtime]
    cases errno <;> rfl
  | ok mtime =>
    dsimp only
    rw [Inquiry.answered_recall]
    cases hkept : (cache.find? path).filter (·.mtime = mtime) with
    | some kept =>
      obtain ⟨hfind, htime⟩ := Option.filter_eq_some_iff.mp hkept
      rw [hcache path kept hfind (by simpa [hmtime] using (of_decide_eq_true htime).symm)]
      rfl
    | none =>
      rw [fragmentAt, hmtime]
      dsimp only
      cases hread : reply (.read path) with
      | ok bytes =>
        rw [Inquiry.answered_bind_ok (readFragment_answered_ok hread)]
        rfl
      | error errno =>
        rw [Inquiry.answered_bind_ok (readFragment_answered_error hread)]
        rfl

namespace Build

variable {b : Build} {classifier : Classifier} {source directory fragment : FilePath} {l : Language}

/-! ## Where a file is built -/

/-- Whether the directory is the one below the object directory that stands there as the directory
of the file stands below `base`. -/
def BuiltIn (b : Build) (base source directory : FilePath) : Prop :=
  ∃ names, source.parent.relativeTo? base = some names ∧
    b.tree.objectDirectory.join names = .ok directory

/-- There is one such directory at most. -/
theorem BuiltIn.unique {base directory' : FilePath} (h : b.BuiltIn base source directory)
    (h' : b.BuiltIn base source directory') : directory = directory' := by
  obtain ⟨names, hnames, hjoin⟩ := h
  obtain ⟨names', hnames', hjoin'⟩ := h'
  obtain rfl := Option.some.inj (hnames.symm.trans hnames')
  exact Except.ok.inj (hjoin.symm.trans hjoin')

/-- The directory of a file is the one in which it is built. -/
theorem objectDirectoryFor_eq_ok (h : b.BuiltIn b.root source directory) :
    b.objectDirectoryFor source = .ok directory := by
  obtain ⟨names, hnames, hjoin⟩ := h
  rw [objectDirectoryFor, FilePath.isUnder, FilePath.rebase, hnames]
  exact hjoin

/-- On systems other than Windows every file below the source directory has such a directory, and
the fragment in it a path. -/
theorem exists_builtIn {objects sources : Posix.Path}
    (hobjects : b.tree.objectDirectory = .posix objects) (hsources : b.root = .posix sources)
    (hunder : source.isUnder b.root = true) (hne : source ≠ b.root) :
    ∃ directory fragment : Posix.Path,
      b.BuiltIn b.root source (.posix directory) ∧
        (FilePath.posix directory).join ["backend.mk"] = .ok (.posix fragment) := by
  cases source with
  | windows p =>
    rw [hsources] at hunder
    cases hunder
  | posix p =>
    rw [hsources] at hunder hne
    have hparent := FilePath.isUnder_parent_posix hunder fun h => hne (congrArg _ h)
    obtain ⟨names, hnames⟩ := Option.isSome_iff_exists.mp hparent
    exact ⟨objects.join names, _, ⟨names, by rw [hsources, hnames], by rw [hobjects]; rfl⟩, rfl⟩

/-! ## What a file is configured by -/

/-- The configuration of a file that is built in the given directory, if the build knows it. -/
def configurationBy (platform : Platform) (directory : FilePath) :
    Option (Compiler × List Argument) → Except Failure (Option SourceConfiguration)
  | none => .ok none
  | some (compiler, flags) =>
    ((compiler.configure platform flags directory).mapError .path).map some

/-- The configuration that a make fragment, if there is one, gives a file that is built in the given
directory. -/
def configurationOf (b : Build) (platform : Platform) (l : Language) (directory : FilePath)
    (fragment : Option Variables) : Except Failure (Option SourceConfiguration) :=
  configurationBy platform directory
    ((nonempty (fragment.bind (·.find? (flagsVariable l)))).map fun flags =>
      (b.compiler l, Shell.flags flags))

/-- Flags that are not empty give a file a configuration. -/
theorem exists_configurationOf (hp : s.platform ≠ .windows) (b : Build) {directory : Posix.Path}
    {vars : Variables} {flags : String} (hfind : vars.find? (flagsVariable l) = some flags)
    (hne : flags ≠ "") :
    ∃ config,
      b.configurationOf s.platform l (.posix directory) (some vars) = .ok (some config) := by
  obtain ⟨config, hconfig⟩ := exists_configure hp (b.compiler l) directory (Shell.flags flags)
  refine ⟨config, ?_⟩
  have hflags : nonempty ((some vars).bind (·.find? (flagsVariable l))) = some flags := by
    simp [nonempty, hfind, hne]
  rw [configurationOf, hflags, Option.map_some, configurationBy, hconfig]
  rfl

/-- A file outside the source directory has no fragment. -/
theorem backend_answered_outside (h : source.isUnder b.root = false) :
    (b.backend source).answered reply cache = (.ok none, cache) := by
  rw [backend, h]
  rfl

/-- A file inside the source directory has the fragment of its object directory. -/
theorem backend_answered (hcache : cache.Agrees reply) (hunder : source.isUnder b.root = true)
    (hdirectory : b.BuiltIn b.root source directory)
    (hfragment : directory.join ["backend.mk"] = .ok fragment) :
    ((b.backend source).answered reply cache).1 = fragmentAt reply fragment := by
  rw [backend, hunder, objectDirectoryFor_eq_ok hdirectory]
  change (((Inquiry.ofPath (.ok directory)) >>= fun directory =>
    Inquiry.ofPath (directory.join ["backend.mk"]) >>= fetchFragment).answered reply cache).1 = _
  rw [Inquiry.answered_bind_ok (Inquiry.answered_ofPath_ok rfl),
    Inquiry.answered_bind_ok (Inquiry.answered_ofPath_ok hfragment), fetchFragment_answered hcache]

/-- The flags of a file are those that its fragment gives for the language. -/
theorem resolve_answered (hsource : b.tree.mach.settings.flagsSource = .backend)
    (hlanguage : (classifier source).answered reply cache = (.ok (some l), cache)) :
    ((b.resolve s classifier source).answered reply cache).1 =
      ((b.backend source).answered reply cache).1.bind fun fragment =>
        .ok ((nonempty (fragment.bind (·.find? (flagsVariable l)))).map fun flags =>
          (b.compiler l, Shell.flags flags)) := by
  have hflags : b.flags s source l = b.backend source >>= fun fragment =>
      pure (nonempty (fragment.bind (·.find? (flagsVariable l)))) := by
    rw [flags, hsource]
  rw [resolve, Inquiry.answered_bind_ok hlanguage]
  change ((b.flags s source l >>= fun flags => pure (flags.map fun flags =>
    (b.compiler l, Shell.flags flags))).answered reply cache).1 = _
  rw [Inquiry.answered_bind_fst (fun flags cache' => rfl), hflags,
    Inquiry.answered_bind_fst (fun fragment cache' => rfl)]
  cases ((b.backend source).answered reply cache).1 <;> rfl

/-- A file has the configuration that its fragment tells. -/
theorem configure_answered (hsource : b.tree.mach.settings.flagsSource = .backend)
    (hlanguage : (classifier source).answered reply cache = (.ok (some l), cache))
    (hdirectory : b.objectDirectoryFor source = .ok directory) :
    ((b.configure s classifier source).answered reply cache).1 =
      ((b.backend source).answered reply cache).1.bind
        (b.configurationOf s.platform l directory) := by
  have hresolved : ((b.configure s classifier source).answered reply cache).1 =
      ((b.resolve s classifier source).answered reply cache).1.bind
        (configurationBy s.platform directory) := by
    refine Inquiry.answered_bind_fst fun found cache' => ?_
    cases found with
    | none => rfl
    | some found =>
      obtain ⟨compiler, flags⟩ := found
      dsimp only
      rw [Inquiry.answered_bind_ok (Inquiry.answered_ofPath_ok hdirectory), configurationBy]
      cases compiler.configure s.platform flags (some directory) <;> rfl
  rw [hresolved, resolve_answered hsource hlanguage]
  cases ((b.backend source).answered reply cache).1 <;> rfl

/-- A file outside the source directory has no configuration. -/
theorem configure_answered_outside (hsource : b.tree.mach.settings.flagsSource = .backend)
    (hlanguage : (classifier source).answered reply cache = (.ok (some l), cache))
    (h : source.isUnder b.root = false) :
    (b.configure s classifier source).answered reply cache = (.ok none, cache) := by
  have hflags : (b.flags s source l).answered reply cache = (.ok none, cache) := by
    rw [flags, hsource]
    dsimp only
    rw [Inquiry.answered_bind_ok (backend_answered_outside h)]
    rfl
  have hresolve : (b.resolve s classifier source).answered reply cache = (.ok none, cache) := by
    rw [resolve, Inquiry.answered_bind_ok hlanguage]
    dsimp only
    rw [Inquiry.answered_bind_ok hflags]
    rfl
  rw [configure, Inquiry.answered_bind_ok hresolve]
  rfl

end Build

/-! ## Folders -/

namespace Folder

/-- Which files of a build tree are configured, and by what, whatever the replies were when the
folder was looked at. The source directory that the tool told is the root of the folder, if need be
in another spelling; on systems other than Windows it is the root itself if both are the same path.
A file that does not lie below it has no configuration, whatever the fragments say. Any other file
is configured by the make fragment in the object directory joined with the path of the file's
directory relative to the told source directory, and on systems other than Windows it has a
configuration whenever that fragment gives it flags. -/
theorem configure_below_sourceDirectory {f : Folder} {b : Build} {classifier : Classifier}
    {source : FilePath} {l : Language}
    (hroot : f.source.path s.platform = .ok f.root) (hphase : f.phase = .recognized b)
    (hfound : Build.Finding R s f.root f.settings (.ok (some b)))
    (hsource : f.settings.flagsSource = .backend) (hclassifier : (classifier source).Direct)
    (hlanguage : (classifier source).eval reply = .ok (some l)) (hcache : cache.Agrees reply) :
    (b.root.same f.root = true ∨
      ∃ place, R (.realPath b.root) place ∧ R (.realPath f.root) place) ∧
    (s.platform ≠ .windows → b.root.same f.root = true → b.root = f.root) ∧
    (source.isUnder b.root = false →
      (f.configure s classifier source).answered reply cache = (.ok none, cache)) ∧
    (∀ directory fragment, source.isUnder b.root = true → b.BuiltIn b.root source directory →
      directory.join ["backend.mk"] = .ok fragment →
      ((f.configure s classifier source).answered reply cache).1 =
        (fragmentAt reply fragment).bind (b.configurationOf s.platform l directory)) ∧
    (s.platform ≠ .windows → source.isUnder b.root = true → source ≠ b.root →
      ∃ directory fragment, b.BuiltIn b.root source directory ∧
        directory.join ["backend.mk"] = .ok fragment ∧
        ∀ vars flags, fragmentAt reply fragment = .ok (some vars) →
          vars.find? (Build.flagsVariable l) = some flags → flags ≠ "" →
          ∃ config,
            ((f.configure s classifier source).answered reply cache).1 = .ok (some config)) := by
  have hconfigure : f.configure s classifier source = b.configure s classifier source := by
    rw [configure, build?, hphase]
  have htold : b.tree.mach.settings = f.settings ∧
      (b.root.same f.root = true ∨
        ∃ place, R (.realPath b.root) place ∧ R (.realPath f.root) place) := by
    cases hfound with
    | built hsurvey hcompilers =>
      obtain ⟨hsettings, -, hspelling⟩ := SourceTree.survey_mayEnd_some hsurvey
      exact ⟨hsettings, hspelling⟩
  have hbackend : b.tree.mach.settings.flagsSource = .backend := by rw [htold.1, hsource]
  have hanswered : (classifier source).answered reply cache = (.ok (some l), cache) := by
    rw [hclassifier.answered_eq, hlanguage]
  have hread : ∀ directory fragment, source.isUnder b.root = true →
      b.BuiltIn b.root source directory → directory.join ["backend.mk"] = .ok fragment →
      ((b.configure s classifier source).answered reply cache).1 =
        (fragmentAt reply fragment).bind (b.configurationOf s.platform l directory) := by
    intro directory fragment hunder hdirectory hfragment
    rw [Build.configure_answered hbackend hanswered (Build.objectDirectoryFor_eq_ok hdirectory),
      Build.backend_answered hcache hunder hdirectory hfragment]
  rw [hconfigure]
  refine ⟨htold.2, fun hp hsame => ?_, Build.configure_answered_outside hbackend hanswered, hread,
    fun hp hunder hne => ?_⟩
  · obtain ⟨-, sources, hsources⟩ := hfound.posix_directories hp
    obtain ⟨root, hposix⟩ : ∃ root, f.root = .posix root := by
      obtain ⟨t, ht⟩ := FilePath.exists_ofText_of_ofUri hroot
      rw [← FilePath.ofUnixText_eq_ofText hp] at ht
      exact FilePath.posix_of_ofUnixText hp ht
    rw [hsources, hposix] at hsame ⊢
    rw [FilePath.same_posix.mp hsame]
  · obtain ⟨⟨objects, hobjects⟩, sources, hsources⟩ := hfound.posix_directories hp
    obtain ⟨directory, fragment, hdirectory, hfragment⟩ :=
      Build.exists_builtIn hobjects hsources hunder hne
    refine ⟨.posix directory, .posix fragment, hdirectory, hfragment, ?_⟩
    intro vars flags hvars hfind hflags
    obtain ⟨config, hconfig⟩ := Build.exists_configurationOf hp b hfind hflags
    refine ⟨config, ?_⟩
    rw [hread _ _ hunder hdirectory hfragment, hvars]
    exact hconfig

/-! ## Looks that are answered the same throughout -/

/-- A folder with a build is recognized. -/
theorem phase_of_build? {f : Folder} {b : Build} (h : f.build? = some b) :
    f.phase = .recognized b := by
  unfold build? at h
  split at h
  · next hphase => exact Option.some.inj h ▸ hphase
  · cases h

/-- A look that is answered without an effect takes in what the answers tell. -/
theorem probeWith_id {f : Folder} (hf : f.phase = .unprobed) (ms : Messages)
    (assemble : SourceTree → Except Failure Compiler → Except Failure Compiler →
      Except Failure Build) :
    f.probeWith (m := Id) reply s ms assemble =
      (f.conclude (Build.discoverWith (m := Id) reply s f.root f.settings assemble),
        f.report (Build.discoverWith (m := Id) reply s f.root f.settings assemble) ms) := by
  rw [probeWith.eq_def, hf]
  rfl

/-- The build of a folder was found by the look at it. -/
theorem finding_probeWith_id {f : Folder} (hf : f.phase = .unprobed) {ms : Messages}
    {assemble : SourceTree → Except Failure Compiler → Except Failure Compiler →
      Except Failure Build}
    (ha : assemble = Build.ofCompilers ∨ assemble = Build.ofProcesses) {b : Build}
    (h : (f.probeWith (m := Id) reply s ms assemble).1.phase = .recognized b) :
    Build.Finding (.always reply) s (f.probeWith (m := Id) reply s ms assemble).1.root
      (f.probeWith (m := Id) reply s ms assemble).1.settings (.ok (some b)) := by
  have hfinding : Build.Finding (.always reply) s f.root f.settings
      (Build.discoverWith (m := Id) reply s f.root f.settings assemble) :=
    Build.finding_discoverWith_id ha
  rw [probeWith_id hf] at h ⊢
  generalize Build.discoverWith (m := Id) reply s f.root f.settings assemble = o at h hfinding ⊢
  rcases o with e | _ | b' <;> cases h
  exact hfinding

/-! ## A tree that is told in another spelling -/

/-- The replies of a system with a configured tree at `/src`, to which `/link` is a symbolic link.
The build tool tells `sources` for its source directory and `/obj` for its object directory, and the
fragment of `dom` gives flags for C. -/
def linkedTree (sources : String) : (q : Request) → q.Reply
  | .isFile path => path.text == "/src/mach"
  | .mtime path => if path.text = "/obj/dom/backend.mk" then .ok 0 else .error .noEntry
  | .read path =>
    if path.text = "/obj/config/autoconf.mk" then .ok "_CC=cc\n_CXX=cc\nCC_TYPE=gcc\n".toUTF8.toList
    else if path.text = "/obj/dom/backend.mk" then .ok "COMPUTED_CFLAGS=-DX\n".toUTF8.toList
    else .error .noEntry
  | .realPath path => if path.text = "/link" then "/src" else path.text
  | .run args (some _) _ => .ok { args := args.map Argument.render, chunks := [
      ⟨.stdout, "\x7b\"topobjdir\": \"/obj\", \"topsrcdir\": \"" ++ sources ++ "\"\x7d"⟩] }
  | .run args none _ => .ok { args := args.map Argument.render, chunks := [
      ⟨.stdout, "#define A 1\n"⟩] }

/-- The directory `/src`. -/
def linkedRoot : FilePath := .posix ⟨.single, [⟨"src".toList, by decide⟩]⟩

/-- The folder `/src` after a look at it. -/
def linkedFolder (sources : String) : Folder :=
  ((take .linux {} { uri := "/src" } linkedRoot).probeWith (m := Id) (linkedTree sources) {} {}).1

theorem root_linkedFolder (sources : String) : (linkedFolder sources).root = linkedRoot := rfl

/-- The file `/src/dom/a.c`. -/
def linkedSource : FilePath :=
  .posix ⟨.single,
    [⟨"src".toList, by decide⟩, ⟨"dom".toList, by decide⟩, ⟨"a.c".toList, by decide⟩]⟩

/-- The directory `/obj/dom`. -/
def linkedDirectory : FilePath :=
  .posix ⟨.single, [⟨"obj".toList, by decide⟩, ⟨"dom".toList, by decide⟩]⟩

/-- The make fragment `/obj/dom/backend.mk`. -/
def linkedFragment : FilePath :=
  .posix ⟨.single,
    [⟨"obj".toList, by decide⟩, ⟨"dom".toList, by decide⟩, ⟨"backend.mk".toList, by decide⟩]⟩

/-- The file belongs into `/obj/dom`, whatever the tool tells. -/
theorem builtIn_linkedSource {sources : String} {b : Build}
    (h : b.tree.objectDirectory = .posix ⟨.single, [⟨"obj".toList, by decide⟩]⟩) :
    b.BuiltIn (linkedFolder sources).root linkedSource linkedDirectory := by
  rw [root_linkedFolder]
  refine ⟨["dom"], by decide +kernel, ?_⟩
  rw [h]
  decide +kernel

/-- If the tool tells the root of the folder, the file is configured. -/
theorem configure_below_sourceDirectory_src :
    ∃ b, (linkedFolder "/src").phase = .recognized b ∧ b.root = (linkedFolder "/src").root ∧
      ∃ config,
        (((linkedFolder "/src").configure {} .byExtension linkedSource).answered
          (linkedTree "/src") {}).1 = .ok (some config) := by
  have hbuilt : (linkedFolder "/src").build?.map (fun b => (b.root, b.tree.objectDirectory)) =
      some ((linkedFolder "/src").root, .posix ⟨.single, [⟨"obj".toList, by decide⟩]⟩) := by
    decide +kernel
  obtain ⟨b, hb, hdirectories⟩ := Option.map_eq_some_iff.mp hbuilt
  obtain ⟨hsources, hobjects⟩ := Prod.mk.inj hdirectories
  have hempty : FragmentCache.Agrees {} (linkedTree "/src") := fun path kept h => by cases h
  obtain ⟨-, -, -, -, hconfigured⟩ :=
    @configure_below_sourceDirectory _ {} _ _ (linkedFolder "/src") b .byExtension linkedSource .c
      (by decide +kernel) (phase_of_build? hb)
      (finding_probeWith_id rfl (.inl rfl) (phase_of_build? hb)) rfl (.answer _) rfl hempty
  rw [hsources] at hconfigured
  obtain ⟨directory, fragment, hdirectory, hfragment, hconfig⟩ :=
    hconfigured (by decide) (by decide +kernel) (by decide +kernel)
  obtain rfl := hdirectory.unique (builtIn_linkedSource hobjects)
  obtain rfl : fragment = linkedFragment := Except.ok.inj (hfragment.symm.trans (by decide +kernel))
  refine ⟨b, phase_of_build? hb, hsources, ?_⟩
  exact hconfig (Variables.read ∅ "COMPUTED_CFLAGS=-DX\n") "-DX" (by decide +kernel)
    (by decide +kernel) (by decide)

/-- If the tool tells the link, the folder counts as a build tree. The fragment in the object
directory of the file's directory gives flags for its language, but it has no configuration. -/
theorem configure_otherSpelling :
    ∃ b, (linkedFolder "/link").phase = .recognized b ∧
      (linkedFolder "/link").settings.flagsSource = .backend ∧
      linkedSource.isUnder (linkedFolder "/link").root = true ∧
      (Classifier.byExtension linkedSource).eval (linkedTree "/link") = .ok (some .c) ∧
      b.BuiltIn (linkedFolder "/link").root linkedSource linkedDirectory ∧
      linkedDirectory.join ["backend.mk"] = .ok linkedFragment ∧
      (fragmentAt (linkedTree "/link") linkedFragment).map
        (·.bind (·.find? (Build.flagsVariable .c))) = .ok (some "-DX") ∧
      ((linkedFolder "/link").configure {} .byExtension linkedSource).answered
        (linkedTree "/link") {} = (.ok none, {}) := by
  have hbuilt : (linkedFolder "/link").build?.map (·.tree.objectDirectory) =
      some (.posix ⟨.single, [⟨"obj".toList, by decide⟩]⟩) := by
    decide +kernel
  obtain ⟨b, hb, hobjects⟩ := Option.map_eq_some_iff.mp hbuilt
  exact ⟨b, phase_of_build? hb, rfl, by decide +kernel, rfl, builtIn_linkedSource hobjects,
    by decide +kernel, by decide +kernel, by decide +kernel⟩

end Folder

end BuildLens
