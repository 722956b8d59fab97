import BuildLens.Proofs.Build.Transparency
import BuildLens.Proofs.System.FileTree

/-!
# Files whose make fragment is not there

A file that the build does not know has no configuration, and its test compilation says so. A make
fragment that is missing, or whose directory is, makes its files unknown. Only that error of the
system is taken for a missing fragment. If a regular file stands where a directory above the
fragment should be, or if there are too many links, nothing is there either, but the error passes
through the fragments that are kept and the build, and both inquiries fail with it.

These are all the ways in which nothing is there in a file tree. A system has more: a name may be
too long for it, and a directory may not be open to everyone. File trees have neither, so nothing
is said here of such errors.

Main definitions:

- `Build.fragmentFor`: the make fragment that is looked up for a file.
- `Build.Declines`, `Build.FailsWith`: how both inquiries into a file end.

Main results:

- `Build.declines_of_missing`: a fragment that is missing makes a file unknown.
- `Build.configure_of_leadsNowhere`: how both inquiries end if the fragment is not there.
- `Build.configure_barredTree`: a fragment that is not there and makes them fail.
-/

namespace BuildLens

open FileTree (Misses Barred Tangled)

namespace Build

variable {b : Build} {s : Surroundings} {classifier : Classifier} {source fragment : FilePath}
  {reply : (q : Request) → q.Reply} {cache cache' : FragmentCache} {e : Failure} {l : Language}
  {t : FileTree}

/-- The make fragment that is looked up for a file of the tree. -/
def fragmentFor (b : Build) (source : FilePath) : Except PathError FilePath := do
  (← b.objectDirectoryFor source).join ["backend.mk"]

/-- What is reported of a file that the build does not know. -/
def unknownReport (source : FilePath) : CompileReport where
  source := source
  success := false
  message := s!"No compile flags are known for {source}."

/-- The file has no configuration, and its test compilation reports that it is not known. -/
structure Declines (b : Build) (s : Surroundings) (classifier : Classifier) (source : FilePath)
    (reply : (q : Request) → q.Reply) (cache : FragmentCache) : Prop where
  configure : ((b.configure s classifier source).answered reply cache).1 = .ok none
  testCompile : ((b.testCompile s classifier source).answered reply cache).1 =
    .ok (unknownReport source)

/-- Neither has the file a configuration, nor is there a report: both inquiries fail. -/
structure FailsWith (b : Build) (s : Surroundings) (classifier : Classifier) (source : FilePath)
    (reply : (q : Request) → q.Reply) (cache : FragmentCache) (e : Failure) : Prop where
  configure : ((b.configure s classifier source).answered reply cache).1 = .error e
  testCompile : ((b.testCompile s classifier source).answered reply cache).1 = .error e

/-! ## From the fragment to the answers -/

theorem declines_of_resolve
    (h : (b.resolve s classifier source).answered reply cache = (.ok none, cache')) :
    b.Declines s classifier source reply cache where
  configure := by
    rw [Build.configure, Inquiry.answered_bind_ok h]
    rfl
  testCompile := by
    rw [Build.testCompile, Inquiry.answered_bind_ok h]
    rfl

theorem failsWith_of_resolve
    (h : (b.resolve s classifier source).answered reply cache = (.error e, cache')) :
    b.FailsWith s classifier source reply cache e where
  configure := by rw [Build.configure, Inquiry.answered_bind_error h]
  testCompile := by rw [Build.testCompile, Inquiry.answered_bind_error h]

/-- A file without a language is not known. -/
theorem declines_of_noLanguage
    (h : (classifier source).answered reply cache = (.ok none, cache)) :
    b.Declines s classifier source reply cache := by
  have hresolve : (b.resolve s classifier source).answered reply cache = (.ok none, cache) := by
    rw [resolve, Inquiry.answered_bind_ok h]
    rfl
  exact declines_of_resolve hresolve

/-- A file for which there is no fragment is not known. -/
theorem declines_of_backend (hsource : b.tree.mach.settings.flagsSource = .backend)
    (hlanguage : (classifier source).answered reply cache = (.ok (some l), cache))
    (h : (b.backend source).answered reply cache = (.ok none, cache')) :
    b.Declines s classifier source reply cache := by
  have hflags : (b.flags s source l).answered reply cache = (.ok none, cache') := by
    rw [flags, hsource]
    dsimp only
    rw [Inquiry.answered_bind_ok h]
    rfl
  have hresolve : (b.resolve s classifier source).answered reply cache = (.ok none, cache') := by
    rw [resolve, Inquiry.answered_bind_ok hlanguage]
    dsimp only
    rw [Inquiry.answered_bind_ok hflags]
    rfl
  exact declines_of_resolve hresolve

/-- A failure to look up the fragment is one of both inquiries. -/
theorem failsWith_of_backend (hsource : b.tree.mach.settings.flagsSource = .backend)
    (hlanguage : (classifier source).answered reply cache = (.ok (some l), cache))
    (h : (b.backend source).answered reply cache = (.error e, cache')) :
    b.FailsWith s classifier source reply cache e := by
  have hflags : (b.flags s source l).answered reply cache = (.error e, cache') := by
    rw [flags, hsource]
    exact Inquiry.answered_bind_error h
  have hresolve : (b.resolve s classifier source).answered reply cache = (.error e, cache') := by
    rw [resolve, Inquiry.answered_bind_ok hlanguage]
    exact Inquiry.answered_bind_error hflags
  exact failsWith_of_resolve hresolve

theorem fragmentFor_eq_ok_iff : b.fragmentFor source = .ok fragment ↔
    ∃ directory, b.objectDirectoryFor source = .ok directory ∧
      directory.join ["backend.mk"] = .ok fragment := by
  rw [fragmentFor]
  cases b.objectDirectoryFor source with
  | error e => exact ⟨nofun, nofun⟩
  | ok directory => exact ⟨fun h => ⟨directory, rfl, h⟩, fun ⟨_, rfl, h⟩ => h⟩

/-- Looking up the fragment of a file of the tree is a fetch. -/
theorem backend_answered_eq (hunder : source.isUnder b.root = true)
    (hfragment : b.fragmentFor source = .ok fragment) :
    (b.backend source).answered reply cache = (fetchFragment fragment).answered reply cache := by
  obtain ⟨directory, hdirectory, hjoin⟩ := fragmentFor_eq_ok_iff.mp hfragment
  have hfetch : b.backend source = Inquiry.ofPath (b.objectDirectoryFor source) >>= fun directory =>
      Inquiry.ofPath (directory.join ["backend.mk"]) >>= fetchFragment := by
    rw [backend, hunder]
    rfl
  rw [hfetch, Inquiry.answered_bind_ok (Inquiry.answered_ofPath_ok hdirectory),
    Inquiry.answered_bind_ok (Inquiry.answered_ofPath_ok hjoin)]

/-! ## Fragments that are not there -/

theorem mtime_of_find {path : List Char} {errno : Errno} (h : t.find path = .error errno) :
    t.mtime path = .error errno := by
  rw [FileTree.mtime, h]
  rfl

/-- A fragment that is missing makes its files unknown. -/
theorem declines_of_missing (hfiles : ∀ path, reply (.mtime path) = t.mtime path.text.toList)
    (hsource : b.tree.mach.settings.flagsSource = .backend)
    (hlanguage : (classifier source).answered reply cache = (.ok (some l), cache))
    (hunder : source.isUnder b.root = true) (hfragment : b.fragmentFor source = .ok fragment)
    (h : t.Misses fragment.text.toList) : b.Declines s classifier source reply cache := by
  have hmtime : reply (.mtime fragment) = .error .noEntry := by
    rw [hfiles, mtime_of_find (FileTree.find_eq_noEntry_iff.mpr h)]
  have hbackend : (b.backend source).answered reply cache = (.ok none, cache.forget fragment) := by
    rw [backend_answered_eq hunder hfragment, fetchFragment_answered_eq, hmtime]
  exact declines_of_backend hsource hlanguage hbackend

/-- Any other error makes the inquiries fail. -/
theorem failsWith_of_find (hfiles : ∀ path, reply (.mtime path) = t.mtime path.text.toList)
    (hsource : b.tree.mach.settings.flagsSource = .backend)
    (hlanguage : (classifier source).answered reply cache = (.ok (some l), cache))
    (hunder : source.isUnder b.root = true) (hfragment : b.fragmentFor source = .ok fragment)
    {errno : Errno} (hne : errno ≠ .noEntry) (h : t.find fragment.text.toList = .error errno) :
    b.FailsWith s classifier source reply cache (.system ⟨errno, fragment.text⟩) := by
  have hmtime : reply (.mtime fragment) = .error errno := by rw [hfiles, mtime_of_find h]
  have hbackend : (b.backend source).answered reply cache =
      (.error (.system ⟨errno, fragment.text⟩), cache) := by
    rw [backend_answered_eq hunder hfragment, fetchFragment_answered_eq, hmtime]
    cases errno with
    | noEntry => exact absurd rfl hne
    | _ => rfl
  exact failsWith_of_backend hsource hlanguage hbackend

/-- On systems other than Windows every file of a build that was found has a fragment to look up. -/
theorem Finding.exists_fragmentFor {R : Replies} {root : FilePath} {settings : FolderSettings}
    (hfound : Finding R s root settings (.ok (some b))) (hp : s.platform ≠ .windows)
    (source : FilePath) : ∃ fragment, b.fragmentFor source = .ok fragment := by
  obtain ⟨directory, hdirectory⟩ :=
    exists_objectDirectoryFor source (hfound.posix_directories hp).1
  exact ⟨_, fragmentFor_eq_ok_iff.mpr ⟨_, hdirectory, rfl⟩⟩

/-- How the inquiries into a file end if its make fragment is not there. They end without a
configuration and with a report, unless the file has a language, lies in the tree, and the error is
not that something is missing: if a regular file stands above the fragment, or if there are too many
links, both fail with that error. In a file tree there are no other such errors. -/
theorem configure_of_leadsNowhere {R : Replies} {root : FilePath} {settings : FolderSettings}
    {l? : Option Language} (cache : FragmentCache)
    (hfound : Finding R s root settings (.ok (some b)))
    (hsource : settings.flagsSource = .backend) (hclassifier : (classifier source).Direct)
    (hlanguage : (classifier source).eval reply = .ok l?)
    (hfiles : ∀ path, reply (.mtime path) = t.mtime path.text.toList) :
    (s.platform ≠ .windows → ∃ fragment, b.fragmentFor source = .ok fragment) ∧
    ∀ fragment, b.fragmentFor source = .ok fragment →
      t.leadsSomewhere fragment.text.toList = false →
      (l? = none → b.Declines s classifier source reply cache) ∧
      (source.isUnder b.root = false → b.Declines s classifier source reply cache) ∧
      (t.Misses fragment.text.toList → b.Declines s classifier source reply cache) ∧
      (l? ≠ none → source.isUnder b.root = true → t.Barred fragment.text.toList →
        b.FailsWith s classifier source reply cache (.system ⟨.notDirectory, fragment.text⟩)) ∧
      (l? ≠ none → source.isUnder b.root = true → t.Tangled fragment.text.toList →
        b.FailsWith s classifier source reply cache (.system ⟨.tooManyLinks, fragment.text⟩)) ∧
      (t.Misses fragment.text.toList ∨ t.Barred fragment.text.toList ∨
        t.Tangled fragment.text.toList) := by
  have hbackend : b.tree.mach.settings.flagsSource = .backend := by
    cases hfound with
    | built hsurvey hcompilers =>
      rw [(SourceTree.survey_mayEnd_some hsurvey).1, hsource]
  have hanswered : (classifier source).answered reply cache = (.ok l?, cache) := by
    rw [hclassifier.answered_eq, hlanguage]
  have hnone (h : l? = none) : b.Declines s classifier source reply cache :=
    declines_of_noLanguage (h ▸ hanswered)
  refine ⟨fun hp => hfound.exists_fragmentFor hp source, fun fragment hfragment habsent =>
    ⟨hnone, ?_, ?_, ?_, ?_, FileTree.leadsSomewhere_eq_false_iff.mp habsent⟩⟩
  · intro houtside
    cases l? with
    | none => exact hnone rfl
    | some l =>
      exact declines_of_backend hbackend hanswered (backend_answered_outside houtside)
  · intro hmisses
    cases l? with
    | none => exact hnone rfl
    | some l =>
      cases hunder : source.isUnder b.root with
      | false =>
        exact declines_of_backend hbackend hanswered (backend_answered_outside hunder)
      | true => exact declines_of_missing hfiles hbackend hanswered hunder hfragment hmisses
  · intro hlanguage hunder hbarred
    obtain ⟨l, rfl⟩ := Option.ne_none_iff_exists'.mp hlanguage
    exact failsWith_of_find hfiles hbackend hanswered hunder hfragment nofun
      (FileTree.find_eq_notDirectory_iff.mpr hbarred)
  · intro hlanguage hunder htangled
    obtain ⟨l, rfl⟩ := Option.ne_none_iff_exists'.mp hlanguage
    exact failsWith_of_find hfiles hbackend hanswered hunder hfragment nofun
      (FileTree.find_eq_tooManyLinks_iff.mpr htangled)

/-! ## A regular file in the place of a directory -/

/-- The folder `/src` was found to be that of a build, and `/obj/dom/backend.mk` is the fragment of
`/src/dom/a.c`. -/
theorem exists_build_linkedFolder :
    ∃ b, (Folder.linkedFolder "/src").phase = .recognized b ∧
      b.tree.mach.settings.flagsSource = .backend ∧ Folder.linkedSource.isUnder b.root = true ∧
      b.fragmentFor Folder.linkedSource = .ok Folder.linkedFragment := by
  have hbuilt : (Folder.linkedFolder "/src").build?.map (fun b =>
      (b.tree.mach.settings.flagsSource, Folder.linkedSource.isUnder b.root,
        b.fragmentFor Folder.linkedSource)) =
      some (.backend, true, .ok Folder.linkedFragment) := by
    decide +kernel
  obtain ⟨b, hb, hfacts⟩ := Option.map_eq_some_iff.mp hbuilt
  simp only [Prod.mk.injEq] at hfacts
  exact ⟨b, Folder.phase_of_build? hb, hfacts⟩

/-- The files of the tree when no directory is built. -/
def unbuiltTree : FileTree :=
  ((FileTree.empty []).put (Place.ofChars "/src/mach".toList) (.file { content := [] })).put
    (Place.ofChars "/obj/config/autoconf.mk".toList)
    (.file { content := "_CC=cc\n_CXX=cc\nCC_TYPE=gcc\n".toUTF8.toList })

/-- The same files, and a regular file `/obj/dom`. -/
def barredTree : FileTree :=
  unbuiltTree.put (Place.ofChars "/obj/dom".toList) (.file { content := [] })

/-- The names of the fragment lead from the directory `/obj` on. -/
theorem meets_linkedFragment {t : FileTree} (hobj : t.at? ["obj".toList] = some .directory) :
    t.Meets Folder.linkedFragment.text.toList
      ⟨FileTree.maxLinks, ["obj".toList], ["dom".toList, "backend.mk".toList]⟩ := by
  have hnames : Place.ofChars Folder.linkedFragment.text.toList =
      ["obj".toList, "dom".toList, "backend.mk".toList] := by
    decide +kernel
  refine ⟨by decide +kernel, ?_⟩
  rw [FileTree.namesOf, if_pos (by decide +kernel), hnames]
  exact .single (.down t.at?_nil (by decide) hobj nofun)

theorem misses_unbuiltTree : unbuiltTree.Misses Folder.linkedFragment.text.toList := by
  have hobj : unbuiltTree.at? ["obj".toList] = some .directory := by decide +kernel
  have hdom : unbuiltTree.at? ["obj".toList, "dom".toList] = none := by decide +kernel
  exact .inr ⟨_, _, _, _, meets_linkedFragment hobj, hobj, by decide, hdom⟩

theorem barred_barredTree : barredTree.Barred Folder.linkedFragment.text.toList := by
  have hobj : barredTree.at? ["obj".toList] = some .directory := by decide +kernel
  have hdom : barredTree.at? ["obj".toList, "dom".toList] = some (.file { content := [] }) := by
    decide +kernel
  obtain ⟨hne, hreaches⟩ := meets_linkedFragment hobj
  exact ⟨_, _, _, _, _, ⟨hne, hreaches.tail (.down hobj (by decide) hdom nofun)⟩, hdom⟩

/-- As long as `/obj/dom` is missing, `/src/dom/a.c` is not known. -/
theorem configure_of_leadsNowhere_unbuiltTree :
    ∃ b, (Folder.linkedFolder "/src").phase = .recognized b ∧
      unbuiltTree.Misses Folder.linkedFragment.text.toList ∧
      b.Declines {} .byExtension Folder.linkedSource (unbuiltTree.reply (.error .noCommand))
        {} := by
  obtain ⟨b, hphase, -, -, hfragment⟩ := exists_build_linkedFolder
  have hclassifier : (Classifier.byExtension Folder.linkedSource).Direct := .answer _
  have hlanguage : (Classifier.byExtension Folder.linkedSource).eval
      (unbuiltTree.reply (.error .noCommand)) = .ok (some .c) := rfl
  obtain ⟨-, hends⟩ := configure_of_leadsNowhere {}
    (Folder.finding_probeWith_id rfl (.inl rfl) hphase) rfl hclassifier hlanguage fun path => rfl
  obtain ⟨-, -, hmissing, -⟩ :=
    hends _ hfragment (FileTree.leadsSomewhere_eq_false_iff.mpr (.inl misses_unbuiltTree))
  exact ⟨b, hphase, misses_unbuiltTree, hmissing misses_unbuiltTree⟩

/-- A regular file `/obj/dom` makes both inquiries fail, although the fragment is not there. -/
theorem configure_barredTree :
    ∃ b, (Folder.linkedFolder "/src").phase = .recognized b ∧
      b.tree.mach.settings.flagsSource = .backend ∧
      b.fragmentFor Folder.linkedSource = .ok Folder.linkedFragment ∧
      barredTree.leadsSomewhere Folder.linkedFragment.text.toList = false ∧
      b.FailsWith {} .byExtension Folder.linkedSource (barredTree.reply (.error .noCommand)) {}
        (.system ⟨.notDirectory, Folder.linkedFragment.text⟩) := by
  obtain ⟨b, hphase, hsource, hunder, hfragment⟩ := exists_build_linkedFolder
  refine ⟨b, hphase, hsource, hfragment,
    FileTree.leadsSomewhere_eq_false_iff.mpr (.inr (.inl barred_barredTree)), ?_⟩
  exact failsWith_of_find (fun path => rfl) hsource rfl hunder hfragment nofun
    (FileTree.find_eq_notDirectory_iff.mpr barred_barredTree)

end Build

end BuildLens
