import BuildLens.Build.Basic
import BuildLens.Proofs.Inquiry.Endings

/-!
# What a look at a folder can find

A look at a folder ends without a build, with one, or in a failure. This module says which of these
are possible, given the possible replies of files and commands, and what is then known of the build.

Main definitions:

- `Build.Finding`: the possible outcomes of a look at a folder.

Main results:

- `SourceTree.survey_mayEnd`: a survey ends without a tree if and only if the tool is no file.
- `SourceTree.survey_mayEnd_some`: what is known of a tree that was found.
- `Build.finding_discoverWith`: a look in which requests are answered as they come ends so.
- `Build.Finding.compiler_eq`: the compilers of a build that was found.
-/

namespace BuildLens

variable {R : Replies} {s : Surroundings} {root : FilePath} {settings : FolderSettings}

/-! ## Surveys -/

/-- The tool is looked for by one request. -/
theorem Mach.find_eq {mach : FilePath} (hmach : root.join [fileName] = .ok mach) :
    find root settings = .ask (.isFile mach) fun there =>
      .answer (if there then some { root, command := [.path mach], settings } else none) := by
  have hpath : (Inquiry.ofPath (root.join [fileName])) = .answer mach := by
    rw [hmach]
    rfl
  change (Inquiry.ofPath (root.join [fileName])).bind _ = _
  rw [hpath]
  change Inquiry.ask (.isFile mach) _ = _
  congr 1
  funext there
  cases there <;> rfl

theorem Mach.find_mayEnd {mach : FilePath} (hmach : root.join [fileName] = .ok mach)
    {o : Except Failure (Option Mach)} :
    (find root settings).MayEnd R o ↔
      ∃ there, R (.isFile mach) there ∧
        o = .ok (if there then some { root, command := [.path mach], settings } else none) := by
  rw [find_eq hmach]
  simp

/-- A survey ends without a tree where the tool is no file, and only there. -/
theorem SourceTree.survey_mayEnd {mach : FilePath} (hmach : root.join [Mach.fileName] = .ok mach)
    {o : Except Failure (Option SourceTree)} (h : (survey s root settings).MayEnd R o) :
    (R (.isFile mach) false ∧ o = .ok none) ∨ (R (.isFile mach) true ∧ o ≠ .ok none) := by
  rw [survey, Inquiry.mayEnd_bind] at h
  rcases h with ⟨tool, hfind, h⟩ | ⟨e, hfind, -⟩
  · obtain ⟨there, hr, htool⟩ := (Mach.find_mayEnd hmach).mp hfind
    cases there with
    | false =>
      cases htool
      exact .inl ⟨hr, Inquiry.mayEnd_pure.mp h⟩
    | true =>
      cases htool
      refine .inr ⟨hr, ?_⟩
      rintro rfl
      simp at h
  · obtain ⟨there, -, hfail⟩ := (Mach.find_mayEnd hmach).mp hfind
    cases hfail

theorem Mach.find_mayEnd_some {m : Mach} (h : (find root settings).MayEnd R (.ok (some m))) :
    m.settings = settings := by
  unfold find at h
  obtain ⟨path, -, h⟩ := Inquiry.mayEnd_bind_ok.mp h
  obtain ⟨there, -, h⟩ := Inquiry.mayEnd_bind_ok.mp h
  cases there with
  | false => cases Inquiry.mayEnd_pure.mp h
  | true =>
    cases Inquiry.mayEnd_pure.mp h
    rfl

/-- The source directory is the root of the tree, or both lead to the same place. -/
theorem SourceTree.checkRoot_mayEnd {sources : FilePath}
    (h : (checkRoot root sources).MayEnd R (.ok ())) :
    sources.same root = true ∨
      ∃ place, R (.realPath sources) place ∧ R (.realPath root) place := by
  unfold checkRoot at h
  split at h
  · next hsame => exact .inl hsame
  · obtain ⟨there, hthere, h⟩ := Inquiry.mayEnd_bind_ok.mp h
    obtain ⟨here, hhere, h⟩ := Inquiry.mayEnd_bind_ok.mp h
    obtain ⟨place, hr, heq⟩ := Inquiry.mayEnd_request.mp hthere
    cases heq
    obtain ⟨place', hr', heq⟩ := Inquiry.mayEnd_request.mp hhere
    cases heq
    split at h
    · cases Inquiry.mayEnd_failed.mp h
    · next hplaces =>
      rw [not_not] at hplaces
      exact .inr ⟨there, hr, hplaces ▸ hr'⟩

/-- What is known of a tree that was found: its settings are those of the folder, the tool told its
directories, and the source directory is the root in some spelling. -/
theorem SourceTree.survey_mayEnd_some {t : SourceTree}
    (h : (survey s root settings).MayEnd R (.ok (some t))) :
    t.mach.settings = settings ∧
      (∃ e, directories s.platform e = .ok (t.objectDirectory, t.sourceDirectory)) ∧
      (t.sourceDirectory.same root = true ∨
        ∃ place, R (.realPath t.sourceDirectory) place ∧ R (.realPath root) place) := by
  unfold survey at h
  obtain ⟨tool, hfind, h⟩ := Inquiry.mayEnd_bind_ok.mp h
  cases tool with
  | none => cases Inquiry.mayEnd_pure.mp h
  | some mach =>
    obtain ⟨environment, -, h⟩ := Inquiry.mayEnd_bind_ok.mp h
    obtain ⟨⟨objects, sources⟩, hdirectories, h⟩ := Inquiry.mayEnd_bind_ok.mp h
    obtain ⟨_, hroot, h⟩ := Inquiry.mayEnd_bind_ok.mp h
    obtain ⟨values, -, h⟩ := Inquiry.mayEnd_bind_ok.mp h
    cases Inquiry.mayEnd_pure.mp h
    rw [Inquiry.mayEnd_ofExcept, Except.ok_eq_mapError] at hdirectories
    exact ⟨Mach.find_mayEnd_some hfind, ⟨environment, hdirectories⟩, checkRoot_mayEnd hroot⟩

/-! ## Compilers -/

theorem CompilerDefaults.isEmpty_macros_ofResult {platform : Platform} {r : ProcessResult}
    {d : CompilerDefaults} (h : ofResult platform r = .ok d) : d.macros.isEmpty = false := by
  rw [ofResult] at h
  split at h
  · cases h
  · next hne =>
    cases h
    simpa using hne

theorem Compiler.discover_mayEnd {platform : Platform} {command : List Argument} {l : Language}
    {type windowsSdk : Option String} {macosSdk : Option FilePath} {c : Compiler}
    (h : (discover platform command l type windowsSdk macosSdk).MayEnd R (.ok c)) :
    c.language = l ∧ c.defaults.macros.isEmpty = false := by
  simp only [discover, Inquiry.mayEnd_bind_ok, Inquiry.mayEnd_ofExcept, Inquiry.mayEnd_pure,
    Except.ok_eq_mapError] at h
  obtain ⟨dialect, -, probe, -, result, -, defaults, hdefaults, hc⟩ := h
  cases hc
  exact ⟨rfl, CompilerDefaults.isEmpty_macros_ofResult hdefaults⟩

theorem SourceTree.compiler_mayEnd {t : SourceTree} {l : Language} {c : Compiler}
    (h : (t.compiler s l).MayEnd R (.ok c)) :
    c.language = l ∧ c.defaults.macros.isEmpty = false := by
  rw [compiler, Inquiry.mayEnd_bind_ok] at h
  obtain ⟨command, -, h⟩ := h
  exact Compiler.discover_mayEnd h

/-! ## Looks -/

namespace Build

/-- What a look at a folder can find: no tool, a survey or a compiler that fails, or a build whose
compilers both list their defaults. -/
inductive Finding (R : Replies) (s : Surroundings) (root : FilePath) (settings : FolderSettings) :
    Except Failure (Option Build) → Prop where
  | noTree : (SourceTree.survey s root settings).MayEnd R (.ok none) →
      Finding R s root settings (.ok none)
  | surveyFailed {e : Failure} : (SourceTree.survey s root settings).MayEnd R (.error e) →
      Finding R s root settings (.error e)
  | compilerFailed {t : SourceTree} (l : Language) {e : Failure} :
      (SourceTree.survey s root settings).MayEnd R (.ok (some t)) →
      (t.compiler s l).MayEnd R (.error e) → Finding R s root settings (.error e)
  | built {b : Build} : (SourceTree.survey s root settings).MayEnd R (.ok (some b.tree)) →
      (∀ l, (b.tree.compiler s l).MayEnd R (.ok (b.compiler l))) →
      Finding R s root settings (.ok (some b))

/-- Both compilers of a build that was found are for their languages and have macros. -/
theorem Finding.compiler_eq {b : Build} (h : Finding R s root settings (.ok (some b)))
    (l : Language) :
    (b.compiler l).language = l ∧ (b.compiler l).defaults.macros.isEmpty = false := by
  cases h with
  | built _ hl => exact SourceTree.compiler_mayEnd (hl l)

/-- Nothing is found where the tool is no file, and only there. -/
theorem Finding.eq_none {mach : FilePath} (hmach : root.join [Mach.fileName] = .ok mach)
    {o : Except Failure (Option Build)} (h : Finding R s root settings o) :
    (R (.isFile mach) false ∧ o = .ok none) ∨ (R (.isFile mach) true ∧ o ≠ .ok none) := by
  cases h with
  | noTree h =>
    rcases SourceTree.survey_mayEnd hmach h with ⟨hr, -⟩ | ⟨-, hne⟩
    · exact .inl ⟨hr, rfl⟩
    · exact absurd rfl hne
  | surveyFailed h =>
    rcases SourceTree.survey_mayEnd hmach h with ⟨-, heq⟩ | ⟨hr, -⟩
    · cases heq
    · exact .inr ⟨hr, nofun⟩
  | compilerFailed l h _ =>
    rcases SourceTree.survey_mayEnd hmach h with ⟨-, heq⟩ | ⟨hr, -⟩
    · cases heq
    · exact .inr ⟨hr, nofun⟩
  | built h _ =>
    rcases SourceTree.survey_mayEnd hmach h with ⟨-, heq⟩ | ⟨hr, -⟩
    · cases heq
    · exact .inr ⟨hr, nofun⟩

/-! ## Looks that are carried out -/

variable {assemble : SourceTree → Except Failure Compiler → Except Failure Compiler →
  Except Failure Build}

/-- Both ways to put compilers together take two compilers, or one of the failures. -/
theorem assemble_cases (ha : assemble = ofCompilers ∨ assemble = ofProcesses) (t : SourceTree)
    (c cpp : Except Failure Compiler) :
    (∃ c' cpp', c = .ok c' ∧ cpp = .ok cpp' ∧ assemble t c cpp = .ok ⟨t, c', cpp'⟩) ∨
      ∃ e, assemble t c cpp = .error e ∧ (c = .error e ∨ cpp = .error e) := by
  rcases ha with rfl | rfl
  · rcases c with e | c
    · exact .inr ⟨e, rfl, .inl rfl⟩
    · rcases cpp with e | cpp
      · exact .inr ⟨e, rfl, .inr rfl⟩
      · exact .inl ⟨c, cpp, rfl, rfl, rfl⟩
  · rcases c with e | c
    · rcases cpp with e' | cpp
      · refine .inr ⟨_, rfl, ?_⟩
        split
        · exact .inr rfl
        · exact .inl rfl
      · exact .inr ⟨e, rfl, .inl rfl⟩
    · rcases cpp with e | cpp
      · exact .inr ⟨e, rfl, .inr rfl⟩
      · exact .inl ⟨c, cpp, rfl, rfl, rfl⟩

theorem finding_assemble (ha : assemble = ofCompilers ∨ assemble = ofProcesses) {t : SourceTree}
    (ht : (SourceTree.survey s root settings).MayEnd R (.ok (some t)))
    {c cpp : Except Failure Compiler} (hc : (t.compiler s .c).MayEnd R c)
    (hcpp : (t.compiler s .cpp).MayEnd R cpp) :
    Finding R s root settings ((assemble t c cpp).map some) := by
  rcases assemble_cases ha t c cpp with ⟨c', cpp', rfl, rfl, h⟩ | ⟨e, h, rfl | rfl⟩
  · rw [h]
    refine .built ht fun l => ?_
    cases l with
    | c => exact hc
    | cpp => exact hcpp
  · rw [h]
    exact .compilerFailed .c ht hc
  · rw [h]
    exact .compilerFailed .cpp ht hcpp

/-- A look in which requests are answered as they come ends in one of its findings, and keeps what
the answerer keeps. -/
theorem finding_discoverWith (ha : assemble = ofCompilers ∨ assemble = ofProcesses) {σ : Type}
    {answerer : Answerer (StateM σ)} {I : σ → Prop}
    (hI : ∀ q w, I w → I ((answerer q).run w).2) {w : σ} (hw : I w) :
    Finding (Inquiry.repliesOf answerer I) s root settings
      ((discoverWith answerer s root settings assemble).run w).1 := by
  have hsurvey := Inquiry.mayEnd_conduct hI (SourceTree.survey s root settings) {} hw
  rw [discoverWith, StateT.run_bind]
  generalize ((SourceTree.survey s root settings).conduct answerer {}).run w = r at hsurvey ⊢
  obtain ⟨⟨o, cache⟩, w₁⟩ := r
  obtain ⟨hsurvey, hw₁⟩ := hsurvey
  rcases o with e | _ | tree
  · exact .surveyFailed hsurvey
  · exact .noTree hsurvey
  · have hc := Inquiry.mayEnd_conduct hI (tree.compiler s .c) {} hw₁
    have hcpp := Inquiry.mayEnd_conduct hI (tree.compiler s .cpp) {} hc.2
    exact finding_assemble ha hsurvey hc.1 hcpp.1

end Build

end BuildLens
