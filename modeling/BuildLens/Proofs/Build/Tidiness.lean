import BuildLens.Proofs.Build.Determinacy
import BuildLens.Proofs.Compiler.Macros

/-!
# Inquiries that keep nothing when they fail

An inquiry into a file keeps the make fragment that it has read. On systems other than Windows
nothing fails after that: every flag of the file can be read, as all paths are those of POSIX
systems. So an inquiry that fails has left nothing in memory.

Main definitions:

- `Inquiry.Safe`: the inquiry cannot fail.
- `Inquiry.Tidy`: the inquiry cannot fail once it has kept something.

Main results:

- `Inquiry.Tidy.settle`: a tidy inquiry that may still fail has kept nothing.
- `Build.configure_tidy`: the inquiry into a file is tidy.
-/

namespace BuildLens

namespace Inquiry

variable {α β : Type}

/-- The inquiry cannot fail, whatever the replies are. -/
def Safe (i : Inquiry α) : Prop := ∀ f, ¬ i.MayEnd .all (.error f)

/-- The inquiry cannot fail once it has changed what is kept. -/
inductive Tidy : Inquiry α → Prop where
  | answer (a : α) : Tidy (.answer a)
  | failed (f : Failure) : Tidy (.failed f)
  | ask {q : Request} {next : q.Reply → Inquiry α} (h : ∀ r, Tidy (next r)) : Tidy (.ask q next)
  | recall {path : FilePath} {next : Option CachedFragment → Inquiry α}
    (h : ∀ kept, Tidy (next kept)) : Tidy (.recall path next)
  | store {path : FilePath} {fragment : Option (Int × Variables)} {next : Inquiry α}
    (h : next.Safe) : Tidy (.store path fragment next)

namespace Safe

/-- An answer is safe. -/
theorem answer (a : α) : (Inquiry.answer a).Safe := by
  intro f h
  cases mayEnd_answer.mp h

/-- Two safe inquiries, one after the other, are safe. -/
theorem bind {i : Inquiry α} {f : α → Inquiry β} (hi : i.Safe) (hf : ∀ a, (f a).Safe) :
    (i >>= f).Safe := by
  intro failure h
  rcases mayEnd_bind.mp h with ⟨a, -, ha⟩ | ⟨e, he, -⟩
  · exact hf a failure ha
  · exact hi e he

/-- A path that is made is safe. -/
theorem ofPath_ok {x : Except PathError α} {a : α} (h : x = .ok a) : (Inquiry.ofPath x).Safe := by
  subst h
  exact answer a

/-- A safe inquiry stays so when it goes on with what is kept. -/
theorem settle {i : Inquiry α} (h : i.Safe) (cache : FragmentCache) : (i.settle cache).1.Safe :=
  fun f hf => h f (mayEnd_of_settle hf)

/-- A safe inquiry stays so whatever reply it gets. -/
theorem next {q : Request} {next : q.Reply → Inquiry α} (h : (Inquiry.ask q next).Safe)
    (r : q.Reply) : (next r).Safe :=
  fun f hf => h f (.ask trivial hf)

end Safe

namespace Tidy

/-- A tidy inquiry stays so whatever reply it gets. -/
theorem next {q : Request} {next : q.Reply → Inquiry α} (h : (Inquiry.ask q next).Tidy)
    (r : q.Reply) : (next r).Tidy := by
  cases h with
  | ask h => exact h r

/-- What only asks keeps nothing. -/
theorem of_direct {i : Inquiry α} (h : i.Direct) : i.Tidy := by
  induction h with
  | answer a => exact .answer a
  | failed e => exact .failed e
  | ask _ ih => exact .ask ih

/-- An inquiry that only asks, and another one after it. -/
theorem bind_direct {i : Inquiry α} {f : α → Inquiry β} (hi : i.Direct)
    (hf : ∀ a, (f a).Tidy) : (i >>= f).Tidy := by
  change (i.bind f).Tidy
  induction hi with
  | answer a => exact hf a
  | failed e => exact .failed e
  | ask _ ih => exact .ask ih

/-- An inquiry, and another one after it that cannot fail. -/
theorem bind {i : Inquiry α} {f : α → Inquiry β} (hi : i.Tidy) (hf : ∀ a, (f a).Tidy)
    (hsafe : ∀ a, (f a).Safe) : (i >>= f).Tidy := by
  change (i.bind f).Tidy
  induction hi with
  | answer a => exact hf a
  | failed e => exact .failed e
  | ask _ ih => exact .ask ih
  | «recall» _ ih => exact .recall ih
  | store h => exact .store (Safe.bind h hsafe)

/-- An inquiry that goes on has kept nothing, unless it cannot fail any more. -/
theorem settle {i : Inquiry α} (h : i.Tidy) (cache : FragmentCache) :
    ((i.settle cache).2 = cache ∧ (i.settle cache).1.Tidy) ∨ (i.settle cache).1.Safe := by
  induction h generalizing cache with
  | answer a => exact .inl ⟨rfl, .answer a⟩
  | failed f => exact .inl ⟨rfl, .failed f⟩
  | ask h _ => exact .inl ⟨rfl, .ask h⟩
  | «recall» _ ih => exact ih _ cache
  | store h => exact .inr (h.settle _)

end Tidy

end Inquiry

open Inquiry (Direct Tidy Safe)

/-! ## Make fragments -/

/-- A fragment is fetched tidily. -/
theorem fetchFragment_tidy (path : FilePath) : (fetchFragment path).Tidy := by
  unfold fetchFragment
  refine Tidy.bind_direct (.request _) fun r => ?_
  split
  · exact .store (.answer none)
  · exact .failed _
  · refine .recall fun kept => ?_
    split
    · exact .answer _
    · refine Tidy.bind_direct (readFragment_direct path) fun r => ?_
      split
      · exact .store (.answer _)
      · exact .failed _

/-! ## Paths of POSIX systems -/

/-- Away from Windows every path that is read is one of POSIX. -/
theorem FilePath.posix_of_ofUnixText {platform : Platform} (hp : platform ≠ .windows) {s : String}
    {p : FilePath} (h : ofUnixText platform s = .ok p) : ∃ q, p = .posix q := by
  rw [ofUnixText_eq_ofText hp, ofText] at h
  cases hs : ofText? platform s with
  | none =>
    rw [hs] at h
    cases h
  | some p' =>
    rw [hs] at h
    cases h
    rw [ofText?_posix hp] at hs
    obtain ⟨q, -, hq⟩ := Option.map_eq_some_iff.mp hs
    exact ⟨q, hq.symm⟩

/-- Away from Windows the directories of a tree are paths of POSIX. -/
theorem SourceTree.posix_of_directories {platform : Platform} (hp : platform ≠ .windows)
    {e : MachEnvironment} {objects sources : FilePath}
    (h : directories platform e = .ok (objects, sources)) :
    (∃ p, objects = .posix p) ∧ ∃ p, sources = .posix p := by
  unfold directories at h
  by_cases hobjects : e.objectDirectory.isEmpty = true
  · rw [if_pos hobjects] at h
    cases h
  · by_cases hsources : e.sourceDirectory.isEmpty = true
    · rw [if_neg hobjects, if_pos hsources] at h
      cases h
    · rw [if_neg hobjects, if_neg hsources] at h
      cases ho : FilePath.ofUnixText platform e.objectDirectory with
      | error err =>
        rw [ho] at h
        cases h
      | ok p =>
        cases hs : FilePath.ofUnixText platform e.sourceDirectory with
        | error err =>
          rw [ho, hs] at h
          cases h
        | ok q =>
          rw [ho, hs] at h
          cases h
          exact ⟨FilePath.posix_of_ofUnixText hp ho, FilePath.posix_of_ofUnixText hp hs⟩

namespace Build

variable {b : Build} {s : Surroundings} {source : FilePath} {classifier : Classifier}

/-- The directories of a build that was found on a system other than Windows. -/
theorem Finding.posix_directories {R : Replies} {root : FilePath} {settings : FolderSettings}
    (hp : s.platform ≠ .windows) (h : Finding R s root settings (.ok (some b))) :
    (∃ p, b.tree.objectDirectory = .posix p) ∧ ∃ p, b.root = .posix p := by
  cases h with
  | built hsurvey hcompilers =>
    obtain ⟨-, ⟨e, hdirectories⟩, -⟩ := SourceTree.survey_mayEnd_some hsurvey
    exact SourceTree.posix_of_directories hp hdirectories

/-- The directory in which a file is built is one of a POSIX system, if the object directory is. -/
theorem exists_objectDirectoryFor (source : FilePath) (h : ∃ p, b.tree.objectDirectory = .posix p) :
    ∃ p, b.objectDirectoryFor source = .ok (.posix p) := by
  obtain ⟨p, hp⟩ := h
  unfold objectDirectoryFor
  split
  · next hunder =>
    obtain ⟨parts, hparts⟩ := Option.isSome_iff_exists.mp hunder
    refine ⟨p.join parts, ?_⟩
    rw [FilePath.rebase, hparts, hp]
    rfl
  · exact ⟨p, by rw [hp]⟩

/-- With a POSIX directory the flags of a file can always be resolved. -/
theorem exists_configure (hp : s.platform ≠ .windows) (c : Compiler) (cwd : Posix.Path)
    (flags : List Argument) :
    ∃ config, c.configure s.platform flags (some (.posix cwd)) = .ok config := by
  have hcwd : ∀ p, some (FilePath.posix cwd) ≠ some (.windows p) := fun _ h => by cases h
  obtain ⟨file, hfile⟩ := FileConfig.exists_addArguments_eq_ok hp hcwd c.dialect {} flags
  refine ⟨.merge c.defaults file c.traits, ?_⟩
  rw [Compiler.configure, Compiler.fileConfig, hfile]
  rfl

/-- The fragment of a file is found tidily. -/
theorem backend_tidy (b : Build) (source : FilePath) : (b.backend source).Tidy := by
  unfold backend
  split
  · exact .answer none
  · exact Tidy.bind_direct (.ofPath _) fun directory =>
      Tidy.bind_direct (.ofPath _) fun path => fetchFragment_tidy path

/-- The flags of a file are found tidily, wherever they come from. -/
theorem flags_tidy (b : Build) (s : Surroundings) (source : FilePath) (l : Language) :
    (b.flags s source l).Tidy := by
  unfold flags
  split
  · refine .of_direct (Direct.bind ?_ fun _ => .pure _)
    exact (b.tree.mach.ask_direct s _).bind fun _ => .pure _
  · exact (b.backend_tidy source).bind (fun _ => .answer _) fun _ => .answer _

/-- The compiler and the flags of a file are found tidily. -/
theorem resolve_tidy (b : Build) (s : Surroundings) (hclassifier : (classifier source).Direct) :
    (b.resolve s classifier source).Tidy := by
  refine Tidy.bind_direct hclassifier fun l => ?_
  cases l with
  | none => exact .answer none
  | some l => exact (b.flags_tidy s source l).bind (fun _ => .answer _) fun _ => .answer _

/-- On systems other than Windows an inquiry into a file that fails has kept nothing, unless the
way of telling its language does. -/
theorem configure_tidy (hp : s.platform ≠ .windows)
    (hobjects : ∃ p, b.tree.objectDirectory = .posix p)
    (hclassifier : (classifier source).Direct) : (b.configure s classifier source).Tidy := by
  obtain ⟨cwd, hcwd⟩ := exists_objectDirectoryFor source hobjects
  refine (b.resolve_tidy s hclassifier).bind (fun found => ?_) fun found => ?_
  · cases found with
    | none => exact .answer none
    | some found =>
      exact .of_direct ((Direct.ofPath _).bind fun _ => (Direct.ofPath _).bind fun _ => .pure _)
  · cases found with
    | none => exact .answer none
    | some found =>
      obtain ⟨compiler, flags⟩ := found
      obtain ⟨config, hconfig⟩ := exists_configure hp compiler cwd flags
      dsimp only
      rw [hcwd]
      change (Inquiry.ofPath (compiler.configure s.platform flags (some (.posix cwd))) >>=
        fun config => pure (some config)).Safe
      exact (Safe.ofPath_ok hconfig).bind fun _ => .answer _

end Build

end BuildLens
