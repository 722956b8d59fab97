import BuildLens.Proofs.Build.Discovery
import BuildLens.Proofs.Inquiry.Answered

/-!
# Looks at a folder that always find the same

The inquiries of a look at a folder keep nothing in memory. So, where files do not change and
commands always answer the same, there is one thing that a look can find; only which of two
failures comes first may differ.

Main results:

- `SourceTree.survey_direct`, `SourceTree.compiler_direct`: the inquiries of a look only ask.
- `Build.Finding.determined`: two looks find the same build or fail both.
- `Build.finding_discoverWith_id`: what a look finds where every request has one reply.
-/

namespace BuildLens

open Inquiry (Direct)

/-! ## The inquiries of a look -/

/-- The build tool is found without what is kept. -/
theorem Mach.find_direct (root : FilePath) (settings : FolderSettings) :
    (find root settings).Direct := by
  refine (Direct.ofPath _).bind fun path => (Direct.request _).bind fun there => ?_
  cases there <;> exact .pure _

/-- The build tool is asked without what is kept. -/
theorem Mach.ask_direct (m : Mach) (s : Surroundings) (args : List Argument) :
    (m.ask s args).Direct := by
  refine (Direct.ofPath _).bind fun command => (Direct.request _).bind fun r => ?_
  split
  · split <;> exact .failed _
  · exact .failed _
  · split
    · exact .failed _
    · exact .answer _

theorem Mach.environment_direct (m : Mach) (s : Surroundings) : (m.environment s).Direct :=
  (m.ask_direct s _).bind fun _ => .ofExcept _ _

/-- A fragment is read without what is kept. -/
theorem readFragment_direct (path : FilePath) : (readFragment path).Direct := by
  refine (Direct.request _).bind fun r => ?_
  split <;> exact .pure _

namespace SourceTree

/-- The root is checked without what is kept. -/
theorem checkRoot_direct (root sources : FilePath) : (checkRoot root sources).Direct := by
  unfold checkRoot
  split
  · exact .pure _
  · refine (Direct.request _).bind fun there => (Direct.request _).bind fun here => ?_
    split
    · exact .failed _
    · exact .pure _

/-- The configuration of a tree is read without what is kept. -/
theorem readConfiguration_direct (objects : FilePath) : (readConfiguration objects).Direct := by
  refine (Direct.ofPath _).bind fun path => (readFragment_direct path).bind fun r => ?_
  split
  · exact .pure _
  · split <;> exact .failed _

/-- A folder is surveyed without what is kept. -/
theorem survey_direct (s : Surroundings) (root : FilePath) (settings : FolderSettings) :
    (survey s root settings).Direct := by
  refine (Mach.find_direct root settings).bind fun tool => ?_
  cases tool with
  | none => exact .pure _
  | some mach =>
    refine (mach.environment_direct s).bind fun environment => (Direct.ofExcept _ _).bind ?_
    rintro ⟨objects, sources⟩
    exact (checkRoot_direct root sources).bind fun _ =>
      (readConfiguration_direct objects).bind fun _ => .pure _

end SourceTree

theorem Compiler.discover_direct (platform : Platform) (command : List Argument) (l : Language)
    (type windowsSdk : Option String) (macosSdk : Option FilePath) :
    (discover platform command l type windowsSdk macosSdk).Direct :=
  (Direct.ofExcept _ _).bind fun _ => (Direct.ofExcept _ _).bind fun _ =>
    ((Direct.request _).bind fun _ => .ofExcept _ _).bind fun _ =>
      (Direct.ofExcept _ _).bind fun _ => .pure _

/-- A compiler is found without what is kept. -/
theorem SourceTree.compiler_direct (t : SourceTree) (s : Surroundings) (l : Language) :
    (t.compiler s l).Direct :=
  (Direct.ofExcept _ _).bind fun _ => Compiler.discover_direct _ _ _ _ _ _

/-! ## What is found -/

namespace Build

variable {reply : (q : Request) → q.Reply} {s : Surroundings} {root : FilePath}
  {settings : FolderSettings}

/-- Builds are the same if their trees and compilers are. -/
theorem ext_compilers {b b' : Build} (htree : b.tree = b'.tree)
    (h : ∀ l, b.compiler l = b'.compiler l) : b = b' := by
  obtain ⟨t, c, cpp⟩ := b
  obtain ⟨t', c', cpp'⟩ := b'
  obtain rfl : t = t' := htree
  obtain rfl : c = c' := h .c
  obtain rfl : cpp = cpp' := h .cpp
  rfl

/-- Where every request has one reply two looks find the same build, or none, or both fail. -/
theorem Finding.determined {o o' : Except Failure (Option Build)}
    (h : Finding (.always reply) s root settings o)
    (h' : Finding (.always reply) s root settings o') :
    o = o' ∨ ∃ e e', o = .error e ∧ o' = .error e' := by
  have hsurvey {x y} (hx : (SourceTree.survey s root settings).MayEnd (.always reply) x)
      (hy : (SourceTree.survey s root settings).MayEnd (.always reply) y) : x = y := by
    rw [(SourceTree.survey_direct s root settings).mayEnd_always_iff] at hx hy
    rw [hx, hy]
  have hcompiler {t : SourceTree} {l : Language} {x y}
      (hx : (t.compiler s l).MayEnd (.always reply) x)
      (hy : (t.compiler s l).MayEnd (.always reply) y) : x = y := by
    rw [(t.compiler_direct s l).mayEnd_always_iff] at hx hy
    rw [hx, hy]
  cases h with
  | noTree h =>
    cases h' with
    | noTree h' => exact .inl rfl
    | surveyFailed h' => cases hsurvey h h'
    | compilerFailed l h' _ => cases hsurvey h h'
    | built h' _ => cases hsurvey h h'
  | surveyFailed h =>
    cases h' with
    | noTree h' => cases hsurvey h h'
    | surveyFailed h' => exact .inr ⟨_, _, rfl, rfl⟩
    | compilerFailed l h' _ => cases hsurvey h h'
    | built h' _ => cases hsurvey h h'
  | compilerFailed l h hl =>
    cases h' with
    | noTree h' => cases hsurvey h h'
    | surveyFailed h' => cases hsurvey h h'
    | compilerFailed l' h' _ => exact .inr ⟨_, _, rfl, rfl⟩
    | built h' hl' =>
      cases hsurvey h h'
      cases hcompiler hl (hl' l)
  | built h hl =>
    cases h' with
    | noTree h' => cases hsurvey h h'
    | surveyFailed h' => cases hsurvey h h'
    | compilerFailed l' h' hl' =>
      cases hsurvey h h'
      cases hcompiler hl' (hl l')
    | built h' hl' =>
      left
      have htree := Option.some.inj (Except.ok.inj (hsurvey h h'))
      rw [ext_compilers htree fun l => Except.ok.inj (hcompiler (hl l) (htree ▸ hl' l))]

/-- A look where every request has one reply finds what is to be found there. -/
theorem finding_discoverWith_id {assemble : SourceTree → Except Failure Compiler →
      Except Failure Compiler → Except Failure Build}
    (ha : assemble = ofCompilers ∨ assemble = ofProcesses) :
    Finding (.always reply) s root settings
      (discoverWith (m := Id) reply s root settings assemble) := by
  have hmay {α : Type} {i : Inquiry α} (h : i.Direct) :
      i.MayEnd (.always reply) (i.conduct (m := Id) reply {}).1 := by
    have hanswered : i.conduct (m := Id) reply {} = (i.eval reply, {}) := h.answered_eq
    rw [hanswered]
    exact h.mayEnd_always_iff.mpr rfl
  have hsurvey := hmay (SourceTree.survey_direct s root settings)
  unfold discoverWith
  generalize (SourceTree.survey s root settings).conduct (m := Id) reply {} = ending
    at hsurvey ⊢
  obtain ⟨o, cache⟩ := ending
  rcases o with e | _ | tree
  · exact .surveyFailed hsurvey
  · exact .noTree hsurvey
  · exact finding_assemble ha hsurvey (hmay (tree.compiler_direct s .c))
      (hmay (tree.compiler_direct s .cpp))
end Build

end BuildLens
