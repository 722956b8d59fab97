import BuildLens.Proofs.Workspace.NewestSettings
import BuildLens.Proofs.Workspace.Turns

/-!
# What is known of a folder stays known

What is known of the folder of a model is told by the outcome of the one look at it. Nothing that
happens afterwards, be it to this folder or to others, makes anything else known of it; nor does
anything change what is known of the surroundings, or the way of telling the language of a file.

Main results:

- `Engine.Turn.phaseOf_eq`: a turn leaves what is known of a model, unless its task looks at it.
- `Engine.recognized_step`, `Engine.recognized_run`: a build tree stays the same build tree.
- `Engine.classifier_run`: the way of telling languages stays.
-/

namespace BuildLens

/-! ## The phases of models after one turn -/

section Phase

variable {w w' : Workspace} {m n : ModelId} {p : Purpose} {eff : Effect}

/-- The outcome of a look at one model is not that of another. -/
theorem Workspace.phaseOf_concluded_of_ne (w : Workspace) (o : Except Failure (Option Build))
    (h : n ≠ m) : (w.concluded n o).phaseOf m = w.phaseOf m := by
  rw [phaseOf, concluded, model?_modifyModel, if_neg h]
  rfl

/-- A new model makes nothing known of the older ones. -/
theorem Workspace.phaseOf_begun_of_lt (f : Folder) (h : m < w.models.length) :
    (w.begun f).phaseOf m = w.phaseOf m := by
  rw [phaseOf, model?_begun_of_lt f h]
  rfl

namespace Engine

/-- To take in the outcome of a look at one model makes nothing known of another. -/
theorem Concludes.phaseOf_eq {o : Except Failure (Option Build)} (h : Concludes w p n o w' eff)
    (hne : n ≠ m) : w'.phaseOf m = w.phaseOf m :=
  (h.calm.phaseOf_eq m).trans (w.phaseOf_concluded_of_ne o hne)

/-- An inquiry into one folder makes nothing known of another model. -/
theorem Surveys.phaseOf_eq {i : Inquiry (Option SourceTree)} (h : Surveys w p n i w' eff)
    (hne : n ≠ m) : w'.phaseOf m = w.phaseOf m := by
  cases h with
  | asks hi hw => exact hw.phaseOf_eq m
  | finds hi hw => exact hw.phaseOf_eq m
  | lacks hi hw h => exact (h.phaseOf_eq hne).trans (hw.phaseOf_eq m)
  | fails hi hw h => exact (h.phaseOf_eq hne).trans (hw.phaseOf_eq m)

/-- An addition that begins makes nothing known of the models that are there. -/
theorem Adds.phaseOf_eq {folder : EditorFolder} (h : Adds w folder w' eff)
    (hm : m < w.models.length) : w'.phaseOf m = w.phaseOf m := by
  cases h with
  | refused => rfl
  | known => rfl
  | begins hpath hnone h =>
    exact (h.phaseOf_eq (Nat.ne_of_gt hm)).trans (Workspace.phaseOf_begun_of_lt _ hm)

/-- A rebuild that begins makes nothing known of the models that are there. -/
theorem Rebuilds.phaseOf_eq {old : ModelId} (h : Rebuilds w old w' eff)
    (hm : m < w.models.length) : w'.phaseOf m = w.phaseOf m := by
  cases h with
  | missing => rfl
  | begins hold h => exact (h.phaseOf_eq (Nat.ne_of_gt hm)).trans (Workspace.phaseOf_begun_of_lt _ hm)

/-- Children that have ended well make something known only of the model that they were asked
about. -/
theorem Gathered.phaseOf_eq {outcomes : List Outcome} {children : List TaskId}
    {noted : Option Failure} {after : AfterGathering} (h : Gathered w outcomes after w' eff)
    (hrole : ∀ p, (Activity.gathering children noted after).role ≠ .looking p m) :
    w'.phaseOf m = w.phaseOf m := by
  cases h with
  | @compilers p n _ _ _ _ _ ho h =>
    have hne : n ≠ m := fun heq => hrole p (heq ▸ rfl)
    exact h.phaseOf_eq hne
  | stuck => rfl
  | ends hafter hw => exact hw.phaseOf_eq m

/-- A child that has failed makes something known only of the model that it was asked about. -/
theorem Failed.phaseOf_eq {f : Failure} {children : List TaskId} {noted : Option Failure}
    {after : AfterGathering} (h : Failed w f after w' eff)
    (hrole : ∀ p, (Activity.gathering children noted after).role ≠ .looking p m) :
    w'.phaseOf m = w.phaseOf m := by
  cases h with
  | @compilers p n _ _ _ h =>
    have hne : n ≠ m := fun heq => hrole p (heq ▸ rfl)
    exact h.phaseOf_eq hne
  | ends hafter => rfl

/-- A turn leaves what is known of a model, unless its task looks at that model. -/
theorem Turn.phaseOf_eq {answers : Answers} {outcomes : Option (List Outcome)} {a : Activity}
    (h : Turn w answers outcomes a w' eff) (hm : m < w.models.length)
    (hrole : ∀ p, a.role ≠ .looking p m) : w'.phaseOf m = w.phaseOf m := by
  have hstays (h : w' = w ∧ eff = .stay) : w'.phaseOf m = w.phaseOf m := by rw [h.1]
  cases a with
  | adding folder => exact Adds.phaseOf_eq h hm
  | rebuilding old => exact Rebuilds.phaseOf_eq h hm
  | asking tree l => rw [h.1]
  | providing uri =>
    cases h with
    | unanswered => rfl
    | begins hasked h => exact (Workspace.Calm.settled w _ _).phaseOf_eq m
  | surveying p n i =>
    cases i with
    | ask q next =>
      have hne : n ≠ m := fun heq => hrole p (heq ▸ rfl)
      exact Surveys.phaseOf_eq h hne
    | _ => exact hstays h
  | discovering i =>
    cases i with
    | ask q next => rw [h.1]
    | _ => exact hstays h
  | telling p n => exact h.1.phaseOf_eq m
  | registering after => cases after <;> exact h.1.phaseOf_eq m
  | gathering children noted after =>
    cases noted with
    | some f => exact Failed.phaseOf_eq h hrole
    | none =>
      cases outcomes with
      | none => exact hstays h
      | some outcomes => exact Gathered.phaseOf_eq h hrole
  | resolving uri path n i =>
    cases i with
    | ask q next =>
      obtain ⟨rfl, -⟩ := h
      exact (Workspace.Calm.settled w _ _).phaseOf_eq m
    | _ => exact hstays h
  | configuring n i =>
    cases i with
    | ask q next => exact h.1.phaseOf_eq m
    | _ => exact hstays h
  | compiling n i =>
    cases i with
    | ask q next => exact h.1.phaseOf_eq m
    | _ => exact hstays h
  | done r => exact hstays h

/-- An operation that begins makes nothing known of the models that are there. -/
theorem Begins.phaseOf_eq {op : Operation} (h : Begins w op w' eff) (hm : m < w.models.length) :
    w'.phaseOf m = w.phaseOf m := by
  cases op with
  | add folder => exact Adds.phaseOf_eq h hm
  | _ => exact h.1.phaseOf_eq m

end Engine

end Phase

/-! ## Build trees in runs -/

namespace Workspace

variable {w : Workspace} {m : ModelId} {b : Build}

/-- A model of which anything is known exists. -/
theorem exists_model?_of_phaseOf {phase : FolderPhase} (h : w.phaseOf m = phase)
    (hne : .unprobed ≠ phase) : ∃ f, w.model? m = some f ∧ f.phase = phase := by
  rw [phaseOf] at h
  cases hf : w.model? m with
  | none =>
    rw [hf] at h
    exact absurd h hne
  | some f =>
    rw [hf] at h
    exact ⟨f, rfl, h⟩

/-- A model that is recognized exists. -/
theorem exists_model?_of_recognized (h : w.phaseOf m = .recognized b) :
    ∃ f, w.model? m = some f ∧ f.phase = .recognized b :=
  exists_model?_of_phaseOf h nofun

/-- A model that is recognized is known to be that of a build tree. -/
theorem isBuildTree_of_recognized (h : w.phaseOf m = .recognized b) : w.isBuildTree m = true := by
  obtain ⟨f, hf, hphase⟩ := exists_model?_of_recognized h
  simp [isBuildTree, hf, Folder.isBuildTree, Folder.build?, hphase]

end Workspace

namespace Engine

variable {e : Engine} {m : ModelId} {b : Build}

/-- A model that is known to be that of a build tree is not looked at. -/
theorem role_ne_looking (he : e.view.Sound) (hm : e.workspace.phaseOf m = .recognized b)
    {id : TaskId} {t : Task} (ht : e.task? id = some t) (p : Purpose) :
    t.activity.role ≠ .looking p m := by
  intro hrole
  have hmem : .looking p m ∈ e.view.roles :=
    hrole ▸ List.mem_map_of_mem (List.mem_of_getElem? ht)
  have hundecided : e.workspace.isBuildTree m = false := he.undecided p m hmem
  rw [Workspace.isBuildTree_of_recognized hm] at hundecided
  cases hundecided

/-- A build tree stays the same build tree. -/
theorem recognized_step (he : e.view.Sound) (hm : e.workspace.phaseOf m = .recognized b)
    (event : Event) : (e.step event).workspace.phaseOf m = .recognized b := by
  have hlt : m < e.workspace.models.length := by
    obtain ⟨f, hf, -⟩ := Workspace.exists_model?_of_recognized hm
    exact Workspace.lt_of_model? hf
  cases event with
  | call op =>
    obtain ⟨w', eff, h, heq⟩ := exists_begins e op
    rw [step, heq, workspace_take]
    exact (h.phaseOf_eq hlt).trans hm
  | resume id answers =>
    cases ht : e.task? id with
    | none =>
      rw [step, resume_of_task?_eq_none ht]
      exact hm
    | some t =>
      obtain ⟨w', eff, h, heq⟩ := exists_turn ht answers
      rw [step, heq, workspace_take]
      exact (h.phaseOf_eq hlt (role_ne_looking he hm ht)).trans hm

/-- A model that is recognized stays so throughout a run, as the same build. -/
theorem recognized_run (he : e.view.Sound) (hm : e.workspace.phaseOf m = .recognized b)
    (events : List Event) : (e.run events).workspace.phaseOf m = .recognized b := by
  have hrun : (e.run events).view.Sound ∧ (e.run events).workspace.phaseOf m = .recognized b :=
    run_keeps (I := fun e => e.view.Sound ∧ e.workspace.phaseOf m = .recognized b)
      (fun _ event _ h => ⟨h.1.step event, recognized_step h.1 h.2 event⟩) ⟨he, hm⟩
  exact hrun.2

end Engine

/-! ## The way of telling languages -/

section Classifier

variable {input : Input} {v v' : View}

/-- A move leaves the way of telling the language of a file. -/
theorem Move.classifier_eq (h : Move input v v') :
    v'.workspace.context.classifier = v.workspace.context.classifier := by
  cases h with
  | steady h =>
    cases h with
    | follow w R h => rw [Workspace.retire_eq]
    | register w R id hid => rw [Workspace.registered_eq]
    | _ => rfl
  | clearing h =>
    cases h with
    | empty w R => rw [Workspace.emptied_eq]
    | _ => rfl

namespace Engine

/-- A run leaves the way of telling the language of a file. -/
theorem classifier_run (e : Engine) (events : List Event) :
    (e.run events).workspace.context.classifier = e.workspace.context.classifier :=
  run_keeps (I := fun u => u.workspace.context.classifier = e.workspace.context.classifier)
    (fun _ _ _ hu => step_keeps
      (I := fun v => v.workspace.context.classifier = e.workspace.context.classifier)
      (fun _ _ h hv => h.classifier_eq.trans hv)
      (fun _ _ h hv => (congrArg Context.classifier h.context_eq).trans hv) hu) rfl

end Engine

end Classifier

end BuildLens
