import BuildLens.Proofs.Workspace.Exploration
import BuildLens.Proofs.Workspace.NewestSettings

/-!
# Folders that are added side by side

Folders with different roots are added by tasks of their own, all at once or one alone. This module
follows the tasks through any order of turns: each adds its own folder and touches no other one, and
a folder whose look fails ends its task like any other.

Main definitions:

- `Workspace.Onward`: a change after which what was known is still known.
- `Workspace.Adding`: a task is on its way to add a folder.
- `Engine.Batch`: the tasks that add the folders of a plan, and those that help them.

Main results:

- `Engine.Batch.resume`: any turn of any task keeps to the plan.
-/

namespace BuildLens

variable {R : Replies}

/-! ## Changes that forget nothing -/

/-- The folders that are there stay, and what is known of one is not unknown again. -/
def Workspace.Onward (w w' : Workspace) : Prop :=
  ∀ m f, w.model? m = some f → ∃ f', w'.model? m = some f' ∧ f'.source = f.source ∧
    f'.root = f.root ∧ f'.settings = f.settings ∧ (f.phase ≠ .probing → f'.phase ≠ .probing)

namespace Workspace.Onward

variable {w w' w'' : Workspace}

/-- What goes onward twice goes onward. -/
theorem trans (h : w.Onward w') (h' : w'.Onward w'') : w.Onward w'' := by
  intro m f hf
  obtain ⟨f', hf', hsource, hroot, hsettings, hphase⟩ := h m f hf
  obtain ⟨f'', hf'', hsource', hroot', hsettings', hphase'⟩ := h' m f' hf'
  exact ⟨f'', hf'', hsource'.trans hsource, hroot'.trans hroot, hsettings'.trans hsettings,
    fun hne => hphase' (hphase hne)⟩

/-- A calm change goes onward. -/
theorem of_calm (h : w.Calm w') : w.Onward w' := by
  intro m f hf
  have hbare := h.models m
  rw [hf] at hbare
  obtain ⟨g, hg, hgf⟩ := Option.map_eq_some_iff.mp hbare
  obtain ⟨hsource, hroot, hsettings, -, hphase, -⟩ := Folder.mk.inj hgf
  exact ⟨g, hg, hsource, hroot, hsettings, fun hne => hphase ▸ hne⟩

theorem refl (w : Workspace) : w.Onward w := of_calm (.refl w)

/-- A new folder leaves the others as they are. -/
theorem admitted (w : Workspace) (source : EditorFolder) (root : FilePath) :
    w.Onward (w.admitted source root) := by
  intro m f hf
  refine ⟨f, ?_, rfl, rfl, rfl, id⟩
  exact (model?_begun_of_lt (w.fresh source root) (lt_of_model? hf)).trans hf

/-- The outcome of a look makes something known. -/
theorem phaseOf_ne_probing (o : Except Failure (Option Build)) : Folder.phaseOf o ≠ .probing := by
  rcases o with e | _ | b <;> exact FolderPhase.noConfusion

/-- An outcome that is taken in makes nothing unknown. -/
theorem reported (w : Workspace) (m : ModelId) (o : Except Failure (Option Build)) :
    w.Onward (w.reported m o) := by
  intro n f hf
  rw [model?_reported, hf]
  split
  · exact ⟨_, rfl, rfl, rfl, rfl, fun _ => phaseOf_ne_probing o⟩
  · exact ⟨f, rfl, rfl, rfl, rfl, id⟩

end Workspace.Onward

/-! ## The task that adds a folder -/

/-- A folder of a plan, with the path of its root and the settings that hold for it. -/
structure Planned where
  source : EditorFolder
  root : FilePath
  settings : FolderSettings

/-- The path and the settings are those of the folder. -/
structure Planned.Fits (context : Context) (x : Planned) : Prop where
  path : x.source.path context.surroundings.platform = .ok x.root
  settings : x.settings = context.folderSettings x.root

/-- A model is that of a folder of a plan. -/
def Workspace.Has (w : Workspace) (x : Planned) (m : ModelId) : Prop :=
  ∃ f, w.model? m = some f ∧ f.source = x.source ∧ f.root = x.root ∧ f.settings = x.settings

/-- A look at the folder of a model has ended. -/
def Workspace.Looked (w : Workspace) (m : ModelId) : Prop :=
  ∀ f, w.model? m = some f → f.phase ≠ .probing

/-- A task is on its way to add a folder of a plan, or has added it. -/
def Workspace.Adding (w : Workspace) (x : Planned) : Activity → Prop
  | .adding folder => folder = x.source ∧ w.published.find? x.root.key = none
  | .surveying p m _ => p = .add ∧ w.published.find? x.root.key = some m ∧ w.Has x m
  | .gathering _ _ (.compilers p m _) =>
    p = .add ∧ w.published.find? x.root.key = some m ∧ w.Has x m
  | .telling p m => p = .add ∧ w.published.find? x.root.key = some m ∧ w.Has x m ∧ w.Looked m
  | .registering (.added m) => w.published.find? x.root.key = some m ∧ w.Has x m ∧ w.Looked m
  | .done (.ok (.folder m _)) => w.published.find? x.root.key = some m ∧ w.Has x m ∧ w.Looked m
  | _ => False

namespace Workspace

variable {w w' : Workspace} {x : Planned} {m : ModelId}

/-- A model stays that of its folder. -/
theorem Has.mono (h : w.Has x m) (hw : w.Onward w') : w'.Has x m := by
  obtain ⟨f, hf, hsource, hroot, hsettings⟩ := h
  obtain ⟨f', hf', hsource', hroot', hsettings', -⟩ := hw m f hf
  exact ⟨f', hf', hsource'.trans hsource, hroot'.trans hroot, hsettings'.trans hsettings⟩

/-- A look that has ended stays so. -/
theorem Looked.mono (h : w.Looked m) (hx : w.Has x m) (hw : w.Onward w') : w'.Looked m := by
  obtain ⟨f, hf, -⟩ := hx
  obtain ⟨f', hf', -, -, -, hphase⟩ := hw m f hf
  intro g hg
  obtain rfl : f' = g := Option.some.inj (hf'.symm.trans hg)
  exact hphase (h f hf)

/-- What other tasks do leaves the task that adds a folder on its way. -/
theorem Adding.mono {a : Activity} (h : w.Adding x a) (hw : w.Onward w')
    (hp : w'.published.find? x.root.key = w.published.find? x.root.key) : w'.Adding x a := by
  cases a with
  | adding folder => exact ⟨h.1, hp.trans h.2⟩
  | surveying p m i => exact ⟨h.1, hp.trans h.2.1, h.2.2.mono hw⟩
  | gathering children noted after =>
    cases after with
    | compilers p m tree => exact ⟨h.1, hp.trans h.2.1, h.2.2.mono hw⟩
    | _ => exact h.elim
  | telling p m => exact ⟨h.1, hp.trans h.2.1, h.2.2.1.mono hw, h.2.2.2.mono h.2.2.1 hw⟩
  | registering after =>
    cases after with
    | added m => exact ⟨hp.trans h.1, h.2.1.mono hw, h.2.2.mono h.2.1 hw⟩
    | _ => exact h.elim
  | done r =>
    rcases r with f | o
    · exact h.elim
    · cases o with
      | folder m phase => exact ⟨hp.trans h.1, h.2.1.mono hw, h.2.2.mono h.2.1 hw⟩
      | _ => exact h.elim
  | _ => exact h.elim

/-- A failure that is noted does not change what a task adds. -/
theorem Adding.after {t : Task} (h : w.Adding x t.activity) (parent : Option TaskId)
    (id child : TaskId) (failure : Option Failure) :
    w.Adding x (t.after parent id child failure).activity := by
  cases ha : t.activity with
  | gathering children noted after =>
    rw [Task.activity_after_gathering ha]
    rw [ha] at h
    cases after with
    | compilers p m tree => exact h
    | _ => exact h.elim
  | _ =>
    rw [Task.after_eq_self (by rw [ha]; rfl)]
    exact h

end Workspace

/-- The task asks for a compiler, or it has ended. -/
def Activity.helps : Activity → Bool
  | .asking .. => true
  | .discovering _ => true
  | .done _ => true
  | _ => false

/-- A task that asks for a compiler waits for no others. -/
theorem Activity.waits_of_helps {a : Activity} (h : a.helps = true) : a.waits = false := by
  cases a with
  | gathering => cases h
  | _ => rfl

/-! ## Its turns -/

namespace Engine

/-- The turn of a task that adds a folder. -/
structure Goes (x : Planned) (w w' : Workspace) (size : Nat) (a : Activity) (eff : Effect) :
    Prop where
  onward : w.Onward w'
  adding : w'.Adding x (eff.activity size a)
  failure : eff.failure? = none
  children : ∀ c ∈ eff.children, ∃ tree l, c = .asking tree l

namespace Goes

variable {x : Planned} {w w₁ w' : Workspace} {m : ModelId} {size : Nat} {a : Activity}
  {eff : Effect}

/-- What a task does after a change onward it does after what was before that. -/
theorem after (hw : w.Onward w₁) (h : Goes x w₁ w' size a eff) : Goes x w w' size a eff :=
  ⟨hw.trans h.onward, h.adding, h.failure, h.children⟩

/-- An addition that ends has published its folder. -/
theorem endsLook (hm : w.Has x m) (hl : w.Looked m) (hp : w'.published.find? x.root.key = some m)
    (hw : w.Calm w') (h : EndsLook m .add eff) : Goes x w w' size a eff := by
  have hon := Workspace.Onward.of_calm hw
  cases h with
  | added phase =>
    exact ⟨hon, ⟨hp, hm.mono hon, hl.mono hm hon⟩, rfl, fun _ h => absurd h List.not_mem_nil⟩
  | counted =>
    exact ⟨hon, ⟨hp, hm.mono hon, hl.mono hm hon⟩, rfl, fun _ h => absurd h List.not_mem_nil⟩

/-- An addition that takes in an outcome goes on to its end. -/
theorem concludes {o : Except Failure (Option Build)} (hm : w.Has x m)
    (hp : w'.published.find? x.root.key = some m) (h : Concludes w .add m o w' eff) :
    Goes x w w' size a eff := by
  have hon := Workspace.Onward.reported w m o
  have hl : (w.reported m o).Looked m := by
    intro f hf
    rw [Workspace.model?_reported, if_pos rfl] at hf
    obtain ⟨g, -, rfl⟩ := Option.map_eq_some_iff.mp hf
    exact Workspace.Onward.phaseOf_ne_probing o
  rcases h.effect with rfl | heff
  · have hcalm := Workspace.Onward.of_calm h.calm
    exact ⟨hon.trans hcalm, ⟨rfl, hp, hm.mono (hon.trans hcalm), hl.mono (hm.mono hon) hcalm⟩,
      rfl, fun _ h => absurd h List.not_mem_nil⟩
  · exact .after hon (endsLook (hm.mono hon) hl hp h.calm heff)

/-- An addition whose inquiry goes on does so too. -/
theorem surveys {i : Inquiry (Option SourceTree)} (hm : w.Has x m)
    (hp : w'.published.find? x.root.key = some m) (h : Surveys w .add m i w' eff) :
    Goes x w w' size a eff := by
  cases h with
  | asks hi hw =>
    exact ⟨.of_calm hw, ⟨rfl, hp, hm.mono (.of_calm hw)⟩, rfl,
      fun _ h => absurd h List.not_mem_nil⟩
  | finds hi hw =>
    refine ⟨.of_calm hw, ⟨rfl, hp, hm.mono (.of_calm hw)⟩, rfl, ?_⟩
    simp [Effect.children]
  | lacks hi hw h => exact .after (.of_calm hw) (concludes (hm.mono (.of_calm hw)) hp h)
  | fails hi hw h => exact .after (.of_calm hw) (concludes (hm.mono (.of_calm hw)) hp h)

/-- The turn of a task that has begun to add its folder. -/
theorem of_turn {answers : Answers} {outcomes : Option (List Outcome)} (hx : w.Adding x a)
    (hbegun : ∀ folder, a ≠ .adding folder) (hdone : ∀ r, a ≠ .done r)
    (hp : w'.published = w.published) (h : Turn w answers outcomes a w' eff) :
    (w' = w ∧ eff = .stay) ∨ Goes x w w' size a eff := by
  cases a with
  | adding folder => exact absurd rfl (hbegun folder)
  | done r => exact absurd rfl (hdone r)
  | surveying p m i =>
    obtain ⟨rfl, hpub, hm⟩ := hx
    cases i with
    | ask q next => exact .inr (surveys hm (by rw [hp, hpub]) h)
    | _ => exact .inl h
  | gathering children noted after =>
    cases after with
    | compilers p m tree =>
      obtain ⟨rfl, hpub, hm⟩ := hx
      cases noted with
      | some f =>
        cases h with
        | compilers h => exact .inr (concludes hm (by rw [hp, hpub]) h)
        | ends hafter => exact absurd rfl (hafter _ _ _)
      | none =>
        cases outcomes with
        | none => exact .inl h
        | some outcomes =>
          cases h with
          | compilers ho h => exact .inr (concludes hm (by rw [hp, hpub]) h)
          | stuck ho => exact .inl ⟨rfl, rfl⟩
          | ends hafter hw => exact absurd rfl (hafter _ _ _)
    | _ => exact hx.elim
  | telling p m =>
    obtain ⟨rfl, hpub, hm, hl⟩ := hx
    exact .inr (endsLook hm hl (by rw [hp, hpub]) h.1 h.2)
  | registering after =>
    cases after with
    | added m =>
      obtain ⟨hpub, hm, hl⟩ := hx
      obtain ⟨hw, phase, rfl⟩ := h
      exact .inr (endsLook hm hl (by rw [hp, hpub]) hw (.added phase))
    | _ => exact hx.elim
  | _ => exact hx.elim

/-- The turn in which the look at a folder begins. -/
theorem of_adds (hpath : x.source.path w.platform = .ok x.root)
    (hsettings : x.settings = w.context.folderSettings x.root)
    (hnone : w.published.find? x.root.key = none)
    (hp : w'.published.find? x.root.key = some w.models.length)
    (h : Adds w x.source w' eff) : Goes x w w' size a eff := by
  cases h with
  | refused herr => rw [hpath] at herr; cases herr
  | @known root m hroot hm =>
    rw [hpath] at hroot
    cases hroot
    rw [hnone] at hm
    cases hm
  | @begins root _ _ hroot hm h =>
    rw [hpath] at hroot
    cases hroot
    refine .after (.admitted w x.source x.root) (surveys ?_ hp h)
    exact ⟨w.fresh x.source x.root, w.model?_begun_self _, rfl, rfl, hsettings.symm⟩

end Goes

/-! ## What is published -/

/-- An addition publishes its folder at once, under the key of its root. -/
theorem published_beginAdd {e : Engine} (id : TaskId) {folder : EditorFolder} {root : FilePath}
    (hpath : folder.path e.workspace.platform = .ok root)
    (hm : e.workspace.published.find? root.key = none) :
    (e.beginAdd id folder).workspace.published =
      e.workspace.published.insert root.key e.workspace.models.length := by
  simp only [beginAdd, hpath, hm]
  rw [published_look_add]
  exact congrArg Workspace.published (e.workspace.takeUp_publish folder root)

/-- Nothing else is published by the turns of a task that adds a folder. -/
theorem published_resume_adding {e : Engine} {id : TaskId} {t : Task} {x : Planned}
    (ht : e.task? id = some t) (hx : e.workspace.Adding x t.activity)
    (hne : ∀ folder, t.activity ≠ .adding folder) (answers : Answers) :
    (e.resume id answers).workspace.published = e.workspace.published := by
  rw [resume_eq_resumeAs ht]
  obtain ⟨parent, a⟩ := t
  cases a with
  | adding folder => exact absurd rfl (hne folder)
  | surveying p m i =>
    obtain ⟨rfl, -⟩ := hx
    cases i with
    | ask q next => exact published_survey_add e id m _
    | _ => rfl
  | gathering children noted after =>
    cases after with
    | compilers p m tree =>
      obtain ⟨rfl, -⟩ := hx
      cases noted with
      | some f => exact published_conclude_add e id m _
      | none =>
        cases ho : e.awaited? (.gathering children none (.compilers .add m tree)) with
        | none => rfl
        | some outcomes =>
          change (e.afterGathering id outcomes (.compilers .add m tree)).workspace.published = _
          rw [afterGathering.eq_def]
          dsimp only
          split
          · exact published_conclude_add e id m _
          · rfl
    | _ => exact hx.elim
  | telling p m =>
    obtain ⟨rfl, -⟩ := hx
    exact published_endAdd e id m
  | registering after =>
    cases after with
    | added m =>
      refine (published_added _ id m _).trans ?_
      change (e.workspace.registered answers.hasApi).2.published = _
      rw [Workspace.registered_eq]
    | _ => exact hx.elim
  | done r => rfl
  | _ => exact hx.elim

/-! ## The whole plan -/

/-- A task waits for those that add the folders, or it has ended and they have too. -/
def Waiting (e : Engine) (base : TaskId) (size : Nat) : Activity → Prop
  | .gathering ids none .folders => ids = (List.range size).map (base + ·)
  | .done (.ok (.folders _)) =>
    ∀ n < size, ∃ m phase, e.result? (base + n) = some (.ok (.folder m phase))
  | _ => False

/-- The folders of a plan are added by tasks of their own, the first of which has the given number.
The tasks before them wait for them, and those after them ask for compilers. Nothing else is
published. -/
structure Batch (context : Context) (base : TaskId) (plan : List Planned) (e : Engine) : Prop where
  surroundings : e.workspace.context.surroundings = context.surroundings
  settings : e.workspace.context.settings = context.settings
  adders : ∀ n x, plan[n]? = some x →
    ∃ t, e.task? (base + n) = some t ∧ e.workspace.Adding x t.activity
  helpers : ∀ id t, base + plan.length ≤ id → e.task? id = some t → t.activity.helps = true
  waiting : ∀ id < base, ∃ t, e.task? id = some t ∧ e.Waiting base plan.length t.activity
  published : ∀ key i, e.workspace.published.find? key = some i → ∃ x ∈ plan, x.root.key = key

section

variable {context : Context} {base : TaskId} {plan : List Planned} {e : Engine} {id : TaskId}
  {t : Task} {w' : Workspace} {eff : Effect}

/-- A task that waits for those that add the folders goes on waiting after the turn of another one.
Only the tasks that add the folders could fail on its behalf. -/
theorem Waiting.take {size : Nat} {j : TaskId} {u : Task} (ht : e.task? id = some t)
    (hdone : ∀ r, t.activity = .done r → eff.activity e.tasks.length t.activity = .done r)
    (hfailure : id < base + size → eff.failure? = none)
    (h : e.Waiting base size u.activity) :
    ({ e with workspace := w' }.take id eff).Waiting base size
      (u.after t.parent j id eff.failure?).activity := by
  cases ha : u.activity with
  | gathering ids noted after =>
    rw [ha] at h
    rw [Task.activity_after_gathering ha]
    cases noted with
    | some f => exact h.elim
    | none =>
      cases after with
      | folders =>
        obtain rfl := h
        split
        · next hin =>
          have hlt : id < base + size := by
            obtain ⟨n, hn, rfl⟩ := List.mem_map.mp hin.2
            exact Nat.add_lt_add_left (List.mem_range.mp hn) base
          rw [hfailure hlt]
          rfl
        · rfl
      | _ => exact h.elim
  | done r =>
    rw [ha] at h
    rw [Task.after_eq_self (by rw [ha]; rfl), ha]
    rcases r with f | o
    · exact h.elim
    · cases o with
      | folders ms =>
        intro n hn
        obtain ⟨m, phase, hr⟩ := h n hn
        exact ⟨m, phase, result?_take (e := { e with workspace := w' }) ht hdone hr⟩
      | _ => exact h.elim
  | _ =>
    rw [ha] at h
    exact h.elim

namespace Batch

/-- A turn keeps to the plan if it does so for its own task. -/
theorem take (hb : e.Batch context base plan) (ht : e.task? id = some t)
    (hsurroundings : w'.context.surroundings = e.workspace.context.surroundings)
    (hsettings : w'.context.settings = e.workspace.context.settings)
    (hon : e.workspace.Onward w')
    (hdone : ∀ r, t.activity = .done r → eff.activity e.tasks.length t.activity = .done r)
    (hpublished : ∀ n x, plan[n]? = some x → base + n ≠ id →
      w'.published.find? x.root.key = e.workspace.published.find? x.root.key)
    (honly : ∀ key i, w'.published.find? key = some i → ∃ x ∈ plan, x.root.key = key)
    (hadder : ∀ n x, plan[n]? = some x → base + n = id →
      w'.Adding x (eff.activity e.tasks.length t.activity))
    (hhelper : base + plan.length ≤ id → (eff.activity e.tasks.length t.activity).helps = true)
    (hwaiting : id < base → ({ e with workspace := w' }.take id eff).Waiting base plan.length
      (eff.activity e.tasks.length t.activity))
    (hfailure : id < base + plan.length → eff.failure? = none)
    (hnew : ∀ c ∈ eff.children, c.helps = true) :
    ({ e with workspace := w' }.take id eff).Batch context base plan where
  surroundings := by rw [workspace_take, hsurroundings, hb.surroundings]
  settings := by rw [workspace_take, hsettings, hb.settings]
  adders n x hx := by
    obtain ⟨u, hu, hadding⟩ := hb.adders n x hx
    rw [workspace_take]
    by_cases hn : base + n = id
    · subst hn
      exact ⟨_, task?_take_self (e := { e with workspace := w' }) ht eff, hadder n x hx rfl⟩
    · refine ⟨_, task?_take_of_ne (e := { e with workspace := w' }) ht eff hu (Ne.symm hn), ?_⟩
      exact (hadding.mono hon (hpublished n x hx hn)).after _ _ _ _
  helpers j u hj hu := by
    rcases task?_take_cases (e := { e with workspace := w' }) ht hu with
      ⟨rfl, rfl⟩ | ⟨-, v, hv, rfl⟩ | ⟨k, c, -, hc, rfl⟩
    · exact hhelper hj
    · have hhelps := hb.helpers j v hj hv
      rw [Task.after_eq_self (Activity.waits_of_helps hhelps)]
      exact hhelps
    · exact hnew c (List.mem_of_getElem? hc)
  waiting j hj := by
    by_cases hne : id = j
    · subst hne
      exact ⟨_, task?_take_self (e := { e with workspace := w' }) ht eff, hwaiting hj⟩
    · obtain ⟨u, hu, hu'⟩ := hb.waiting j hj
      exact ⟨_, task?_take_of_ne (e := { e with workspace := w' }) ht eff hu hne,
        hu'.take ht hdone hfailure⟩
  published := by
    rw [workspace_take]
    exact honly

/-! ### Turns of the tasks of a plan -/

/-- The turn of one of the tasks that add folders leaves the others on their way. -/
theorem of_goes {n : Nat} {x : Planned} (hb : e.Batch context base plan) (hx : plan[n]? = some x)
    (ht : e.task? (base + n) = some t)
    (hsurroundings : w'.context.surroundings = e.workspace.context.surroundings)
    (hsettings : w'.context.settings = e.workspace.context.settings)
    (hdone : ∀ r, t.activity ≠ .done r)
    (hpublished : ∀ n' x', plan[n']? = some x' → n' ≠ n →
      w'.published.find? x'.root.key = e.workspace.published.find? x'.root.key)
    (honly : ∀ key i, w'.published.find? key = some i → ∃ x ∈ plan, x.root.key = key)
    (h : Goes x e.workspace w' e.tasks.length t.activity eff) :
    ({ e with workspace := w' }.take (base + n) eff).Batch context base plan := by
  have hn : n < plan.length := (List.getElem?_eq_some_iff.mp hx).choose
  refine hb.take ht hsurroundings hsettings h.onward (fun r hr => absurd hr (hdone r)) ?_ honly ?_
    (fun hle => absurd hle (Nat.not_le.mpr (Nat.add_lt_add_left hn base)))
    (fun hlt => absurd hlt (Nat.not_lt.mpr (Nat.le_add_right base n))) (fun _ => h.failure) ?_
  · exact fun n' x' hx' hne => hpublished n' x' hx' fun heq => hne (heq ▸ rfl)
  · intro n' x' hx' heq
    obtain rfl : n' = n := Nat.add_left_cancel heq
    obtain rfl : x = x' := Option.some.inj (hx.symm.trans hx')
    exact h.adding
  · intro c hc
    obtain ⟨tree, l, rfl⟩ := h.children c hc
    rfl

/-- Two folders of a plan have two keys. -/
theorem key_ne (hroots : (plan.map (·.root.key)).Nodup) {n n' : Nat} {x x' : Planned}
    (hx : plan[n]? = some x) (hx' : plan[n']? = some x') (hne : n' ≠ n) :
    x'.root.key ≠ x.root.key := by
  intro heq
  have hn : n' < (plan.map (·.root.key)).length := by
    rw [List.length_map]
    exact (List.getElem?_eq_some_iff.mp hx').choose
  refine hne ((List.getElem?_inj hn hroots).mp ?_)
  rw [List.getElem?_map, List.getElem?_map, hx, hx']
  exact congrArg some heq

/-- The first turn of a task that adds a folder of the plan publishes the folder. -/
theorem resume_begins {n : Nat} {x : Planned} {parent : Option TaskId} (hfits : x.Fits context)
    (hroots : (plan.map (·.root.key)).Nodup) (hb : e.Batch context base plan)
    (hx : plan[n]? = some x) (ht : e.task? (base + n) = some ⟨parent, .adding x.source⟩)
    (hnone : e.workspace.published.find? x.root.key = none) (answers : Answers) :
    (e.resume (base + n) answers).Batch context base plan := by
  have hpath : x.source.path e.workspace.platform = .ok x.root := by
    rw [Workspace.platform, hb.surroundings]
    exact hfits.path
  have hinsert : (e.resume (base + n) answers).workspace.published =
      e.workspace.published.insert x.root.key e.workspace.models.length := by
    rw [resume_eq_resumeAs ht]
    exact published_beginAdd (base + n) hpath hnone
  have hcontext := context_step e (.resume (base + n) answers)
  obtain ⟨w', eff, hturn, heq⟩ := exists_turn ht answers
  simp only [step] at hcontext
  rw [heq, workspace_take] at hinsert hcontext
  rw [heq]
  have hadds : Adds e.workspace x.source w' eff := hturn
  refine hb.of_goes hx ht hcontext.1 hcontext.2 (fun _ h => Activity.noConfusion h) ?_ ?_
    (.of_adds hpath ?_ hnone ?_ hadds)
  · intro n' x' hx' hne
    rw [hinsert, Table.find?_insert, if_neg (key_ne hroots hx hx' hne)]
  · intro key i hi
    rw [hinsert] at hi
    rcases Table.find?_insert_eq_some.mp hi with ⟨rfl, -⟩ | ⟨-, hi⟩
    · exact ⟨x, List.mem_of_getElem? hx, rfl⟩
    · exact hb.published key i hi
  · rw [hfits.settings, Context.folderSettings, Context.folderSettings, hb.surroundings,
      hb.settings]
  · rw [hinsert, Table.find?_insert, if_pos rfl]

/-- A later turn of a task that adds a folder of the plan publishes nothing. -/
theorem resume_goes {n : Nat} {x : Planned} (hb : e.Batch context base plan)
    (hx : plan[n]? = some x) (ht : e.task? (base + n) = some t)
    (hadding : e.workspace.Adding x t.activity) (hbegun : ∀ folder, t.activity ≠ .adding folder)
    (hdone : ∀ r, t.activity ≠ .done r) (answers : Answers) :
    (e.resume (base + n) answers).Batch context base plan := by
  have hsame := published_resume_adding ht hadding hbegun answers
  have hcontext := context_step e (.resume (base + n) answers)
  obtain ⟨w', eff, hturn, heq⟩ := exists_turn ht answers
  simp only [step] at hcontext
  rw [heq, workspace_take] at hsame hcontext
  rw [heq]
  rcases Goes.of_turn hadding hbegun hdone hsame hturn with ⟨rfl, rfl⟩ | hgoes
  · exact hb
  · refine hb.of_goes hx ht hcontext.1 hcontext.2 hdone ?_ ?_ hgoes
    · exact fun n' x' hx' hne => by rw [hsame]
    · rw [hsame]
      exact hb.published

/-- The turn of a task that adds a folder of the plan. -/
theorem resume_adder {n : Nat} {x : Planned} (hfits : x.Fits context)
    (hroots : (plan.map (·.root.key)).Nodup) (hb : e.Batch context base plan)
    (hx : plan[n]? = some x) (answers : Answers) :
    (e.resume (base + n) answers).Batch context base plan := by
  obtain ⟨⟨parent, a⟩, ht, hadding⟩ := hb.adders n x hx
  by_cases hbegun : ∃ folder, a = .adding folder
  · obtain ⟨folder, rfl⟩ := hbegun
    obtain ⟨rfl, hnone⟩ := hadding
    exact hb.resume_begins hfits hroots hx ht hnone answers
  · by_cases hend : ∃ r, a = .done r
    · obtain ⟨r, rfl⟩ := hend
      rw [resume_eq_resumeAs ht]
      exact hb
    · exact hb.resume_goes hx ht hadding (fun folder h => hbegun ⟨folder, h⟩)
        (fun r h => hend ⟨r, h⟩) answers

/-- The turn of a task that asks for a compiler. -/
theorem resume_helper (hb : e.Batch context base plan) (hid : base + plan.length ≤ id)
    (answers : Answers) : (e.resume id answers).Batch context base plan := by
  cases ht : e.task? id with
  | none => rwa [resume_of_task?_eq_none ht]
  | some t =>
    have hhelps := hb.helpers id t hid ht
    obtain ⟨w', eff, hturn, heq⟩ := exists_turn ht answers
    rw [heq]
    have hdiscovers {i : Inquiry Compiler} (hnot : ∀ r, t.activity ≠ .done r) (hw : w' = e.workspace)
        (h : Discovers i eff) :
        ({ e with workspace := w' }.take id eff).Batch context base plan := by
      subst hw
      refine hb.take ht rfl rfl (.refl _) (fun r hr => absurd hr (hnot r)) (fun _ _ _ _ => rfl)
        hb.published ?_ ?_ ?_ ?_ ?_
      · intro n x hx hn
        have hlt : n < plan.length := (List.getElem?_eq_some_iff.mp hx).choose
        exact absurd (hn ▸ Nat.add_lt_add_left hlt base) (Nat.not_lt.mpr hid)
      · intro _
        cases h <;> rfl
      · exact fun hlt => absurd hlt (Nat.not_lt.mpr (Nat.le_trans (Nat.le_add_right _ _) hid))
      · exact fun hlt => absurd hlt (Nat.not_lt.mpr hid)
      · cases h <;> exact fun _ hc => absurd hc List.not_mem_nil
    obtain ⟨parent, a⟩ := t
    cases a with
    | asking tree l => exact hdiscovers (fun _ h => nomatch h) hturn.1 hturn.2
    | discovering i =>
      cases i with
      | ask q next => exact hdiscovers (fun _ h => nomatch h) hturn.1 hturn.2
      | _ =>
        obtain ⟨rfl, rfl⟩ := hturn
        exact hb
    | done r =>
      obtain ⟨rfl, rfl⟩ := hturn
      exact hb
    | _ => cases hhelps

/-- The turn of a task that waits for those that add the folders. -/
theorem resume_waiting (hb : e.Batch context base plan) (hid : id < base) (answers : Answers) :
    (e.resume id answers).Batch context base plan := by
  obtain ⟨t, ht, hwaiting⟩ := hb.waiting id hid
  rw [resume_eq_resumeAs ht]
  obtain ⟨parent, a⟩ := t
  cases a with
  | done r => exact hb
  | gathering ids noted after =>
    cases noted with
    | some f => exact hwaiting.elim
    | none =>
      cases after with
      | folders =>
        obtain rfl := hwaiting
        cases ho : e.awaited? (.gathering ((List.range plan.length).map (base + ·)) none .folders) with
        | none => exact hb
        | some outcomes =>
          have hresults := outcomes?_eq_some_iff.mp ho
          change (e.take id (.finish (.ok (.folders _)))).Batch context base plan
          refine hb.take ht rfl rfl (.refl _) (fun r hr => nomatch hr) (fun _ _ _ _ => rfl)
            hb.published ?_ ?_ ?_ (fun _ => rfl) fun _ hc => absurd hc List.not_mem_nil
          · exact fun n x hx hn => absurd (hn ▸ Nat.le_add_right base n) (Nat.not_le.mpr hid)
          · exact fun hle => absurd (Nat.le_trans (Nat.le_add_right _ _) hle) (Nat.not_le.mpr hid)
          · intro _ n hn
            obtain ⟨o, ho⟩ := result?_of_mem hresults
              (List.mem_map.mpr ⟨n, List.mem_range.mpr hn, rfl⟩)
            obtain ⟨u, hu, hadding⟩ := hb.adders n plan[n] (List.getElem?_eq_getElem hn)
            obtain ⟨v, hv, ha⟩ := result?_eq_some_iff.mp ho
            obtain rfl : u = v := Option.some.inj (hu.symm.trans hv)
            rw [ha] at hadding
            cases o with
            | folder m phase =>
              exact ⟨m, phase, result?_take ht (fun r hr => nomatch hr) ho⟩
            | _ => exact hadding.elim
      | _ => exact hwaiting.elim
  | _ => exact hwaiting.elim

/-- Any turn of any task keeps to the plan. -/
theorem resume (hplan : ∀ x ∈ plan, x.Fits context) (hroots : (plan.map (·.root.key)).Nodup)
    (hb : e.Batch context base plan) (id : TaskId) (answers : Answers) :
    (e.resume id answers).Batch context base plan := by
  by_cases hlow : id < base
  · exact hb.resume_waiting hlow answers
  · obtain ⟨n, rfl⟩ := Nat.exists_eq_add_of_le (Nat.le_of_not_lt hlow)
    cases hx : plan[n]? with
    | some x => exact hb.resume_adder (hplan x (List.mem_of_getElem? hx)) hroots hx answers
    | none =>
      exact hb.resume_helper (Nat.add_le_add_left (List.getElem?_eq_none_iff.mp hx) base) answers

end Batch

end

end Engine

end BuildLens
