import BuildLens.Proofs.Inquiry.Endings
import BuildLens.Proofs.Workspace.Changes

/-!
# What a turn leaves behind

A turn of a task changes the workspace, and then it does one thing with its own task: the task waits
for something else, ends, or lets others begin and waits for them. Both depend only on the
workspace, on what the task was doing and on the answers, and not on the other tasks or on the
number of the task. Of the other tasks only one may notice: the one that waits for a task that
fails.

Main definitions:

- `Effect`, `Engine.take`: what a turn does with its own task.
- `Engine.Does`: a turn is a change of the workspace and an effect.
- `Workspace.Calm`: the changes that leave what is known of the folders.

Main results:

- `task?_take_self`, `task?_take_of_ne`, `task?_take_new`: the tasks after an effect.
-/

namespace BuildLens

/-! ## Effects -/

/-- What a turn does with its own task: nothing, or the task does something else, ends, or lets
others begin and waits for them. -/
inductive Effect where
  | stay
  | become (a : Activity)
  | finish (r : Except Failure Outcome)
  | gather (children : List Activity) (after : AfterGathering)

/-- An effect on a task. -/
def Engine.take (e : Engine) (id : TaskId) : Effect → Engine
  | .stay => e
  | .become a => e.become id a
  | .finish r => e.finish id r
  | .gather children after => e.gather id children after

/-- A turn of any task in a workspace changes the workspace and has an effect, both of which are
described by `P`. -/
def Engine.Does (w : Workspace) (g : Engine → TaskId → Engine) (P : Workspace → Effect → Prop) :
    Prop :=
  ∃ w' eff, P w' eff ∧
    ∀ (e : Engine) (id : TaskId), e.workspace = w → g e id = { e with workspace := w' }.take id eff

namespace Engine

variable {w : Workspace} {g g' : Engine → TaskId → Engine} {P Q : Workspace → Effect → Prop}

/-- An effect does what it is. -/
theorem does_take (eff : Effect) (h : P w eff) : Does w (fun e id => e.take id eff) P := by
  refine ⟨w, eff, h, ?_⟩
  rintro e id rfl
  rfl

/-- A turn does all that follows from what it does. -/
theorem Does.mono (h : Does w g P) (hPQ : ∀ w' eff, P w' eff → Q w' eff) : Does w g Q := by
  obtain ⟨w', eff, hP, heq⟩ := h
  exact ⟨w', eff, hPQ w' eff hP, heq⟩

/-- What a turn does depends on its result only. -/
theorem Does.congr (h : Does w g P) (heq : ∀ e id, e.workspace = w → g' e id = g e id) :
    Does w g' P := by
  obtain ⟨w', eff, hP, hg⟩ := h
  exact ⟨w', eff, hP, fun e id he => (heq e id he).trans (hg e id he)⟩

/-- A turn may change the workspace first. -/
theorem Does.after (f : Workspace → Workspace) (h : Does (f w) g P) :
    Does w (fun e id => g (e.modifyWorkspace f) id) P := by
  obtain ⟨w', eff, hP, hg⟩ := h
  refine ⟨w', eff, hP, ?_⟩
  rintro e id rfl
  exact hg (e.modifyWorkspace f) id rfl

end Engine

/-! ## Tasks after an effect -/

/-- What a task is doing after an effect on it, if there were so many tasks. -/
def Effect.activity (size : Nat) (a : Activity) : Effect → Activity
  | .stay => a
  | .become a => a
  | .finish r => .done r
  | .gather children after =>
    .gathering ((List.range children.length).map (size + ·)) none after

/-- The tasks that begin. -/
def Effect.children : Effect → List Activity
  | .gather children _ => children
  | _ => []

/-- The failure in which the task ends. -/
def Effect.failure? : Effect → Option Failure
  | .finish (.error f) => some f
  | _ => none

/-- A task that fails has ended in its failure. -/
theorem Effect.activity_of_failure? {size : Nat} {a : Activity} {eff : Effect} {f : Failure}
    (h : eff.failure? = some f) : eff.activity size a = .done (.error f) := by
  cases eff with
  | finish r =>
    cases r with
    | ok o => cases h
    | error g =>
      cases h
      rfl
  | _ => cases h

/-- Whether a task waits for others. -/
def Activity.waits : Activity → Bool
  | .gathering .. => true
  | _ => false

/-- A task that notes the failure of another one, if it waits for it and has noted none. -/
def Task.noting (child : TaskId) (f : Failure) (t : Task) : Task :=
  match t.activity with
  | .gathering children none after =>
    if child ∈ children then { t with activity := .gathering children (some f) after } else t
  | _ => t

/-- A task after another one, for which the given one waits, may have failed. -/
def Task.after (parent : Option TaskId) (id child : TaskId) (failure : Option Failure)
    (t : Task) : Task :=
  match failure with
  | some f => if parent = some id then t.noting child f else t
  | none => t

namespace Task

/-- A failure that is noted changes no parent. -/
@[simp]
theorem parent_noting (child : TaskId) (f : Failure) (t : Task) :
    (t.noting child f).parent = t.parent := by
  unfold noting
  split
  · split <;> rfl
  · rfl

/-- A task keeps its parent when another one may have failed. -/
@[simp]
theorem parent_after (parent : Option TaskId) (id child : TaskId) (failure : Option Failure)
    (t : Task) : (t.after parent id child failure).parent = t.parent := by
  unfold after
  split
  · split
    · exact parent_noting child _ t
    · rfl
  · rfl

/-- A task that does not wait for others notes no failure. -/
theorem after_eq_self {parent : Option TaskId} {id child : TaskId} {failure : Option Failure}
    {t : Task} (h : t.activity.waits = false) : t.after parent id child failure = t := by
  have hnoting (f : Failure) : t.noting child f = t := by
    unfold noting
    split
    · next ha =>
      rw [ha] at h
      cases h
    · rfl
  unfold after
  split
  · rw [hnoting, ite_self]
  · rfl

/-- What a task that waits has noted after another one may have failed. -/
theorem activity_after_gathering {parent : Option TaskId} {id child : TaskId}
    {failure noted : Option Failure} {t : Task} {children : List TaskId} {after : AfterGathering}
    (ha : t.activity = .gathering children noted after) :
    (t.after parent id child failure).activity = .gathering children
      (if parent = some id ∧ child ∈ children then noted.or failure else noted) after := by
  obtain ⟨p, a⟩ := t
  obtain rfl : a = _ := ha
  cases failure with
  | none => simp [Task.after]
  | some f =>
    by_cases hp : parent = some id
    · cases noted with
      | some g => simp [Task.after, hp, noting]
      | none => by_cases hc : child ∈ children <;> simp [Task.after, hp, noting, hc]
    · simp [Task.after, hp]

/-- A task that waits after another one may have failed. -/
theorem after_gathering (own parent : Option TaskId) (id child : TaskId)
    (failure noted : Option Failure) (children : List TaskId) (after : AfterGathering) :
    (Task.mk own (.gathering children noted after)).after parent id child failure =
      ⟨own, .gathering children
        (if parent = some id ∧ child ∈ children then noted.or failure else noted) after⟩ := by
  have hparent := parent_after parent id child failure ⟨own, .gathering children noted after⟩
  have hactivity : ((Task.mk own (.gathering children noted after)).after parent id child
      failure).activity = _ :=
    activity_after_gathering rfl
  revert hparent hactivity
  generalize (Task.mk own (.gathering children noted after)).after parent id child failure = t
  obtain ⟨p, a⟩ := t
  rintro rfl rfl
  rfl

end Task

namespace Engine

variable {e : Engine} {id j : TaskId} {t u : Task} {eff : Effect}

/-- An effect on a task leaves the workspace. -/
@[simp]
theorem workspace_take (e : Engine) (id : TaskId) (eff : Effect) :
    (e.take id eff).workspace = e.workspace := by
  cases eff with
  | finish r =>
    unfold take finish
    dsimp only
    split <;> rfl
  | _ => rfl

/-- A task that does something else leaves the others as they are. -/
theorem task?_become (e : Engine) (id : TaskId) (a : Activity) (j : TaskId) :
    (e.become id a).task? j =
      if id = j then (e.task? j).map fun t => { t with activity := a } else e.task? j := by
  unfold become task?
  rw [List.getElem?_modify]
  split <;> simp

/-- A failure is noted with the task that waits, and with no other. -/
theorem task?_noteFailure (e : Engine) (parent child : TaskId) (f : Failure) (j : TaskId) :
    (e.noteFailure parent child f).task? j =
      if parent = j then (e.task? j).map (·.noting child f) else e.task? j := by
  unfold noteFailure task?
  rw [List.getElem?_modify]
  split
  · rfl
  · simp

/-- A task that ends leaves the others as they are, but for its failure. -/
theorem task?_finish (e : Engine) (id : TaskId) (r : Except Failure Outcome) (j : TaskId) :
    (e.finish id r).task? j = if id = j then (e.task? j).map fun t => { t with activity := .done r }
      else (e.task? j).map
        (·.after ((e.task? id).bind Task.parent) j id (Effect.finish r).failure?) := by
  have hparent : ((e.become id (.done r)).task? id).bind Task.parent =
      (e.task? id).bind Task.parent := by
    rw [task?_become, if_pos rfl]
    cases e.task? id <;> rfl
  have hdone : ((e.become id (.done r)).task? j) =
      if id = j then (e.task? j).map fun t => { t with activity := .done r } else e.task? j :=
    task?_become e id _ j
  have hself (parent : TaskId) (f : Failure) :
      (((e.task? j).map fun t => { t with activity := .done r }).map (·.noting parent f)) =
        (e.task? j).map fun t => { t with activity := .done r } := by
    rw [Option.map_map]
    rfl
  cases r with
  | ok o =>
    change (e.become id (.done (.ok o))).task? j = _
    rw [hdone]
    simp [Task.after, Effect.failure?]
  | error f =>
    unfold finish
    dsimp only
    rw [hparent]
    cases hp : (e.task? id).bind Task.parent with
    | none =>
      change (e.become id (.done (.error f))).task? j = _
      rw [hdone]
      simp [Task.after, Effect.failure?]
    | some parent =>
      change ((e.become id (.done (.error f))).noteFailure parent id f).task? j = _
      rw [task?_noteFailure, hdone]
      by_cases hj : id = j
      · simp only [if_pos hj, hself, ite_self]
      · by_cases hpj : parent = j <;> simp [hj, hpj, Task.after, Effect.failure?]

/-- The tasks that are let begin come behind those that are there. -/
theorem task?_gather (e : Engine) (children : List Activity) (after : AfterGathering)
    (hid : id < e.tasks.length) (j : TaskId) :
    (e.gather id children after).task? j =
      if id = j then (e.task? j).map fun t =>
        { t with activity := (Effect.gather children after).activity e.tasks.length t.activity }
      else if j < e.tasks.length then e.task? j
      else (children[j - e.tasks.length]?).map (Task.mk (some id)) := by
  unfold gather
  dsimp only
  rw [task?_become]
  split
  · next hj =>
    subst hj
    rw [task?, List.getElem?_append_left hid]
    rfl
  · split
    · next hlt => rw [task?, List.getElem?_append_left hlt]; rfl
    · next hge =>
      rw [task?, List.getElem?_append_right (Nat.le_of_not_lt hge), List.getElem?_map]

/-- The task itself after an effect. -/
theorem task?_take_self (ht : e.task? id = some t) (eff : Effect) :
    (e.take id eff).task? id =
      some { t with activity := eff.activity e.tasks.length t.activity } := by
  have hid : id < e.tasks.length := (List.getElem?_eq_some_iff.mp ht).choose
  cases eff with
  | stay => exact ht
  | become a => rw [take, task?_become, if_pos rfl, ht]; rfl
  | finish r => rw [take, task?_finish, if_pos rfl, ht]; rfl
  | gather children after => rw [take, task?_gather e children after hid, if_pos rfl, ht]; rfl

/-- Another task after an effect: it may have noted a failure. -/
theorem task?_take_of_ne (ht : e.task? id = some t) (eff : Effect) (hu : e.task? j = some u)
    (hne : id ≠ j) :
    (e.take id eff).task? j = some (u.after t.parent j id eff.failure?) := by
  have hid : id < e.tasks.length := (List.getElem?_eq_some_iff.mp ht).choose
  have hj : j < e.tasks.length := (List.getElem?_eq_some_iff.mp hu).choose
  cases eff with
  | stay => exact hu
  | become a => rw [take, task?_become, if_neg hne]; exact hu
  | finish r => rw [take, task?_finish, if_neg hne, hu, ht]; rfl
  | gather children after =>
    rw [take, task?_gather e children after hid, if_neg hne, if_pos hj]
    exact hu

/-- An effect adds the tasks that it lets begin. -/
theorem length_take (e : Engine) (id : TaskId) (eff : Effect) :
    (e.take id eff).tasks.length = e.tasks.length + eff.children.length := by
  cases eff with
  | stay => rfl
  | become a => exact List.length_modify ..
  | finish r =>
    unfold take finish
    dsimp only
    split
    · exact (List.length_modify ..).trans (List.length_modify ..)
    · exact List.length_modify ..
  | gather children after =>
    refine (List.length_modify ..).trans ?_
    rw [List.length_append, List.length_map]
    rfl

/-- A task that begins. -/
theorem task?_take_new (hid : id < e.tasks.length) (eff : Effect) (k : Nat) :
    (e.take id eff).task? (e.tasks.length + k) = eff.children[k]?.map (Task.mk (some id)) := by
  have hnone : e.task? (e.tasks.length + k) = none :=
    List.getElem?_eq_none (Nat.le_add_right _ _)
  have hne : id ≠ e.tasks.length + k :=
    fun h => Nat.not_lt.mpr (Nat.le_add_right _ k) (h ▸ hid)
  cases eff with
  | stay => exact hnone
  | become a => rw [take, task?_become, if_neg hne]; exact hnone
  | finish r => rw [take, task?_finish, if_neg hne, hnone]; rfl
  | gather children after =>
    rw [take, task?_gather e children after hid, if_neg hne,
      if_neg (Nat.not_lt.mpr (Nat.le_add_right _ k)), Nat.add_sub_cancel_left]
    rfl

/-- A task after a turn is the one that had its turn, another one, or one that began in it. -/
theorem task?_take_cases (ht : e.task? id = some t) (hu : (e.take id eff).task? j = some u) :
    (j = id ∧ u = { t with activity := eff.activity e.tasks.length t.activity }) ∨
      (j ≠ id ∧ ∃ v, e.task? j = some v ∧ u = v.after t.parent j id eff.failure?) ∨
      ∃ k a, j = e.tasks.length + k ∧ eff.children[k]? = some a ∧ u = ⟨some id, a⟩ := by
  by_cases hj : j = id
  · subst hj
    rw [task?_take_self ht] at hu
    exact .inl ⟨rfl, (Option.some.inj hu).symm⟩
  · by_cases hlt : j < e.tasks.length
    · have hv : e.task? j = some e.tasks[j] := List.getElem?_eq_getElem hlt
      rw [task?_take_of_ne ht eff hv (Ne.symm hj)] at hu
      exact .inr (.inl ⟨hj, _, hv, (Option.some.inj hu).symm⟩)
    · obtain ⟨k, rfl⟩ := Nat.exists_eq_add_of_le (Nat.le_of_not_lt hlt)
      rw [task?_take_new (List.getElem?_eq_some_iff.mp ht).choose eff k] at hu
      obtain ⟨a, ha, rfl⟩ := Option.map_eq_some_iff.mp hu
      exact .inr (.inr ⟨k, a, rfl, ha, rfl⟩)

/-! ## Tasks that have ended -/

/-- A task has a result if it has ended in it. -/
theorem result?_eq_some_iff {r : Except Failure Outcome} :
    e.result? id = some r ↔ ∃ t, e.task? id = some t ∧ t.activity = .done r := by
  unfold result?
  cases e.task? id with
  | none => simp
  | some t =>
    obtain ⟨parent, a⟩ := t
    cases a <;> simp

/-- A task that has ended stays so, if its own turns leave it so. -/
theorem result?_take {r : Except Failure Outcome} (ht : e.task? id = some t)
    (hdone : ∀ r, t.activity = .done r → eff.activity e.tasks.length t.activity = .done r)
    (hr : e.result? j = some r) : (e.take id eff).result? j = some r := by
  obtain ⟨u, hu, ha⟩ := result?_eq_some_iff.mp hr
  rw [result?_eq_some_iff]
  by_cases hj : id = j
  · subst hj
    obtain rfl : t = u := Option.some.inj (ht.symm.trans hu)
    exact ⟨_, task?_take_self ht eff, hdone r ha⟩
  · refine ⟨u, ?_, ha⟩
    rw [task?_take_of_ne ht eff hu hj, Task.after_eq_self (by rw [ha]; rfl)]

end Engine

/-! ## What is known of the folders -/

/-- The folder without what is kept in memory. -/
def Folder.bare (f : Folder) : Folder := { f with fragments := {} }

/-- A change that leaves what is known of the folders, and what is known without asking. The user is
told nothing. -/
structure Workspace.Calm (w w' : Workspace) : Prop where
  surroundings : w'.context.surroundings = w.context.surroundings
  classifier : w'.context.classifier = w.context.classifier
  messages : w'.context.messages = w.context.messages
  models : ∀ i, (w'.model? i).map Folder.bare = (w.model? i).map Folder.bare

namespace Workspace.Calm

variable {w w' w'' : Workspace}

/-- A change is calm if it leaves the models, the messages and what is known without asking. -/
theorem of_models_eq (hs : w'.context.surroundings = w.context.surroundings)
    (hc : w'.context.classifier = w.context.classifier)
    (ht : w'.context.messages = w.context.messages) (hm : w'.models = w.models) :
    w.Calm w' where
  surroundings := hs
  classifier := hc
  messages := ht
  models i := by rw [model?, model?, hm]

/-- To change nothing is calm. -/
theorem refl (w : Workspace) : w.Calm w :=
  of_models_eq rfl rfl rfl rfl

/-- Two calm changes are a calm one. -/
theorem trans (h : w.Calm w') (h' : w'.Calm w'') : w.Calm w'' where
  surroundings := h'.surroundings.trans h.surroundings
  classifier := h'.classifier.trans h.classifier
  messages := h'.messages.trans h.messages
  models i := (h'.models i).trans (h.models i)

/-- What is kept in memory may change calmly. -/
theorem refreshed (w : Workspace) (i : ModelId) (f : FragmentCache → FragmentCache) :
    w.Calm (w.refreshed i f) where
  surroundings := rfl
  classifier := rfl
  messages := rfl
  models j := by
    rw [Workspace.refreshed, model?_modifyModel]
    split
    · rw [Option.map_map]
      rfl
    · rfl

/-- To forget what a model keeps in memory is calm. -/
theorem disposeModel (w : Workspace) (i : ModelId) : w.Calm (w.disposeModel i) :=
  refreshed w i FragmentCache.clear

/-- A notice is calm. -/
theorem notify (w : Workspace) (notice : ChangeNotice) : w.Calm (w.notify notice) := by
  unfold Workspace.notify
  split
  · exact of_models_eq rfl rfl rfl rfl
  · exact refl w

/-- Two notices are calm. -/
theorem notifyChange (w : Workspace) : w.Calm w.notifyChange :=
  (notify w _).trans (notify _ _)

/-- To follow the count of build trees is calm. -/
theorem sync (w : Workspace) : w.Calm w.sync.2 := by
  unfold Workspace.sync
  split
  · split
    · exact refl w
    · exact of_models_eq rfl rfl rfl rfl
  · rw [retire_eq]
    exact of_models_eq rfl rfl rfl rfl

/-- To register a provider is calm. -/
theorem registered (w : Workspace) (hasApi : Bool) : w.Calm (w.registered hasApi).2 := by
  rw [registered_eq]
  exact of_models_eq rfl rfl rfl rfl

/-- To take a folder away is calm: its model is not forgotten. -/
theorem unpublish (w : Workspace) (root : FilePath) : w.Calm (w.unpublish root).2 := by
  unfold Workspace.unpublish
  dsimp only
  split
  · exact of_models_eq rfl rfl rfl rfl
  · next i hi =>
    have h := disposeModel { w with
      latest := w.latest.erase root.key
      published := w.published.erase root.key } i
    exact ⟨h.surroundings, h.classifier, h.messages, h.models⟩

/-- A calm change leaves the roots of models. -/
theorem root_eq (h : w.Calm w') (i : ModelId) :
    (w'.model? i).map Folder.root = (w.model? i).map Folder.root := by
  have hroot := congrArg (Option.map Folder.root) (h.models i)
  simp only [Option.map_map] at hroot
  exact hroot

/-- A calm change leaves what is known of the folders. -/
theorem phaseOf_eq (h : w.Calm w') (i : ModelId) : w'.phaseOf i = w.phaseOf i := by
  have hphase := congrArg (Option.map Folder.phase) (h.models i)
  simp only [Option.map_map] at hphase
  exact congrArg (·.getD .unprobed) hphase

/-- A calm change that publishes nothing leaves who answers for a path. -/
theorem innermost?_eq (h : w.Calm w') (hp : w'.published = w.published) (path : FilePath) :
    w'.innermost? path = w.innermost? path := by
  have hcloser : w'.closer path = w.closer path := by
    funext best i
    have hi := h.root_eq i
    have hbest : (best.bind w'.model?).map Folder.root = (best.bind w.model?).map Folder.root := by
      cases best with
      | none => rfl
      | some b => exact h.root_eq b
    unfold closer Folder.contains
    cases hi' : w'.model? i <;> cases hi'' : w.model? i <;>
      cases hb' : best.bind w'.model? <;> cases hb'' : best.bind w.model? <;> simp_all
  rw [innermost?, innermost?, publishedIds, publishedIds, hp, hcloser]

end Workspace.Calm

end BuildLens
