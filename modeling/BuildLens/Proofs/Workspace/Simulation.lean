import BuildLens.Proofs.Workspace.Moves

/-!
# Turns are made of moves

Each function through which a turn runs is followed by moves: from the view in which its task is in
the middle of the turn to the view in which the task waits again. The functions are taken in the
order in which they call each other, the last one first, so that a function is opened only once.

Main results:

- `tended_resume`: most turns leave the published roots.
- `step_outline`: one event is at most one look that begins, and moves before and after it.
- `step_keeps`, `run_keeps`: what every move keeps, every run keeps.
-/

namespace BuildLens

namespace Engine

open Relation (ReflTransGen)

variable {input : Input}

/-- The view in which a task with the given role has not yet gone on. -/
def viewAs (e : Engine) (id : TaskId) (r : Role) : View := ⟨e.workspace, e.roles.set id r, .resting⟩

/-- The view in the middle of the turn of a task. -/
def acting (e : Engine) (id : TaskId) (a : Acting) : View := ⟨e.workspace, e.roles.set id .idle, a⟩

/-! ## Roles -/

theorem roles_length (e : Engine) : e.roles.length = e.tasks.length :=
  List.length_map _

/-- A task that is made idle has that role. -/
theorem role_set_idle {e : Engine} {id : TaskId} (hid : id < e.tasks.length) :
    (e.roles.set id .idle)[id]? = some .idle :=
  List.getElem?_set_self (by rw [roles_length]; exact hid)

/-- The role of a task is that of its activity. -/
theorem role_eq {e : Engine} {id : TaskId} {t : Task} (ht : e.task? id = some t) :
    e.roles[id]? = some t.activity.role := by
  simpa [roles, task?] using ⟨t, ht, rfl⟩

/-- A task whose role is given may be taken to have just been given it. -/
theorem view_eq_viewAs {e : Engine} {id : TaskId} {t : Task} (ht : e.task? id = some t)
    {a : Activity} (ha : t.activity = a) : e.view = e.viewAs id a.role := by
  subst ha
  have hrole := role_eq ht
  have hset : e.roles.set id t.activity.role = e.roles := by
    obtain ⟨h, heq⟩ := List.getElem?_eq_some_iff.mp hrole
    rw [← heq]
    exact List.set_getElem_self h
  rw [view, viewAs, hset]

/-- A task that does something else changes its own role only. -/
theorem roles_become (e : Engine) (id : TaskId) (a : Activity) :
    (e.become id a).roles = e.roles.set id a.role := by
  apply List.ext_getElem?
  intro j
  simp only [roles, become, List.getElem?_map, List.getElem?_modify, List.getElem?_set,
    List.length_map]
  by_cases hj : id = j
  · subst hj
    by_cases hlt : id < e.tasks.length
    · simp [hlt]
    · simp [hlt]
  · simp [hj]

/-- To note a failure among the children of a task changes no role. -/
theorem roles_noteFailure (e : Engine) (parent child : TaskId) (f : Failure) :
    (e.noteFailure parent child f).roles = e.roles := by
  apply List.ext_getElem?
  intro j
  simp only [roles, noteFailure, List.getElem?_map, List.getElem?_modify]
  by_cases hj : parent = j
  · cases e.tasks[j]? with
    | none => rfl
    | some t =>
      obtain ⟨p, a⟩ := t
      simp only [hj, if_true, Option.map_eq_map, Option.map_some, Option.some.injEq]
      cases a with
      | gathering children failure after =>
        cases failure with
        | some _ => rfl
        | none =>
          dsimp only
          split
          · cases after <;> rfl
          · rfl
      | _ => rfl
  · simp [hj]

/-- A task that does something else is seen in its new role. -/
theorem view_become (e : Engine) (id : TaskId) (a : Activity) :
    (e.become id a).view = e.viewAs id a.role := by
  rw [view, roles_become]
  rfl

/-- A task that ends becomes idle, whatever it ends with. -/
theorem view_finish (e : Engine) (id : TaskId) (r : Except Failure Outcome) :
    (e.finish id r).view = e.viewAs id .idle := by
  have hdone : (e.become id (.done r)).view = e.viewAs id .idle := view_become e id _
  unfold finish
  dsimp only
  split
  · rw [← hdone, view, roles_noteFailure]
    rfl
  · exact hdone

/-- A task that ends with a folder becomes idle. -/
theorem view_finishWith (e : Engine) (id : TaskId) (m : ModelId) :
    (e.finishWith id m).view = e.viewAs id .idle :=
  view_finish e id _

/-- The tasks that are let begin stand behind the others, in their own roles. -/
theorem view_gather {e : Engine} {id : TaskId} (hid : id < e.tasks.length)
    (children : List Activity) (after : AfterGathering) (a : Role)
    (ha : ∀ ids failure, (Activity.gathering ids failure after).role = a) :
    (e.gather id children after).view =
      ⟨e.workspace, e.roles.set id a ++ children.map Activity.role, .resting⟩ := by
  unfold gather
  rw [view_become, viewAs, ha]
  have hroles :
      Engine.roles { e with tasks := e.tasks ++ children.map (Task.mk (some id)) } =
        e.roles ++ children.map Activity.role := by
    simp [roles, Function.comp_def]
  rw [hroles, List.set_append_left _ _ (by rw [roles_length]; exact hid)]

/-! ## The provider follows -/

/-- A notice to the provider in force is a steady move, or none. -/
theorem steadily_notify (w : Workspace) (R : List Role) (a : Acting) (notice : ChangeNotice) :
    Steadily input ⟨w, R, a⟩ ⟨w.notify notice, R, a⟩ := by
  unfold Workspace.notify
  split
  · exact .single (.notify w R a _ notice)
  · exact .refl

/-- Two notices are two steady moves. -/
theorem steadily_notifyChange (w : Workspace) (R : List Role) (a : Acting) :
    Steadily input ⟨w, R, a⟩ ⟨w.notifyChange, R, a⟩ :=
  (steadily_notify w R a _).trans (steadily_notify _ R a _)

/-- Notices through a given provider are steady moves, even if it is not in force. -/
theorem steadily_notifyThrough (w : Workspace) (R : List Role) (a : Acting) (n : Nat) :
    Steadily input ⟨w, R, a⟩ ⟨w.modifyRegistration n Registration.notifyChange, R, a⟩ := by
  have htwo : w.modifyRegistration n Registration.notifyChange =
      (w.modifyRegistration n (·.notify .configurationChanged)).modifyRegistration n
        (·.notify .browseConfigurationChanged) := by
    simp only [Workspace.modifyRegistration, List.modify_modify_eq]
    rfl
  rw [htwo]
  exact .tail (.single (.notify w R a n _)) (.notify _ R a n _)

/-- The task goes on at once, or when the editor has answered. -/
theorem follow_syncThen {M : View → View → Prop} (hM : ∀ v v', Steady input v v' → M v v')
    (e : Engine) {id : TaskId} (hid : id < e.tasks.length) (after : AfterRegistration)
    (settled : Engine → Engine)
    (hsettled : ∀ w, ReflTransGen M (acting { e with workspace := w } id .resting)
      (settled { e with workspace := w }).view) :
    ReflTransGen M (e.acting id .owing) (e.syncThen id after settled).view := by
  unfold syncThen Workspace.sync
  split
  · next w h =>
    split at h
    · next hwanted =>
      split at h
      · cases h
      · next hw =>
        cases h
        rw [view_become]
        have hask := @Steady.ask input e.workspace (e.roles.set id .idle) id
          (role_set_idle hid) (by simpa using hw) hwanted.1 hwanted.2
        rw [List.set_set] at hask
        exact .single (hM _ _ hask)
    · cases h
  · next w h =>
    have hfollow : Steady input (e.acting id .owing)
        (acting { e with workspace := w } id .resting) := by
      split at h
      · next hwanted =>
        split at h
        · next hw =>
          cases h
          exact .wait _ _ hw hwanted.2
        · cases h
      · next hwanted =>
        cases h
        exact .follow _ _ hwanted
    exact .head (hM _ _ hfollow) (hsettled w)

/-! ## Folders are taken away -/

/-- Tasks that are about to add folders are idle. -/
theorem role_map_adding (folders : List EditorFolder) :
    (folders.map Activity.adding).map Activity.role = List.replicate folders.length .idle := by
  simp [Function.comp_def, Activity.role, List.map_const']

/-- Only latest looks are forgotten when no build tree goes. -/
theorem moves_unpublish {w w' : Workspace} {root : FilePath} (R : List Role)
    (h : w.unpublish root = (false, w')) :
    Moves input ⟨w, R, .resting⟩ ⟨w', R, .resting⟩ := by
  unfold Workspace.unpublish at h
  dsimp only at h
  split at h
  · next hk =>
    cases h
    exact .single (.clearing (.forget w R _ _ hk))
  · next i hk =>
    obtain ⟨hb, rfl⟩ := Prod.mk.inj h
    have hb : w.isBuildTree i = false := hb
    have hleave : Clearing ⟨w, R, .resting⟩ ⟨w.withdrawn root.key i, R, .resting⟩ :=
      .withdraw w R root.key i .resting hk (.inr ⟨rfl, hb⟩)
    have hcount : (w.withdrawn root.key i).buildCount = w.buildCount := by
      simp [Workspace.withdrawn, weight, hb]
    have hfinal : Workspace.disposeModel
        { w with latest := w.latest.erase root.key, published := w.published.erase root.key } i =
          (w.withdrawn root.key i).refreshed i FragmentCache.clear := by
      have hsame : { w with
          latest := w.latest.erase root.key
          published := w.published.erase root.key } = w.withdrawn root.key i := by
        rw [← hcount]
        rfl
      rw [hsame]
      rfl
    rw [hfinal]
    exact .tail (.single (.clearing hleave)) (.steady (.refresh _ _ _ _ _))

/-- When a build tree goes, the count has changed. -/
theorem moves_unpublish_buildTree {w w' : Workspace} {root : FilePath} (R : List Role)
    (h : w.unpublish root = (true, w')) :
    Moves input ⟨w, R, .resting⟩ ⟨{ w' with buildCount := w'.buildCount - 1 }, R, .owing⟩ := by
  unfold Workspace.unpublish at h
  dsimp only at h
  split at h
  · cases h
  · next i hk =>
    obtain ⟨hb, rfl⟩ := Prod.mk.inj h
    have hb : w.isBuildTree i = true := hb
    have hleave : Clearing ⟨w, R, .resting⟩ ⟨w.withdrawn root.key i, R, .owing⟩ :=
      .withdraw w R root.key i .owing hk (.inl rfl)
    have hcount : (w.withdrawn root.key i).buildCount = w.buildCount - 1 := by
      simp [Workspace.withdrawn, weight, hb]
    have hrefresh : Move input ⟨w.withdrawn root.key i, R, .owing⟩
        ⟨(w.withdrawn root.key i).refreshed i FragmentCache.clear, R, .owing⟩ :=
      .steady (.refresh _ _ _ _ _)
    have hgo := ReflTransGen.tail (.single (.clearing hleave)) hrefresh
    have hfinal : { (w.withdrawn root.key i).refreshed i FragmentCache.clear with
        buildCount := (w.withdrawn root.key i).buildCount } =
          (w.withdrawn root.key i).refreshed i FragmentCache.clear := rfl
    rw [← hfinal, hcount] at hgo
    exact hgo

/-- To take folders away, one after the other, is a number of moves that begin no look. -/
theorem moves_removeAll {id : TaskId} (added : List EditorFolder)
    (roots : List (Except PathError FilePath)) (e : Engine) (hid : id < e.tasks.length) :
    Moves input (e.acting id .resting) (e.removeAll id added roots).view := by
  induction roots generalizing e with
  | nil =>
    unfold removeAll
    split
    · rw [view_finish]
      exact .refl
    · rw [view_gather hid _ _ .idle (fun _ _ => rfl), role_map_adding]
      exact .single (.steady (.spawn _ _ _ _))
  | cons root rest ih =>
    cases root with
    | error err =>
      unfold removeAll
      rw [view_finish]
      exact .refl
    | ok root =>
      unfold removeAll
      split
      · next w h =>
        have hrest := ih { e with workspace := w } hid
        exact (moves_unpublish _ h).trans hrest
      · next w h =>
        refine (moves_unpublish_buildTree _ h).trans ?_
        apply follow_syncThen (fun _ _ => Move.steady)
          { e with workspace := { w with buildCount := w.buildCount - 1 } } hid
        intro w
        have hrest := ih { e with workspace := w.notifyChange } hid
        exact (steadily_notifyChange w _ _).moves.trans hrest

/-! ## Looks end -/

/-- The notice after an addition, and the answer to whoever waits, are steady moves. -/
theorem steadily_added (e : Engine) (id : TaskId) (m : ModelId) (isNew : Bool) :
    Steadily input (e.acting id .resting) (e.added id m isNew).view := by
  unfold added
  rw [view_finishWith]
  split
  · exact .refl
  · exact steadily_notifyChange _ _ _

/-- The end of an addition is a number of steady moves. -/
theorem steadily_endAdd (e : Engine) {id : TaskId} (hid : id < e.tasks.length) (m : ModelId) :
    Steadily input (e.acting id (.concluding .add m)) (e.endAdd id m).view := by
  unfold endAdd
  split
  · next hp =>
    have hkeep : Steady input (e.acting id (.concluding .add m)) (e.acting id .resting) := by
      apply Steady.keep
      simp_all
    rw [view_finishWith]
    exact .tail (.single hkeep) (.refresh _ _ _ m FragmentCache.clear)
  · next hp =>
    split
    · next hb =>
      refine .head (Steady.count _ _ m (by simpa using hp) hb) ?_
      apply follow_syncThen (fun _ _ h => h)
        (e.modifyWorkspace fun w => { w with buildCount := w.buildCount + 1 }) hid
      intro w
      exact steadily_added _ id m false
    · next hb =>
      rw [view_finishWith]
      exact .single (.keep _ _ m fun h => hb h.2)

/-- The end of a rebuild is a number of steady moves. -/
theorem steadily_endRebuild (e : Engine) {id : TaskId} (hid : id < e.tasks.length) (m : ModelId) :
    Steadily input (e.acting id (.concluding .rebuild m)) (e.endRebuild id m).view := by
  have hdispose (h : e.workspace.published.find? (e.workspace.keyOf m) = none ∨
      e.workspace.latest.find? (e.workspace.keyOf m) ≠ some m) :
      Steadily input (e.acting id (.concluding .rebuild m))
        ((e.modifyWorkspace (·.disposeModel m)).finish id (.ok .nothing)).view := by
    rw [view_finish]
    exact .tail (.single (.drop _ _ m h)) (.refresh _ _ _ m FragmentCache.clear)
  unfold endRebuild
  dsimp only
  split
  · next current hp =>
    split
    · next hl =>
      let w := (e.workspace.replaced m current).refreshed current FragmentCache.clear
      have hreplace (a : Acting)
          (ha : a = .owing ∨ a = .resting ∧ weight e.workspace m = weight e.workspace current) :
          Steadily input (e.acting id (.concluding .rebuild m))
            (acting { e with workspace := w } id a) :=
        .tail (.single (.replace _ _ m current a hp hl ha)) (.refresh _ _ _ _ _)
      split
      · next hdelta =>
        have hgo := hreplace .resting (.inr ⟨rfl, Int.sub_eq_zero.mp hdelta⟩)
        have hw : w = { w with buildCount := e.workspace.buildCount } := by
          have hcount : w.buildCount = e.workspace.buildCount := by
            change e.workspace.buildCount + _ = e.workspace.buildCount
            rw [hdelta, Int.add_zero]
          rw [← hcount]
        rw [view_finish]
        rw [hw] at hgo
        exact hgo
      · refine (hreplace .owing (.inl rfl)).trans ?_
        apply follow_syncThen (fun _ _ h => h) { e with workspace := w } hid
        intro w
        rw [view_finish]
        exact .refl
    · next hl => exact hdispose (.inr hl)
  · next hp => exact hdispose (.inl hp)

/-- The end of a look is a number of steady moves, whatever its purpose. -/
theorem steadily_endLook (e : Engine) {id : TaskId} (hid : id < e.tasks.length)
    (purpose : Purpose) (m : ModelId) :
    Steadily input (e.acting id (.concluding purpose m)) (e.endLook id m purpose).view := by
  cases purpose with
  | add => exact steadily_endAdd e hid m
  | rebuild => exact steadily_endRebuild e hid m

/-- A task that has the outcome of its look in hand has to publish or drop it. -/
theorem steady_conclude (e : Engine) {id : TaskId} (hid : id < e.tasks.length) (purpose : Purpose)
    (m : ModelId) :
    Steady input (e.viewAs id (.looking purpose m)) (e.acting id (.concluding purpose m)) := by
  have hlooking : (e.roles.set id (.looking purpose m))[id]? = some (.looking purpose m) :=
    List.getElem?_set_self (by rw [roles_length]; exact hid)
  have hconclude := @Steady.conclude input e.workspace _ id purpose m hlooking
  rw [List.set_set] at hconclude
  exact hconclude

/-- The user has been told of the failure of a look. -/
theorem steadily_told (e : Engine) {id : TaskId} (hid : id < e.tasks.length) (purpose : Purpose)
    (m : ModelId) :
    Steadily input (e.viewAs id (.looking purpose m)) (e.endLook id m purpose).view :=
  .head (steady_conclude e hid purpose m) (steadily_endLook e hid purpose m)

/-- The conclusion of a look is a number of steady moves. -/
theorem steadily_conclude (e : Engine) {id : TaskId} (hid : id < e.tasks.length)
    (purpose : Purpose) (m : ModelId) (outcome : Except Failure (Option Build)) :
    Steadily input (e.viewAs id (.looking purpose m)) (e.conclude id purpose m outcome).view := by
  let taken := e.modifyWorkspace (·.concluded m outcome)
  have htaken : Steadily input (e.viewAs id (.looking purpose m))
      (taken.acting id (.concluding purpose m)) := by
    exact .tail (.single (steady_conclude e hid purpose m)) (.takeIn _ _ purpose m outcome)
  have hend : Steadily input (e.viewAs id (.looking purpose m))
      (taken.endLook id m purpose).view :=
    htaken.trans (steadily_endLook taken hid purpose m)
  unfold conclude
  dsimp only
  split
  · exact hend
  · next key text hmessage =>
    split
    · exact hend
    · have hm : taken.workspace.isBuildTree m = false := by
        -- Only a failure comes with a message.
        cases outcome with
        | ok b => cases hf : e.workspace.model? m <;> simp [hf, Folder.message?] at hmessage
        | error f => exact Workspace.isBuildTree_concluded_error e.workspace m f
      rw [view_become]
      have hremember := @Steady.remember input taken.workspace (taken.roles.set id .idle)
        (.concluding purpose m) (taken.workspace.context.messages.tell key text)
      refine htaken.trans (.tail (.single hremember) ?_)
      have htell := @Steady.tell input
        { taken.workspace with context := taken.workspace.context.tell key text }
        (e.roles.set id .idle) id purpose m (role_set_idle hid) hm
      rw [List.set_set] at htell
      exact htell

/-! ## Looks go on -/

/-- An inquiry about a model changes only what the model keeps in memory. -/
theorem steadily_settle {α : Type} (e : Engine) (id : TaskId) (r : Role) (m : ModelId)
    (i : Inquiry α) : Steadily input (e.viewAs id r) ((e.settle m i).2.viewAs id r) := by
  obtain ⟨fragments, h⟩ : ∃ fragments,
      (e.settle m i).2 = e.modifyWorkspace (·.refreshed m fun _ => fragments) := ⟨_, rfl⟩
  rw [h]
  exact .single (.refresh e.workspace (e.roles.set id r) .resting m fun _ => fragments)

/-- A survey that goes on, or ends, is a number of steady moves. -/
theorem steadily_survey (e : Engine) {id : TaskId} (hid : id < e.tasks.length)
    (purpose : Purpose) (m : ModelId) (i : Inquiry (Option SourceTree)) :
    Steadily input (e.viewAs id (.looking purpose m)) (e.survey id purpose m i).view := by
  have hsettle := @steadily_settle input _ e id (.looking purpose m) m i
  have hlt : id < (e.settle m i).2.tasks.length := hid
  unfold survey
  split
  · next e' h =>
    rw [h] at hsettle hlt
    exact hsettle.trans (steadily_conclude e' hlt purpose m _)
  · next tree e' h =>
    rw [h] at hsettle hlt
    rw [view_gather hlt _ _ (.looking purpose m) (fun _ _ => rfl)]
    exact .tail hsettle (.spawn _ _ _ 2)
  · next f e' h =>
    rw [h] at hsettle hlt
    exact hsettle.trans (steadily_conclude e' hlt purpose m _)
  · next e' _ _ _ h =>
    rw [h] at hsettle
    rw [view_become]
    exact hsettle

/-- The first steps of a look are steady moves. -/
theorem steadily_look (e : Engine) {id : TaskId} (hid : id < e.tasks.length)
    (purpose : Purpose) {m : ModelId} {f : Folder} (hf : e.workspace.model? m = some f) :
    Steadily input (e.viewAs id (.looking purpose m)) (e.look id purpose m).view := by
  unfold look
  rw [hf]
  exact steadily_survey e hid purpose m _

/-! ## A folder that is new stays published -/

/-- The end of a task leaves the workspace as it is. -/
theorem workspace_finish (e : Engine) (id : TaskId) (r : Except Failure Outcome) :
    (e.finish id r).workspace = e.workspace :=
  congrArg View.workspace (view_finish e id r)

theorem workspace_finishWith (e : Engine) (id : TaskId) (m : ModelId) :
    (e.finishWith id m).workspace = e.workspace :=
  workspace_finish e id _

/-- To schedule rebuilds leaves the workspace as it is. -/
theorem workspace_rebuildAll (e : Engine) (id : TaskId) (models : List ModelId) :
    (e.rebuildAll id models).workspace = e.workspace := by
  unfold rebuildAll
  split
  · exact workspace_finish e id _
  · rfl

/-- A notice publishes nothing. -/
theorem published_notify (w : Workspace) (notice : ChangeNotice) :
    (w.notify notice).published = w.published := by
  unfold Workspace.notify
  split <;> rfl

/-- To follow the count of build trees publishes nothing. -/
theorem published_sync (w : Workspace) : w.sync.2.published = w.published := by
  unfold Workspace.sync
  split
  · split <;> rfl
  · rw [Workspace.retire_eq]

/-- To go on after following the count publishes nothing, unless what follows does. -/
theorem published_syncThen (e : Engine) (id : TaskId) (after : AfterRegistration)
    {settled : Engine → Engine}
    (hsettled : ∀ e, (settled e).workspace.published = e.workspace.published) :
    (e.syncThen id after settled).workspace.published = e.workspace.published := by
  have hsync := published_sync e.workspace
  unfold syncThen
  split
  · next w h =>
    rw [h] at hsync
    exact hsync
  · next w h =>
    rw [h] at hsync
    exact (hsettled _).trans hsync

/-- The notice after an addition publishes nothing. -/
theorem published_added (e : Engine) (id : TaskId) (m : ModelId) (isNew : Bool) :
    (e.added id m isNew).workspace.published = e.workspace.published := by
  unfold added
  rw [workspace_finishWith]
  split
  · rfl
  · exact (published_notify _ _).trans (published_notify _ _)

/-- The end of an addition publishes nothing: the folder was published when it began. -/
theorem published_endAdd (e : Engine) (id : TaskId) (m : ModelId) :
    (e.endAdd id m).workspace.published = e.workspace.published := by
  unfold endAdd
  split
  · rw [workspace_finishWith]
    rfl
  · split
    · exact published_syncThen _ id (.added m) fun e => published_added e id m false
    · rw [workspace_finishWith]

/-- The conclusion of an addition publishes nothing. -/
theorem published_conclude_add (e : Engine) (id : TaskId) (m : ModelId)
    (outcome : Except Failure (Option Build)) :
    (e.conclude id .add m outcome).workspace.published = e.workspace.published := by
  unfold conclude
  dsimp only
  split
  · exact published_endAdd _ id m
  · split
    · exact published_endAdd _ id m
    · rfl

/-- A survey of a new folder publishes nothing. -/
theorem published_survey_add (e : Engine) (id : TaskId) (m : ModelId)
    (i : Inquiry (Option SourceTree)) :
    (e.survey id .add m i).workspace.published = e.workspace.published := by
  have hsettle : (e.settle m i).2.workspace.published = e.workspace.published := rfl
  unfold survey
  split
  · next h =>
    rw [h] at hsettle
    exact (published_conclude_add _ id m _).trans hsettle
  · next h =>
    rw [h] at hsettle
    exact hsettle
  · next h =>
    rw [h] at hsettle
    exact (published_conclude_add _ id m _).trans hsettle
  · next h =>
    rw [h] at hsettle
    exact hsettle

/-- Until the turn ends nothing else is published. -/
theorem published_look_add (e : Engine) (id : TaskId) (m : ModelId) :
    (e.look id .add m).workspace.published = e.workspace.published := by
  unfold look
  split
  · exact published_survey_add e id m _
  · rfl

/-! ## Looks begin -/

/-- The turn that begins an addition is a look that begins and steady moves, unless the folder is
known. -/
theorem outline_beginAdd {e : Engine} {id : TaskId} (hid : id < e.tasks.length)
    (folder : EditorFolder) : Outline input (e.viewAs id .idle) (e.beginAdd id folder).view := by
  unfold beginAdd
  split
  · rw [view_finish]
    exact .quiet .refl
  · next root _ =>
    split
    · rw [view_finishWith]
      exact .quiet .refl
    · next hk =>
      have hintroduce := Beginning.introduce e.workspace _ id folder root (role_set_idle hid) hk
      rw [List.set_set] at hintroduce
      let admitted := e.modifyWorkspace (·.admitted folder root)
      have hmodel : admitted.workspace.model? e.workspace.models.length =
          some (e.workspace.fresh folder root) :=
        Workspace.model?_begun_self e.workspace _
      have hlook := @steadily_look input admitted id hid .add _ _ hmodel
      rw [show e.workspace.takeUp folder root =
        (e.workspace.models.length, (e.workspace.takeUp folder root).2) from rfl]
      dsimp only
      rw [Workspace.takeUp_publish]
      exact .begun .refl hintroduce hlook (.inr (published_look_add admitted id _))

/-- The turn that begins a rebuild is a look that begins and steady moves. -/
theorem tended_beginRebuild {e : Engine} {id : TaskId} (hid : id < e.tasks.length)
    {old : ModelId} {t : Task} (ht : e.task? id = some t)
    (hrole : t.activity.role = .rebuilding old) :
    Tended input e.view (e.beginRebuild id old).view := by
  unfold beginRebuild
  split
  · next f hf =>
    have hretry := Beginning.retry e.workspace _ id old f (hrole ▸ role_eq ht) hf
    let retried := e.modifyWorkspace (·.retried f.source f.root)
    have hmodel : retried.workspace.model? e.workspace.models.length =
        some (e.workspace.fresh f.source f.root) :=
      Workspace.model?_begun_self e.workspace _
    exact .retried hretry rfl (steadily_look retried hid .rebuild hmodel)
  · exact .steady .refl

/-! ## Files -/

/-- An inquiry into a compiler leaves its task idle. -/
theorem view_discover (e : Engine) (id : TaskId) (i : Inquiry Compiler) :
    (e.discover id i).view = e.viewAs id .idle := by
  unfold discover
  split
  · exact view_finish e id _
  · exact view_finish e id _
  · exact view_become e id _

/-- A configuration that is to be provided leaves its task idle, and fragments in memory. -/
theorem view_resolve (e : Engine) (id : TaskId) (uri : String) (path : FilePath) (m : ModelId)
    (i : Inquiry (Option SourceConfiguration)) :
    (e.resolve id uri path m i).view = (e.settle m i).2.viewAs id .idle := by
  unfold resolve
  split
  · next h =>
    rw [h]
    exact view_finish _ id _
  · next h =>
    rw [h]
    exact view_finish _ id _
  · next h =>
    rw [h]
    exact view_become _ id _

/-- A configuration leaves its task idle, and fragments in memory. -/
theorem view_configure (e : Engine) (id : TaskId) (m : ModelId)
    (i : Inquiry (Option SourceConfiguration)) :
    (e.configure id m i).view = (e.settle m i).2.viewAs id .idle := by
  unfold configure
  split
  · next h =>
    rw [h]
    exact view_finish _ id _
  · next h =>
    rw [h]
    exact view_finish _ id _
  · next h =>
    rw [h]
    exact view_become _ id _

/-- A test compilation leaves its task idle, and fragments in memory. -/
theorem view_testCompile (e : Engine) (id : TaskId) (m : ModelId)
    (i : Inquiry (Option CompileReport)) :
    (e.testCompile id m i).view = (e.settle m i).2.viewAs id .idle := by
  unfold testCompile
  split
  · next h =>
    rw [h]
    exact view_finish _ id _
  · next h =>
    rw [h]
    exact view_finish _ id _
  · next h =>
    rw [h]
    exact view_become _ id _

/-- To begin to provide for a file is a number of steady moves. -/
theorem steadily_beginProvide (e : Engine) (id : TaskId) (uri : String) :
    Steadily input (e.viewAs id .idle) (e.beginProvide id uri).view := by
  unfold beginProvide
  dsimp only
  split
  · rw [view_finish]
  · rw [view_resolve]
    exact steadily_settle e id .idle _ _

/-! ## Operations -/

/-- The rebuilds that are scheduled stand behind the other tasks. -/
theorem view_rebuildAll {e : Engine} {id : TaskId} (hid : id < e.tasks.length)
    (models : List ModelId) :
    (e.rebuildAll id models).view =
      ⟨e.workspace, e.roles.set id .idle ++ models.map .rebuilding, .resting⟩ := by
  unfold rebuildAll
  split
  · next h =>
    obtain rfl : models = [] := by simpa using h
    rw [view_finish, viewAs]
    simp
  · rw [view_gather hid _ _ .idle (fun _ _ => rfl), List.map_map]
    rfl

/-- To let idle tasks begin is a steady move. -/
theorem steadily_gather_idle {e : Engine} {id : TaskId} (hid : id < e.tasks.length)
    (children : List Activity) (after : AfterGathering)
    (ha : ∀ ids failure, (Activity.gathering ids failure after).role = .idle)
    (hc : ∀ c ∈ children, c.role = .idle) :
    Steadily input (e.viewAs id .idle) (e.gather id children after).view := by
  have hroles : children.map Activity.role = List.replicate children.length .idle := by
    rw [List.eq_replicate_iff]
    refine ⟨List.length_map _, ?_⟩
    intro r hr
    obtain ⟨c, hmem, rfl⟩ := List.mem_map.mp hr
    exact hc c hmem
  rw [view_gather hid _ _ .idle ha, hroles]
  exact .single (.spawn _ _ _ _)

/-- Everything that is published goes, one model after the other. -/
theorem moves_dispose (w : Workspace) (R : List Role) :
    Moves input ⟨w, R, .resting⟩ ⟨w.dispose, R, .resting⟩ := by
  have hrefresh (ids : List ModelId) (w : Workspace) :
      Moves input ⟨w, R, .resting⟩ ⟨ids.foldl Workspace.disposeModel w, R, .resting⟩ := by
    induction ids generalizing w with
    | nil => exact .refl
    | cons i rest ih =>
      exact .head (.steady (.refresh w R .resting i FragmentCache.clear)) (ih (w.disposeModel i))
  exact .tail (hrefresh w.publishedIds w) (.clearing (.empty _ _))

/-- The first turn of any operation follows the outline. -/
theorem outline_perform {e : Engine} {id : TaskId} (hid : id < e.tasks.length) (op : Operation)
    (hop : ∀ settings, op = .updateSettings settings → input.settings = some settings) :
    Outline input (e.viewAs id .idle) (e.perform id op).view := by
  cases op with
  | add folder => exact outline_beginAdd hid folder
  | addMany folders =>
    dsimp only [perform]
    split
    · rw [view_finish]
      exact .quiet .refl
    · refine .quiet (steadily_gather_idle hid _ _ (fun _ _ => rfl) ?_).moves
      simp [Activity.role]
  | remove root => exact .quiet (moves_removeAll _ _ e hid)
  | change added removed => exact .quiet (moves_removeAll _ _ e hid)
  | rebuild roots =>
    cases roots with
    | none =>
      unfold perform
      rw [view_rebuildAll hid]
      exact .quiet (.single (.steady (.schedule _ _ _ _ fun _ h => h)))
    | some roots =>
      unfold perform
      rw [view_rebuildAll hid]
      refine .quiet (.single (.steady (.schedule _ _ _ _ ?_)))
      intro i hi
      obtain ⟨root, _, hfind⟩ := List.mem_filterMap.mp hi
      exact Workspace.mem_publishedIds_iff.mpr ⟨root.key, hfind⟩
  | updateSettings settings =>
    have hview := view_rebuildAll
      (e := e.modifyWorkspace fun w => { w with context := w.context.updateSettings settings })
      hid (concerned e.workspace settings)
    unfold perform
    dsimp only
    rw [hview]
    exact .quiet (.single (.steady (.configure _ _ _ settings (hop settings rfl))))
  | configure source =>
    dsimp only [perform]
    split
    · rw [view_finish]
      exact .quiet .refl
    · rw [view_configure]
      exact .quiet (steadily_settle e id .idle _ _).moves
  | testCompile source =>
    dsimp only [perform]
    split
    · rw [view_finish]
      exact .quiet .refl
    · rw [view_testCompile]
      exact .quiet (steadily_settle e id .idle _ _).moves
  | provide uris =>
    dsimp only [perform]
    split
    · rw [view_finish]
      exact .quiet .refl
    · refine .quiet (steadily_gather_idle hid _ _ (fun _ _ => rfl) ?_).moves
      simp [Activity.role]
  | notify notice =>
    unfold perform
    rw [view_finish]
    exact .quiet (steadily_notify _ _ _ notice).moves
  | notifyThrough n =>
    unfold perform
    rw [view_finish]
    exact .quiet (steadily_notifyThrough _ _ _ n).moves
  | disposeOf n =>
    unfold perform
    rw [view_finish]
    exact .quiet (.single (.steady (.dismiss _ _ _ n)))
  | dispose =>
    unfold perform
    rw [view_finish]
    exact .quiet (moves_dispose _ _)

/-! ## Turns -/

/-- An operation that begins follows the outline, its new task being idle. -/
theorem outline_start (e : Engine) (op : Operation)
    (hop : ∀ settings, op = .updateSettings settings → input.settings = some settings) :
    Outline input e.view (e.start op).view := by
  let spawned : Engine := { e with tasks := e.tasks ++ [Task.mk none (.done (.ok .nothing))] }
  have hspawn : Steady input e.view (spawned.viewAs e.tasks.length .idle) := by
    have hroles : spawned.roles.set e.tasks.length .idle = e.roles ++ List.replicate 1 .idle := by
      have happend : spawned.roles = e.roles ++ [.idle] := List.map_append
      rw [happend, List.set_append_right _ _ (Nat.le_of_eq e.roles_length), roles_length]
      simp
    rw [viewAs, hroles]
    exact .spawn e.workspace e.roles .resting 1
  have hid : e.tasks.length < spawned.tasks.length := by simp [spawned]
  exact .head (.single hspawn) (outline_perform hid op hop)

section Resume

variable {e : Engine} {id : TaskId} {t : Task}

theorem lt_of_task? (ht : e.task? id = some t) : id < e.tasks.length :=
  (List.getElem?_eq_some_iff.mp ht).choose

/-- The editor has answered, whatever it was asked for. -/
theorem steady_registered (ht : e.task? id = some t) (hrole : t.activity.role = .registering) :
    Steady input e.view
      (acting (e.modifyWorkspace fun w => (w.registered input.hasApi).2) id .resting) :=
  .register e.workspace e.roles id (hrole ▸ role_eq ht)

/-- No root goes when the editor has answered, unless the task is taking folders away. -/
theorem steadily_afterRegistration (ht : e.task? id = some t)
    (hrole : t.activity.role = .registering) (after : AfterRegistration)
    (hkeep : ∀ rest added, after ≠ .removed rest added) :
    Steadily input e.view (e.afterRegistration id input.hasApi after).view := by
  have hregister := @steady_registered input e id t ht hrole
  let registered := e.modifyWorkspace fun w => (w.registered input.hasApi).2
  cases after with
  | added m => exact .head hregister (steadily_added registered id m _)
  | removed rest added => exact absurd rfl (hkeep rest added)
  | rebuilt =>
    have hfinish := view_finish registered id (.ok .nothing)
    apply ReflTransGen.single
    exact hfinish ▸ hregister

/-- What follows the editor's answer is a number of moves that begin no look. -/
theorem moves_afterRegistration (ht : e.task? id = some t)
    (hrole : t.activity.role = .registering) (after : AfterRegistration) :
    Moves input e.view (e.afterRegistration id input.hasApi after).view := by
  have hid := lt_of_task? ht
  cases after with
  | removed rest added =>
    let registered := e.modifyWorkspace fun w => (w.registered input.hasApi).2
    have hregister := @steady_registered input e id t ht hrole
    have hnotify :=
      @steadily_notifyChange input registered.workspace (e.roles.set id .idle) .resting
    refine (Steadily.moves (.head hregister hnotify)).trans ?_
    exact moves_removeAll added rest (registered.modifyWorkspace (·.notifyChange)) hid
  | added m => exact (steadily_afterRegistration ht hrole (.added m) nofun).moves
  | rebuilt => exact (steadily_afterRegistration ht hrole .rebuilt nofun).moves

/-- What follows the tasks that were waited for is a number of steady moves. -/
theorem steadily_afterGathering (ht : e.task? id = some t) {children : List TaskId}
    {failure : Option Failure} {after : AfterGathering}
    (ha : t.activity = .gathering children failure after) (outcomes : List Outcome) :
    Steadily input e.view (e.afterGathering id outcomes after).view := by
  have hid := lt_of_task? ht
  have hview := view_eq_viewAs ht ha
  cases after with
  | compilers purpose m tree =>
    dsimp only [afterGathering]
    split
    · rw [hview]
      exact steadily_conclude e hid purpose m _
    · exact .refl
  | rebuilt =>
    dsimp only [afterGathering]
    rw [view_finish, hview]
    exact steadily_notifyChange _ _ _
  | _ =>
    dsimp only [afterGathering]
    rw [view_finish, hview]
    exact .refl

/-- What follows a failure among them is a number of steady moves. -/
theorem steadily_afterFailure (ht : e.task? id = some t) {children : List TaskId}
    {failure : Option Failure} {after : AfterGathering}
    (ha : t.activity = .gathering children failure after) (f : Failure) :
    Steadily input e.view (e.afterFailure id f after).view := by
  rw [view_eq_viewAs ht ha]
  cases after with
  | compilers purpose m tree => exact steadily_conclude e (lt_of_task? ht) purpose m _
  | _ =>
    dsimp only [afterFailure]
    rw [view_finish]
    exact .refl

end Resume

/-- A task that goes on leaves the published roots, unless it adds a folder or takes some away. -/
theorem tended_resume {e : Engine} {id : TaskId} {t : Task} (ht : e.task? id = some t)
    (hadd : ∀ folder, t.activity ≠ .adding folder)
    (hremove : ∀ rest added, t.activity ≠ .registering (.removed rest added)) (answers : Answers) :
    Tended (Event.resume id answers).input e.view (e.resume id answers).view := by
  have hid := lt_of_task? ht
  have hview {a : Activity} (ha : t.activity = a) : e.view = e.viewAs id a.role :=
    view_eq_viewAs ht ha
  unfold resume
  rw [ht, Option.map_some]
  cases ha : t.activity with
  | adding folder => exact absurd ha (hadd folder)
  | rebuilding old => exact tended_beginRebuild hid ht (by rw [ha]; rfl)
  | asking tree l =>
    rw [view_discover, hview ha]
    exact .steady .refl
  | providing uri =>
    rw [hview ha]
    exact .steady (steadily_beginProvide e id uri)
  | surveying purpose m i =>
    cases i with
    | ask q next =>
      rw [hview ha]
      exact .steady (steadily_survey e hid purpose m _)
    | _ => exact .steady .refl
  | discovering i =>
    cases i with
    | ask q next =>
      rw [view_discover, hview ha]
      exact .steady .refl
    | _ => exact .steady .refl
  | telling purpose m =>
    rw [hview ha]
    exact .steady (steadily_told e hid purpose m)
  | registering after =>
    have hkeep : ∀ rest added, after ≠ .removed rest added := by
      rintro rest added rfl
      exact hremove rest added ha
    exact .steady (steadily_afterRegistration ht (by rw [ha]; rfl) after hkeep)
  | gathering children failure after =>
    cases failure with
    | some f => exact .steady (steadily_afterFailure ht ha f)
    | none =>
      dsimp only
      split
      · exact .steady (steadily_afterGathering ht ha _)
      · exact .steady .refl
  | resolving uri path m i =>
    cases i with
    | ask q next =>
      rw [view_resolve, hview ha]
      exact .steady (steadily_settle e id .idle m _)
    | _ => exact .steady .refl
  | configuring m i =>
    cases i with
    | ask q next =>
      rw [view_configure, hview ha]
      exact .steady (steadily_settle e id .idle m _)
    | _ => exact .steady .refl
  | compiling m i =>
    cases i with
    | ask q next =>
      rw [view_testCompile, hview ha]
      exact .steady (steadily_settle e id .idle m _)
    | _ => exact .steady .refl
  | done r => exact .steady .refl

/-- A task that goes on takes a turn. -/
theorem outline_resume (e : Engine) (id : TaskId) (answers : Answers) :
    Outline (Event.resume id answers).input e.view (e.resume id answers).view := by
  cases ht : e.task? id with
  | none =>
    unfold resume
    rw [ht]
    exact .quiet .refl
  | some t =>
    by_cases hadd : ∃ folder, t.activity = .adding folder
    · obtain ⟨folder, ha⟩ := hadd
      unfold resume
      rw [view_eq_viewAs ht ha, ht, Option.map_some, ha]
      exact outline_beginAdd (lt_of_task? ht) folder
    by_cases hremove : ∃ rest added, t.activity = .registering (.removed rest added)
    · obtain ⟨rest, added, ha⟩ := hremove
      unfold resume
      rw [ht, Option.map_some, ha]
      exact .quiet (moves_afterRegistration ht (by rw [ha]; rfl) (.removed rest added))
    · simp only [not_exists] at hadd hremove
      exact (tended_resume ht hadd hremove answers).outline

end Engine

/-! ## Runs -/

namespace Engine

/-- An engine on which no operation was begun. -/
def fresh (context : Context) : Engine := { workspace := { context } }

/-- One event is a turn of one task. -/
theorem step_outline (e : Engine) (event : Event) :
    Outline event.input e.view (e.step event).view := by
  cases event with
  | call op =>
    refine outline_start e op ?_
    rintro settings rfl
    rfl
  | resume id answers => exact outline_resume e id answers

/-- An event keeps what every move keeps. -/
theorem step_keeps {I : View → Prop} {event : Event}
    (hI : ∀ v v', Move event.input v v' → I v → I v')
    (hB : ∀ v v', Beginning v v' → I v → I v') {e : Engine} (he : I e.view) :
    I (e.step event).view :=
  (step_outline e event).keeps hI hB he

/-- A run keeps what each of its events keeps. -/
theorem run_keeps {I : Engine → Prop} {events : List Event}
    (hI : ∀ e, ∀ event ∈ events, I e → I (e.step event)) {e : Engine} (he : I e) :
    I (e.run events) :=
  List.foldlRecOn events step he fun e he event hevent => hI e event hevent he

end Engine

end BuildLens
