import BuildLens.Proofs.Workspace.Effects

/-!
# What one turn does

This module says of each function through which a turn runs how it changes the workspace and which
effect it has, together with what it does to what is known of the folders.

Main definitions:

- `Engine.Surveys`, `Engine.Concludes`, `Engine.EndsLook`: how a look at a folder goes on.
- `Engine.Turn`: what a turn of a task may do, by what the task was doing.
- `Engine.Performs`: what the first turn of an operation may do, by what the operation is.

Main results:

- `does_survey`, `does_conclude`, `does_endLook`: the turns of a look.
- `does_beginAdd`, `does_beginRebuild`: the turns in which a look begins.
- `does_resumeAs`, `does_perform`: every turn is one of those that are listed.
-/

namespace BuildLens

/-! ## Inquiries that go on -/

/-- The path of a file that is to be provided, and the build tree that answers for it. -/
def Workspace.asked? (w : Workspace) (uri : String) :
    Option (FilePath × ModelId × Folder) := do
  let path ← (FilePath.ofUri w.platform uri).toOption
  let m ← w.answering? path
  return (path, m, ← w.model? m)

/-- The fragments that a model keeps in memory. -/
def Workspace.kept (w : Workspace) (m : ModelId) : FragmentCache :=
  ((w.model? m).map Folder.fragments).getD {}

/-- The workspace after the outcome of a look at a model was taken in, the user having been told of
a failure that is new. -/
def Workspace.reported (w : Workspace) (m : ModelId) (outcome : Except Failure (Option Build)) :
    Workspace :=
  { w.concluded m outcome with
    context := { w.context with
      messages := ((w.model? m).map (·.report outcome w.context.messages)).getD
        w.context.messages } }

/-- Telling the user leaves the models. -/
theorem Workspace.model?_reported (w : Workspace) (m : ModelId)
    (outcome : Except Failure (Option Build)) (n : ModelId) :
    (w.reported m outcome).model? n =
      if m = n then (w.model? n).map (·.conclude outcome) else w.model? n :=
  w.model?_modifyModel m (·.conclude outcome) n

/-- The messages are those that the model reports, if there is such a model. -/
theorem Workspace.messages_reported (w : Workspace) (m : ModelId)
    (outcome : Except Failure (Option Build)) :
    (w.reported m outcome).context.messages =
      ((w.model? m).map (·.report outcome w.context.messages)).getD w.context.messages :=
  rfl

/-- Without a message an outcome is only taken in. -/
theorem Workspace.reported_of_message?_eq_none {w : Workspace} {m : ModelId}
    {outcome : Except Failure (Option Build)} (h : (w.model? m).bind (·.message? outcome) = none) :
    w.reported m outcome = w.concluded m outcome := by
  cases hf : w.model? m with
  | none =>
    rw [reported, hf]
    rfl
  | some f =>
    rw [hf, Option.bind_some] at h
    simp only [reported, hf, Option.map_some, Option.getD_some, Folder.report, h]
    rfl

/-- With a message the user is told too, once the outcome is taken in. -/
theorem Workspace.reported_of_message?_eq_some {w : Workspace} {m : ModelId}
    {outcome : Except Failure (Option Build)} {key : MessageKey} {text : Message}
    (h : (w.model? m).bind (·.message? outcome) = some (key, text)) :
    w.reported m outcome = { w.concluded m outcome with context := w.context.tell key text } := by
  obtain ⟨f, hf, hmessage⟩ := Option.bind_eq_some_iff.mp h
  simp only [reported, hf, Option.map_some, Option.getD_some, Folder.report, hmessage]
  rfl

/-- The workspace after an inquiry about a model has gone on up to its next request. -/
def Workspace.settled {α : Type} (w : Workspace) (m : ModelId) (i : Inquiry α) : Workspace :=
  w.refreshed m fun _ => (i.settle (w.kept m)).2

/-- An inquiry that goes on changes only what is kept in memory. -/
theorem Workspace.Calm.settled {α : Type} (w : Workspace) (m : ModelId) (i : Inquiry α) :
    w.Calm (w.settled m i) :=
  .refreshed w m _

/-- Going on with an inquiry changes nothing but what its model keeps in memory. -/
theorem Engine.settle_eq {α : Type} (e : Engine) (m : ModelId) (i : Inquiry α) :
    e.settle m i =
      ((i.settle (e.workspace.kept m)).1, e.modifyWorkspace (·.settled m i)) :=
  rfl

/-! ## Parts of a look -/

/-- Whether a task is in the middle of a look at a folder: it inquires, or it waits for others that
do. -/
def Activity.isLook : Activity → Bool
  | .surveying .. => true
  | .discovering _ => true
  | .gathering _ _ (.compilers ..) => true
  | _ => false

/-- The task has no part in a look, and waits for no other task. -/
def Activity.Plain (a : Activity) : Prop := a.isLook = false ∧ a.waits = false

/-- Neither the task nor those that it lets begin have a part in a look, and the task waits for no
others but those. -/
def Effect.Plain : Effect → Prop
  | .stay => True
  | .become a => a.Plain
  | .finish _ => True
  | .gather children after =>
    (∀ a ∈ children, a.Plain) ∧ ∀ p m tree, after ≠ .compilers p m tree

/-- What a turn does with a task that goes on with an inquiry: the task ends as the inquiry does, or
it waits for the next reply. -/
def Effect.ofInquiry {α : Type} (outcome : α → Outcome) (waiting : Inquiry α → Activity) :
    Inquiry α → Effect
  | .answer a => .finish (.ok (outcome a))
  | .failed f => .finish (.error f)
  | i => .become (waiting i)

/-- A task that goes on with an inquiry has no part in a look if it has none while it waits. -/
theorem Effect.Plain.ofInquiry {α : Type} {outcome : α → Outcome} {waiting : Inquiry α → Activity}
    (h : ∀ i, (waiting i).Plain) {i : Inquiry α} : (Effect.ofInquiry outcome waiting i).Plain := by
  cases i with
  | answer a => trivial
  | failed f => trivial
  | _ => exact h _

/-! ## How a look goes on -/

namespace Engine

variable {w : Workspace}

/-- The end of a look at a model: the task ends, or it waits for the provider to follow. -/
inductive EndsLook (m : ModelId) : Purpose → Effect → Prop
  | added (phase : FolderPhase) : EndsLook m .add (.finish (.ok (.folder m phase)))
  | counted : EndsLook m .add (.become (.registering (.added m)))
  | rebuilt : EndsLook m .rebuild (.finish (.ok .nothing))
  | recounted : EndsLook m .rebuild (.become (.registering .rebuilt))

/-- The outcome of a look is taken in, and the look ends, or the user is told first and waited
for. -/
structure Concludes (w : Workspace) (p : Purpose) (m : ModelId)
    (outcome : Except Failure (Option Build)) (w' : Workspace) (eff : Effect) : Prop where
  calm : (w.reported m outcome).Calm w'
  effect : eff = .become (.telling p m) ∨ EndsLook m p eff

/-- The inquiry into a folder goes on: it asks, it finds a tree whose compilers have to be asked, or
its outcome is taken in. -/
inductive Surveys (w : Workspace) (p : Purpose) (m : ModelId) (i : Inquiry (Option SourceTree)) :
    Workspace → Effect → Prop where
  | asks {w' : Workspace} {cache : FragmentCache} {q : Request}
      {next : q.Reply → Inquiry (Option SourceTree)} (hi : (i.settle cache).1 = .ask q next)
      (hw : w.Calm w') : Surveys w p m i w' (.become (.surveying p m (.ask q next)))
  | finds {w' : Workspace} {cache : FragmentCache} {tree : SourceTree}
      (hi : (i.settle cache).1 = .answer (some tree)) (hw : w.Calm w') :
      Surveys w p m i w' (.gather [.asking tree .c, .asking tree .cpp] (.compilers p m tree))
  | lacks {w₁ w' : Workspace} {eff : Effect} {cache : FragmentCache}
      (hi : (i.settle cache).1 = .answer none) (hw : w.Calm w₁)
      (h : Concludes w₁ p m (.ok none) w' eff) : Surveys w p m i w' eff
  | fails {w₁ w' : Workspace} {eff : Effect} {cache : FragmentCache} {f : Failure}
      (hi : (i.settle cache).1 = .failed f) (hw : w.Calm w₁)
      (h : Concludes w₁ p m (.error f) w' eff) : Surveys w p m i w' eff

/-- A turn that makes the provider follow asks the editor for its interface, or goes on at once. -/
theorem does_syncThen (after : AfterRegistration) (settled : Engine → TaskId → Engine)
    {P : Workspace → Effect → Prop} (hask : P w.sync.2 (.become (.registering after)))
    (hsettled : Does w.sync.2 settled P) :
    Does w (fun e id => e.syncThen id after (settled · id)) P := by
  cases h : w.sync with
  | mk answer w' =>
    rw [h] at hask hsettled
    cases answer with
    | asking =>
      refine (does_take (.become (.registering after)) hask).after (fun _ => w') |>.congr ?_
      rintro e id rfl
      rw [syncThen, h]
      rfl
    | settled =>
      refine hsettled.after (fun _ => w') |>.congr ?_
      rintro e id rfl
      rw [syncThen, h]
      rfl

/-- A task that would let others begin ends at once if there are none. -/
theorem does_gatherUnless {P : Workspace → Effect → Prop} {none? : Bool} {o : Outcome}
    {children : List Activity} {after : AfterGathering} (hends : P w (.finish (.ok o)))
    (hgathers : P w (.gather children after)) :
    Does w (fun e id => if none? then e.finish id (.ok o) else e.gather id children after) P := by
  cases none? with
  | true => exact does_take (.finish (.ok o)) hends
  | false => exact does_take (.gather children after) hgathers

/-- A task that ends with a folder tells what is known of it at that time. -/
theorem does_finishWith (m : ModelId) :
    Does w (fun e id => e.finishWith id m)
      fun w' eff => w' = w ∧ eff = .finish (.ok (.folder m (w.phaseOf m))) := by
  refine (does_take _ ⟨rfl, rfl⟩).congr ?_
  rintro e id rfl
  rfl

/-- An addition ends with its folder, and nothing is learnt of any folder then. -/
theorem does_added (m : ModelId) (isNew : Bool) :
    Does w (fun e id => e.added id m isNew)
      fun w' eff => w.Calm w' ∧ ∃ phase, eff = .finish (.ok (.folder m phase)) := by
  cases isNew with
  | true => exact (does_finishWith m).mono fun w' eff h => ⟨h.1 ▸ .refl w, _, h.2⟩
  | false =>
    refine ((does_finishWith m).mono fun w' eff h => ⟨?_, _, h.2⟩).after (·.notifyChange)
    exact h.1 ▸ .notifyChange w

/-- The look at a new folder ends, and nothing is learnt of any folder then. -/
theorem does_endAdd (m : ModelId) :
    Does w (fun e id => e.endAdd id m) fun w' eff => w.Calm w' ∧ EndsLook m .add eff := by
  by_cases hp : w.isPublished m = true
  · by_cases hb : w.isBuildTree m = true
    · have hcount : w.Calm { w with buildCount := w.buildCount + 1 } := .of_models_eq rfl rfl rfl rfl
      have hsync := hcount.trans (.sync _)
      refine ((does_syncThen (.added m) (fun e id => e.added id m false)
        (P := fun w' eff => w.Calm w' ∧ EndsLook m .add eff) ⟨hsync, .counted⟩ ?_).after
          fun w => { w with buildCount := w.buildCount + 1 }).congr ?_
      · refine (does_added m false).mono ?_
        rintro w' eff ⟨hw, phase, rfl⟩
        exact ⟨hsync.trans hw, .added phase⟩
      · rintro e id rfl
        simp [endAdd, hp, hb]
    · refine ((does_finishWith m).mono ?_).congr ?_
      · rintro w' eff ⟨rfl, rfl⟩
        exact ⟨.refl w', .added _⟩
      · rintro e id rfl
        simp [endAdd, hp, hb]
  · refine (((does_finishWith m).mono ?_).after (·.disposeModel m)).congr ?_
    · rintro w' eff ⟨rfl, rfl⟩
      exact ⟨.disposeModel w m, .added _⟩
    · rintro e id rfl
      simp [endAdd, hp]

/-- Another look at a folder ends, whether it replaces the one in force or is dropped. -/
theorem does_endRebuild (m : ModelId) :
    Does w (fun e id => e.endRebuild id m) fun w' eff => w.Calm w' ∧ EndsLook m .rebuild eff := by
  have hdrop : Does w (fun e id => (e.modifyWorkspace (·.disposeModel m)).finish id (.ok .nothing))
      fun w' eff => w.Calm w' ∧ EndsLook m .rebuild eff :=
    (does_take (.finish (.ok .nothing)) ⟨.disposeModel w m, .rebuilt⟩).after (·.disposeModel m)
  cases hp : w.published.find? (w.keyOf m) with
  | none =>
    refine hdrop.congr ?_
    rintro e id rfl
    simp only [endRebuild, hp]
  | some current =>
    by_cases hl : w.latest.find? (w.keyOf m) = some m
    · let replaced (w : Workspace) : Workspace :=
        ({ w with latest := w.latest.erase (w.keyOf m) }.publish m).disposeModel current
      let delta := weight w m - weight w current
      have hpublished : w.Calm ({ w with latest := w.latest.erase (w.keyOf m) }.publish m) :=
        .of_models_eq rfl rfl rfl rfl
      have hreplaced : w.Calm (replaced w) := hpublished.trans (.disposeModel _ current)
      have hcounted : w.Calm { replaced w with buildCount := (replaced w).buildCount + delta } :=
        hreplaced.trans (.of_models_eq rfl rfl rfl rfl)
      have hsync := hcounted.trans (.sync _)
      by_cases hdelta : delta = 0
      · refine ((does_take (.finish (.ok .nothing)) ⟨hreplaced, .rebuilt⟩).after
          replaced).congr ?_
        rintro e id rfl
        simp only [endRebuild, hp, if_pos hl]
        exact if_pos hdelta
      · have hfinish := does_take (P := fun w' eff => w.Calm w' ∧ EndsLook m .rebuild eff)
          (.finish (.ok .nothing)) ⟨hsync, .rebuilt⟩
        refine ((does_syncThen .rebuilt (fun e id => e.finish id (.ok .nothing))
          ⟨hsync, .recounted⟩ hfinish).after
            fun w => { replaced w with buildCount := (replaced w).buildCount + delta }).congr ?_
        rintro e id rfl
        simp only [endRebuild, hp, if_pos hl]
        exact if_neg hdelta
    · refine hdrop.congr ?_
      rintro e id rfl
      simp only [endRebuild, hp, if_neg hl]

/-- A look ends as its purpose requires. -/
theorem does_endLook (p : Purpose) (m : ModelId) :
    Does w (fun e id => e.endLook id m p) fun w' eff => w.Calm w' ∧ EndsLook m p eff := by
  cases p with
  | add => exact does_endAdd m
  | rebuild => exact does_endRebuild m

/-- The outcome of a look is taken in before the look ends. -/
theorem does_conclude (p : Purpose) (m : ModelId) (outcome : Except Failure (Option Build)) :
    Does w (fun e id => e.conclude id p m outcome) (Concludes w p m outcome) := by
  have hend (h : w.reported m outcome = w.concluded m outcome) :
      Does w (fun e id => (e.modifyWorkspace (·.concluded m outcome)).endLook id m p)
        (Concludes w p m outcome) := by
    refine ((does_endLook p m).mono ?_).after (·.concluded m outcome)
    rintro w' eff ⟨hw, heff⟩
    exact ⟨h ▸ hw, .inr heff⟩
  cases hm : (w.model? m).bind (·.message? outcome) with
  | none =>
    refine (hend (w.reported_of_message?_eq_none hm)).congr ?_
    rintro e id rfl
    simp only [conclude, hm]
    rfl
  | some message =>
    obtain ⟨key, text⟩ := message
    have htold := w.reported_of_message?_eq_some hm
    by_cases hk : w.context.messages.knows key = true
    · have hsame : w.context.tell key text = w.context := by
        rw [Context.tell, Messages.tell, if_pos hk]
      rw [hsame] at htold
      refine (hend htold).congr ?_
      rintro e id rfl
      simp only [conclude, hm]
      exact if_pos hk
    · have htell : Does (w.reported m outcome) (fun e id => e.become id (.telling p m))
          (Concludes w p m outcome) :=
        does_take (.become (.telling p m)) ⟨.refl _, .inl rfl⟩
      refine (htell.after (·.reported m outcome)).congr ?_
      rintro e id rfl
      simp only [conclude, hm, modifyWorkspace, htold]
      exact if_neg hk

/-- The inquiry into a folder goes on from where it is. -/
theorem does_survey (p : Purpose) (m : ModelId) (i : Inquiry (Option SourceTree)) :
    Does w (fun e id => e.survey id p m i) (Surveys w p m i) := by
  have hcalm := Workspace.Calm.settled w m i
  rcases i.settle_cases (w.kept m) with ⟨tree, hi⟩ | ⟨f, hi⟩ | ⟨q, next, hi⟩
  · cases tree with
    | none =>
      refine (((does_conclude p m (.ok none)).mono fun w' eff h => .lacks hi hcalm h).after
        (·.settled m i)).congr ?_
      rintro e id rfl
      rw [survey, settle_eq, hi]
    | some tree =>
      refine ((does_take (.gather _ _) (.finds hi hcalm)).after (·.settled m i)).congr ?_
      rintro e id rfl
      rw [survey, settle_eq, hi]
      rfl
  · refine (((does_conclude p m (.error f)).mono fun w' eff h => .fails hi hcalm h).after
      (·.settled m i)).congr ?_
    rintro e id rfl
    rw [survey, settle_eq, hi]
  · refine ((does_take (.become _) (.asks hi hcalm)).after (·.settled m i)).congr ?_
    rintro e id rfl
    rw [survey, settle_eq, hi]
    rfl

/-! ## Looks that begin -/

/-- A folder is added: its path is refused, its root is known, or a look at it begins. -/
inductive Adds (w : Workspace) (folder : EditorFolder) : Workspace → Effect → Prop where
  | refused {err : PathError} (hpath : folder.path w.platform = .error err) :
      Adds w folder w (.finish (.error (.path err)))
  | known {root : FilePath} {m : ModelId} (hpath : folder.path w.platform = .ok root)
      (hm : w.published.find? root.key = some m) :
      Adds w folder w (.finish (.ok (.folder m (w.phaseOf m))))
  | begins {root : FilePath} {w' : Workspace} {eff : Effect}
      (hpath : folder.path w.platform = .ok root) (hm : w.published.find? root.key = none)
      (h : Surveys (w.admitted folder root) .add w.models.length
        (SourceTree.survey w.context.surroundings root (w.context.folderSettings root)) w' eff) :
      Adds w folder w' eff

/-- The folder of a model is looked at again. -/
inductive Rebuilds (w : Workspace) (old : ModelId) : Workspace → Effect → Prop where
  | missing (hm : w.model? old = none) : Rebuilds w old w .stay
  | begins {f : Folder} {w' : Workspace} {eff : Effect} (hm : w.model? old = some f)
      (h : Surveys (w.retried f.source f.root) .rebuild w.models.length
        (SourceTree.survey w.context.surroundings f.root (w.context.folderSettings f.root)) w' eff) :
      Rebuilds w old w' eff

/-- A look at a model begins with the inquiry into its folder. -/
theorem does_look {p : Purpose} {m : ModelId} {f : Folder} (hm : w.model? m = some f) :
    Does w (fun e id => e.look id p m)
      (Surveys w p m (SourceTree.survey w.context.surroundings f.root f.settings)) := by
  refine (does_survey p m _).congr ?_
  rintro e id rfl
  rw [look, hm]

/-- The first turn of an addition. -/
theorem does_beginAdd (folder : EditorFolder) :
    Does w (fun e id => e.beginAdd id folder) (Adds w folder) := by
  cases hpath : folder.path w.platform with
  | error err =>
    refine (does_take (.finish (.error (.path err))) (.refused hpath)).congr ?_
    rintro e id rfl
    rw [beginAdd, hpath]
    rfl
  | ok root =>
    cases hm : w.published.find? root.key with
    | some m =>
      refine ((does_finishWith m).mono ?_).congr ?_
      · rintro w' eff ⟨rfl, rfl⟩
        exact .known hpath hm
      · rintro e id rfl
        simp only [beginAdd, hpath, hm]
    | none =>
      have hfresh : (w.admitted folder root).model? w.models.length = some (w.fresh folder root) :=
        w.model?_begun_self _
      have hlook := (does_look (p := .add) hfresh).mono fun w' eff h => Adds.begins hpath hm h
      refine (hlook.after (·.admitted folder root)).congr ?_
      rintro e id rfl
      simp only [beginAdd, hpath, hm, modifyWorkspace, ← Workspace.takeUp_publish]
      rfl

/-- The first turn of a rebuild. -/
theorem does_beginRebuild (old : ModelId) :
    Does w (fun e id => e.beginRebuild id old) (Rebuilds w old) := by
  cases hm : w.model? old with
  | none =>
    refine (does_take .stay (.missing hm)).congr ?_
    rintro e id rfl
    rw [beginRebuild, hm]
    rfl
  | some f =>
    have hfresh : (w.retried f.source f.root).model? w.models.length =
        some (w.fresh f.source f.root) :=
      w.model?_begun_self _
    have hlook := (does_look (p := .rebuild) hfresh).mono fun w' eff h => Rebuilds.begins hm h
    refine (hlook.after (·.retried f.source f.root)).congr ?_
    rintro e id rfl
    rw [beginRebuild, hm]
    rfl

/-! ## Compilers -/

/-- The inquiry into a compiler goes on. -/
inductive Discovers (i : Inquiry Compiler) : Effect → Prop where
  | asks {cache : FragmentCache} {q : Request} {next : q.Reply → Inquiry Compiler}
      (hi : (i.settle cache).1 = .ask q next) : Discovers i (.become (.discovering (.ask q next)))
  | finds {cache : FragmentCache} {c : Compiler} (hi : (i.settle cache).1 = .answer c) :
      Discovers i (.finish (.ok (.compiler c)))
  | fails {cache : FragmentCache} {f : Failure} (hi : (i.settle cache).1 = .failed f) :
      Discovers i (.finish (.error f))

/-- The inquiry into a compiler goes on without the workspace. -/
theorem does_discover (i : Inquiry Compiler) :
    Does w (fun e id => e.discover id i) fun w' eff => w' = w ∧ Discovers i eff := by
  rcases i.settle_cases {} with ⟨c, hi⟩ | ⟨f, hi⟩ | ⟨q, next, hi⟩
  · refine (does_take (.finish _) ⟨rfl, .finds hi⟩).congr ?_
    rintro e id rfl
    rw [discover, hi]
    rfl
  · refine (does_take (.finish _) ⟨rfl, .fails hi⟩).congr ?_
    rintro e id rfl
    rw [discover, hi]
    rfl
  · refine (does_take (.become _) ⟨rfl, .asks hi⟩).congr ?_
    rintro e id rfl
    rw [discover, hi]
    rfl

/-! ## Files -/

/-- The inquiry into a file that is to be provided goes on. -/
inductive Resolves (w : Workspace) (uri : String) (path : FilePath) (m : ModelId)
    (i : Inquiry (Option SourceConfiguration)) : Effect → Prop where
  | asks {q : Request} {next : q.Reply → Inquiry (Option SourceConfiguration)}
      (hi : (i.settle (w.kept m)).1 = .ask q next) :
      Resolves w uri path m i (.become (.resolving uri path m (.ask q next)))
  | answers {c : Option SourceConfiguration} (hi : (i.settle (w.kept m)).1 = .answer c) :
      Resolves w uri path m i (.finish (.ok (.item
        (if w.innermost? path = some m then c.map (⟨uri, ·⟩) else none))))
  | fails {f : Failure} (hi : (i.settle (w.kept m)).1 = .failed f) :
      Resolves w uri path m i (.finish (.ok (.item none)))

/-- The inquiry into a file that is to be provided goes on, and its memory is kept. -/
theorem does_resolve (uri : String) (path : FilePath) (m : ModelId)
    (i : Inquiry (Option SourceConfiguration)) :
    Does w (fun e id => e.resolve id uri path m i)
      fun w' eff => w' = w.settled m i ∧ Resolves w uri path m i eff := by
  rcases i.settle_cases (w.kept m) with ⟨c, hi⟩ | ⟨f, hi⟩ | ⟨q, next, hi⟩
  · refine ((does_take (.finish _) ⟨rfl, .answers hi⟩).after (·.settled m i)).congr ?_
    rintro e id rfl
    rw [resolve, settle_eq, hi]
    have hsame : (e.modifyWorkspace (·.settled m i)).workspace.innermost? path =
        e.workspace.innermost? path :=
      (Workspace.Calm.settled e.workspace m i).innermost?_eq rfl path
    simp only [hsame]
    rfl
  · refine ((does_take (.finish _) ⟨rfl, .fails hi⟩).after (·.settled m i)).congr ?_
    rintro e id rfl
    rw [resolve, settle_eq, hi]
    rfl
  · refine ((does_take (.become _) ⟨rfl, .asks hi⟩).after (·.settled m i)).congr ?_
    rintro e id rfl
    rw [resolve, settle_eq, hi]
    rfl

/-- A file is to be provided: no build tree answers for it, or the inquiry into it begins. -/
inductive Provides (w : Workspace) (uri : String) : Workspace → Effect → Prop where
  | unanswered (h : w.asked? uri = none) : Provides w uri w (.finish (.ok (.item none)))
  | begins {path : FilePath} {m : ModelId} {f : Folder} {eff : Effect}
      (hasked : w.asked? uri = some (path, m, f))
      (h : Resolves w uri path m
        (f.configure w.context.surroundings w.context.classifier path) eff) :
      Provides w uri (w.settled m (f.configure w.context.surroundings w.context.classifier path)) eff

/-- A file is provided by the build tree that answers for it, if there is one. -/
theorem beginProvide_eq (e : Engine) (id : TaskId) (uri : String) :
    e.beginProvide id uri = match e.workspace.asked? uri with
      | none => e.finish id (.ok (.item none))
      | some (path, m, f) => e.resolve id uri path m
          (f.configure e.workspace.context.surroundings e.workspace.context.classifier path) :=
  rfl

/-- The first turn of a task that provides a file. -/
theorem does_beginProvide (uri : String) :
    Does w (fun e id => e.beginProvide id uri) (Provides w uri) := by
  cases hasked : w.asked? uri with
  | none =>
    refine (does_take (.finish (.ok (.item none))) (.unanswered hasked)).congr ?_
    rintro e id rfl
    rw [beginProvide_eq, hasked]
    rfl
  | some found =>
    obtain ⟨path, m, f⟩ := found
    let i := f.configure w.context.surroundings w.context.classifier path
    refine ((does_resolve uri path m i).mono ?_).congr ?_
    · rintro w' eff ⟨rfl, h⟩
      exact .begins hasked h
    · rintro e id rfl
      rw [beginProvide_eq, hasked]

/-! ## Turns that have no part in a look -/

/-- The turn leaves what is known of the folders, and its task has no part in a look. -/
def Plainly (w w' : Workspace) (eff : Effect) : Prop := w.Calm w' ∧ eff.Plain

/-- Folders are taken away one after the other: the task ends, it asks the editor for its interface
before it goes on, or it lets others add folders. -/
inductive Removes (w : Workspace) (added : List EditorFolder) : Workspace → Effect → Prop where
  | ends {w' : Workspace} (r : Except Failure Outcome) (hw : w.Calm w') :
      Removes w added w' (.finish r)
  | asks {w' : Workspace} (rest : List (Except PathError FilePath)) (hw : w.Calm w') :
      Removes w added w' (.become (.registering (.removed rest added)))
  | adds {w' : Workspace} (hw : w.Calm w') :
      Removes w added w' (.gather (added.map .adding) .changed)

/-- What is done to folders after a calm change is done to those before it. -/
theorem Removes.of_calm {w₁ w' : Workspace} {added : List EditorFolder} {eff : Effect}
    (hw : w.Calm w₁) (h : Removes w₁ added w' eff) : Removes w added w' eff := by
  cases h with
  | ends r hw' => exact .ends r (hw.trans hw')
  | asks rest hw' => exact .asks rest (hw.trans hw')
  | adds hw' => exact .adds (hw.trans hw')

/-- To take folders away is no part of a look. -/
theorem Removes.plainly {w' : Workspace} {added : List EditorFolder} {eff : Effect}
    (h : Removes w added w' eff) : Plainly w w' eff := by
  cases h with
  | ends r hw => exact ⟨hw, trivial⟩
  | asks rest hw => exact ⟨hw, rfl, rfl⟩
  | adds hw =>
    exact ⟨hw, List.forall_mem_map.mpr fun _ _ => ⟨rfl, rfl⟩, fun _ _ _ h => nomatch h⟩

/-- Folders are taken away, whatever their paths and however many there are. -/
theorem does_removeAll (added : List EditorFolder) (roots : List (Except PathError FilePath)) :
    Does w (fun e id => e.removeAll id added roots) (Removes w added) := by
  induction roots generalizing w with
  | nil => exact does_gatherUnless (.ends _ (.refl w)) (.adds (.refl w))
  | cons root rest ih =>
    cases root with
    | error err =>
      refine (does_take (.finish (.error (.path err))) (.ends _ (.refl w))).congr ?_
      rintro e id rfl
      rw [removeAll]
      rfl
    | ok root =>
      have hcalm : w.Calm (w.unpublish root).2 := .unpublish w root
      cases hu : w.unpublish root with
      | mk went w' =>
        rw [hu] at hcalm
        cases went with
        | false =>
          have hrest : Does w' (fun e id => e.removeAll id added rest) (Removes w added) :=
            ih.mono fun w'' eff h => h.of_calm hcalm
          refine (hrest.after fun _ => w').congr ?_
          rintro e id rfl
          rw [removeAll, hu]
          rfl
        | true =>
          let counted : Workspace := { w' with buildCount := w'.buildCount - 1 }
          have hcounted : w.Calm counted := hcalm.trans (.of_models_eq rfl rfl rfl rfl)
          have hsync : w.Calm counted.sync.2 := hcounted.trans (.sync _)
          have hrest : Does counted.sync.2.notifyChange (fun e id => e.removeAll id added rest)
              (Removes w added) :=
            ih.mono fun w'' eff h => h.of_calm (hsync.trans (.notifyChange _))
          refine ((does_syncThen (.removed rest added)
            (fun e id => (e.modifyWorkspace (·.notifyChange)).removeAll id added rest)
            (.asks rest hsync) (hrest.after (·.notifyChange))).after fun _ => counted).congr ?_
          rintro e id rfl
          rw [removeAll, hu]
          rfl

/-- The inquiry into the configuration of a file goes on, and its memory is kept. -/
theorem does_configure (m : ModelId) (i : Inquiry (Option SourceConfiguration)) :
    Does w (fun e id => e.configure id m i) fun w' eff => w' = w.settled m i ∧
      eff = .ofInquiry .configuration (.configuring m) (i.settle (w.kept m)).1 := by
  refine ((does_take (.ofInquiry .configuration (.configuring m) (i.settle (w.kept m)).1)
    ⟨rfl, rfl⟩).after (·.settled m i)).congr ?_
  rintro e id rfl
  rw [configure, settle_eq]
  cases (i.settle (e.workspace.kept m)).1 <;> rfl

/-- A test compilation goes on, and its memory is kept. -/
theorem does_testCompile (m : ModelId) (i : Inquiry (Option CompileReport)) :
    Does w (fun e id => e.testCompile id m i) fun w' eff => w' = w.settled m i ∧
      eff = .ofInquiry .report (.compiling m) (i.settle (w.kept m)).1 := by
  refine ((does_take (.ofInquiry .report (.compiling m) (i.settle (w.kept m)).1)
    ⟨rfl, rfl⟩).after (·.settled m i)).congr ?_
  rintro e id rfl
  rw [testCompile, settle_eq]
  cases (i.settle (e.workspace.kept m)).1 <;> rfl

/-- The turn of a task that goes on with an inquiry into a file. -/
theorem plainly_settled {α : Type} {outcome : α → Outcome} {waiting : Inquiry α → Activity}
    (h : ∀ i, (waiting i).Plain) (m : ModelId) (i : Inquiry α) :
    Plainly w (w.settled m i) (.ofInquiry outcome waiting (i.settle (w.kept m)).1) :=
  ⟨.settled w m i, .ofInquiry h⟩

/-- The editor has answered: a folder that was added ends its task, and no other task has a part in
a look. -/
def Registers (w : Workspace) : AfterRegistration → Workspace → Effect → Prop
  | .added m => fun w' eff => w.Calm w' ∧ ∃ phase, eff = .finish (.ok (.folder m phase))
  | _ => Plainly w

/-- The turn of a task to which the editor has answered. -/
inductive Answered (w : Workspace) : AfterRegistration → Workspace → Effect → Prop where
  | added {m : ModelId} {w' : Workspace} (phase : FolderPhase) (hw : w.Calm w') :
      Answered w (.added m) w' (.finish (.ok (.folder m phase)))
  | removed {rest : List (Except PathError FilePath)} {added : List EditorFolder}
      {w' : Workspace} {eff : Effect} (h : Removes w added w' eff) :
      Answered w (.removed rest added) w' eff
  | rebuilt {w' : Workspace} (hw : w.Calm w') : Answered w .rebuilt w' (.finish (.ok .nothing))

/-- The editor's answer leads to the end of an addition or to a plain turn. -/
theorem Answered.registers {after : AfterRegistration} {w' : Workspace} {eff : Effect}
    (h : Answered w after w' eff) : Registers w after w' eff := by
  cases h with
  | added phase hw => exact ⟨hw, phase, rfl⟩
  | removed h => exact h.plainly
  | rebuilt hw => exact ⟨hw, trivial⟩

/-- The turn of a task to which the editor has answered, whatever it was asked for. -/
theorem does_afterRegistration (hasApi : Bool) (after : AfterRegistration) :
    Does w (fun e id => e.afterRegistration id hasApi after) (Answered w after) := by
  have hcalm := Workspace.Calm.registered w hasApi
  cases after with
  | added m =>
    refine (((does_added m (w.registered hasApi).1).mono fun w' eff h => ?_).after
      fun w => (w.registered hasApi).2).congr ?_
    · obtain ⟨hw, phase, rfl⟩ := h
      exact .added phase (hcalm.trans hw)
    · rintro e id rfl
      rfl
  | removed rest added =>
    refine (((does_removeAll added rest).mono fun w' eff h => ?_).after
      fun w => (w.registered hasApi).2.notifyChange).congr ?_
    · exact .removed (h.of_calm (hcalm.trans (.notifyChange _)))
    · rintro e id rfl
      rfl
  | rebuilt =>
    refine ((does_take (.finish (.ok .nothing)) (.rebuilt hcalm)).after
      fun w => (w.registered hasApi).2).congr ?_
    rintro e id rfl
    rfl

/-- The turn of a task whose children have ended well: it ends, or it takes in what a look has
found. -/
inductive Gathered (w : Workspace) (outcomes : List Outcome) :
    AfterGathering → Workspace → Effect → Prop where
  | compilers {p : Purpose} {m : ModelId} {tree : SourceTree} {c cpp : Compiler} {w' : Workspace}
      {eff : Effect} (ho : outcomes = [.compiler c, .compiler cpp])
      (h : Concludes w p m (.ok (some { tree, c, cpp })) w' eff) :
      Gathered w outcomes (.compilers p m tree) w' eff
  | stuck {p : Purpose} {m : ModelId} {tree : SourceTree}
      (ho : ∀ c cpp, outcomes ≠ [.compiler c, .compiler cpp]) :
      Gathered w outcomes (.compilers p m tree) w .stay
  | ends {after : AfterGathering} {w' : Workspace} {o : Outcome}
      (hafter : ∀ p m tree, after ≠ .compilers p m tree) (hw : w.Calm w') :
      Gathered w outcomes after w' (.finish (.ok o))

/-- The folder that an outcome tells, with what is known of it by now. -/
def folderOf? (w : Workspace) : Outcome → Option (ModelId × FolderPhase)
  | .folder m _ => some (m, w.phaseOf m)
  | _ => none

/-- The item that an outcome tells. -/
def itemOf? : Outcome → Option ProvidedItem
  | .item i => i
  | _ => none

/-- The turn of a task all of whose children have ended well. -/
theorem does_afterGathering (outcomes : List Outcome) (after : AfterGathering) :
    Does w (fun e id => e.afterGathering id outcomes after) (Gathered w outcomes after) := by
  have hends (o : Outcome) (hafter : ∀ p m tree, after ≠ .compilers p m tree) :
      Does w (fun e id => e.finish id (.ok o)) (Gathered w outcomes after) :=
    does_take (.finish (.ok o)) (.ends hafter (.refl w))
  cases after with
  | compilers p m tree =>
    by_cases ho : ∃ c cpp, outcomes = [.compiler c, .compiler cpp]
    · obtain ⟨c, cpp, rfl⟩ := ho
      exact (does_conclude p m (.ok (some { tree, c, cpp }))).mono fun w' eff h => .compilers rfl h
    · simp only [not_exists] at ho
      refine (does_take .stay (.stuck ho)).congr ?_
      rintro e id rfl
      rw [afterGathering]
      · rfl
      · exact ho
  | folders =>
    refine (hends (.folders (outcomes.filterMap (folderOf? w))) (by simp)).congr ?_
    rintro e id rfl
    rfl
  | rebuilt =>
    refine ((does_take (.finish (.ok .nothing))
      (.ends (by simp) (.notifyChange w))).after (·.notifyChange)).congr ?_
    rintro e id rfl
    rfl
  | changed =>
    refine (hends .nothing (by simp)).congr ?_
    rintro e id rfl
    rfl
  | items =>
    refine (hends (.items (outcomes.filterMap itemOf?)) (by simp)).congr ?_
    rintro e id rfl
    rfl

/-- The turn of a task one of whose children has failed: it fails too, or it takes in that a look
has failed. -/
inductive Failed (w : Workspace) (f : Failure) : AfterGathering → Workspace → Effect → Prop where
  | compilers {p : Purpose} {m : ModelId} {tree : SourceTree} {w' : Workspace} {eff : Effect}
      (h : Concludes w p m (.error f) w' eff) : Failed w f (.compilers p m tree) w' eff
  | ends {after : AfterGathering} (hafter : ∀ p m tree, after ≠ .compilers p m tree) :
      Failed w f after w (.finish (.error f))

/-- The turn of a task one of whose children has failed. -/
theorem does_afterFailure (f : Failure) (after : AfterGathering) :
    Does w (fun e id => e.afterFailure id f after) (Failed w f after) := by
  have hends (hafter : ∀ p m tree, after ≠ .compilers p m tree) :
      Does w (fun e id => e.finish id (.error f)) (Failed w f after) :=
    does_take (.finish (.error f)) (.ends hafter)
  cases after with
  | compilers p m tree => exact (does_conclude p m (.error f)).mono fun w' eff h => .compilers h
  | _ =>
    refine (hends fun _ _ _ h => nomatch h).congr ?_
    rintro e id rfl
    rfl

/-! ## Whole turns -/

/-- A task goes on that was doing something, the outcomes of its children being given. -/
def resumeAs (e : Engine) (id : TaskId) (answers : Answers) (outcomes : Option (List Outcome)) :
    Activity → Engine
  | .adding folder => e.beginAdd id folder
  | .rebuilding old => e.beginRebuild id old
  | .asking tree l => e.discover id (tree.compiler e.workspace.context.surroundings l)
  | .providing uri => e.beginProvide id uri
  | .surveying p m (.ask q next) => e.survey id p m (next (answers.reply q))
  | .discovering (.ask q next) => e.discover id (next (answers.reply q))
  | .telling p m => e.endLook id m p
  | .registering after => e.afterRegistration id answers.hasApi after
  | .gathering _ (some f) after => e.afterFailure id f after
  | .gathering _ none after =>
    match outcomes with
    | some outcomes => e.afterGathering id outcomes after
    | none => e
  | .resolving uri path m (.ask q next) => e.resolve id uri path m (next (answers.reply q))
  | .configuring m (.ask q next) => e.configure id m (next (answers.reply q))
  | .compiling m (.ask q next) => e.testCompile id m (next (answers.reply q))
  | _ => e

/-- The outcomes for which a task waits, if all of them are there. -/
def awaited? (e : Engine) : Activity → Option (List Outcome)
  | .gathering children _ _ => e.outcomes? children
  | _ => none

/-- A task goes on by what it was doing. -/
theorem resume_eq_resumeAs {e : Engine} {id : TaskId} {t : Task} (ht : e.task? id = some t)
    (answers : Answers) :
    e.resume id answers = e.resumeAs id answers (e.awaited? t.activity) t.activity := by
  rw [resume, ht]
  obtain ⟨parent, a⟩ := t
  cases a with
  | gathering children failure after => cases failure <;> rfl
  | surveying p m i => cases i <;> rfl
  | discovering i => cases i <;> rfl
  | resolving uri path m i => cases i <;> rfl
  | configuring m i => cases i <;> rfl
  | compiling m i => cases i <;> rfl
  | _ => rfl

/-- A task that does not exist does not go on. -/
theorem resume_of_task?_eq_none {e : Engine} {id : TaskId} (ht : e.task? id = none)
    (answers : Answers) : e.resume id answers = e := by
  rw [resume, ht]
  rfl

/-- What a turn of a task may do, by what the task was doing. -/
def Turn (w : Workspace) (answers : Answers) (outcomes : Option (List Outcome)) :
    Activity → Workspace → Effect → Prop
  | .adding folder => Adds w folder
  | .rebuilding old => Rebuilds w old
  | .asking tree l => fun w' eff =>
    w' = w ∧ Discovers (tree.compiler w.context.surroundings l) eff
  | .providing uri => Provides w uri
  | .surveying p m (.ask q next) => Surveys w p m (next (answers.reply q))
  | .discovering (.ask q next) => fun w' eff => w' = w ∧ Discovers (next (answers.reply q)) eff
  | .telling p m => fun w' eff => w.Calm w' ∧ EndsLook m p eff
  | .registering after => Registers w after
  | .gathering _ (some f) after => Failed w f after
  | .gathering _ none after =>
    match outcomes with
    | some outcomes => Gathered w outcomes after
    | none => fun w' eff => w' = w ∧ eff = .stay
  | .resolving uri path m (.ask q next) => fun w' eff =>
    w' = w.settled m (next (answers.reply q)) ∧
      Resolves w uri path m (next (answers.reply q)) eff
  | .configuring _ (.ask _ _) => Plainly w
  | .compiling _ (.ask _ _) => Plainly w
  | _ => fun w' eff => w' = w ∧ eff = .stay

/-- The turn of a task, whatever it was doing. -/
theorem does_resumeAs (answers : Answers) (outcomes : Option (List Outcome)) (a : Activity) :
    Does w (fun e id => e.resumeAs id answers outcomes a) (Turn w answers outcomes a) := by
  have hstay {P : Workspace → Effect → Prop} (hP : P w .stay) : Does w (fun e _ => e) P :=
    does_take .stay hP
  cases a with
  | adding folder => exact does_beginAdd folder
  | rebuilding old => exact does_beginRebuild old
  | asking tree l =>
    refine (does_discover (tree.compiler w.context.surroundings l)).congr ?_
    rintro e id rfl
    rfl
  | providing uri => exact does_beginProvide uri
  | surveying p m i =>
    cases i with
    | ask q next => exact does_survey p m (next (answers.reply q))
    | _ => exact hstay ⟨rfl, rfl⟩
  | discovering i =>
    cases i with
    | ask q next => exact does_discover (next (answers.reply q))
    | _ => exact hstay ⟨rfl, rfl⟩
  | telling p m => exact does_endLook p m
  | registering after =>
    exact (does_afterRegistration answers.hasApi after).mono fun w' eff h => h.registers
  | gathering children failure after =>
    cases failure with
    | some f => exact does_afterFailure f after
    | none =>
      cases outcomes with
      | some outcomes => exact does_afterGathering outcomes after
      | none => exact hstay ⟨rfl, rfl⟩
  | resolving uri path m i =>
    cases i with
    | ask q next => exact does_resolve uri path m (next (answers.reply q))
    | _ => exact hstay ⟨rfl, rfl⟩
  | configuring m i =>
    cases i with
    | ask q next =>
      refine (does_configure m (next (answers.reply q))).mono ?_
      rintro w' eff ⟨rfl, rfl⟩
      exact plainly_settled (fun _ => ⟨rfl, rfl⟩) m _
    | _ => exact hstay ⟨rfl, rfl⟩
  | compiling m i =>
    cases i with
    | ask q next =>
      refine (does_testCompile m (next (answers.reply q))).mono ?_
      rintro w' eff ⟨rfl, rfl⟩
      exact plainly_settled (fun _ => ⟨rfl, rfl⟩) m _
    | _ => exact hstay ⟨rfl, rfl⟩
  | done r => exact hstay ⟨rfl, rfl⟩

/-- A turn of a task that is there. -/
theorem exists_turn {e : Engine} {id : TaskId} {t : Task} (ht : e.task? id = some t)
    (answers : Answers) :
    ∃ w' eff, Turn e.workspace answers (e.awaited? t.activity) t.activity w' eff ∧
      e.resume id answers = { e with workspace := w' }.take id eff := by
  obtain ⟨w', eff, h, heq⟩ :=
    does_resumeAs (w := e.workspace) answers (e.awaited? t.activity) t.activity
  exact ⟨w', eff, h, (resume_eq_resumeAs ht answers).trans (heq e id rfl)⟩

/-! ## Operations that begin -/

/-- What the first turn of an operation may do. -/
def Begins (w : Workspace) : Operation → Workspace → Effect → Prop
  | .add folder => Adds w folder
  | _ => Plainly w

end Engine

/-- Whether the operation lets rebuilds begin. -/
def Operation.rebuilds : Operation → Bool
  | .rebuild _ => true
  | .updateSettings _ => true
  | _ => false

/-- What is known of the folders stays when everything is let go of. -/
theorem Workspace.Calm.dispose (w : Workspace) : w.Calm w.dispose := by
  have hall (ids : List ModelId) (w : Workspace) :
      w.Calm (ids.foldl Workspace.disposeModel w) := by
    induction ids generalizing w with
    | nil => exact refl w
    | cons i rest ih => exact (disposeModel w i).trans (ih _)
  have hids := hall w.publishedIds w
  have hprovider (w : Workspace) : w.Calm w.disposeProvider := by
    rw [disposeProvider_eq]
    exact of_models_eq rfl rfl rfl rfl
  exact ⟨(hprovider _).surroundings.trans hids.surroundings,
    (hprovider _).classifier.trans hids.classifier,
    (hprovider _).messages.trans hids.messages,
    fun i => ((hprovider _).models i).trans (hids.models i)⟩

namespace Engine

variable {w : Workspace}

/-- The first turn of an operation, by what the operation is. -/
inductive Performs (w : Workspace) : Operation → Workspace → Effect → Prop where
  | adds {folder : EditorFolder} {w' : Workspace} {eff : Effect} (h : Adds w folder w' eff) :
      Performs w (.add folder) w' eff
  | addsMany (folders : List EditorFolder) :
      Performs w (.addMany folders) w (.gather (folders.map .adding) .folders)
  | removes {root : FilePath} {w' : Workspace} {eff : Effect} (h : Removes w [] w' eff) :
      Performs w (.remove root) w' eff
  | changes {added removed : List EditorFolder} {w' : Workspace} {eff : Effect}
      (h : Removes w added w' eff) : Performs w (.change added removed) w' eff
  | rebuilds {op : Operation} {w' : Workspace} (models : List ModelId) (hop : op.rebuilds = true)
      (hw : w.Calm w') : Performs w op w' (.gather (models.map .rebuilding) .rebuilt)
  | configures (source : FilePath) (m : ModelId) (i : Inquiry (Option SourceConfiguration)) :
      Performs w (.configure source) (w.settled m i)
        (.ofInquiry .configuration (.configuring m) (i.settle (w.kept m)).1)
  | checks (source : FilePath) (m : ModelId) (i : Inquiry (Option CompileReport)) :
      Performs w (.testCompile source) (w.settled m i)
        (.ofInquiry .report (.compiling m) (i.settle (w.kept m)).1)
  | provides (uris : List String) :
      Performs w (.provide uris) w (.gather (uris.map .providing) .items)
  | ends {op : Operation} {w' : Workspace} (o : Outcome) (hadd : ∀ folder, op ≠ .add folder)
      (ho : op.rebuilds = true → o = .nothing) (hw : w.Calm w') :
      Performs w op w' (.finish (.ok o))

/-- Operations that look at folders again let rebuilds begin, or end if there are none. -/
theorem does_rebuildAll {op : Operation} {w' : Workspace} (models : List ModelId)
    (hop : op.rebuilds = true) (hw : w.Calm w') :
    Does w' (fun e id => e.rebuildAll id models) (Performs w op) := by
  have hadd (folder : EditorFolder) : op ≠ .add folder := by
    rintro rfl
    cases hop
  exact does_gatherUnless (.ends .nothing hadd (fun _ => rfl) hw) (.rebuilds models hop hw)

/-- An operation that has nothing to wait for. -/
theorem does_end (op : Operation) {w' : Workspace} (o : Outcome)
    (hadd : ∀ folder, op ≠ .add folder) (ho : op.rebuilds = true → o = .nothing)
    (hw : w.Calm w') : Does w' (fun e id => e.finish id (.ok o)) (Performs w op) :=
  does_take (.finish (.ok o)) (.ends o hadd ho hw)

/-- The first turn of an operation that configures a file. -/
theorem does_configureSource (source : FilePath) :
    Does w (fun e id => e.perform id (.configure source)) (Performs w (.configure source)) := by
  cases hfound : (w.innermost? source).bind fun m => (w.model? m).map (m, ·) with
  | none =>
    refine (does_end (.configure source) (.configuration none) nofun nofun (.refl w)).congr ?_
    rintro e id rfl
    rw [perform, hfound]
  | some found =>
    obtain ⟨m, f⟩ := found
    refine ((does_configure m
      (f.configure w.context.surroundings w.context.classifier source)).mono ?_).congr ?_
    · rintro w' eff ⟨rfl, rfl⟩
      exact .configures source m _
    · rintro e id rfl
      rw [perform, hfound]

/-- The first turn of an operation that checks a file. -/
theorem does_testCompileSource (source : FilePath) :
    Does w (fun e id => e.perform id (.testCompile source)) (Performs w (.testCompile source)) := by
  cases hfound : (w.innermost? source).bind fun m => (w.model? m).map (m, ·) with
  | none =>
    refine (does_end (.testCompile source) (.report none) nofun nofun (.refl w)).congr ?_
    rintro e id rfl
    rw [perform, hfound]
  | some found =>
    obtain ⟨m, f⟩ := found
    refine ((does_testCompile m
      (f.testCompile w.context.surroundings w.context.classifier source)).mono ?_).congr ?_
    · rintro w' eff ⟨rfl, rfl⟩
      exact .checks source m _
    · rintro e id rfl
      rw [perform, hfound]

/-- The first turn of any operation. -/
theorem does_perform (op : Operation) :
    Does w (fun e id => e.perform id op) (Performs w op) := by
  cases op with
  | add folder => exact (does_beginAdd folder).mono fun w' eff h => .adds h
  | addMany folders =>
    exact does_gatherUnless (.ends (.folders []) nofun nofun (.refl w)) (.addsMany folders)
  | remove root => exact (does_removeAll [] [.ok root]).mono fun w' eff h => .removes h
  | change added removed =>
    refine ((does_removeAll added (removed.map (·.path w.platform))).mono
      fun w' eff h => .changes h).congr ?_
    rintro e id rfl
    rfl
  | rebuild roots =>
    cases roots with
    | none =>
      refine (does_rebuildAll w.publishedIds rfl (.refl w)).congr ?_
      rintro e id rfl
      rfl
    | some roots =>
      refine (does_rebuildAll (roots.filterMap fun r => w.published.find? r.key) rfl
        (.refl w)).congr ?_
      rintro e id rfl
      rfl
  | updateSettings settings =>
    let updated : Workspace := { w with context := w.context.updateSettings settings }
    have hcalm : w.Calm updated := .of_models_eq rfl rfl rfl rfl
    refine ((does_rebuildAll (concerned w settings) rfl hcalm).after fun _ => updated).congr ?_
    rintro e id rfl
    rfl
  | configure source => exact does_configureSource source
  | testCompile source => exact does_testCompileSource source
  | provide uris =>
    exact does_gatherUnless (.ends (.items []) nofun nofun (.refl w)) (.provides uris)
  | notify notice =>
    exact (does_end (.notify notice) .nothing nofun (fun _ => rfl) (.notify w notice)).after
      (·.notify notice)
  | notifyThrough n =>
    have hcalm : w.Calm (w.modifyRegistration n Registration.notifyChange) :=
      .of_models_eq rfl rfl rfl rfl
    exact (does_end (.notifyThrough n) .nothing nofun (fun _ => rfl) hcalm).after
      (·.modifyRegistration n Registration.notifyChange)
  | disposeOf n =>
    have hcalm :
        w.Calm (w.modifyRegistration n Registration.dispose) := .of_models_eq rfl rfl rfl rfl
    exact (does_end (.disposeOf n) .nothing nofun (fun _ => rfl) hcalm).after
      (·.modifyRegistration n Registration.dispose)
  | dispose => exact (does_end .dispose .nothing nofun (fun _ => rfl) (.dispose w)).after (·.dispose)

/-- Only the addition of a folder may begin with a look. -/
theorem Performs.begins {op : Operation} {w' : Workspace} {eff : Effect}
    (h : Performs w op w' eff) : Begins w op w' eff := by
  cases h with
  | adds h => exact h
  | addsMany folders =>
    exact ⟨.refl w, List.forall_mem_map.mpr fun _ _ => ⟨rfl, rfl⟩, fun _ _ _ h => nomatch h⟩
  | removes h => exact h.plainly
  | changes h => exact h.plainly
  | rebuilds models hop hw =>
    have hplainly : Plainly w w' (.gather (models.map .rebuilding) .rebuilt) :=
      ⟨hw, List.forall_mem_map.mpr fun _ _ => ⟨rfl, rfl⟩, fun _ _ _ h => nomatch h⟩
    cases op <;> first | exact hplainly | cases hop
  | configures source m i => exact plainly_settled (fun _ => ⟨rfl, rfl⟩) m i
  | checks source m i => exact plainly_settled (fun _ => ⟨rfl, rfl⟩) m i
  | provides uris =>
    exact ⟨.refl w, List.forall_mem_map.mpr fun _ _ => ⟨rfl, rfl⟩, fun _ _ _ h => nomatch h⟩
  | ends o hadd ho hw =>
    have hplainly : Plainly w w' (.finish (.ok o)) := ⟨hw, trivial⟩
    cases op <;> first | exact hplainly | exact absurd rfl (hadd _)

/-- An operation begins as a task of its own that has nothing else to do. -/
def spawned (e : Engine) : Engine :=
  { e with tasks := e.tasks ++ [Task.mk none (.done (.ok .nothing))] }

/-- The new task has nothing else to do. -/
theorem task?_spawned_new (e : Engine) :
    e.spawned.task? e.tasks.length = some ⟨none, .done (.ok .nothing)⟩ :=
  List.getElem?_concat_length

/-- There is one task more. -/
theorem length_spawned (e : Engine) : e.spawned.tasks.length = e.tasks.length + 1 :=
  List.length_append

/-- The other tasks were there before. -/
theorem task?_of_spawned {e : Engine} {j : TaskId} {t : Task} (h : e.spawned.task? j = some t)
    (hne : j ≠ e.tasks.length) : e.task? j = some t := by
  have hlt : j < e.tasks.length := by
    have hj : j < e.spawned.tasks.length := (List.getElem?_eq_some_iff.mp h).choose
    rw [length_spawned] at hj
    exact Nat.lt_of_le_of_ne (Nat.le_of_lt_succ hj) hne
  rw [task?, ← List.getElem?_append_left hlt]
  exact h

/-- An operation that begins does so as a new task. -/
theorem exists_begins (e : Engine) (op : Operation) :
    ∃ w' eff, Begins e.workspace op w' eff ∧
      e.start op = { e.spawned with workspace := w' }.take e.tasks.length eff := by
  obtain ⟨w', eff, h, heq⟩ := does_perform (w := e.workspace) op
  exact ⟨w', eff, h.begins, heq e.spawned e.tasks.length rfl⟩

end Engine

end BuildLens
