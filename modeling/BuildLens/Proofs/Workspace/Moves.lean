import BuildLens.Proofs.Workspace.Changes
import Mathlib.Logic.Relation

/-!
# The moves of a workspace

A turn of a task runs through many functions, but only few of the things that they do matter to the
workspace. This module lists them: each is a move from one view of the workspace and its tasks to
the next. A property of workspaces that every move keeps holds after every run, in whatever order
the tasks take their turns.

In a view a task that waits is only known by its role, and at most one task is in the middle of its
turn. What that task still owes is noted apart.

Main definitions:

- `Role`, `Acting`, `View`: a workspace with what its tasks are about to do to it.
- `Steady`: the moves that keep the published roots and the number of models.
- `Clearing`: the moves that take roots away.
- `Beginning`: the moves that begin a look at a folder.
- `Outline`: the moves of one turn.
- `Tended`: the moves of a turn that leaves the published roots.
-/

namespace BuildLens

open Relation (ReflTransGen)

/-- What a task that waits is about to do to the workspace. What an idle one does other tasks could
not notice. -/
inductive Role where
  | idle
  | rebuilding (old : ModelId)
  | looking (purpose : Purpose) (m : ModelId)
  | registering
deriving DecidableEq

/-- What the task that has its turn still owes the workspace: the outcome of its look at a model,
which has to be published or dropped, or a change of the provider after one of the count of build
trees. -/
inductive Acting where
  | resting
  | concluding (purpose : Purpose) (m : ModelId)
  | owing
deriving DecidableEq

/-- A workspace with the roles of its tasks. -/
structure View where
  workspace : Workspace
  roles : List Role
  acting : Acting

/-- The role of a task. -/
def Activity.role : Activity → Role
  | .rebuilding old => .rebuilding old
  | .surveying purpose m _ => .looking purpose m
  | .telling purpose m => .looking purpose m
  | .gathering _ _ (.compilers purpose m _) => .looking purpose m
  | .registering _ => .registering
  | _ => .idle

/-- The roles of the tasks of an engine. -/
def Engine.roles (e : Engine) : List Role := e.tasks.map fun t => t.activity.role

/-- An engine between two turns. -/
def Engine.view (e : Engine) : View := ⟨e.workspace, e.roles, .resting⟩

/-! ## Moves -/

/-- What an event brings from outside: whether the editor hands out its interface to whoever asks
for it, and the settings that are put in force, if any are. -/
structure Input where
  hasApi : Bool
  settings : Option Settings

/-- Whether the editor hands out its interface in the turn of an event. An operation that begins
does not yet ask for it. -/
def Event.hasApi : Event → Bool
  | .call _ => true
  | .resume _ answers => answers.hasApi

/-- The settings that an event puts in force, if it does. -/
def Event.settings? : Event → Option Settings
  | .call (.updateSettings settings) => some settings
  | _ => none

/-- What an event brings from outside. -/
def Event.input (event : Event) : Input := ⟨event.hasApi, event.settings?⟩

/-- The moves that keep the published roots and the number of models. -/
inductive Steady (input : Input) : View → View → Prop
  | refresh (w R a) (i : ModelId) (f : FragmentCache → FragmentCache) :
      Steady input ⟨w, R, a⟩ ⟨w.refreshed i f, R, a⟩
  | remember (w R a) (messages : Messages) :
      Steady input ⟨w, R, a⟩ ⟨{ w with context := { w.context with messages } }, R, a⟩
  | notify (w R a) (n : Nat) (notice : ChangeNotice) :
      Steady input ⟨w, R, a⟩ ⟨w.modifyRegistration n (·.notify notice), R, a⟩
  | dismiss (w R a) (n : Nat) :
      Steady input ⟨w, R, a⟩ ⟨w.modifyRegistration n Registration.dispose, R, a⟩
  | spawn (w R a) (n : Nat) :
      Steady input ⟨w, R, a⟩ ⟨w, R ++ List.replicate n .idle, a⟩
  | schedule (w R a) (ids : List ModelId) (hids : ∀ i ∈ ids, i ∈ w.publishedIds) :
      Steady input ⟨w, R, a⟩ ⟨w, R ++ ids.map .rebuilding, a⟩
  | configure (w R a) (settings : Settings) (hs : input.settings = some settings) :
      Steady input ⟨w, R, a⟩
        ⟨{ w with context := w.context.updateSettings settings },
          R ++ (Engine.concerned w settings).map .rebuilding, a⟩
  | conclude (w R) (id : TaskId) (purpose m) (hid : R[id]? = some (.looking purpose m)) :
      Steady input ⟨w, R, .resting⟩ ⟨w, R.set id .idle, .concluding purpose m⟩
  | takeIn (w R purpose m) (outcome : Except Failure (Option Build)) :
      Steady input ⟨w, R, .concluding purpose m⟩ ⟨w.concluded m outcome, R, .concluding purpose m⟩
  | tell (w R) (id : TaskId) (purpose m) (hid : R[id]? = some .idle)
      (hm : w.isBuildTree m = false) :
      Steady input ⟨w, R, .concluding purpose m⟩ ⟨w, R.set id (.looking purpose m), .resting⟩
  | keep (w R m) (h : ¬ (w.isPublished m = true ∧ w.isBuildTree m = true)) :
      Steady input ⟨w, R, .concluding .add m⟩ ⟨w, R, .resting⟩
  | count (w R m) (hp : w.isPublished m = true) (hm : w.isBuildTree m = true) :
      Steady input ⟨w, R, .concluding .add m⟩
        ⟨{ w with buildCount := w.buildCount + 1 }, R, .owing⟩
  | drop (w R m)
      (h : w.published.find? (w.keyOf m) = none ∨ w.latest.find? (w.keyOf m) ≠ some m) :
      Steady input ⟨w, R, .concluding .rebuild m⟩ ⟨w, R, .resting⟩
  | replace (w R m) (current : ModelId) (a : Acting)
      (hp : w.published.find? (w.keyOf m) = some current)
      (hl : w.latest.find? (w.keyOf m) = some m)
      (ha : a = .owing ∨ a = .resting ∧ Engine.weight w m = Engine.weight w current) :
      Steady input ⟨w, R, .concluding .rebuild m⟩ ⟨w.replaced m current, R, a⟩
  | ask (w R) (id : TaskId) (hid : R[id]? = some .idle) (hw : w.registering = false)
      (hc : 0 < w.buildCount) (hp : w.provider = none) :
      Steady input ⟨w, R, .owing⟩
        ⟨{ w with registering := true }, R.set id .registering, .resting⟩
  | wait (w R) (hw : w.registering = true) (hp : w.provider = none) :
      Steady input ⟨w, R, .owing⟩ ⟨w, R, .resting⟩
  | follow (w R) (h : ¬ (0 < w.buildCount ∧ w.provider = none)) :
      Steady input ⟨w, R, .owing⟩ ⟨w.retire, R, .resting⟩
  | register (w R) (id : TaskId) (hid : R[id]? = some .registering) :
      Steady input ⟨w, R, .resting⟩ ⟨(w.registered input.hasApi).2, R.set id .idle, .resting⟩

/-- The moves that take roots away. -/
inductive Clearing : View → View → Prop
  | forget (w R a) (key : String) (hk : w.published.find? key = none) :
      Clearing ⟨w, R, a⟩ ⟨{ w with latest := w.latest.erase key }, R, a⟩
  | withdraw (w R) (key : String) (i : ModelId) (a : Acting)
      (hk : w.published.find? key = some i)
      (ha : a = .owing ∨ a = .resting ∧ w.isBuildTree i = false) :
      Clearing ⟨w, R, .resting⟩ ⟨w.withdrawn key i, R, a⟩
  | empty (w R) : Clearing ⟨w, R, .resting⟩ ⟨w.emptied, R, .resting⟩

/-- The moves that begin no look at a folder. -/
inductive Move (input : Input) (v v' : View) : Prop
  | steady (h : Steady input v v')
  | clearing (h : Clearing v v')

/-- The moves that begin a look at a folder. -/
inductive Beginning : View → View → Prop
  | introduce (w R) (id : TaskId) (source : EditorFolder) (root : FilePath)
      (hid : R[id]? = some .idle) (hk : w.published.find? root.key = none) :
      Beginning ⟨w, R, .resting⟩
        ⟨w.admitted source root, R.set id (.looking .add w.models.length), .resting⟩
  | retry (w R) (id : TaskId) (old : ModelId) (f : Folder)
      (hid : R[id]? = some (.rebuilding old)) (hf : w.model? old = some f) :
      Beginning ⟨w, R, .resting⟩
        ⟨w.retried f.source f.root, R.set id (.looking .rebuild w.models.length), .resting⟩

/-- Any number of moves that keep the published roots and the number of models. -/
abbrev Steadily (input : Input) : View → View → Prop := ReflTransGen (Steady input)

/-- Any number of moves that begin no look. -/
abbrev Moves (input : Input) : View → View → Prop := ReflTransGen (Move input)

theorem Steadily.moves {input : Input} {v v' : View} (h : Steadily input v v') :
    Moves input v v' :=
  ReflTransGen.mono (fun _ _ => Move.steady) _ _ h

/-- The moves of one turn: at most one look at a folder begins. No root is taken away in the same
turn, and nothing takes the place of a folder that is new. -/
inductive Outline (input : Input) (v v' : View) : Prop
  | quiet (h : Moves input v v')
  | begun {v₁ v₂ : View} (h₁ : Steadily input v v₁) (h₂ : Beginning v₁ v₂)
      (h₃ : Steadily input v₂ v')
      (hnew : v₂.workspace.published = v₁.workspace.published ∨
        v'.workspace.published = v₂.workspace.published)

/-- The moves of a turn in which no root is added or taken away: if a look begins in it, then before
anything else. -/
inductive Tended (input : Input) (v v' : View) : Prop
  | steady (h : Steadily input v v')
  | retried {v₁ : View} (h₁ : Beginning v v₁)
      (hsame : v₁.workspace.published = v.workspace.published) (h₂ : Steadily input v₁ v')

theorem Tended.outline {input : Input} {v v' : View} (h : Tended input v v') :
    Outline input v v' := by
  cases h with
  | steady h => exact .quiet h.moves
  | retried h₁ hsame h₂ => exact .begun .refl h₁ h₂ (.inl hsame)

theorem Outline.head {input : Input} {v v₁ v' : View} (h : Steadily input v v₁)
    (h' : Outline input v₁ v') : Outline input v v' := by
  cases h' with
  | quiet h₁ => exact .quiet (h.moves.trans h₁)
  | begun h₁ h₂ h₃ hnew => exact .begun (h.trans h₁) h₂ h₃ hnew

/-! ## What every move keeps -/

section Invariant

variable {input : Input} {I : View → Prop}

theorem Steadily.keeps (hI : ∀ v v', Steady input v v' → I v → I v') {v v' : View}
    (h : Steadily input v v') (hv : I v) : I v' := by
  induction h with
  | refl => exact hv
  | tail _ h ih => exact hI _ _ h ih

theorem Moves.keeps (hI : ∀ v v', Move input v v' → I v → I v') {v v' : View}
    (h : Moves input v v') (hv : I v) : I v' := by
  induction h with
  | refl => exact hv
  | tail _ h ih => exact hI _ _ h ih

/-- What every move keeps, every turn keeps. -/
theorem Outline.keeps (hI : ∀ v v', Move input v v' → I v → I v')
    (hB : ∀ v v', Beginning v v' → I v → I v') {v v' : View}
    (h : Outline input v v') (hv : I v) : I v' := by
  cases h with
  | quiet h => exact Moves.keeps hI h hv
  | begun h₁ h₂ h₃ _ =>
    have hbefore := Moves.keeps hI h₁.moves hv
    exact Moves.keeps hI h₃.moves (hB _ _ h₂ hbefore)

end Invariant

end BuildLens
