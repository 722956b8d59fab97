import BuildLens.Proofs.Build.Determinacy
import BuildLens.Proofs.Workspace.Simulation
import BuildLens.Proofs.Workspace.Turns
import Mathlib.Data.List.Forall2

/-!
# What looks have found

A look at a folder is spread over many turns and over three tasks: one surveys the folder and then
waits for two others that ask the compilers. Whatever happens in between, what is known of the
folder in the end is something that a look at it can find, given the replies of the run.

Main definitions:

- `Inquiry.Remains`: an inquiry is what is left of another one.
- `Workspace.survey?`, `Workspace.Further`: the survey of a model's folder, and the changes that
  forget none.
- `Effect.KeepsFinding`: a turn leaves a task that asks for a compiler at it, or ends it.
- `Engine.Explored`: what is known was found, and the tasks that look are on their way.

Main results:

- `Engine.Explored.take`: a turn keeps it if it keeps it for its own task.
- `Engine.explored_run`: it holds after every run.
-/

namespace BuildLens

open Build (Finding)

variable {R : Replies}

/-! ## What is left of an inquiry -/

/-- Whether the inquiry waits for a reply. -/
def Inquiry.isAsk {α : Type} : Inquiry α → Bool
  | .ask _ _ => true
  | _ => false

/-- The first inquiry is what is left of the second one: it ends in no other way. -/
structure Inquiry.Remains {α : Type} (R : Replies) (i j : Inquiry α) : Prop where
  direct : i.Direct
  ending : ∀ o, i.MayEnd R o → j.MayEnd R o

namespace Inquiry.Remains

variable {α : Type} {i j k : Inquiry α}

/-- A direct inquiry is all that is left of itself. -/
theorem refl (h : i.Direct) : Remains R i i := ⟨h, fun _ => id⟩

/-- A possible reply leaves of an inquiry what it leaves of what was left. -/
theorem next {q : Request} {next : q.Reply → Inquiry α} (h : Remains R (.ask q next) j)
    {r : q.Reply} (hr : R q r) : Remains R (next r) j :=
  ⟨h.direct.next r, fun o ho => h.ending o (.ask hr ho)⟩

/-- What is kept in memory settles an inquiry that is left. -/
theorem settled {cache : FragmentCache} (h : Remains R i j) (hk : (i.settle cache).1 = k) :
    Remains R k j := by
  rw [h.direct.settle_eq] at hk
  exact hk ▸ h

end Inquiry.Remains

/-! ## Folders -/

/-- The inquiry that a look at the folder begins with. -/
def Folder.survey (f : Folder) (s : Surroundings) : Inquiry (Option SourceTree) :=
  SourceTree.survey s f.root f.settings

/-- What is known of the folder, if anything, is what a look at it can find. -/
def Folder.Explored (R : Replies) (s : Surroundings) (f : Folder) : Prop :=
  f.phase = .probing ∨ ∃ o, f.phase = Folder.phaseOf o ∧ Finding R s f.root f.settings o

namespace Workspace

/-- The inquiry that the look at the folder of a model begins with. -/
def survey? (w : Workspace) (m : ModelId) : Option (Inquiry (Option SourceTree)) :=
  (w.model? m).map (·.survey w.context.surroundings)

/-- What is known of any folder is what a look at it can find. -/
def Explored (R : Replies) (w : Workspace) : Prop :=
  ∀ m f, w.model? m = some f → f.Explored R w.context.surroundings

/-- A change that forgets no survey and makes nothing known but what can be found. -/
structure Further (R : Replies) (w w' : Workspace) : Prop where
  surroundings : w'.context.surroundings = w.context.surroundings
  survey : ∀ m j, w.survey? m = some j → w'.survey? m = some j
  explored : w.Explored R → w'.Explored R

namespace Further

variable {w w' w'' : Workspace}

/-- What goes further twice goes further. -/
theorem trans (h : Further R w w') (h' : Further R w' w'') : Further R w w'' where
  surroundings := h'.surroundings.trans h.surroundings
  survey m j hj := h'.survey m j (h.survey m j hj)
  explored hw := h'.explored (h.explored hw)

/-- A calm change makes nothing known. -/
theorem of_calm (h : w.Calm w') : Further R w w' where
  surroundings := h.surroundings
  survey m j hj := by
    have hbare := congrArg (Option.map fun f : Folder => f.survey w.context.surroundings)
      (h.models m)
    rw [Option.map_map, Option.map_map] at hbare
    rw [survey?, h.surroundings]
    exact hbare.trans hj
  explored hw m f hf := by
    have hbare := h.models m
    rw [hf] at hbare
    obtain ⟨g, hg, hgf⟩ := Option.map_eq_some_iff.mp hbare.symm
    obtain ⟨-, hroot, hsettings, -, hphase, -⟩ := Folder.mk.inj hgf
    have hg := hw m g hg
    rw [Folder.Explored, hphase, hroot, hsettings] at hg
    rw [Folder.Explored, h.surroundings]
    exact hg

theorem refl (w : Workspace) : Further R w w := of_calm (.refl w)

/-- A folder that is being looked at makes nothing known, and its survey is not forgotten. -/
theorem begun {f : Folder} (hf : f.phase = .probing) (hc : w'.context = w.context)
    (hm : w'.models = w.models ++ [f]) : Further R w w' where
  surroundings := by rw [hc]
  survey m j hj := by
    obtain ⟨g, hg, rfl⟩ := Option.map_eq_some_iff.mp hj
    rw [survey?, model?, hm, List.getElem?_append_left (lt_of_model? hg), hc]
    exact hj
  explored hw m g hg := by
    rw [model?, hm, List.getElem?_append] at hg
    split at hg
    · rw [hc]
      exact hw m g hg
    · obtain rfl : f = g := by
        rw [List.getElem?_singleton] at hg
        split at hg
        · exact Option.some.inj hg
        · cases hg
      exact .inl hf

/-- The outcome of a look is taken in. -/
theorem reported {m : ModelId} {o : Except Failure (Option Build)}
    (h : ∀ f, w.model? m = some f → Finding R w.context.surroundings f.root f.settings o) :
    Further R w (w.reported m o) where
  surroundings := rfl
  survey n j hj := by
    rw [survey?, model?_reported]
    split
    · rw [Option.map_map]
      exact hj
    · exact hj
  explored hw n f hf := by
    rw [model?_reported] at hf
    split at hf
    · next heq =>
      subst heq
      obtain ⟨g, hg, rfl⟩ := Option.map_eq_some_iff.mp hf
      exact .inr ⟨o, rfl, h g hg⟩
    · exact hw n f hf

end Further

end Workspace

/-! ## Tasks -/

/-- The task asks for the compiler of a tree, or it has. Its failure has been noted. -/
def Activity.Finds (R : Replies) (s : Surroundings) (tree : SourceTree) (l : Language)
    (noted : Option Failure) : Activity → Prop
  | .asking tree' l' => tree' = tree ∧ l' = l
  | .discovering i => i.Remains R (tree.compiler s l)
  | .done (.ok o) => ∃ c, o = .compiler c ∧ (tree.compiler s l).MayEnd R (.ok c)
  | .done (.error f) => (tree.compiler s l).MayEnd R (.error f) ∧ noted ≠ none
  | _ => False

/-- A task that asks for a compiler does so still when more has been noted. -/
theorem Activity.Finds.mono {s : Surroundings} {tree : SourceTree} {l : Language}
    {noted noted' : Option Failure} {a : Activity} (h : a.Finds R s tree l noted)
    (hn : noted ≠ none → noted' ≠ none) : a.Finds R s tree l noted' := by
  cases a with
  | done r =>
    cases r with
    | ok o => exact h
    | error f => exact ⟨h.1, hn h.2⟩
  | _ => exact h

/-- A task that asks for a compiler waits for no other tasks. -/
theorem Activity.Finds.waits_eq_false {s : Surroundings} {tree : SourceTree} {l : Language}
    {noted : Option Failure} {a : Activity} (h : a.Finds R s tree l noted) : a.waits = false := by
  cases a with
  | gathering => exact h.elim
  | _ => rfl

/-- A task that asks for a compiler still does so after its turn, or it has it. If it fails, that is
noted. -/
def Effect.KeepsFinding (R : Replies) (s : Surroundings) (size : Nat) (a : Activity)
    (eff : Effect) : Prop :=
  ∀ tree l noted, a.Finds R s tree l noted →
    (eff.activity size a).Finds R s tree l (noted.or eff.failure?)

/-- The task does not ask for a compiler. -/
def Activity.Apart (R : Replies) (s : Surroundings) (a : Activity) : Prop :=
  ∀ tree l noted, ¬ a.Finds R s tree l noted

namespace Engine

/-- A task asks for a compiler on behalf of another one. -/
def Asks (R : Replies) (e : Engine) (parent : TaskId) (tree : SourceTree)
    (noted : Option Failure) (l : Language) (id : TaskId) : Prop :=
  ∃ t, e.task? id = some t ∧ t.parent = some parent ∧
    t.activity.Finds R e.workspace.context.surroundings tree l noted

/-- A task waits for the two that ask for the compilers of a tree, which the survey has found. -/
structure Awaits (R : Replies) (e : Engine) (id : TaskId) (children : List TaskId)
    (noted : Option Failure) (m : ModelId) (tree : SourceTree) : Prop where
  survey : ∃ j, e.workspace.survey? m = some j ∧ j.MayEnd R (.ok (some tree))
  children : ∃ a b, children = [a, b] ∧ e.Asks R id tree noted .c a ∧ e.Asks R id tree noted .cpp b
  noted : ∀ f, noted = some f →
    ∃ l, (tree.compiler e.workspace.context.surroundings l).MayEnd R (.error f)

/-- What a task that takes part in a look is doing leads to what the look can find. -/
def Leads (R : Replies) (e : Engine) (id : TaskId) : Activity → Prop
  | .surveying _ m i => i.isAsk = true ∧ ∃ j, e.workspace.survey? m = some j ∧ i.Remains R j
  | .discovering i => i.isAsk = true ∧ i.Direct
  | .gathering children noted (.compilers _ m tree) => e.Awaits R id children noted m tree
  | _ => True

/-- What is known of any folder is what a look at it can find, and the tasks that look at folders
are on their way to that. -/
structure Explored (R : Replies) (e : Engine) : Prop where
  folders : e.workspace.Explored R
  tasks : ∀ id t, e.task? id = some t → e.Leads R id t.activity

/-- A task without a part in a look leads nowhere else. -/
theorem leads_of_isLook_eq_false {e : Engine} {id : TaskId} {a : Activity}
    (h : a.isLook = false) : e.Leads R id a := by
  cases a with
  | gathering children noted after =>
    cases after with
    | compilers => cases h
    | _ => trivial
  | surveying => cases h
  | discovering => cases h
  | _ => trivial

end Engine

/-! ## What a turn leaves of the other tasks -/

namespace Engine

variable {e : Engine} {id : TaskId} {t : Task} {w' : Workspace} {eff : Effect}

/-- A task that asks for a compiler still does so after a turn of any task. -/
theorem Asks.take {parent a : TaskId} {tree : SourceTree} {noted noted' : Option Failure}
    {l : Language} (ht : e.task? id = some t)
    (hs : w'.context.surroundings = e.workspace.context.surroundings)
    (h : e.Asks R parent tree noted l a) (hnoted : noted ≠ none → noted' ≠ none)
    (hown : a = id → t.parent = some parent →
      (eff.activity e.tasks.length t.activity).Finds R e.workspace.context.surroundings tree l
        noted') :
    ({ e with workspace := w' }.take id eff).Asks R parent tree noted' l a := by
  obtain ⟨u, hu, hparent, hfinds⟩ := h
  unfold Asks
  rw [workspace_take, hs]
  by_cases ha : a = id
  · subst ha
    obtain rfl : t = u := Option.some.inj (ht.symm.trans hu)
    exact ⟨_, task?_take_self (e := { e with workspace := w' }) ht eff, hparent, hown rfl hparent⟩
  · have hsame : u.after t.parent a id eff.failure? = u :=
      Task.after_eq_self hfinds.waits_eq_false
    refine ⟨u, ?_, hparent, hfinds.mono hnoted⟩
    rw [← hsame]
    exact task?_take_of_ne (e := { e with workspace := w' }) ht eff hu (Ne.symm ha)

/-- A task that asks for a compiler fails as the inquiry into that compiler can. -/
theorem Asks.mayEnd_failure {parent : TaskId} {tree : SourceTree} {noted : Option Failure}
    {l : Language} {f : Failure} (h : e.Asks R parent tree noted l id)
    (ht : e.task? id = some t)
    (hkeeps : eff.KeepsFinding R e.workspace.context.surroundings e.tasks.length t.activity)
    (hf : eff.failure? = some f) :
    (tree.compiler e.workspace.context.surroundings l).MayEnd R (.error f) := by
  obtain ⟨u, hu, -, hfinds⟩ := h
  obtain rfl : t = u := Option.some.inj (ht.symm.trans hu)
  have hdone := hkeeps tree l noted hfinds
  rw [Effect.activity_of_failure? hf] at hdone
  exact hdone.1

/-- A task that waits for the two that ask for compilers goes on waiting for them, and notes the
failure of the one that had its turn. -/
theorem Awaits.take {j : TaskId} {children : List TaskId} {noted : Option Failure} {m : ModelId}
    {tree : SourceTree} (ht : e.task? id = some t) (hw : e.workspace.Further R w')
    (hkeeps : eff.KeepsFinding R e.workspace.context.surroundings e.tasks.length t.activity)
    (h : e.Awaits R j children noted m tree) :
    ({ e with workspace := w' }.take id eff).Awaits R j children
      (if t.parent = some j ∧ id ∈ children then noted.or eff.failure? else noted) m tree := by
  obtain ⟨⟨s, hs, hend⟩, ⟨a, b, rfl, hc, hcpp⟩, hnoted⟩ := h
  have hown {l : Language} {n : TaskId} (hn : n ∈ [a, b])
      (hasks : e.Asks R j tree noted l n) (heq : n = id) (hp : t.parent = some j) :
      (eff.activity e.tasks.length t.activity).Finds R e.workspace.context.surroundings tree l
        (if t.parent = some j ∧ id ∈ [a, b] then noted.or eff.failure? else noted) := by
    subst heq
    obtain ⟨u, hu, -, hfinds⟩ := hasks
    obtain rfl : t = u := Option.some.inj (ht.symm.trans hu)
    rw [if_pos ⟨hp, hn⟩]
    exact hkeeps tree l noted hfinds
  have hmore : noted ≠ none →
      (if t.parent = some j ∧ id ∈ [a, b] then noted.or eff.failure? else noted) ≠ none := by
    intro hne
    split
    · simp [hne]
    · exact hne
  refine ⟨⟨s, ?_, hend⟩, ⟨a, b, rfl, ?_, ?_⟩, ?_⟩
  · rw [workspace_take]
    exact hw.survey m s hs
  · exact hc.take ht hw.surroundings hmore (hown (by simp) hc)
  · exact hcpp.take ht hw.surroundings hmore (hown (by simp) hcpp)
  · intro f hf
    rw [workspace_take, hw.surroundings]
    split at hf
    · next hin =>
      cases noted with
      | some g => exact hnoted f hf
      | none =>
        -- The failure is that of the task that had its turn, which asks for one of the compilers.
        rcases (by simpa using hin.2 : id = a ∨ id = b) with rfl | rfl
        · exact ⟨.c, hc.mayEnd_failure ht hkeeps hf⟩
        · exact ⟨.cpp, hcpp.mayEnd_failure ht hkeeps hf⟩
    · exact hnoted f hf

/-- What another task is doing after a turn still leads to what its look can find. -/
theorem Leads.take {j : TaskId} {v : Task} (ht : e.task? id = some t)
    (hw : e.workspace.Further R w')
    (hkeeps : eff.KeepsFinding R e.workspace.context.surroundings e.tasks.length t.activity)
    (h : e.Leads R j v.activity) :
    ({ e with workspace := w' }.take id eff).Leads R j
      (v.after t.parent j id eff.failure?).activity := by
  cases ha : v.activity with
  | gathering children noted after =>
    rw [Task.activity_after_gathering ha]
    rw [ha] at h
    cases after with
    | compilers p m tree => exact Awaits.take ht hw hkeeps h
    | _ => trivial
  | surveying p m i =>
    rw [Task.after_eq_self (by rw [ha]; rfl), ha]
    rw [ha] at h
    obtain ⟨hask, s, hs, hi⟩ := h
    refine ⟨hask, s, ?_, hi⟩
    rw [workspace_take]
    exact hw.survey m s hs
  | discovering i =>
    rw [Task.after_eq_self (by rw [ha]; rfl), ha]
    rw [ha] at h
    exact h
  | _ =>
    rw [Task.after_eq_self (by rw [ha]; rfl), ha]
    trivial

/-- A turn keeps what was explored if it does so for its own task. -/
theorem Explored.take (he : e.Explored R) (ht : e.task? id = some t)
    (hw : e.workspace.Further R w')
    (hkeeps : eff.KeepsFinding R e.workspace.context.surroundings e.tasks.length t.activity)
    (hown : ({ e with workspace := w' }.take id eff).Leads R id
      (eff.activity e.tasks.length t.activity))
    (hnew : ∀ a ∈ eff.children, a.isLook = false) :
    ({ e with workspace := w' }.take id eff).Explored R where
  folders := by
    rw [workspace_take]
    exact hw.explored he.folders
  tasks j u hu := by
    rcases task?_take_cases (e := { e with workspace := w' }) ht hu with
      ⟨rfl, rfl⟩ | ⟨-, v, hv, rfl⟩ | ⟨k, a, rfl, ha, rfl⟩
    · exact hown
    · exact (he.tasks j v hv).take ht hw hkeeps
    · exact leads_of_isLook_eq_false (hnew a (List.mem_of_getElem? ha))

/-! ## Turns that have no part in a look -/

end Engine

namespace Effect.Plain

/-- A task without a part in a look has none after a plain turn. -/
theorem isLook_activity {size : Nat} {a : Activity} {eff : Effect} (h : eff.Plain)
    (ha : a.isLook = false) : (eff.activity size a).isLook = false := by
  cases eff with
  | stay => exact ha
  | become b => exact h.1
  | finish r => rfl
  | gather children after =>
    cases after with
    | compilers p m tree => exact absurd rfl (h.2 p m tree)
    | _ => rfl

/-- The tasks that begin in a plain turn have no part in a look. -/
theorem isLook_children {eff : Effect} (h : eff.Plain) :
    ∀ a ∈ eff.children, a.isLook = false := by
  cases eff with
  | gather children after => exact fun a ha => (h.1 a ha).1
  | _ => exact fun _ ha => absurd ha List.not_mem_nil

end Effect.Plain

namespace Engine

variable {e : Engine} {id : TaskId} {t : Task} {w' : Workspace} {eff : Effect}

/-- A plain turn leaves what is known of folders what can be found. -/
theorem Explored.plain (he : e.Explored R) (ht : e.task? id = some t)
    (ha : t.activity.isLook = false)
    (hapart : t.activity.Apart R e.workspace.context.surroundings)
    (h : Plainly e.workspace w' eff) : ({ e with workspace := w' }.take id eff).Explored R :=
  he.take ht (.of_calm h.1) (fun tree l noted h => absurd h (hapart tree l noted))
    (leads_of_isLook_eq_false (h.2.isLook_activity ha)) h.2.isLook_children

/-! ## Turns of a look -/

/-- The outcome of a look is taken in, which is one that the look can have. -/
theorem Explored.concludes {p : Purpose} {m : ModelId} {o : Except Failure (Option Build)}
    {w : Workspace} (he : e.Explored R) (ht : e.task? id = some t)
    (hapart : t.activity.Apart R e.workspace.context.surroundings)
    (hw : e.workspace.Further R w)
    (ho : ∀ f, w.model? m = some f → Finding R w.context.surroundings f.root f.settings o)
    (h : Concludes w p m o w' eff) : ({ e with workspace := w' }.take id eff).Explored R := by
  have hw' : e.workspace.Further R w' :=
    (hw.trans (.reported ho)).trans (.of_calm h.calm)
  have hplain : eff.Plain := by
    rcases h.effect with rfl | heff
    · exact ⟨rfl, rfl⟩
    · cases heff <;> trivial
  have hown (size : Nat) : (eff.activity size t.activity).isLook = false := by
    rcases h.effect with rfl | heff
    · rfl
    · cases heff <;> rfl
  exact he.take ht hw' (fun tree l noted h => absurd h (hapart tree l noted))
    (leads_of_isLook_eq_false (hown _)) hplain.isLook_children

/-- The survey of a folder goes on. -/
theorem Explored.surveys {p : Purpose} {m : ModelId} {i j : Inquiry (Option SourceTree)}
    {w : Workspace} (he : e.Explored R) (ht : e.task? id = some t)
    (hapart : t.activity.Apart R e.workspace.context.surroundings)
    (hw : e.workspace.Further R w) (hj : w.survey? m = some j) (hi : i.Remains R j)
    (h : Surveys w p m i w' eff) : ({ e with workspace := w' }.take id eff).Explored R := by
  have hending {w₁ : Workspace} (hw₁ : w.Calm w₁) {x : Except Failure (Option SourceTree)}
      (hx : i.MayEnd R x) {f : Folder} (hf : w₁.model? m = some f) :
      (SourceTree.survey w₁.context.surroundings f.root f.settings).MayEnd R x := by
    have hj₁ := (Workspace.Further.of_calm (R := R) hw₁).survey m j hj
    rw [Workspace.survey?, hf] at hj₁
    obtain rfl : f.survey w₁.context.surroundings = j := Option.some.inj hj₁
    exact hi.ending x hx
  cases h with
  | asks hsettle hw₁ =>
    refine he.take ht (hw.trans (.of_calm hw₁))
      (fun tree l noted h => absurd h (hapart tree l noted)) ?_
      fun _ ha => absurd ha List.not_mem_nil
    refine ⟨rfl, j, ?_, hi.settled hsettle⟩
    rw [workspace_take]
    exact (Workspace.Further.of_calm (R := R) hw₁).survey m j hj
  | @finds _ cache tree hsettle hw₁ =>
    have hi' := hi.settled hsettle
    have hend : j.MayEnd R (.ok (some tree)) := hi'.ending _ (.answer _)
    have hid := lt_of_task? ht
    refine he.take ht (hw.trans (.of_calm hw₁))
      (fun tree l noted h => absurd h (hapart tree l noted)) ?_ ?_
    · refine ⟨⟨j, ?_, hend⟩, ⟨e.tasks.length, e.tasks.length + 1, rfl, ?_, ?_⟩, fun _ h => nomatch h⟩
      · rw [workspace_take]
        exact (Workspace.Further.of_calm (R := R) hw₁).survey m j hj
      · exact ⟨_, task?_take_new (e := { e with workspace := w' }) hid _ 0, rfl, rfl, rfl⟩
      · exact ⟨_, task?_take_new (e := { e with workspace := w' }) hid _ 1, rfl, rfl, rfl⟩
    · simp [Effect.children, Activity.isLook]
  | lacks hsettle hw₁ h =>
    have hx : i.MayEnd R (.ok none) :=
      Inquiry.mayEnd_of_settle (by rw [hsettle]; exact .answer none)
    exact he.concludes ht hapart (hw.trans (.of_calm hw₁))
      (fun f hf => .noTree (hending hw₁ hx hf)) h
  | @fails _ _ _ _ f hsettle hw₁ h =>
    have hx : i.MayEnd R (.error f) := Inquiry.mayEnd_of_settle (by rw [hsettle]; exact .failed f)
    exact he.concludes ht hapart (hw.trans (.of_calm hw₁))
      (fun f hf => .surveyFailed (hending hw₁ hx hf)) h

/-- The inquiry into a compiler goes on. -/
theorem Discovers.activity_finds {s : Surroundings} {tree : SourceTree} {l : Language}
    {noted : Option Failure} {i : Inquiry Compiler} (hi : i.Remains R (tree.compiler s l))
    (h : Discovers i eff) (size : Nat) (a : Activity) :
    (eff.activity size a).Finds R s tree l (noted.or eff.failure?) := by
  cases h with
  | asks hsettle => exact hi.settled hsettle
  | @finds _ c hsettle => exact ⟨c, rfl, (hi.settled hsettle).ending _ (.answer c)⟩
  | @fails _ f hsettle =>
    refine ⟨(hi.settled hsettle).ending _ (.failed f), ?_⟩
    cases noted <;> exact Option.some_ne_none _

/-- An inquiry into a compiler that goes on leads to what can be found. -/
theorem Explored.discovers {i : Inquiry Compiler} (he : e.Explored R) (ht : e.task? id = some t)
    (hi : i.Direct)
    (hfinds : ∀ tree l noted, t.activity.Finds R e.workspace.context.surroundings tree l noted →
      i.Remains R (tree.compiler e.workspace.context.surroundings l))
    (h : Discovers i eff) : (e.take id eff).Explored R := by
  refine he.take ht (.refl _) (fun tree l noted hf => h.activity_finds (hfinds tree l noted hf) _ _)
    ?_ ?_
  · cases h with
    | asks hsettle =>
      rw [hi.settle_eq] at hsettle
      exact ⟨rfl, hsettle ▸ hi⟩
    | _ => trivial
  · cases h <;> exact fun _ ha => absurd ha List.not_mem_nil

/-! ## Whole turns -/

/-- Tasks have outcomes if each of them has ended well. -/
theorem outcomes?_eq_some_iff {ids : List TaskId} {outcomes : List Outcome} :
    e.outcomes? ids = some outcomes ↔
      List.Forall₂ (fun i o => e.result? i = some (.ok o)) ids outcomes := by
  have hok (i : TaskId) (o : Outcome) :
      (e.result? i).bind Except.toOption = some o ↔ e.result? i = some (.ok o) := by
    rw [Option.bind_eq_some_iff]
    constructor
    · rintro ⟨r, hr, ho⟩
      cases r with
      | error f => cases ho
      | ok o' =>
        cases ho
        exact hr
    · exact fun hr => ⟨_, hr, rfl⟩
  unfold outcomes?
  induction ids generalizing outcomes with
  | nil => simp [eq_comm]
  | cons i rest ih =>
    simp only [List.mapM_cons, Option.bind_eq_bind, Option.bind_eq_some_iff, ih, hok,
      List.forall₂_cons_left_iff]
    constructor
    · rintro ⟨o, ho, os, hos, h⟩
      cases h
      exact ⟨o, os, ho, hos, rfl⟩
    · rintro ⟨o, os, ho, hos, rfl⟩
      exact ⟨o, ho, os, hos, rfl⟩

/-- Each of the tasks that have outcomes has ended well. -/
theorem result?_of_mem {ids : List TaskId} {outcomes : List Outcome}
    (h : List.Forall₂ (fun i o => e.result? i = some (.ok o)) ids outcomes) (hid : id ∈ ids) :
    ∃ o, e.result? id = some (.ok o) := by
  induction h with
  | nil => cases hid
  | cons ho _ ih =>
    rcases List.mem_cons.mp hid with rfl | hid
    · exact ⟨_, ho⟩
    · exact ih hid

/-- Tasks that have all ended well have outcomes. -/
theorem exists_outcomes? {ids : List TaskId} (h : ∀ i ∈ ids, ∃ o, e.result? i = some (.ok o)) :
    ∃ outcomes, e.outcomes? ids = some outcomes := by
  simp only [outcomes?_eq_some_iff]
  induction ids with
  | nil => exact ⟨[], .nil⟩
  | cons i rest ih =>
    obtain ⟨o, ho⟩ := h i List.mem_cons_self
    obtain ⟨outcomes, hrest⟩ := ih fun j hj => h j (List.mem_cons_of_mem i hj)
    exact ⟨o :: outcomes, .cons ho hrest⟩

/-- A task that has ended well has found the compiler for which it asked. -/
theorem Asks.outcome {parent : TaskId} {tree : SourceTree} {noted : Option Failure}
    {l : Language} {o : Outcome} (h : e.Asks R parent tree noted l id)
    (hr : e.result? id = some (.ok o)) :
    ∃ c, o = .compiler c ∧
      (tree.compiler e.workspace.context.surroundings l).MayEnd R (.ok c) := by
  obtain ⟨t, ht, -, hfinds⟩ := h
  obtain ⟨u, hu, ha⟩ := result?_eq_some_iff.mp hr
  obtain rfl : t = u := Option.some.inj (ht.symm.trans hu)
  rw [ha] at hfinds
  exact hfinds

/-- The two tasks that ask for the compilers of a tree end with compilers. -/
theorem Awaits.outcomes {ids : List TaskId} {noted : Option Failure} {m : ModelId}
    {tree : SourceTree} {outcomes : List Outcome} (h : e.Awaits R id ids noted m tree)
    (ho : e.outcomes? ids = some outcomes) :
    ∃ c cpp, outcomes = [.compiler c, .compiler cpp] ∧
      (tree.compiler e.workspace.context.surroundings .c).MayEnd R (.ok c) ∧
      (tree.compiler e.workspace.context.surroundings .cpp).MayEnd R (.ok cpp) := by
  obtain ⟨-, ⟨a, b, rfl, hc, hcpp⟩, -⟩ := h
  rw [outcomes?_eq_some_iff] at ho
  rcases ho with _ | ⟨ho₁, _ | ⟨ho₂, _ | _⟩⟩
  obtain ⟨c, rfl, hc⟩ := hc.outcome ho₁
  obtain ⟨cpp, rfl, hcpp⟩ := hcpp.outcome ho₂
  exact ⟨c, cpp, rfl, hc, hcpp⟩

/-- Both compilers of a tree have been found. -/
theorem Awaits.built {ids : List TaskId} {noted : Option Failure} {m : ModelId}
    {tree : SourceTree} {c cpp : Compiler} (h : e.Awaits R id ids noted m tree)
    (ho : e.outcomes? ids = some [.compiler c, .compiler cpp]) {f : Folder}
    (hf : e.workspace.model? m = some f) :
    Finding R e.workspace.context.surroundings f.root f.settings (.ok (some ⟨tree, c, cpp⟩)) := by
  obtain ⟨j, hj, hend⟩ := h.survey
  obtain ⟨c', cpp', heq, hc, hcpp⟩ := h.outcomes ho
  cases heq
  rw [Workspace.survey?, hf] at hj
  cases hj
  refine .built hend fun l => ?_
  cases l with
  | c => exact hc
  | cpp => exact hcpp

/-- A compiler of a tree has not been found. -/
theorem Awaits.failed {ids : List TaskId} {x : Failure} {m : ModelId} {tree : SourceTree}
    (h : e.Awaits R id ids (some x) m tree) {f : Folder} (hf : e.workspace.model? m = some f) :
    Finding R e.workspace.context.surroundings f.root f.settings (.error x) := by
  obtain ⟨⟨j, hj, hend⟩, -, hnoted⟩ := h
  rw [Workspace.survey?, hf] at hj
  cases hj
  obtain ⟨l, hl⟩ := hnoted x rfl
  exact .compilerFailed l hend hl

/-- The first turn of an addition leads to what can be found. -/
theorem Explored.adds {folder : EditorFolder} (he : e.Explored R) (ht : e.task? id = some t)
    (ha : t.activity.isLook = false)
    (hapart : t.activity.Apart R e.workspace.context.surroundings)
    (h : Adds e.workspace folder w' eff) : ({ e with workspace := w' }.take id eff).Explored R := by
  cases h with
  | refused hpath => exact he.plain ht ha hapart ⟨.refl _, trivial⟩
  | known hpath hm => exact he.plain ht ha hapart ⟨.refl _, trivial⟩
  | @begins root _ _ hpath hm h =>
    have hfresh : (e.workspace.admitted folder root).model? e.workspace.models.length =
        some (e.workspace.fresh folder root) := e.workspace.model?_begun_self _
    refine he.surveys (w := e.workspace.admitted folder root) ht hapart (.begun rfl rfl rfl) ?_
      (.refl (SourceTree.survey_direct _ _ _)) h
    rw [Workspace.survey?, hfresh]
    rfl

/-- The first turn of a rebuild leads to what can be found. -/
theorem Explored.rebuilds {old : ModelId} (he : e.Explored R) (ht : e.task? id = some t)
    (ha : t.activity.isLook = false)
    (hapart : t.activity.Apart R e.workspace.context.surroundings)
    (h : Rebuilds e.workspace old w' eff) :
    ({ e with workspace := w' }.take id eff).Explored R := by
  cases h with
  | missing hm => exact he.plain ht ha hapart ⟨.refl _, trivial⟩
  | @begins f _ _ hm h =>
    have hfresh : (e.workspace.retried f.source f.root).model? e.workspace.models.length =
        some (e.workspace.fresh f.source f.root) := e.workspace.model?_begun_self _
    refine he.surveys (w := e.workspace.retried f.source f.root) ht hapart (.begun rfl rfl rfl) ?_
      (.refl (SourceTree.survey_direct _ _ _)) h
    rw [Workspace.survey?, hfresh]
    rfl

/-- A task that waited for others ends. -/
theorem Explored.finishes {parent : Option TaskId} {children : List TaskId}
    {noted : Option Failure} {after : AfterGathering} {r : Except Failure Outcome}
    (he : e.Explored R) (ht : e.task? id = some ⟨parent, .gathering children noted after⟩)
    (hw : e.workspace.Calm w') : ({ e with workspace := w' }.take id (.finish r)).Explored R :=
  he.take ht (.of_calm hw) (fun _ _ _ h => h.elim) trivial fun _ ha => absurd ha List.not_mem_nil

/-- A compiler that fails is what a look can find. -/
theorem Explored.afterFailure {parent : Option TaskId} {children : List TaskId} {f : Failure}
    {after : AfterGathering} (he : e.Explored R)
    (ht : e.task? id = some ⟨parent, .gathering children (some f) after⟩)
    (h : Failed e.workspace f after w' eff) :
    ({ e with workspace := w' }.take id eff).Explored R := by
  have hleads := he.tasks id _ ht
  cases h with
  | compilers h =>
    exact he.concludes ht (fun _ _ _ h => h) (.refl _) (fun g hg => hleads.failed hg) h
  | ends hafter => exact he.finishes ht (.refl _)

/-- The compilers that were asked for are what a look can find. -/
theorem Explored.afterGathering {parent : Option TaskId} {children : List TaskId}
    {after : AfterGathering} {outcomes : List Outcome} (he : e.Explored R)
    (ht : e.task? id = some ⟨parent, .gathering children none after⟩)
    (ho : e.outcomes? children = some outcomes)
    (h : Gathered e.workspace outcomes after w' eff) :
    ({ e with workspace := w' }.take id eff).Explored R := by
  have hleads := he.tasks id _ ht
  cases h with
  | compilers houtcomes h =>
    subst houtcomes
    exact he.concludes ht (fun _ _ _ h => h) (.refl _) (fun g hg => hleads.built ho hg) h
  | stuck houtcomes => exact he
  | ends hafter hw => exact he.finishes ht hw

/-- What is explored stays so in a turn of any task. -/
theorem Explored.resume (he : e.Explored R) (id : TaskId) {answers : Answers}
    (hR : ∀ q, R q (answers.reply q)) : (e.resume id answers).Explored R := by
  cases ht : e.task? id with
  | none => rwa [resume_of_task?_eq_none ht]
  | some t =>
    obtain ⟨w', eff, hturn, heq⟩ := exists_turn ht answers
    rw [heq]
    have hleads := he.tasks id t ht
    have hstays (h : w' = e.workspace ∧ eff = .stay) :
        ({ e with workspace := w' }.take id eff).Explored R := by
      obtain ⟨rfl, rfl⟩ := h
      exact he
    obtain ⟨parent, a⟩ := t
    cases a with
    | adding folder => exact he.adds ht rfl (fun _ _ _ h => h) hturn
    | rebuilding old => exact he.rebuilds ht rfl (fun _ _ _ h => h) hturn
    | asking tree l =>
      obtain ⟨rfl, hturn⟩ := hturn
      refine he.discovers ht (tree.compiler_direct _ l) ?_ hturn
      rintro tree' l' noted ⟨rfl, rfl⟩
      exact .refl (tree.compiler_direct _ l)
    | discovering i =>
      cases i with
      | ask q next =>
        obtain ⟨rfl, hturn⟩ := hturn
        exact he.discovers ht (hleads.2.next _)
          (fun tree l noted hf => Inquiry.Remains.next hf (hR q)) hturn
      | _ => exact hstays hturn
    | surveying p m i =>
      cases i with
      | ask q next =>
        obtain ⟨-, j, hj, hi⟩ := hleads
        exact he.surveys ht (fun _ _ _ h => h) (.refl _) hj (hi.next (hR q)) hturn
      | _ => exact hstays hturn
    | gathering children noted after =>
      cases noted with
      | some f => exact he.afterFailure ht hturn
      | none =>
        cases ho : e.awaited? (.gathering children none after) with
        | none =>
          rw [ho] at hturn
          exact hstays hturn
        | some outcomes =>
          rw [ho] at hturn
          exact he.afterGathering ht ho hturn
    | providing uri =>
      cases hturn with
      | unanswered h => exact he.plain ht rfl (fun _ _ _ h => h) ⟨.refl _, trivial⟩
      | begins hasked h =>
        refine he.plain ht rfl (fun _ _ _ h => h) ⟨.settled _ _ _, ?_⟩
        cases h <;> trivial
    | resolving uri path m i =>
      cases i with
      | ask q next =>
        obtain ⟨rfl, h⟩ := hturn
        refine he.plain ht rfl (fun _ _ _ h => h) ⟨.settled _ _ _, ?_⟩
        cases h <;> trivial
      | _ => exact hstays hturn
    | telling p m =>
      refine he.plain ht rfl (fun _ _ _ h => h) ⟨hturn.1, ?_⟩
      cases hturn.2 <;> trivial
    | registering after =>
      cases after with
      | added m =>
        obtain ⟨hw, phase, rfl⟩ := hturn
        exact he.plain ht rfl (fun _ _ _ h => h) ⟨hw, trivial⟩
      | _ => exact he.plain ht rfl (fun _ _ _ h => h) hturn
    | configuring m i =>
      cases i with
      | ask q next => exact he.plain ht rfl (fun _ _ _ h => h) hturn
      | _ => exact hstays hturn
    | compiling m i =>
      cases i with
      | ask q next => exact he.plain ht rfl (fun _ _ _ h => h) hturn
      | _ => exact hstays hturn
    | done r => exact hstays hturn

/-- A new task knows nothing of folders. -/
theorem Explored.spawned (he : e.Explored R) : e.spawned.Explored R where
  folders := he.folders
  tasks j u hu := by
    have hold {i : TaskId} {v : Task} (hv : e.task? i = some v) : e.spawned.task? i = some v := by
      rw [task?, Engine.spawned, List.getElem?_append_left (lt_of_task? hv)]
      exact hv
    have hasks {parent i : TaskId} {tree : SourceTree} {noted : Option Failure} {l : Language}
        (h : e.Asks R parent tree noted l i) : e.spawned.Asks R parent tree noted l i := by
      obtain ⟨v, hv, hparent, hfinds⟩ := h
      exact ⟨v, hold hv, hparent, hfinds⟩
    rw [task?, Engine.spawned, List.getElem?_append] at hu
    split at hu
    · have hleads := he.tasks j u hu
      cases ha : u.activity with
      | gathering children noted after =>
        rw [ha] at hleads
        cases after with
        | compilers p m tree =>
          obtain ⟨hj, ⟨a, b, hab, hc, hcpp⟩, hnoted⟩ := hleads
          exact ⟨hj, ⟨a, b, hab, hasks hc, hasks hcpp⟩, hnoted⟩
        | _ => trivial
      | surveying | discovering =>
        rw [ha] at hleads
        exact hleads
      | _ => trivial
    · rw [List.getElem?_singleton] at hu
      split at hu
      · cases hu
        trivial
      · cases hu

/-- What is explored stays so when an operation begins. -/
theorem Explored.start (he : e.Explored R) (op : Operation) : (e.start op).Explored R := by
  obtain ⟨w', eff, hbegins, heq⟩ := exists_begins e op
  have ht : e.spawned.task? e.tasks.length = some ⟨none, .done (.ok .nothing)⟩ :=
    List.getElem?_concat_length
  have hspawned : e.spawned.Explored R := he.spawned
  have hapart :
      (Activity.done (.ok .nothing)).Apart R e.spawned.workspace.context.surroundings := by
    rintro tree l noted ⟨c, hc, -⟩
    cases hc
  rw [heq]
  cases op with
  | add folder => exact hspawned.adds ht rfl hapart hbegins
  | _ => exact hspawned.plain ht rfl hapart hbegins

end Engine

/-- The replies that an event brings are possible. -/
def Event.Within (R : Replies) : Event → Prop
  | .call _ => True
  | .resume _ answers => ∀ q, R q (answers.reply q)

namespace Engine

/-- An event that brings possible replies leads to what can be found. -/
theorem Explored.step {e : Engine} (he : e.Explored R) {event : Event} (h : event.Within R) :
    (e.step event).Explored R := by
  cases event with
  | call op => exact he.start op
  | resume id answers => exact he.resume id h

/-- In a fresh engine nothing is known. -/
theorem explored_fresh (context : Context) : (fresh context).Explored R where
  folders m f hf := by simp [fresh, Workspace.model?] at hf
  tasks id t ht := by simp [fresh, task?] at ht

/-- After any run what is known of a folder is what a look at it can find. -/
theorem explored_run (context : Context) (events : List Event)
    (h : ∀ event ∈ events, event.Within R) : ((fresh context).run events).Explored R :=
  run_keeps (fun _ event hevent he => he.step (h event hevent)) (explored_fresh context)

end Engine

end BuildLens
