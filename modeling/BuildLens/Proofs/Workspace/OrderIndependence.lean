import BuildLens.Proofs.Workspace.Progress
import BuildLens.Proofs.Workspace.Provider

/-!
# The order in which folders are looked at does not matter

Several folders are added side by side, where files do not change and commands always answer the
same. Their looks share the workspace, the messages to the user and the provider. Whatever order
their tasks take turns in, the addition ends; and then each folder is published in the state in
which it would be if it had been added alone.

Main definitions:

- `Engine.follow`, `Engine.Productive`: an order of turns, and one in which each turn changes
  something.
- `Engine.Converges`: in every order the first task ends, and then a property holds.
- `Folder.Alike`: two looks at a folder have ended in the same state.

Main results:

- `Engine.Batch.converges`: the tasks that add the folders of a plan end in every order.
- `Engine.addMany_converges`: each folder is then as it would be alone.
-/

namespace BuildLens

open Build (Finding)

/-! ## Orders of turns -/

namespace Engine

/-- Tasks take turns in the given order. With each turn it is said whether the editor hands out its
interface. -/
def follow (reply : (q : Request) → q.Reply) (e : Engine) (order : List (TaskId × Bool)) : Engine :=
  order.foldl (fun e turn => e.resume turn.1 ⟨reply, turn.2⟩) e

/-- Each turn of the order changes something. -/
def Productive (reply : (q : Request) → q.Reply) : Engine → List (TaskId × Bool) → Prop
  | _, [] => True
  | e, turn :: rest =>
    e.resume turn.1 ⟨reply, turn.2⟩ ≠ e ∧ (e.resume turn.1 ⟨reply, turn.2⟩).Productive reply rest

/-- In whatever order tasks take turns, the first task ends well, and then the property holds: only
so many turns can change anything, and as long as the first task has not ended some turn does. -/
structure Converges (reply : (q : Request) → q.Reply) (e : Engine) (P : Engine → Prop) : Prop where
  bounded : ∃ bound, ∀ order, e.Productive reply order → order.length ≤ bound
  goesOn : ∀ order, (e.follow reply order).result? 0 = none →
    ∃ id, ∀ hasApi, (e.follow reply order).resume id ⟨reply, hasApi⟩ ≠ e.follow reply order
  ends : ∀ order r, (e.follow reply order).result? 0 = some r →
    (∃ o, r = .ok o) ∧ P (e.follow reply order)

/-- What converges to something converges to all that follows from it. -/
theorem Converges.mono {reply : (q : Request) → q.Reply} {e : Engine} {P Q : Engine → Prop}
    (h : e.Converges reply P)
    (hPQ : ∀ order, P (e.follow reply order) → Q (e.follow reply order)) :
    e.Converges reply Q where
  bounded := h.bounded
  goesOn := h.goesOn
  ends order r hr := ⟨(h.ends order r hr).1, hPQ order (h.ends order r hr).2⟩

/-- To follow an order of turns is a run. -/
theorem follow_start (reply : (q : Request) → q.Reply) (e : Engine) (op : Operation)
    (order : List (TaskId × Bool)) :
    (e.start op).follow reply order =
      e.run (.call op :: order.map fun turn => .resume turn.1 ⟨reply, turn.2⟩) := by
  rw [run, List.foldl_cons, List.foldl_map]
  rfl

end Engine

/-! ## The tasks of a plan -/

/-- Fixed replies lead to what can be found with them. -/
theorem Engine.Explored.resume_always {reply : (q : Request) → q.Reply} {e : Engine}
    (he : e.Explored (.always reply)) (id : TaskId) (hasApi : Bool) :
    (e.resume id ⟨reply, hasApi⟩).Explored (.always reply) :=
  he.resume id fun _ => rfl

namespace Engine.Batch

variable {reply : (q : Request) → q.Reply} {context : Context} {base : TaskId}
  {plan : List Planned} {e : Engine}

/-- In any order of turns the folders of a plan are on their way. -/
theorem follow (hplan : ∀ x ∈ plan, x.Fits context) (hroots : (plan.map (·.root.key)).Nodup)
    (hb : e.Batch context base plan) (he : e.Explored (.always reply))
    (order : List (TaskId × Bool)) :
    (e.follow reply order).Batch context base plan ∧
      (e.follow reply order).Explored (.always reply) := by
  induction order generalizing e with
  | nil => exact ⟨hb, he⟩
  | cons turn rest ih => exact ih (hb.resume hplan hroots _ _) (he.resume_always _ _)

/-- There are no more turns that do anything than there is work. -/
theorem length_le_of_productive (hplan : ∀ x ∈ plan, x.Fits context)
    (hroots : (plan.map (·.root.key)).Nodup) (hb : e.Batch context base plan)
    (he : e.Explored (.always reply)) {order : List (TaskId × Bool)}
    (h : e.Productive reply order) : order.length ≤ e.work reply context := by
  induction order generalizing e with
  | nil => exact Nat.zero_le _
  | cons turn rest ih =>
    obtain ⟨hne, hrest⟩ := h
    have hready : e.Ready turn.1 := by
      by_contra hnot
      exact hne (resume_eq_self hnot _)
    have hlt := hb.work_resume_lt hplan he hready turn.2
    have hle := ih (hb.resume hplan hroots _ _) (he.resume_always _ _) hrest
    exact Nat.lt_of_le_of_lt hle hlt

/-- A task that has ended has added its folder. -/
theorem exists_folder (hb : e.Batch context base plan) {n : Nat} {x : Planned}
    (hx : plan[n]? = some x) {r : Except Failure Outcome} (hr : e.result? (base + n) = some r) :
    ∃ m phase, r = .ok (.folder m phase) ∧ e.workspace.published.find? x.root.key = some m ∧
      e.workspace.Has x m ∧ e.workspace.Looked m := by
  obtain ⟨t, ht, hadding⟩ := hb.adders n x hx
  obtain ⟨u, hu, ha⟩ := result?_eq_some_iff.mp hr
  obtain rfl : t = u := Option.some.inj (ht.symm.trans hu)
  rw [ha] at hadding
  rcases r with f | o
  · exact hadding.elim
  · cases o with
    | folder m phase => exact ⟨m, phase, rfl, hadding⟩
    | _ => exact hadding.elim

/-- The tasks that add the folders of a plan end in every order, if the first task is one of them or
waits for them all. -/
theorem converges (hplan : ∀ x ∈ plan, x.Fits context) (hroots : (plan.map (·.root.key)).Nodup)
    (hb : e.Batch context base plan) (he : e.Explored (.always reply))
    (hfirst : base = 1 ∨ base = 0 ∧ ∃ x, plan = [x]) :
    e.Converges reply fun e => e.Batch context base plan ∧ e.Explored (.always reply) ∧
      ∀ x ∈ plan, ∃ m, e.workspace.published.find? x.root.key = some m ∧ e.workspace.Has x m ∧
        e.workspace.Looked m where
  bounded := ⟨_, fun _ h => hb.length_le_of_productive hplan hroots he h⟩
  goesOn order hr := by
    obtain ⟨hb', he'⟩ := hb.follow hplan hroots he order
    have hready : ∃ id, (e.follow reply order).Ready id := by
      rcases hfirst with rfl | ⟨rfl, x, rfl⟩
      · exact hb'.exists_ready_of_waiting he' Nat.zero_lt_one hr
      · exact hb'.exists_ready_of_adder he' (n := 0) rfl hr
    obtain ⟨id, hid⟩ := hready
    refine ⟨id, fun hasApi heq => ?_⟩
    have hlt := hb'.work_resume_lt hplan he' hid hasApi
    rw [heq] at hlt
    exact Nat.lt_irrefl _ hlt
  ends order r hr := by
    obtain ⟨hb', he'⟩ := hb.follow hplan hroots he order
    rcases hfirst with rfl | ⟨rfl, x, rfl⟩
    · obtain ⟨t, ht, hwaiting⟩ := hb'.waiting 0 Nat.zero_lt_one
      obtain ⟨u, hu, ha⟩ := result?_eq_some_iff.mp hr
      obtain rfl : t = u := Option.some.inj (ht.symm.trans hu)
      rw [ha] at hwaiting
      rcases r with f | o
      · exact hwaiting.elim
      · cases o with
        | folders ms =>
          refine ⟨⟨_, rfl⟩, hb', he', fun x hmem => ?_⟩
          obtain ⟨n, hx⟩ := List.getElem?_of_mem hmem
          obtain ⟨m, phase, hdone⟩ := hwaiting n (List.getElem?_eq_some_iff.mp hx).choose
          obtain ⟨m', -, -, hfolder⟩ := hb'.exists_folder hx hdone
          exact ⟨m', hfolder⟩
        | _ => exact hwaiting.elim
    · obtain ⟨m, phase, rfl, hfolder⟩ := hb'.exists_folder (n := 0) rfl hr
      refine ⟨⟨_, rfl⟩, hb', he', fun y hy => ?_⟩
      obtain rfl := List.mem_singleton.mp hy
      exact ⟨m, hfolder⟩

end Engine.Batch

/-! ## How the addition begins -/

namespace Engine

variable {context : Context} {plan : List Planned}

/-- A task waits for one task for each folder. -/
def planned (context : Context) (plan : List Planned) : Engine where
  workspace := { context }
  tasks := ⟨none, .gathering ((List.range plan.length).map (1 + ·)) none .folders⟩ ::
    plan.map fun x => ⟨some 0, .adding x.source⟩

/-- The folders of a plan are added by a task for each, and one that waits for them. -/
theorem start_addMany (context : Context) (x : Planned) (rest : List Planned) :
    (fresh context).start (.addMany ((x :: rest).map Planned.source)) =
      planned context (x :: rest) := by
  have hlen : (((x :: rest).map Planned.source).map Activity.adding).length =
      (x :: rest).length := by
    rw [List.length_map, List.length_map]
  have htasks : (((x :: rest).map Planned.source).map Activity.adding).map (Task.mk (some 0)) =
      (x :: rest).map fun x => ⟨some 0, .adding x.source⟩ := by
    rw [List.map_map, List.map_map]
    rfl
  change Engine.mk { context } (⟨none, .gathering ((List.range _).map (1 + ·)) none .folders⟩ ::
    ((((x :: rest).map Planned.source).map Activity.adding).map (Task.mk (some 0)))) = _
  rw [hlen, htasks]
  rfl

/-- The tasks of a plan begin as a batch. -/
theorem batch_planned (context : Context) (plan : List Planned) :
    (planned context plan).Batch context 1 plan where
  surroundings := rfl
  settings := rfl
  adders n x hx := by
    refine ⟨⟨some 0, .adding x.source⟩, ?_, rfl, rfl⟩
    rw [task?, planned, Nat.add_comm, List.getElem?_cons_succ, List.getElem?_map, hx]
    rfl
  helpers id t hid ht := by
    have hlt := lt_of_task? ht
    rw [planned, List.length_cons, List.length_map] at hlt
    exact absurd hlt (Nat.not_lt.mpr (Nat.add_comm _ _ ▸ hid))
  waiting id hid := by
    obtain rfl := Nat.lt_one_iff.mp hid
    exact ⟨_, rfl, rfl⟩
  published key i hi := nomatch hi

/-- The addition of several folders begins with a task that waits and one for each folder. -/
theorem batch_addMany (context : Context) (plan : List Planned) :
    ((fresh context).start (.addMany (plan.map Planned.source))).Batch context 1 plan := by
  cases plan with
  | cons x rest =>
    rw [start_addMany]
    exact batch_planned context (x :: rest)
  | nil =>
    exact {
      surroundings := rfl
      settings := rfl
      adders := fun n x hx => nomatch hx
      helpers := fun id t hid ht => absurd (lt_of_task? ht) (Nat.not_lt.mpr hid)
      waiting := by
        intro id hid
        obtain rfl := Nat.lt_one_iff.mp hid
        exact ⟨_, rfl, fun n hn => absurd hn (Nat.not_lt_zero n)⟩
      published := fun key i hi => nomatch hi }

/-- To take in an outcome does something. -/
theorem Concludes.ne_stay {w w' : Workspace} {p : Purpose} {m : ModelId}
    {o : Except Failure (Option Build)} {eff : Effect} (h : Concludes w p m o w' eff) :
    eff ≠ .stay := by
  rcases h.effect with rfl | heff
  · exact Effect.noConfusion
  · cases heff <;> exact Effect.noConfusion

/-- A task that begins to add a folder goes on to something else. -/
theorem Adds.ne_stay {w w' : Workspace} {folder : EditorFolder} {eff : Effect}
    (h : Adds w folder w' eff) : eff ≠ .stay := by
  cases h with
  | begins hpath hm h =>
    cases h with
    | lacks hi hw h => exact h.ne_stay
    | fails hi hw h => exact h.ne_stay
    | _ => exact Effect.noConfusion
  | _ => exact Effect.noConfusion

/-- A task is about to add a folder. -/
def alone (context : Context) (folder : EditorFolder) : Engine where
  workspace := { context }
  tasks := [⟨none, .adding folder⟩]

/-- The addition of one folder begins with the turn of its task. -/
theorem start_add (context : Context) (folder : EditorFolder) (answers : Answers) :
    (fresh context).start (.add folder) = (alone context folder).resume 0 answers := by
  obtain ⟨w', eff, hadds, heq⟩ := does_beginAdd (w := { context }) folder
  have hstart : (fresh context).start (.add folder) =
      { (fresh context).spawned with workspace := w' }.take 0 eff :=
    heq (fresh context).spawned 0 rfl
  have hresume : (alone context folder).resume 0 answers =
      { alone context folder with workspace := w' }.take 0 eff :=
    heq (alone context folder) 0 rfl
  rw [hstart, hresume]
  -- The task does something else afterwards, whatever it was doing.
  cases eff with
  | stay => exact absurd rfl hadds.ne_stay
  | _ => rfl

/-- A single addition is a batch of one. -/
theorem batch_alone (context : Context) (x : Planned) :
    (alone context x.source).Batch context 0 [x] where
  surroundings := rfl
  settings := rfl
  adders n y hy := by
    cases n with
    | zero =>
      cases hy
      exact ⟨_, rfl, rfl, rfl⟩
    | succ n => cases hy
  helpers id t hid ht := absurd (lt_of_task? ht) (Nat.not_lt.mpr hid)
  waiting id hid := absurd hid (Nat.not_lt_zero id)
  published key i hi := nomatch hi

end Engine

/-! ## What is found in the end -/

/-- Two looks at a folder have ended in the same state, with the same build if there is one. Where
both failed the failures may differ. -/
structure Folder.Alike (f g : Folder) : Prop where
  ended : ∃ o, f.phase = Folder.phaseOf o
  phase : f.phase.name = g.phase.name
  build : f.build? = g.build?
  failed : f.error?.isSome = g.error?.isSome

/-- Fixed replies leave one thing only that can be known of a folder. -/
theorem Folder.alike_of_finding {reply : (q : Request) → q.Reply} {s : Surroundings}
    {root : FilePath} {settings : FolderSettings} {f g : Folder}
    {o o' : Except Failure (Option Build)} (hf : f.phase = Folder.phaseOf o)
    (hg : g.phase = Folder.phaseOf o') (ho : Finding (.always reply) s root settings o)
    (ho' : Finding (.always reply) s root settings o') : f.Alike g := by
  rcases ho.determined ho' with rfl | ⟨e, e', rfl, rfl⟩
  · exact ⟨⟨o, hf⟩, by rw [hf, hg], by rw [build?, build?, hf, hg], by rw [error?, error?, hf, hg]⟩
  · refine ⟨⟨_, hf⟩, ?_, ?_, ?_⟩
    · rw [hf, hg]
      rfl
    · rw [build?, build?, hf, hg]
      rfl
    · rw [error?, error?, hf, hg]
      rfl

namespace Workspace

/-- The folder published under a root. -/
def folder? (w : Workspace) (root : FilePath) : Option Folder :=
  (w.published.find? root.key).bind w.model?

/-- A folder of a plan is published, and what is known of it has been found. -/
theorem exists_finding {R : Replies} {w : Workspace} {x : Planned} {m : ModelId}
    (hw : w.Explored R) (hm : w.published.find? x.root.key = some m) (hx : w.Has x m)
    (hl : w.Looked m) :
    ∃ f o, w.folder? x.root = some f ∧ f.source = x.source ∧ f.root = x.root ∧
      f.phase = Folder.phaseOf o ∧ Finding R w.context.surroundings x.root x.settings o := by
  obtain ⟨f, hf, hsource, hroot, hsettings⟩ := hx
  rcases hw m f hf with hprobing | ⟨o, ho, hfinding⟩
  · exact absurd hprobing (hl f hf)
  · rw [hroot, hsettings] at hfinding
    refine ⟨f, o, ?_, hsource, hroot, ho, hfinding⟩
    rw [folder?, hm]
    exact hf

end Workspace

namespace Engine

/-- The folders of a plan, with the settings that hold for them. -/
def planOf (context : Context) (plan : List (EditorFolder × FilePath)) : List Planned :=
  plan.map fun x => ⟨x.1, x.2, context.folderSettings x.2⟩

/-- A folder that is added alone ends in a state that a look at it can find. -/
theorem converges_alone {context : Context} {reply : (q : Request) → q.Reply} {x : Planned}
    (hx : x.Fits context) :
    ((fresh context).start (.add x.source)).Converges reply fun e =>
      ∃ f o, e.workspace.folder? x.root = some f ∧ f.phase = Folder.phaseOf o ∧
        Finding (.always reply) context.surroundings x.root x.settings o := by
  have hplan : ∀ y ∈ [x], y.Fits context := fun y hy => List.mem_singleton.mp hy ▸ hx
  have hroots : ([x].map (·.root.key)).Nodup := List.nodup_singleton _
  have hb := (batch_alone context x).resume hplan hroots 0 ⟨reply, true⟩
  rw [← start_add] at hb
  have he := (explored_fresh (R := .always reply) context).start (.add x.source)
  refine (hb.converges hplan hroots he (.inr ⟨rfl, x, rfl⟩)).mono ?_
  rintro order ⟨hb', he', hadded⟩
  obtain ⟨m, hm, hhas, hlooked⟩ := hadded x (List.mem_singleton_self x)
  obtain ⟨f, o, hf, -, -, ho, hfinding⟩ := Workspace.exists_finding he'.folders hm hhas hlooked
  rw [hb'.surroundings] at hfinding
  exact ⟨f, o, hf, ho, hfinding⟩

/-- After any run the count of build trees is that of the recognized folders. -/
theorem buildCount_run (context : Context) (events : List Event) :
    ((fresh context).run events).workspace.buildCount =
      ((fresh context).run events).workspace.recognizedCount := by
  have hrun := @run_keeps (fun e => e.view.Sound ∧ e.view.Counted) events
    (fun _ event _ he => ⟨he.1.step event, he.2.step event he.1⟩) (fresh context)
    ⟨View.Sound.fresh context, rfl⟩
  rw [Workspace.recognizedCount_eq_countP]
  exact hrun.2.eq_countP fun _ h => nomatch h

/-- Folders with different roots are added side by side, where files do not change and commands
always answer the same. In whatever order the tasks take turns, the addition ends; then exactly
these roots are published, each in the state in which it is if it is added alone, and the count of
build trees is that of the recognized folders. -/
theorem addMany_converges (context : Context) (reply : (q : Request) → q.Reply)
    (plan : List (EditorFolder × FilePath))
    (hpath : ∀ x ∈ plan, x.1.path context.surroundings.platform = .ok x.2)
    (hroots : (plan.map (·.2.key)).Nodup) :
    ((fresh context).start (.addMany (plan.map (·.1)))).Converges reply fun e =>
      (∀ key, e.workspace.knows key = true ↔ ∃ x ∈ plan, x.2.key = key) ∧
      (∀ x ∈ plan, ∃ f, e.workspace.folder? x.2 = some f ∧ f.source = x.1 ∧ f.root = x.2 ∧
        ((fresh context).start (.add x.1)).Converges reply fun e' =>
          ∃ g, e'.workspace.folder? x.2 = some g ∧ f.Alike g) ∧
      e.workspace.buildCount = e.workspace.recognizedCount := by
  have hplan : ∀ x ∈ planOf context plan, x.Fits context := by
    intro x hx
    obtain ⟨y, hy, rfl⟩ := List.mem_map.mp hx
    exact ⟨hpath y hy, rfl⟩
  have hkeys : (planOf context plan).map (·.root.key) = plan.map (·.2.key) := by
    rw [planOf, List.map_map]
    rfl
  have hsources : (planOf context plan).map Planned.source = plan.map (·.1) := by
    rw [planOf, List.map_map]
    rfl
  have hb := batch_addMany context (planOf context plan)
  rw [hsources] at hb
  have he := (explored_fresh (R := .always reply) context).start (.addMany (plan.map (·.1)))
  refine (hb.converges hplan (hkeys ▸ hroots) he (.inl rfl)).mono ?_
  rintro order ⟨hb', he', hadded⟩
  refine ⟨fun key => ⟨?_, ?_⟩, ?_, ?_⟩
  · intro hkey
    obtain ⟨i, hi⟩ := Workspace.knows_eq_true_iff.mp hkey
    obtain ⟨y, hy, rfl⟩ := hb'.published key i hi
    obtain ⟨x, hx, rfl⟩ := List.mem_map.mp hy
    exact ⟨x, hx, rfl⟩
  · rintro ⟨x, hx, rfl⟩
    obtain ⟨m, hm, -⟩ := hadded _ (List.mem_map_of_mem hx)
    exact Workspace.knows_eq_true_iff.mpr ⟨m, hm⟩
  · intro x hx
    obtain ⟨m, hm, hhas, hlooked⟩ := hadded _ (List.mem_map_of_mem hx)
    obtain ⟨f, o, hf, hsource, hroot, ho, hfinding⟩ :=
      Workspace.exists_finding he'.folders hm hhas hlooked
    rw [hb'.surroundings] at hfinding
    refine ⟨f, hf, hsource, hroot, (converges_alone (hplan _ (List.mem_map_of_mem hx))).mono ?_⟩
    rintro order' ⟨g, o', hg, ho', hfinding'⟩
    exact ⟨g, hg, Folder.alike_of_finding ho ho' hfinding hfinding'⟩
  · rw [follow_start]
    exact buildCount_run context _

/-- Two folders, the second of which is not the tree that its tool tells. -/
def twoFolders : List (EditorFolder × FilePath) := [
  ({ uri := "/r" }, .posix ⟨.single, [⟨"r".toList, by decide⟩]⟩),
  ({ uri := "/s" }, .posix ⟨.single, [⟨"s".toList, by decide⟩]⟩)]

/-- An order in which the tasks of the two folders take turns. -/
def twoFoldersOrder : List (TaskId × Bool) :=
  [1, 2, 1, 2, 2, 1, 2, 1, 2, 4, 3, 3, 2, 4, 1, 1, 2, 0].map (·, true)

/-- The first folder is recognized although looking at the second one fails. -/
theorem addMany_converges_twoFolders :
    let e := ((fresh {}).start (.addMany (twoFolders.map (·.1)))).follow Answers.ofBuiltTree.reply
      twoFoldersOrder
    (∃ o, e.result? 0 = some (.ok o)) ∧ e.workspace.recognizedCount = 1 := by
  intro e
  have hpath : ∀ x ∈ twoFolders, x.1.path Platform.linux = .ok x.2 := by decide +kernel
  have hroots : (twoFolders.map (·.2.key)).Nodup := by decide +kernel
  have hended : (e.result? 0).isSome = true := by decide +kernel
  have hcount : e.workspace.buildCount = 1 := by decide +kernel
  obtain ⟨r, hr⟩ := Option.isSome_iff_exists.mp hended
  obtain ⟨⟨o, rfl⟩, -, -, hsame⟩ :=
    (addMany_converges {} Answers.ofBuiltTree.reply twoFolders hpath hroots).ends twoFoldersOrder r hr
  rw [hcount] at hsame
  exact ⟨⟨o, hr⟩, Int.ofNat.inj hsame.symm⟩

end Engine

end BuildLens
