import BuildLens.Proofs.Workspace.Exploration
import BuildLens.Proofs.Workspace.Innermost
import BuildLens.Proofs.Workspace.Recognition

/-!
# What becomes of a file

A file that is to be provided is configured by a task of its own, side by side with everything else
that happens to the workspace. What the task does depends on nothing but its own turns: on the
workspace as each of them finds it, and on the answers that it brings. The task never fails.

Main definitions:

- `Occasion`, `Engine.turnsOf`: the turns that a task has in a run.
- `Inquiry.during`: an inquiry after the turns of its task.
- `Activity.filed`: what a task that configures a file does in one turn.
- `Engine.Found`: one folder has configured the file, from the first turn to the last.

Main results:

- `Engine.task?_run_file`: what the task is doing after a run.
- `Engine.found_of_result?`: the item of a file was found by one folder.
- `Engine.result?_of_failed`: an inquiry that fails only loses its own file.
-/

namespace BuildLens

/-! ## The turns of a task -/

/-- A turn of a task: the engine as the turn finds it, and the answers that it brings. -/
structure Occasion where
  engine : Engine
  answers : Answers

/-- The workspace before the turn. -/
abbrev Occasion.workspace (turn : Occasion) : Workspace := turn.engine.workspace

namespace Engine

/-- The turns that a task has in a run. -/
def turnsOf (id : TaskId) : Engine → List Event → List Occasion
  | _, [] => []
  | e, .call op :: rest => turnsOf id (e.start op) rest
  | e, .resume j answers :: rest =>
    if j = id then ⟨e, answers⟩ :: turnsOf id (e.resume j answers) rest
    else turnsOf id (e.resume j answers) rest

/-- A turn of the task is the first one, and those of the rest follow. -/
theorem turnsOf_resume_self (id : TaskId) (e : Engine) (answers : Answers) (rest : List Event) :
    turnsOf id e (.resume id answers :: rest) =
      ⟨e, answers⟩ :: turnsOf id (e.resume id answers) rest :=
  if_pos rfl

/-- What is no turn of the task does not count. -/
theorem turnsOf_of_ne {id : TaskId} {event : Event} (h : ∀ answers, event ≠ .resume id answers)
    (e : Engine) (rest : List Event) :
    turnsOf id e (event :: rest) = turnsOf id (e.step event) rest := by
  cases event with
  | call op => rfl
  | resume j answers =>
    have hne : j ≠ id := fun heq => h answers (heq ▸ rfl)
    exact if_neg hne

/-- A run goes on from where its beginning ends. -/
theorem run_append (e : Engine) (events events' : List Event) :
    e.run (events ++ events') = (e.run events).run events' :=
  List.foldl_append

/-- A turn comes after other events of the run. -/
theorem exists_run_of_mem_turnsOf {id : TaskId} {e : Engine} {events : List Event} {turn : Occasion}
    (h : turn ∈ turnsOf id e events) : ∃ before, turn.engine = e.run before := by
  induction events generalizing e with
  | nil => exact absurd h List.not_mem_nil
  | cons event rest ih =>
    have hlater (h : turn ∈ turnsOf id (e.step event) rest) :
        ∃ before, turn.engine = e.run before := by
      obtain ⟨before, hbefore⟩ := ih h
      exact ⟨event :: before, hbefore⟩
    by_cases hown : ∃ answers, event = .resume id answers
    · obtain ⟨answers, rfl⟩ := hown
      rw [turnsOf_resume_self] at h
      rcases List.mem_cons.mp h with rfl | h
      · exact ⟨[], rfl⟩
      · exact hlater h
    · rw [turnsOf_of_ne (not_exists.mp hown)] at h
      exact hlater h

/-- A turn comes after the first turn of the task. -/
theorem exists_run_of_first {id : TaskId} {e : Engine} {events : List Event} {first turn : Occasion}
    (hfirst : (turnsOf id e events)[0]? = some first) (h : turn ∈ turnsOf id e events) :
    ∃ between, turn.engine = first.engine.run between := by
  induction events generalizing e with
  | nil => exact absurd h List.not_mem_nil
  | cons event rest ih =>
    by_cases hown : ∃ answers, event = .resume id answers
    · obtain ⟨answers, rfl⟩ := hown
      rw [turnsOf_resume_self] at hfirst h
      obtain rfl : ⟨e, answers⟩ = first := Option.some.inj hfirst
      rcases List.mem_cons.mp h with rfl | h
      · exact ⟨[], rfl⟩
      · obtain ⟨before, hbefore⟩ := exists_run_of_mem_turnsOf h
        exact ⟨.resume id answers :: before, hbefore⟩
    · rw [turnsOf_of_ne (not_exists.mp hown)] at hfirst h
      exact ih hfirst h

end Engine

/-! ## Inquiries over several turns -/

namespace Inquiry

variable {α : Type}

/-- The inquiry when the request for which it waits, if any, has its reply. -/
def replied (reply : (q : Request) → q.Reply) : Inquiry α → Inquiry α
  | .ask q next => next (reply q)
  | i => i

/-- An inquiry about a model after one more turn of its task. -/
def advance (m : ModelId) (i : Inquiry α) (turn : Occasion) : Inquiry α :=
  ((i.replied turn.answers.reply).settle (turn.workspace.kept m)).1

/-- An inquiry about a model after the turns of its task, in the first of which it begins. -/
def during (m : ModelId) (i : Inquiry α) : List Occasion → Inquiry α
  | [] => i
  | first :: rest => rest.foldl (advance m) (i.settle (first.workspace.kept m)).1

/-- One more turn of an inquiry that has begun. -/
theorem during_append (m : ModelId) (i : Inquiry α) {turns : List Occasion} (h : turns ≠ [])
    (turn : Occasion) : i.during m (turns ++ [turn]) = (i.during m turns).advance m turn := by
  cases turns with
  | nil => exact absurd rfl h
  | cons first rest => exact List.foldl_append

/-- An inquiry that has answered stays so. -/
theorem foldl_advance_answer (m : ModelId) (a : α) (turns : List Occasion) :
    turns.foldl (advance m) (.answer a) = .answer a := by
  induction turns with
  | nil => rfl
  | cons turn rest ih => exact ih

end Inquiry

/-! ## The task of a file -/

/-- The inquiry of a folder into one of its files, as the workspace has it. -/
def Workspace.inquiry (w : Workspace) (f : Folder) (path : FilePath) :
    Inquiry (Option SourceConfiguration) :=
  f.configure w.context.surroundings w.context.classifier path

namespace Activity

/-- What the task of a file is doing when its inquiry has gone on. A failure only loses the file,
and so does a change of the folder that answers for it. -/
def filing (w : Workspace) (uri : String) (path : FilePath) (m : ModelId) :
    Inquiry (Option SourceConfiguration) → Activity
  | .answer c =>
    .done (.ok (.item (if w.innermost? path = some m then c.map (⟨uri, ·⟩) else none)))
  | .failed _ => .done (.ok (.item none))
  | i => .resolving uri path m i

/-- What the task of a file is doing after one more turn. -/
def filed (a : Activity) (turn : Occasion) : Activity :=
  match a with
  | .providing uri =>
    match turn.workspace.asked? uri with
    | none => .done (.ok (.item none))
    | some (path, m, f) =>
      filing turn.workspace uri path m
        ((turn.workspace.inquiry f path).settle (turn.workspace.kept m)).1
  | .resolving uri path m i => filing turn.workspace uri path m (i.advance m turn)
  | a => a

/-- The workspace that a turn of the task of a file leaves. -/
def leaving (a : Activity) (turn : Occasion) : Workspace :=
  match a with
  | .providing uri =>
    match turn.workspace.asked? uri with
    | none => turn.workspace
    | some (path, m, f) => turn.workspace.settled m (turn.workspace.inquiry f path)
  | .resolving _ _ m i => turn.workspace.settled m (i.replied turn.answers.reply)
  | _ => turn.workspace

/-- The task configures a file, or has ended with its item. -/
def IsFile (uri : String) : Activity → Prop
  | .providing u => u = uri
  | .resolving u _ _ i => u = uri ∧ i.isAsk = true
  | .done (.ok (.item _)) => True
  | _ => False

variable {uri : String} {a : Activity}

/-- The task of a file waits for no other tasks. -/
theorem IsFile.waits_eq_false (h : a.IsFile uri) : a.waits = false := by
  cases a with
  | gathering => exact h.elim
  | _ => rfl

/-- An inquiry that has gone on as far as it can leaves its task a file or done. -/
theorem isFile_filing (w : Workspace) (path : FilePath) (m : ModelId)
    (i : Inquiry (Option SourceConfiguration)) (cache : FragmentCache) :
    (filing w uri path m (i.settle cache).1).IsFile uri := by
  rcases i.settle_cases cache with ⟨c, hi⟩ | ⟨f, hi⟩ | ⟨q, next, hi⟩ <;> rw [hi]
  · trivial
  · trivial
  · exact ⟨rfl, rfl⟩

/-- The task of a file stays one after each turn. -/
theorem IsFile.filed (h : a.IsFile uri) (turn : Occasion) : (a.filed turn).IsFile uri := by
  cases a with
  | providing u =>
    obtain rfl : u = uri := h
    unfold Activity.filed
    dsimp only
    split
    · trivial
    · exact isFile_filing _ _ _ _ _
  | resolving u path m i =>
    obtain ⟨rfl, -⟩ := h
    exact isFile_filing _ _ _ _ _
  | done r => exact h
  | _ => exact h.elim

/-- A task that has ended does nothing more. -/
theorem foldl_filed_done (r : Except Failure Outcome) (turns : List Occasion) :
    turns.foldl filed (.done r) = .done r := by
  induction turns with
  | nil => rfl
  | cons turn rest ih => exact ih

end Activity

/-! ## Its turns -/

namespace Engine

variable {e : Engine} {id j : TaskId} {uri : String} {a : Activity} {w w' : Workspace} {eff : Effect}

/-- The task of a file does what becomes of its inquiry. It does not fail, and no other task
begins. -/
theorem Resolves.activity_eq {path : FilePath} {m : ModelId}
    {i : Inquiry (Option SourceConfiguration)} (h : Resolves w uri path m i eff) (size : Nat) :
    eff.activity size a = Activity.filing w uri path m (i.settle (w.kept m)).1 ∧
      eff.failure? = none ∧ eff.children = [] := by
  cases h with
  | asks hi | answers hi | fails hi =>
    rw [hi]
    exact ⟨rfl, rfl, rfl⟩

/-- The turn of the task of a file. -/
theorem Turn.file {answers : Answers} {outcomes : Option (List Outcome)} (ha : a.IsFile uri)
    (he : e.workspace = w) (h : Turn w answers outcomes a w' eff) (size : Nat) :
    (eff.activity size a = a.filed ⟨e, answers⟩ ∧ eff.failure? = none ∧ eff.children = []) ∧
      w' = a.leaving ⟨e, answers⟩ := by
  subst he
  cases a with
  | providing u =>
    cases h with
    | unanswered hasked =>
      refine ⟨⟨?_, rfl, rfl⟩, ?_⟩
      · simp only [Activity.filed, hasked]
        rfl
      · simp only [Activity.leaving, hasked]
    | begins hasked h =>
      simp only [Activity.filed, Activity.leaving, hasked]
      exact ⟨h.activity_eq size, rfl⟩
  | resolving u path m i =>
    cases i with
    | ask q next =>
      obtain ⟨rfl, h⟩ := h
      exact ⟨h.activity_eq size, rfl⟩
    | _ => exact absurd ha.2 Bool.false_ne_true
  | done r =>
    obtain ⟨rfl, rfl⟩ := h
    exact ⟨⟨rfl, rfl, rfl⟩, rfl⟩
  | _ => exact ha.elim

/-! ## Tasks in runs -/

/-- A task that begins no other one leaves the other ones when an operation begins. -/
theorem task?_start {u : Task} (hu : e.task? j = some u) (op : Operation) :
    (e.start op).task? j = some u := by
  obtain ⟨w', eff, -, heq⟩ := exists_begins e op
  have hj := lt_of_task? hu
  have hspawned : e.spawned.task? j = some u := by
    rw [task?, spawned, List.getElem?_append_left hj]
    exact hu
  have hnew : e.spawned.task? e.tasks.length = some ⟨none, .done (.ok .nothing)⟩ :=
    List.getElem?_concat_length
  rw [heq, task?_take_of_ne (e := { e.spawned with workspace := w' }) hnew eff hspawned
    (Nat.ne_of_gt hj)]
  cases eff.failure? <;> rfl

/-- A task that does not wait for others is only changed by its own turns. -/
theorem task?_step_of_ne {u : Task} (hu : e.task? j = some u) (hwaits : u.activity.waits = false)
    {event : Event} (hne : ∀ answers, event ≠ .resume j answers) :
    (e.step event).task? j = some u := by
  cases event with
  | call op => exact task?_start hu op
  | resume id answers =>
    cases ht : e.task? id with
    | none =>
      rw [step, resume_of_task?_eq_none ht]
      exact hu
    | some t =>
      have hid : id ≠ j := fun heq => hne answers (heq ▸ rfl)
      obtain ⟨w', eff, -, heq⟩ := exists_turn ht answers
      rw [step, heq, task?_take_of_ne (e := { e with workspace := w' }) ht eff hu hid,
        Task.after_eq_self hwaits]

/-- A task that has ended stays as it is. -/
theorem task?_step_done {parent : Option TaskId} {r : Except Failure Outcome}
    (hu : e.task? j = some ⟨parent, .done r⟩) (event : Event) :
    (e.step event).task? j = some ⟨parent, .done r⟩ := by
  by_cases hown : ∃ answers, event = .resume j answers
  · obtain ⟨answers, rfl⟩ := hown
    rw [step, resume_eq_resumeAs hu]
    exact hu
  · exact task?_step_of_ne hu rfl (not_exists.mp hown)

/-- The result of a task does not change in an event. -/
theorem result?_step {r : Except Failure Outcome} (h : e.result? j = some r) (event : Event) :
    (e.step event).result? j = some r := by
  obtain ⟨⟨parent, a⟩, hu, ha⟩ := result?_eq_some_iff.mp h
  obtain rfl : a = .done r := ha
  exact result?_eq_some_iff.mpr ⟨_, task?_step_done hu event, rfl⟩

/-- The result of a task does not change in a run. -/
theorem result?_run {r : Except Failure Outcome} (h : e.result? j = some r) (events : List Event) :
    (e.run events).result? j = some r :=
  run_keeps (I := fun e => e.result? j = some r) (fun _ event _ h => result?_step h event) h

/-- The own turn of the task of a file. -/
theorem task?_resume_file {parent : Option TaskId} (hu : e.task? id = some ⟨parent, a⟩)
    (ha : a.IsFile uri) (answers : Answers) :
    (e.resume id answers).task? id = some ⟨parent, a.filed ⟨e, answers⟩⟩ := by
  obtain ⟨w', eff, h, heq⟩ := exists_turn hu answers
  rw [heq, task?_take_self (e := { e with workspace := w' }) hu eff]
  have hturn := (h.file (e := e) ha rfl e.tasks.length).1.1
  exact congrArg (fun b => some (Task.mk parent b)) hturn

/-- A turn of the task of a file leaves the workspace but for what is kept in memory. -/
theorem workspace_resume_file {parent : Option TaskId} (hu : e.task? id = some ⟨parent, a⟩)
    (ha : a.IsFile uri) (answers : Answers) :
    (e.resume id answers).workspace = a.leaving ⟨e, answers⟩ := by
  obtain ⟨w', eff, h, heq⟩ := exists_turn hu answers
  rw [heq, workspace_take]
  exact (h.file (e := e) ha rfl e.tasks.length).2

/-- What the task of a file is doing after a run depends on nothing but its own turns. -/
theorem task?_run_file {parent : Option TaskId} (hu : e.task? id = some ⟨parent, a⟩)
    (ha : a.IsFile uri) (events : List Event) :
    (e.run events).task? id =
      some ⟨parent, (turnsOf id e events).foldl Activity.filed a⟩ := by
  induction events generalizing e a with
  | nil => exact hu
  | cons event rest ih =>
    by_cases hown : ∃ answers, event = .resume id answers
    · obtain ⟨answers, rfl⟩ := hown
      rw [turnsOf_resume_self]
      exact ih (task?_resume_file hu ha answers) (ha.filed _)
    · rw [turnsOf_of_ne (not_exists.mp hown)]
      exact ih (task?_step_of_ne hu ha.waits_eq_false (not_exists.mp hown)) ha

/-- What the task of a file is doing before one of its turns. -/
theorem task?_turnsOf_file {parent : Option TaskId} (hu : e.task? id = some ⟨parent, a⟩)
    (ha : a.IsFile uri) {events : List Event} {k : Nat} {turn : Occasion}
    (hk : (turnsOf id e events)[k]? = some turn) :
    turn.engine.task? id =
      some ⟨parent, ((turnsOf id e events).take k).foldl Activity.filed a⟩ := by
  induction events generalizing e a k with
  | nil => cases hk
  | cons event rest ih =>
    by_cases hown : ∃ answers, event = .resume id answers
    · obtain ⟨answers, rfl⟩ := hown
      rw [turnsOf_resume_self] at hk ⊢
      cases k with
      | zero =>
        cases hk
        exact hu
      | succ k => exact ih (task?_resume_file hu ha answers) (ha.filed _) hk
    · rw [turnsOf_of_ne (not_exists.mp hown)] at hk ⊢
      exact ih (task?_step_of_ne hu ha.waits_eq_false (not_exists.mp hown)) ha hk

end Engine

/-! ## Items and failures -/

namespace Activity

variable {uri : String} {path : FilePath} {m : ModelId} {turns : List Occasion}
  {i : Inquiry (Option SourceConfiguration)} {a : Activity}

/-- A task ends with an item if its inquiry has answered and the folder still answers for the
file. -/
theorem filing_eq_item {w : Workspace} {item : ProvidedItem}
    (h : filing w uri path m i = .done (.ok (.item (some item)))) :
    i = .answer (some item.configuration) ∧ w.innermost? path = some m ∧ item.uri = uri := by
  cases i with
  | answer c =>
    rw [filing] at h
    split at h
    · next hinnermost =>
      cases c with
      | none => cases h
      | some c =>
        cases h
        exact ⟨rfl, hinnermost, rfl⟩
    · cases h
  | _ => cases h

/-- A task that has ended did so in one of its turns. -/
theorem exists_last_turn {r : Except Failure Outcome} (ha : ∀ r, a ≠ .done r)
    (h : turns.foldl filed a = .done r) :
    ∃ k last, turns[k]? = some last ∧ (∀ r, (turns.take k).foldl filed a ≠ .done r) ∧
      ((turns.take k).foldl filed a).filed last = .done r := by
  induction turns generalizing a with
  | nil => exact absurd h (ha r)
  | cons turn rest ih =>
    by_cases hdone : ∃ r, a.filed turn = .done r
    · obtain ⟨r', hr'⟩ := hdone
      rw [List.foldl_cons, hr', foldl_filed_done] at h
      exact ⟨0, turn, rfl, ha, hr'.trans h⟩
    · obtain ⟨k, last, hk, hopen, hlast⟩ := ih (not_exists.mp hdone) h
      exact ⟨k + 1, last, hk, hopen, hlast⟩

/-- What the task of a file is doing that has not ended: it has had no turn, or the inquiry of the
folder that answered in its first turn is under way. -/
inductive Pending (uri : String) (turns : List Occasion) : Activity → Prop
  | unbegun (h : turns = []) : Pending uri turns (.providing uri)
  | begun {first : Occasion} {path : FilePath} {m : ModelId} {f : Folder}
      (hfirst : turns[0]? = some first)
      (hasked : first.workspace.asked? uri = some (path, m, f)) :
      Pending uri turns (.resolving uri path m ((first.workspace.inquiry f path).during m turns))

/-- The task of a file ends, or it waits for the next reply. -/
theorem filing_cases (w : Workspace) (uri : String) (path : FilePath) (m : ModelId)
    (i : Inquiry (Option SourceConfiguration)) :
    (∃ r, filing w uri path m i = .done r) ∨ filing w uri path m i = .resolving uri path m i := by
  cases i with
  | answer | failed => exact .inl ⟨_, rfl⟩
  | _ => exact .inr rfl

/-- After any turns the task of a file has ended or is on its way. -/
theorem pending_foldl (uri : String) (turns : List Occasion) :
    (∃ r, turns.foldl filed (.providing uri) = .done r) ∨
      Pending uri turns (turns.foldl filed (.providing uri)) := by
  induction turns using List.reverseRecOn with
  | nil => exact .inr (.unbegun rfl)
  | append_singleton turns turn ih =>
    rw [List.foldl_append, List.foldl_cons, List.foldl_nil]
    rcases ih with ⟨r, hr⟩ | hpending
    · exact .inl ⟨r, by rw [hr]; rfl⟩
    · generalize turns.foldl filed (.providing uri) = a at hpending
      cases hpending with
      | unbegun h =>
        subst h
        rw [filed]
        cases hasked : turn.workspace.asked? uri with
        | none => exact .inl ⟨_, rfl⟩
        | some found =>
          obtain ⟨path, m, f⟩ := found
          refine (filing_cases turn.workspace uri path m _).imp_right fun h => ?_
          dsimp only
          rw [h]
          have hfirst : ([] ++ [turn])[0]? = some turn := rfl
          exact .begun hfirst hasked
      | @begun first path m f hfirst hasked =>
        have hne : turns ≠ [] := by
          rintro rfl
          cases hfirst
        refine (filing_cases turn.workspace uri path m _).imp_right fun h => ?_
        rw [filed, h, ← Inquiry.during_append m _ hne]
        refine .begun ?_ hasked
        rw [List.getElem?_append_left (List.length_pos_iff.mpr hne)]
        exact hfirst

/-- An item of a file is what the folder that answered in the first turn of its task has answered in
one of the turns, when it still was the one that answers for the file. -/
theorem exists_answer_of_item {item : ProvidedItem}
    (h : turns.foldl filed (.providing uri) = .done (.ok (.item (some item)))) :
    ∃ first path m f k last, turns[0]? = some first ∧
      first.workspace.asked? uri = some (path, m, f) ∧ turns[k]? = some last ∧
      last.workspace.innermost? path = some m ∧
      (first.workspace.inquiry f path).during m (turns.take (k + 1)) =
        .answer (some item.configuration) ∧
      item.uri = uri ∧ (∀ r, (turns.take k).foldl filed (.providing uri) ≠ .done r) ∧
      ((turns.take k).foldl filed (.providing uri)).filed last =
        .done (.ok (.item (some item))) := by
  obtain ⟨k, last, hk, hopen, hlast⟩ :=
    exists_last_turn (a := .providing uri) (fun _ h => by cases h) h
  have htake : turns.take (k + 1) = turns.take k ++ [last] := by
    rw [List.take_add_one, hk]
    rfl
  have hpending := (pending_foldl uri (turns.take k)).resolve_left fun ⟨r, hr⟩ => hopen r hr
  have hended := hlast
  generalize (turns.take k).foldl filed (.providing uri) = a at hpending hlast
  cases hpending with
  | unbegun hnil =>
    obtain rfl : k = 0 := by
      rcases List.take_eq_nil_iff.mp hnil with hk | hturns
      · exact hk
      · rw [hturns] at hk
        cases hk
    rw [filed] at hlast
    cases hasked : last.workspace.asked? uri with
    | none =>
      rw [hasked] at hlast
      cases hlast
    | some found =>
      obtain ⟨path, m, f⟩ := found
      rw [hasked] at hlast
      obtain ⟨hanswer, hinnermost, huri⟩ := filing_eq_item hlast
      refine ⟨last, path, m, f, 0, last, hk, hasked, hk, hinnermost, ?_, huri, hopen, hended⟩
      rw [htake]
      exact hanswer
  | @begun first path m f hfirst hasked =>
    obtain ⟨hanswer, hinnermost, huri⟩ := filing_eq_item hlast
    have hne : turns.take k ≠ [] := by
      intro hnil
      rw [hnil] at hfirst
      cases hfirst
    refine ⟨first, path, m, f, k, last, ?_, hasked, hk, hinnermost, ?_, huri, hopen, hended⟩
    · rw [List.getElem?_take] at hfirst
      split at hfirst
      · exact hfirst
      · cases hfirst
    · rw [htake, Inquiry.during_append m _ hne]
      exact hanswer

/-- An inquiry that fails in one of the turns only loses its file. -/
theorem filed_of_failed {f : Failure} (hask : i.isAsk = true)
    (h : turns.foldl (Inquiry.advance m) i = .failed f) :
    turns.foldl filed (.resolving uri path m i) = .done (.ok (.item none)) := by
  induction turns generalizing i with
  | nil =>
    obtain rfl : i = .failed f := h
    cases hask
  | cons turn rest ih =>
    rw [List.foldl_cons] at h ⊢
    rw [filed]
    rcases (i.replied turn.answers.reply).settle_cases (turn.workspace.kept m) with
      ⟨c, hj⟩ | ⟨g, hj⟩ | ⟨q, next, hj⟩ <;> rw [← Inquiry.advance] at hj <;> rw [hj] at h ⊢
    · rw [Inquiry.foldl_advance_answer] at h
      cases h
    · exact foldl_filed_done _ rest
    · exact ih rfl h

/-- Before the first turn. -/
theorem filed_of_during {first : Occasion} {f : Folder} {failure : Failure}
    (hfirst : turns[0]? = some first) (hasked : first.workspace.asked? uri = some (path, m, f))
    (h : (first.workspace.inquiry f path).during m turns = .failed failure) :
    turns.foldl filed (.providing uri) = .done (.ok (.item none)) := by
  cases turns with
  | nil => cases hfirst
  | cons turn rest =>
    obtain rfl : turn = first := Option.some.inj hfirst
    rw [Inquiry.during] at h
    rw [List.foldl_cons, filed, hasked]
    dsimp only
    rcases (turn.workspace.inquiry f path).settle_cases (turn.workspace.kept m) with
      ⟨c, hj⟩ | ⟨g, hj⟩ | ⟨q, next, hj⟩ <;> rw [hj] at h ⊢
    · rw [Inquiry.foldl_advance_answer] at h
      cases h
    · exact foldl_filed_done _ rest
    · exact filed_of_failed rfl h

end Activity

/-! ## Whole resolutions -/

/-- The folder that answers for a path: the innermost published one that contains it, which is known
to be a build tree. -/
structure Workspace.AnsweredBy (w : Workspace) (path : FilePath) (m : ModelId) (b : Build) :
    Prop where
  innermost : w.Innermost w.publishedIds path m
  recognized : w.phaseOf m = .recognized b

/-- A file is asked about where the innermost folder that holds it is a build tree. -/
theorem Workspace.asked?_eq_some {w : Workspace} {uri : String} {path : FilePath} {m : ModelId}
    {f : Folder} (h : w.asked? uri = some (path, m, f)) :
    FilePath.ofUri w.platform uri = .ok path ∧
      ∃ b, w.AnsweredBy path m b ∧ w.model? m = some f ∧ f.build? = some b := by
  simp only [asked?, answering?, Option.bind_eq_bind, Option.bind_eq_some_iff,
    Option.filter_eq_some_iff, Option.some.injEq, Prod.mk.injEq, Option.pure_def] at h
  obtain ⟨path', hpath, m', ⟨hm, hbuild⟩, f', hf, rfl, rfl, rfl⟩ := h
  have hpath : FilePath.ofUri w.platform uri = .ok path' := by
    cases hp : FilePath.ofUri w.platform uri with
    | error err => rw [hp] at hpath; cases hpath
    | ok p => rw [hp] at hpath; cases hpath; rfl
  rw [isBuildTree, hf, Option.any_some, Folder.isBuildTree, Option.isSome_iff_exists] at hbuild
  obtain ⟨b, hb⟩ := hbuild
  refine ⟨hpath, b, ⟨innermost_of_innermost? hm, ?_⟩, hf, hb⟩
  rw [phaseOf, hf]
  unfold Folder.build? at hb
  split at hb
  · next hphase =>
    cases hb
    exact hphase
  · cases hb

namespace Engine

/-- The task of a file has found its item: one folder answers for the file before the first turn of
the task and before the turn in which the task ends, and the inquiry of this folder into the file
has answered with the configuration. -/
inductive Found (context : Context) (id : TaskId) (uri : String) (turns : List Occasion)
    (item : ProvidedItem) : Prop
  | intro {path : FilePath} {m : ModelId} {b : Build} {first last : Occasion} {k : Nat}
    (hpath : FilePath.ofUri context.surroundings.platform uri = .ok path)
    (hfirst : turns[0]? = some first) (hlast : turns[k]? = some last)
    (hstart : first.workspace.AnsweredBy path m b) (hend : last.workspace.AnsweredBy path m b)
    (hinquiry : (b.configure context.surroundings context.classifier path).during m
      (turns.take (k + 1)) = .answer (some item.configuration))
    (huri : item.uri = uri) (hopen : last.engine.result? id = none)
    (hclosed : (last.engine.resume id last.answers).result? id = some (.ok (.item (some item))))

/-- The inquiry of the folder that answers for a file fails. -/
def Fails (uri : String) (turns : List Occasion) : Prop :=
  ∃ first path m f failure, turns[0]? = some first ∧
    first.workspace.asked? uri = some (path, m, f) ∧
    (first.workspace.inquiry f path).during m turns = .failed failure

variable {e : Engine} {id : TaskId} {uri : String} {parent : Option TaskId} {context : Context}

/-- The inquiry into a file is that of the build which is known, under the settings of the run. -/
theorem inquiry_eq {f : Folder} {b : Build} {path : FilePath}
    (he : ∃ events, e = (fresh context).run events) (hf : f.build? = some b) :
    e.workspace.inquiry f path = b.configure context.surroundings context.classifier path := by
  obtain ⟨events, rfl⟩ := he
  rw [Workspace.inquiry, (context_run _ events).1, classifier_run, Folder.configure, hf]
  rfl

/-- The item of a file was found by one folder, which answered for the file from the first turn of
the task to the last. -/
theorem found_of_result? {after : List Event} {item : ProvidedItem}
    (he : ∃ before, e = (fresh context).run before)
    (hu : e.task? id = some ⟨parent, .providing uri⟩)
    (h : (e.run after).result? id = some (.ok (.item (some item)))) :
    Found context id uri (turnsOf id e after) item := by
  have hfile : (Activity.providing uri).IsFile uri := rfl
  obtain ⟨t, ht, hdone⟩ := result?_eq_some_iff.mp h
  rw [task?_run_file hu hfile] at ht
  cases ht
  obtain ⟨first, path, m, f, k, last, hfirst, hasked, hlast, hinnermost, hanswer, huri, hopen,
    hclosed⟩ := Activity.exists_answer_of_item hdone
  obtain ⟨hpath, b, hstart, hf, hb⟩ := Workspace.asked?_eq_some hasked
  have hreached : ∃ events, first.engine = (fresh context).run events := by
    obtain ⟨before, rfl⟩ := he
    obtain ⟨between, hbetween⟩ := exists_run_of_mem_turnsOf (List.mem_of_getElem? hfirst)
    exact ⟨before ++ between, by rw [hbetween, run_append]⟩
  rw [inquiry_eq hreached hb] at hanswer
  obtain ⟨events, hevents⟩ := hreached
  obtain ⟨between, hbetween⟩ := exists_run_of_first hfirst (List.mem_of_getElem? hlast)
  have hplatform : first.workspace.platform = context.surroundings.platform := by
    rw [Occasion.workspace, Workspace.platform, hevents, (context_run _ events).1]
    rfl
  have hrecognized : last.workspace.phaseOf m = .recognized b := by
    rw [Occasion.workspace, hbetween]
    exact recognized_run (hevents ▸ sound_run context events) hstart.recognized between
  have hbefore := task?_turnsOf_file hu hfile hlast
  have hbeforeFile :
      (((turnsOf id e after).take k).foldl Activity.filed (.providing uri)).IsFile uri :=
    List.foldlRecOn _ _ hfile fun a ha turn _ => ha.filed turn
  refine .intro (hplatform ▸ hpath) hfirst hlast hstart
    ⟨Workspace.innermost_of_innermost? hinnermost, hrecognized⟩ hanswer huri ?_ ?_
  · rw [Option.eq_none_iff_forall_ne_some]
    intro r hr
    obtain ⟨t, ht, htr⟩ := result?_eq_some_iff.mp hr
    rw [hbefore] at ht
    cases ht
    exact hopen r htr
  · exact result?_eq_some_iff.mpr ⟨_, task?_resume_file hbefore hbeforeFile last.answers, hclosed⟩

/-- An inquiry that fails only loses its own file. -/
theorem result?_of_fails {after : List Event} (hu : e.task? id = some ⟨parent, .providing uri⟩)
    (h : Fails uri (turnsOf id e after)) :
    (e.run after).result? id = some (.ok (.item none)) := by
  obtain ⟨first, path, m, f, failure, hfirst, hasked, hfails⟩ := h
  exact result?_eq_some_iff.mpr
    ⟨_, task?_run_file hu rfl after, Activity.filed_of_during hfirst hasked hfails⟩

/-- A file whose path cannot be told never has an item. -/
theorem not_item_of_error {after : List Event} {err : PathError} {x : Option ProvidedItem}
    (he : ∃ before, e = (fresh context).run before)
    (hu : e.task? id = some ⟨parent, .providing uri⟩)
    (herr : FilePath.ofUri context.surroundings.platform uri = .error err)
    (h : (e.run after).result? id = some (.ok (.item x))) : x = none := by
  cases x with
  | none => rfl
  | some item =>
    cases found_of_result? he hu h with
    | intro hpath =>
      rw [herr] at hpath
      cases hpath

end Engine

end BuildLens
