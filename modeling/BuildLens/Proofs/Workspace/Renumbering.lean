import BuildLens.Proofs.Workspace.Serving

/-!
# A task that is left out

Where one task is left out, those that began after it have other numbers. The other tasks do not
notice: a task knows others only as those for which it waits, and what it does in a turn depends on
what they have ended with and not on their numbers.

Main definitions:

- `closeUp`: the number of a task where another one is left out.
- `Task.renumber`: a task where the numbers of tasks are other ones.
- `Effect.Simple`: only a task that lets others begin waits for them.
- `Engine.Twins`: two engines that differ by one task.

Main results:

- `Engine.Turn.simple`, `Engine.Begins.simple`: all effects of turns are simple.
- `Engine.Twins.take`: the same effect on both engines leaves them twins.
-/

namespace BuildLens

/-! ## Numbers -/

/-- The number of a task where the task `c` is left out. -/
def closeUp (c id : Nat) : Nat := if id < c then id else id - 1

section CloseUp

variable {c i j : Nat}

theorem closeUp_of_lt (h : i < c) : closeUp c i = i := if_pos h

theorem closeUp_of_le (h : c ≤ i) : closeUp c i = i - 1 := if_neg (Nat.not_lt.mpr h)

/-- No two other tasks have one number where a task is left out. -/
theorem closeUp_inj (hi : i ≠ c) (hj : j ≠ c) : closeUp c i = closeUp c j ↔ i = j := by
  unfold closeUp
  split <;> split <;> omega

/-- Another task is among those that are left if it was among them before. -/
theorem closeUp_mem_map {ids : List Nat} (hi : i ≠ c) (hids : c ∉ ids) :
    closeUp c i ∈ ids.map (closeUp c) ↔ i ∈ ids := by
  rw [List.mem_map]
  constructor
  · rintro ⟨j, hj, heq⟩
    have hne : j ≠ c := fun h => hids (h ▸ hj)
    exact (closeUp_inj hne hi).mp heq ▸ hj
  · exact fun h => ⟨i, h, rfl⟩

/-- The numbers of tasks that begin are closed up as those among themselves. -/
theorem closeUp_add (n : Nat) (h : j ≠ i) :
    closeUp (n + i) (n + j) = n + closeUp i j := by
  unfold closeUp
  split <;> split <;> omega

/-- Every number is that of a task that is left. -/
theorem exists_closeUp_eq (c i : Nat) : ∃ j ≠ c, closeUp c j = i := by
  by_cases h : i < c
  · exact ⟨i, Nat.ne_of_lt h, closeUp_of_lt h⟩
  · refine ⟨i + 1, by omega, ?_⟩
    rw [closeUp_of_le (by omega), Nat.add_sub_cancel]

/-- Without one of its elements a list closes up. -/
theorem getElem?_closeUp {α : Type} (l : List α) (h : i ≠ c) :
    (l.eraseIdx c)[closeUp c i]? = l[i]? := by
  rw [List.getElem?_eraseIdx]
  by_cases hlt : i < c
  · rw [closeUp_of_lt hlt, if_pos hlt]
  · rw [closeUp_of_le (by omega), if_neg (by omega), Nat.sub_add_cancel (by omega)]

/-- Tasks that begin later close up by one. -/
theorem map_closeUp_range {size size' : Nat} (hc : c < size) (hsize : size = size' + 1) (n : Nat) :
    ((List.range n).map (size + ·)).map (closeUp c) = (List.range n).map (size' + ·) := by
  rw [List.map_map]
  refine List.map_congr_left fun k _ => ?_
  change closeUp c (size + k) = size' + k
  rw [closeUp_of_le (by omega)]
  omega

end CloseUp

/-! ## Tasks -/

/-- The tasks for which a task waits. -/
def Activity.waitsFor : Activity → List TaskId
  | .gathering children _ _ => children
  | _ => []

/-- What a task is doing where the numbers of tasks are other ones. -/
def Activity.renumber (f : TaskId → TaskId) : Activity → Activity
  | .gathering children noted after => .gathering (children.map f) noted after
  | a => a

/-- A task where the numbers of tasks are other ones. -/
def Task.renumber (f : TaskId → TaskId) (t : Task) : Task :=
  ⟨t.parent.map f, t.activity.renumber f⟩

/-- Only a task that lets others begin waits for them. -/
def Effect.Simple : Effect → Prop
  | .become a => a.waits = false
  | .gather children _ => ∀ a ∈ children, a.waits = false
  | _ => True

/-- Other numbers mean nothing to a task that waits for no others. -/
theorem Activity.renumber_of_not_waits {f : TaskId → TaskId} {a : Activity}
    (h : a.waits = false) : a.renumber f = a := by
  cases a with
  | gathering => cases h
  | _ => rfl

/-- A task that waits for no others waits for none in particular. -/
theorem Activity.waitsFor_of_not_waits {a : Activity} (h : a.waits = false) : a.waitsFor = [] := by
  cases a with
  | gathering => cases h
  | _ => rfl

namespace Task

variable {c id j : Nat} {t : Task} {parent : Option TaskId} {failure : Option Failure}

/-- A failure that is noted does not change for whom a task waits. -/
theorem waitsFor_after (parent : Option TaskId) (j id : TaskId) (failure : Option Failure)
    (t : Task) : (t.after parent j id failure).activity.waitsFor = t.activity.waitsFor := by
  obtain ⟨own, a⟩ := t
  cases a with
  | gathering children noted after => rw [after_gathering]; rfl
  | _ => rw [after_eq_self rfl]

/-- A task notes the failure of another one under whatever numbers. -/
theorem renumber_after (hj : j ≠ c) (hid : id ≠ c) (hparent : parent ≠ some c)
    (ht : c ∉ t.activity.waitsFor) :
    (t.after parent j id failure).renumber (closeUp c) =
      (t.renumber (closeUp c)).after (parent.map (closeUp c)) (closeUp c j) (closeUp c id)
        failure := by
  obtain ⟨own, a⟩ := t
  cases a with
  | gathering children noted after =>
    have hwaits : parent.map (closeUp c) = some (closeUp c j) ↔ parent = some j := by
      cases parent with
      | none => simp
      | some q =>
        have hq : q ≠ c := fun h => hparent (h ▸ rfl)
        simp [closeUp_inj hq hj]
    have hchild : closeUp c id ∈ children.map (closeUp c) ↔ id ∈ children :=
      closeUp_mem_map hid ht
    simp only [after_gathering, renumber, Activity.renumber, hwaits, hchild]
  | _ => rw [after_eq_self rfl, after_eq_self rfl]

end Task

/-! ## Effects -/

/-- The task of a plain turn waits for others only if it lets them begin. -/
theorem Effect.Plain.simple {eff : Effect} (h : eff.Plain) : eff.Simple := by
  cases eff with
  | become a => exact h.2
  | gather children after => exact fun a ha => (h.1 a ha).2
  | _ => trivial

/-- An effect on a task under other numbers. -/
theorem Effect.renumber_activity {eff : Effect} (h : eff.Simple) {c size size' : Nat}
    (hc : c < size) (hsize : size = size' + 1) (a : Activity) :
    (eff.activity size a).renumber (closeUp c) = eff.activity size' (a.renumber (closeUp c)) := by
  cases eff with
  | become b => exact Activity.renumber_of_not_waits h
  | gather children after =>
    exact congrArg (Activity.gathering · none after) (map_closeUp_range hc hsize _)
  | _ => rfl

/-- A task waits only for those that it has let begin. -/
theorem Effect.mem_waitsFor {eff : Effect} (h : eff.Simple) {size : Nat} {a : Activity}
    {id : TaskId} (hid : id ∈ (eff.activity size a).waitsFor) : id ∈ a.waitsFor ∨ size ≤ id := by
  cases eff with
  | stay => exact .inl hid
  | become b =>
    rw [Effect.activity, Activity.waitsFor_of_not_waits h] at hid
    exact absurd hid List.not_mem_nil
  | finish r => exact absurd hid List.not_mem_nil
  | gather children after =>
    obtain ⟨k, -, rfl⟩ := List.mem_map.mp hid
    exact .inr (Nat.le_add_right size k)

namespace Engine

variable {w w' : Workspace} {eff : Effect} {p : Purpose} {m : ModelId}

/-- A task whose look ends waits for no others. -/
theorem EndsLook.simple (h : EndsLook m p eff) : eff.Simple := by
  cases h <;> trivial

/-- A task that takes in the outcome of a look waits for no others. -/
theorem Concludes.simple {o : Except Failure (Option Build)} (h : Concludes w p m o w' eff) :
    eff.Simple := by
  rcases h.effect with rfl | h
  · rfl
  · exact h.simple

/-- A task that inquires into a folder waits only for those that ask for compilers. -/
theorem Surveys.simple {i : Inquiry (Option SourceTree)} (h : Surveys w p m i w' eff) :
    eff.Simple := by
  cases h with
  | asks => rfl
  | finds => simp [Effect.Simple, Activity.waits]
  | lacks hi hw h => exact h.simple
  | fails hi hw h => exact h.simple

/-- A task that adds a folder waits only for those that it lets begin. -/
theorem Adds.simple {folder : EditorFolder} (h : Adds w folder w' eff) : eff.Simple := by
  cases h with
  | begins hpath hm h => exact h.simple
  | _ => trivial

/-- A task that looks at a folder again waits only for those that it lets begin. -/
theorem Rebuilds.simple {old : ModelId} (h : Rebuilds w old w' eff) : eff.Simple := by
  cases h with
  | begins hm h => exact h.simple
  | _ => trivial

/-- A task that inquires into a compiler waits for no others. -/
theorem Discovers.simple {i : Inquiry Compiler} (h : Discovers i eff) : eff.Simple := by
  cases h <;> trivial

/-- A task that inquires into a file waits for no others. -/
theorem Resolves.simple {uri : String} {path : FilePath}
    {i : Inquiry (Option SourceConfiguration)} (h : Resolves w uri path m i eff) : eff.Simple := by
  cases h <;> trivial

/-- The effect of any turn is simple. -/
theorem Turn.simple {answers : Answers} {outcomes : Option (List Outcome)} {a : Activity}
    (h : Turn w answers outcomes a w' eff) : eff.Simple := by
  have hstays (h : w' = w ∧ eff = .stay) : eff.Simple := by
    rw [h.2]
    trivial
  cases a with
  | adding folder => exact Adds.simple h
  | rebuilding old => exact Rebuilds.simple h
  | asking tree l => exact h.2.simple
  | providing uri =>
    cases h with
    | unanswered => trivial
    | begins hasked h => exact h.simple
  | surveying p m i =>
    cases i with
    | ask q next => exact Surveys.simple h
    | _ => exact hstays h
  | discovering i =>
    cases i with
    | ask q next => exact h.2.simple
    | _ => exact hstays h
  | telling p m => exact h.2.simple
  | registering after =>
    cases after with
    | added m =>
      obtain ⟨-, phase, rfl⟩ := h
      trivial
    | _ => exact h.2.simple
  | gathering children noted after =>
    cases noted with
    | some f =>
      cases h with
      | compilers h => exact h.simple
      | ends hafter => trivial
    | none =>
      cases outcomes with
      | none => exact hstays h
      | some outcomes =>
        cases h with
        | compilers ho h => exact h.simple
        | stuck ho => trivial
        | ends hafter hw => trivial
  | resolving uri path m i =>
    cases i with
    | ask q next => exact h.2.simple
    | _ => exact hstays h
  | configuring m i =>
    cases i with
    | ask q next => exact h.2.simple
    | _ => exact hstays h
  | compiling m i =>
    cases i with
    | ask q next => exact h.2.simple
    | _ => exact hstays h
  | done r => exact hstays h

/-- The first turn of an operation waits only for tasks that it lets begin. -/
theorem Begins.simple {op : Operation} (h : Begins w op w' eff) : eff.Simple := by
  cases op with
  | add folder => exact Adds.simple h
  | _ => exact h.2.simple

/-- What a task does in a turn does not depend on the numbers of those for which it waits. -/
theorem resumeAs_renumber (e : Engine) (id : TaskId) (answers : Answers)
    (outcomes : Option (List Outcome)) (f : TaskId → TaskId) (a : Activity) :
    e.resumeAs id answers outcomes (a.renumber f) = e.resumeAs id answers outcomes a := by
  cases a with
  | gathering children noted after => cases noted <;> rfl
  | _ => rfl

/-! ## Twins -/

/-- The task is not begun by the task `c`, and waits neither for it nor for the task `p`. -/
structure Clear (p c : TaskId) (t : Task) : Prop where
  parent : t.parent ≠ some c
  awaited : c ∉ t.activity.waitsFor ∧ p ∉ t.activity.waitsFor

/-- The second engine lacks the task `c` of the first one. All other tasks are the same, but for
their numbers; only of the task `p` nothing is said. -/
structure Twins (p c : Nat) (a b : Engine) : Prop where
  workspace : b.workspace = a.workspace
  lt : p < c
  size : a.tasks.length = b.tasks.length + 1
  bound : c < a.tasks.length
  others : ∀ j t, j ≠ c → j ≠ p → a.task? j = some t →
    b.task? (closeUp c j) = some (t.renumber (closeUp c)) ∧ Clear p c t

namespace Twins

variable {p c : Nat} {a b : Engine}

/-- A number that is none in the first engine is none in the second one. -/
theorem task?_eq_none (h : Twins p c a b) {j : Nat} (hj : a.task? j = none) :
    b.task? (closeUp c j) = none := by
  have hle : a.tasks.length ≤ j := List.getElem?_eq_none_iff.mp hj
  have hbound := h.bound
  have hsize := h.size
  refine List.getElem?_eq_none_iff.mpr ?_
  rw [closeUp_of_le (by omega)]
  omega

/-- All other tasks have ended alike in both engines. -/
theorem result?_eq (h : Twins p c a b) {j : TaskId} (hc : j ≠ c) (hp : j ≠ p) :
    b.result? (closeUp c j) = a.result? j := by
  unfold result?
  cases ht : a.task? j with
  | none => rw [h.task?_eq_none ht]
  | some t =>
    obtain ⟨htwin, -⟩ := h.others j t hc hp ht
    rw [htwin]
    obtain ⟨parent, x⟩ := t
    cases x <;> rfl

/-- Tasks that others wait for have ended with the same in both engines. -/
theorem awaited?_eq (h : Twins p c a b) {t : Task} (ht : Clear p c t) :
    b.awaited? (t.activity.renumber (closeUp c)) = a.awaited? t.activity := by
  obtain ⟨parent, x⟩ := t
  cases x with
  | gathering children noted after =>
    have hmem {j : TaskId} (hj : j ∈ children) : b.result? (closeUp c j) = a.result? j :=
      h.result?_eq (fun heq => ht.awaited.1 (heq ▸ hj)) fun heq => ht.awaited.2 (heq ▸ hj)
    change b.outcomes? (children.map (closeUp c)) = a.outcomes? children
    unfold outcomes?
    clear ht
    induction children with
    | nil => rfl
    | cons j rest ih =>
      rw [List.map_cons, List.mapM_cons, List.mapM_cons, hmem List.mem_cons_self,
        ih fun hj => hmem (List.mem_cons_of_mem _ hj)]
  | _ => rfl

/-- The same effect on the same task of both engines leaves them twins. -/
theorem take (h : Twins p c a b) {id : TaskId} {t : Task} {w' : Workspace} {eff : Effect}
    (hc : id ≠ c) (hp : id ≠ p) (ht : a.task? id = some t) (heff : eff.Simple) :
    Twins p c ({ a with workspace := w' }.take id eff)
      ({ b with workspace := w' }.take (closeUp c id) eff) where
  workspace := by rw [workspace_take, workspace_take]
  lt := h.lt
  size := by
    have hsize := h.size
    rw [length_take, length_take]
    change a.tasks.length + _ = b.tasks.length + _ + 1
    omega
  bound := by
    rw [length_take]
    exact Nat.lt_of_lt_of_le h.bound (Nat.le_add_right _ _)
  others j u hjc hjp hu := by
    obtain ⟨htwin, hclear⟩ := h.others id t hc hp ht
    rcases task?_take_cases (e := { a with workspace := w' }) ht hu with
      ⟨rfl, rfl⟩ | ⟨hne, v, hv, rfl⟩ | ⟨k, x, rfl, hx, rfl⟩
    · refine ⟨?_, hclear.parent, ?_, ?_⟩
      · rw [task?_take_self (e := { b with workspace := w' }) htwin]
        refine congrArg some (congrArg (Task.mk _) ?_)
        exact (eff.renumber_activity heff h.bound h.size t.activity).symm
      · exact fun hmem => (Effect.mem_waitsFor heff hmem).elim hclear.awaited.1
          (Nat.not_le.mpr h.bound)
      · exact fun hmem => (Effect.mem_waitsFor heff hmem).elim hclear.awaited.2
          (Nat.not_le.mpr (Nat.lt_trans h.lt h.bound))
    · obtain ⟨hvtwin, hvclear⟩ := h.others j v hjc hjp hv
      have hne' : closeUp c id ≠ closeUp c j := fun heq => hne ((closeUp_inj hc hjc).mp heq).symm
      refine ⟨?_, ?_, ?_⟩
      · rw [task?_take_of_ne (e := { b with workspace := w' }) htwin eff hvtwin hne',
          Task.renumber_after hjc hc hclear.parent hvclear.awaited.1]
        rfl
      · rw [Task.parent_after]
        exact hvclear.parent
      · rw [Task.waitsFor_after]
        exact hvclear.awaited
    · have hwaits : x.waits = false := by
        cases eff with
        | gather children after => exact heff x (List.mem_of_getElem? hx)
        | _ => cases hx
      have hid : closeUp c id < b.tasks.length := lt_of_task? htwin
      have hnumber : closeUp c (a.tasks.length + k) = b.tasks.length + k := by
        have hbound := h.bound
        have hsize := h.size
        rw [closeUp_of_le (by omega)]
        omega
      refine ⟨?_, fun heq => hc (Option.some.inj heq), ?_⟩
      · rw [show (Engine.mk a.workspace a.tasks).tasks.length = a.tasks.length from rfl, hnumber,
          task?_take_new (e := { b with workspace := w' }) hid, hx]
        refine congrArg some (congrArg (Task.mk _) ?_)
        exact (Activity.renumber_of_not_waits hwaits).symm
      · rw [Activity.waitsFor_of_not_waits hwaits]
        exact ⟨List.not_mem_nil, List.not_mem_nil⟩

/-- The same turn of the same task of both engines leaves them twins. -/
theorem resume (h : Twins p c a b) {id : TaskId} (hc : id ≠ c) (hp : id ≠ p)
    (answers : Answers) :
    Twins p c (a.resume id answers) (b.resume (closeUp c id) answers) := by
  cases ht : a.task? id with
  | none =>
    rw [resume_of_task?_eq_none ht, resume_of_task?_eq_none (h.task?_eq_none ht)]
    exact h
  | some t =>
    obtain ⟨htwin, hclear⟩ := h.others id t hc hp ht
    obtain ⟨w', eff, hturn, heq⟩ := does_resumeAs (w := a.workspace) answers
      (a.awaited? t.activity) t.activity
    have ha : a.resume id answers = { a with workspace := w' }.take id eff :=
      (resume_eq_resumeAs ht answers).trans (heq a id rfl)
    have hb : b.resume (closeUp c id) answers =
        { b with workspace := w' }.take (closeUp c id) eff := by
      rw [resume_eq_resumeAs htwin answers]
      change b.resumeAs _ answers (b.awaited? (t.activity.renumber _)) (t.activity.renumber _) = _
      rw [h.awaited?_eq hclear, resumeAs_renumber]
      exact heq b _ h.workspace
    rw [ha, hb]
    exact h.take hc hp ht hturn.simple

/-- The next tasks of both engines have numbers that belong together. -/
theorem closeUp_length (h : Twins p c a b) : closeUp c a.tasks.length = b.tasks.length := by
  have hbound := h.bound
  have hsize := h.size
  rw [closeUp_of_le (Nat.le_of_lt hbound), hsize, Nat.add_sub_cancel]

/-- Both engines begin an operation alike. -/
theorem spawned (h : Twins p c a b) : Twins p c a.spawned b.spawned where
  workspace := h.workspace
  lt := h.lt
  size := by rw [length_spawned, length_spawned, h.size]
  bound := by
    rw [length_spawned]
    exact Nat.lt_succ_of_lt h.bound
  others j t hc hp ht := by
    rw [task?, Engine.spawned, List.getElem?_append] at ht
    split at ht
    · obtain ⟨htwin, hclear⟩ := h.others j t hc hp ht
      refine ⟨?_, hclear⟩
      rw [task?, Engine.spawned, List.getElem?_append_left (lt_of_task? htwin)]
      exact htwin
    · next hle =>
      rw [List.getElem?_singleton] at ht
      split at ht
      · next hlast =>
        cases ht
        have hj : a.tasks.length = j :=
          Nat.le_antisymm (Nat.le_of_not_lt hle) (Nat.sub_eq_zero_iff_le.mp hlast)
        rw [← hj, h.closeUp_length]
        exact ⟨b.task?_spawned_new, by simp, List.not_mem_nil, List.not_mem_nil⟩
      · cases ht

/-- The same operation leaves both engines twins. -/
theorem start (h : Twins p c a b) (op : Operation) : Twins p c (a.start op) (b.start op) := by
  obtain ⟨w', eff, hbegins, heq⟩ := does_perform (w := a.workspace) op
  have ha : a.start op = { a.spawned with workspace := w' }.take a.tasks.length eff :=
    heq a.spawned a.tasks.length rfl
  have hb : b.start op =
      { b.spawned with workspace := w' }.take (closeUp c a.tasks.length) eff := by
    rw [h.closeUp_length]
    exact heq b.spawned b.tasks.length h.workspace
  rw [ha, hb]
  exact h.spawned.take (Nat.ne_of_gt h.bound) (Nat.ne_of_gt (Nat.lt_trans h.lt h.bound))
    a.task?_spawned_new hbegins.begins.simple

/-- Engines that differ from twins in none of their other tasks are twins. -/
theorem of_same {a' b' : Engine} (h : Twins p c a b)
    (hw : b'.workspace = a'.workspace) (hlength : a'.tasks.length = a.tasks.length)
    (hlength' : b'.tasks.length = b.tasks.length)
    (ha : ∀ j, j ≠ c → j ≠ p → a'.task? j = a.task? j)
    (hb : ∀ j ≠ p, b'.task? j = b.task? j) : Twins p c a' b' where
  workspace := hw
  lt := h.lt
  size := by rw [hlength, hlength', h.size]
  bound := hlength ▸ h.bound
  others j t hc hp ht := by
    have hlt := h.lt
    have hne : closeUp c j ≠ p := by
      intro heq
      rw [← closeUp_of_lt hlt, closeUp_inj hc (Nat.ne_of_lt hlt)] at heq
      exact hp heq
    rw [ha j hc hp] at ht
    rw [hb _ hne]
    exact h.others j t hc hp ht

end Twins

/-! ## Engines that have numbered their tasks -/

/-- The tasks know of no tasks but those that are there. -/
def Numbered (e : Engine) : Prop :=
  ∀ id t, e.task? id = some t → (∀ parent, t.parent = some parent → parent < e.tasks.length) ∧
    ∀ j ∈ t.activity.waitsFor, j < e.tasks.length

namespace Numbered

variable {e : Engine}

/-- A new task knows of no tasks. -/
theorem spawned (h : e.Numbered) : e.spawned.Numbered := by
  intro id t ht
  rw [length_spawned]
  rw [task?, Engine.spawned, List.getElem?_append] at ht
  split at ht
  · obtain ⟨hparent, hwaits⟩ := h id t ht
    exact ⟨fun q hq => Nat.lt_succ_of_lt (hparent q hq), fun j hj => Nat.lt_succ_of_lt (hwaits j hj)⟩
  · rw [List.getElem?_singleton] at ht
    split at ht
    · cases ht
      exact ⟨by simp, fun _ h => absurd h List.not_mem_nil⟩
    · cases ht

/-- A simple effect lets tasks know only of tasks that are there. -/
theorem take (h : e.Numbered) {id : TaskId} {t : Task} (ht : e.task? id = some t) {eff : Effect}
    (heff : eff.Simple) (w' : Workspace) : ({ e with workspace := w' }.take id eff).Numbered := by
  intro j u hu
  rw [length_take]
  have hmore {k : Nat} (hk : k < e.tasks.length) : k < e.tasks.length + eff.children.length :=
    Nat.lt_of_lt_of_le hk (Nat.le_add_right _ _)
  change (∀ parent, u.parent = some parent → parent < e.tasks.length + eff.children.length) ∧
    ∀ k ∈ u.activity.waitsFor, k < e.tasks.length + eff.children.length
  rcases task?_take_cases (e := { e with workspace := w' }) ht hu with
    ⟨rfl, rfl⟩ | ⟨-, v, hv, rfl⟩ | ⟨k, x, rfl, hx, rfl⟩
  · obtain ⟨hparent, hwaits⟩ := h j t ht
    refine ⟨fun q hq => hmore (hparent q hq), fun k hk => ?_⟩
    cases eff with
    | stay => exact hmore (hwaits k hk)
    | become b =>
      rw [Effect.activity, Activity.waitsFor_of_not_waits heff] at hk
      exact absurd hk List.not_mem_nil
    | finish r => exact absurd hk List.not_mem_nil
    | gather children after =>
      obtain ⟨n, hn, rfl⟩ := List.mem_map.mp hk
      exact Nat.add_lt_add_left (List.mem_range.mp hn) _
  · obtain ⟨hparent, hwaits⟩ := h j v hv
    rw [Task.parent_after, Task.waitsFor_after]
    exact ⟨fun q hq => hmore (hparent q hq), fun k hk => hmore (hwaits k hk)⟩
  · have hwaits : x.waits = false := by
      cases eff with
      | gather children after => exact heff x (List.mem_of_getElem? hx)
      | _ => cases hx
    refine ⟨fun q hq => ?_, fun k hk => ?_⟩
    · cases hq
      exact hmore (lt_of_task? ht)
    · rw [Activity.waitsFor_of_not_waits hwaits] at hk
      exact absurd hk List.not_mem_nil

/-- An event lets tasks know only of tasks that are there. -/
theorem step (h : e.Numbered) (event : Event) : (e.step event).Numbered := by
  cases event with
  | call op =>
    obtain ⟨w', eff, hbegins, heq⟩ := exists_begins e op
    rw [Engine.step, heq]
    exact h.spawned.take e.task?_spawned_new hbegins.simple w'
  | resume id answers =>
    cases ht : e.task? id with
    | none =>
      rw [Engine.step, resume_of_task?_eq_none ht]
      exact h
    | some t =>
      obtain ⟨w', eff, hturn, heq⟩ := exists_turn ht answers
      rw [Engine.step, heq]
      exact h.take ht hturn.simple w'

end Numbered

/-- Throughout a run the tasks know only of tasks that are there. -/
theorem numbered_run (context : Context) (events : List Event) :
    ((fresh context).run events).Numbered := by
  refine run_keeps (I := Numbered) (fun _ event _ h => h.step event) ?_
  intro id t ht
  simp [fresh, task?] at ht

end Engine

/-- A task that knows only of earlier tasks than `c` keeps its numbers. -/
theorem Task.renumber_eq_self {c : Nat} {t : Task}
    (hparent : ∀ parent, t.parent = some parent → parent < c)
    (hwaits : ∀ j ∈ t.activity.waitsFor, j < c) : t.renumber (closeUp c) = t := by
  obtain ⟨parent, a⟩ := t
  have hp : parent.map (closeUp c) = parent := by
    cases parent with
    | none => rfl
    | some q => exact congrArg some (closeUp_of_lt (hparent q rfl))
  have ha : a.renumber (closeUp c) = a := by
    cases a with
    | gathering children noted after =>
      have hchildren : children.map (closeUp c) = children := by
        refine (List.map_congr_left fun j hj => ?_).trans (List.map_id children)
        exact closeUp_of_lt (hwaits j hj)
      exact congrArg (Activity.gathering · noted after) hchildren
    | _ => rfl
  rw [renumber, hp, ha]

end BuildLens
