import BuildLens.Proofs.Workspace.Renumbering

/-!
# One file does not concern the others

A file that is provided along with others is left out. Everything else goes on as before, whatever
becomes of the file: the other tasks take the same turns with the same answers, the workspace is the
same after each of them, and the items of the other files are the same. All that the file leaves
behind are make fragments in the memory of a model. Where its task leaves none, as when its path
cannot be told, the run without the file is that with it but for the turns of the task.

Main definitions:

- `Happening`, `Engine.Without`: a run without a task, of which only what it left in memory stays.
- `Engine.Spares`: a task leaves nothing in memory.
- `Engine.Parallel`: an engine that provides files, and one that lacks one of them.
- `Engine.LeftOut`: how files are answered for without one of them.

Main results:

- `Engine.Without.eq_of_spares`: the run without a task that leaves nothing in memory.
- `Engine.Parallel.run`: two engines stay parallel.
- `Engine.exists_leftOut`: the other files are answered for in the same way.
-/

namespace BuildLens

/-! ## Runs without a task -/

/-- An event in a run without the task `c`: the turns of the task are gone. -/
def Event.without (c : TaskId) : Event → Option Event
  | .call op => some (.call op)
  | .resume id answers => if id = c then none else some (.resume (closeUp c id) answers)

theorem Event.without_self {c : TaskId} {answers : Answers} :
    (Event.resume c answers).without c = none :=
  if_pos rfl

theorem Event.ne_resume_of_without {c : TaskId} {event event' : Event}
    (h : event.without c = some event') (answers : Answers) : event ≠ .resume c answers := by
  rintro rfl
  rw [without_self] at h
  cases h

theorem Event.exists_eq_resume_of_without {c : TaskId} {event : Event}
    (h : event.without c = none) : ∃ answers, event = .resume c answers := by
  cases event with
  | call op => cases h
  | resume id answers =>
    rw [without] at h
    split at h
    · next hid => exact ⟨answers, by rw [hid]⟩
    · cases h

/-- What happens to an engine: an event, or something else is kept in the memory of a model. -/
inductive Happening where
  | event (event : Event)
  | keep (m : ModelId) (fragments : FragmentCache)

namespace Engine

/-- The effect of what happens. -/
def happen (e : Engine) : Happening → Engine
  | .event event => e.step event
  | .keep m fragments => e.modifyWorkspace (·.refreshed m fun _ => fragments)

/-- The effect of all that happens. -/
def undergo (e : Engine) (happenings : List Happening) : Engine := happenings.foldl happen e

/-- Where nothing happens but events there is a run. -/
theorem undergo_map_event (e : Engine) (events : List Event) :
    e.undergo (events.map .event) = e.run events :=
  List.foldl_map

/-- What happens in a run without the task `c`: the same as in a run of the engine with it, but for
the turns of the task. Where such a turn has changed the memory of a model, the memory is so changed
without the turn. -/
inductive Without (c : TaskId) : Engine → List Event → List Happening → Prop
  | nil {e : Engine} : Without c e [] []
  | same {e : Engine} {event event' : Event} {events : List Event} {happenings : List Happening}
      (h : event.without c = some event') (hrest : Without c (e.step event) events happenings) :
      Without c e (event :: events) (.event event' :: happenings)
  | spared {e : Engine} {answers : Answers} {events : List Event} {happenings : List Happening}
      (h : (e.resume c answers).workspace = e.workspace)
      (hrest : Without c (e.resume c answers) events happenings) :
      Without c e (.resume c answers :: events) happenings
  | kept {e : Engine} {answers : Answers} {events : List Event} {happenings : List Happening}
      {m : ModelId} {fragments : FragmentCache} (hne : (e.resume c answers).workspace ≠ e.workspace)
      (h : (e.resume c answers).workspace = e.workspace.refreshed m fun _ => fragments)
      (hrest : Without c (e.resume c answers) events happenings) :
      Without c e (.resume c answers :: events) (.keep m fragments :: happenings)

/-- No turn of the task changes the workspace. -/
def Spares (c : TaskId) (e : Engine) (events : List Event) : Prop :=
  ∀ turn ∈ turnsOf c e events, (turn.engine.resume c turn.answers).workspace = turn.workspace

/-- If no turn of the task changes the workspace, a run without the task is that with it, less these
turns. -/
theorem Without.eq_of_spares {c : TaskId} {e : Engine} {events : List Event}
    {happenings : List Happening} (h : Without c e events happenings) (hspares : Spares c e events) :
    happenings = (events.filterMap (·.without c)).map .event := by
  induction h with
  | nil => rfl
  | same h _ ih =>
    rw [Spares, turnsOf_of_ne (Event.ne_resume_of_without h)] at hspares
    rw [List.filterMap_cons_some h, List.map_cons, ih hspares]
  | spared _ _ ih =>
    rw [Spares, turnsOf_resume_self] at hspares
    rw [List.filterMap_cons_none Event.without_self]
    exact ih fun turn hturn => hspares turn (List.mem_cons_of_mem _ hturn)
  | kept hne _ _ _ =>
    rw [Spares, turnsOf_resume_self] at hspares
    exact absurd (hspares _ List.mem_cons_self) hne

/-! ## Turns that other tasks do not notice -/

section Turns

variable {e : Engine} {p id j : TaskId} {uris : List String} {uri : String} {a : Activity}
  {parent : Option TaskId}

/-- A task that ends well, or goes on, leaves the other ones. -/
theorem task?_take_quiet (ht : e.task? id = some ⟨parent, a⟩) {eff : Effect}
    (hfailure : eff.failure? = none) (hchildren : eff.children = []) (hne : j ≠ id) :
    (e.take id eff).task? j = e.task? j := by
  cases hu : e.task? j with
  | none =>
    refine List.getElem?_eq_none ?_
    rw [length_take, hchildren]
    exact List.getElem?_eq_none_iff.mp hu
  | some u =>
    rw [task?_take_of_ne ht eff hu (Ne.symm hne), hfailure]
    rfl

/-- The turn of the task of a file. -/
theorem task?_resume_file_of_ne (ht : e.task? id = some ⟨parent, a⟩) (ha : a.IsFile uri)
    (answers : Answers) (hne : j ≠ id) : (e.resume id answers).task? j = e.task? j := by
  obtain ⟨w', eff, hturn, heq⟩ := exists_turn ht answers
  have hfile := (hturn.file (e := e) ha rfl e.tasks.length).1
  rw [heq]
  exact task?_take_quiet (e := { e with workspace := w' }) ht hfile.2.1 hfile.2.2 hne

/-- A turn of the task of a file leaves the workspace, but for what one model keeps in memory. -/
theorem refreshed_resume_file (ht : e.task? id = some ⟨parent, a⟩) (ha : a.IsFile uri)
    (answers : Answers) : (e.resume id answers).workspace = e.workspace ∨
      ∃ m fragments,
        (e.resume id answers).workspace = e.workspace.refreshed m fun _ => fragments := by
  rw [workspace_resume_file ht ha]
  cases a with
  | providing u =>
    rw [Activity.leaving]
    cases e.workspace.asked? u with
    | none => exact .inl rfl
    | some found => exact .inr ⟨found.2.1, _, rfl⟩
  | resolving u path m i => exact .inr ⟨m, _, rfl⟩
  | _ => exact .inl rfl

theorem length_resume_file (ht : e.task? id = some ⟨parent, a⟩) (ha : a.IsFile uri)
    (answers : Answers) : (e.resume id answers).tasks.length = e.tasks.length := by
  obtain ⟨w', eff, hturn, heq⟩ := exists_turn ht answers
  have hfile := (hturn.file (e := e) ha rfl e.tasks.length).1
  rw [heq, length_take, hfile.2.2]
  rfl

/-- The turn of the task that waits for files concerns no other task. -/
theorem Serves.resume_self (h : e.Serves p uris) (answers : Answers) :
    (e.resume p answers).workspace = e.workspace ∧
      (e.resume p answers).tasks.length = e.tasks.length ∧
      ∀ j ≠ p, (e.resume p answers).task? j = e.task? j := by
  obtain ⟨a, ha, hcollects⟩ := h.collects
  cases a with
  | done r =>
    rw [resume_eq_resumeAs ha]
    exact ⟨rfl, rfl, fun _ _ => rfl⟩
  | gathering children noted after =>
    obtain ⟨rfl, rfl, rfl⟩ := hcollects
    rcases h.resume_collecting ha answers with ⟨-, heq⟩ | ⟨slots, -, heq⟩
    · rw [heq]
      exact ⟨rfl, rfl, fun _ _ => rfl⟩
    · rw [heq]
      exact ⟨workspace_take .., length_take .., fun j hj => task?_take_quiet ha rfl rfl hj⟩
  | _ => exact hcollects.elim

/-- The task that waits ends in no turn but its own. -/
theorem Serves.result?_of_step (h : e.Serves p uris) {event : Event}
    (hne : ∀ answers, event ≠ .resume p answers) {r : Except Failure Outcome}
    (hr : (e.step event).result? p = some r) : e.result? p = some r := by
  obtain ⟨a, ha, hcollects⟩ := h.collects
  cases a with
  | done r' =>
    have hr' : e.result? p = some r' := result?_eq_some_iff.mpr ⟨_, ha, rfl⟩
    rw [result?_step hr' event] at hr
    rwa [hr']
  | gathering children noted after =>
    obtain ⟨rfl, rfl, rfl⟩ := hcollects
    obtain ⟨t, ht, hdone⟩ := result?_eq_some_iff.mp hr
    rw [h.collecting_step ha hne] at ht
    cases ht
    cases hdone
  | _ => exact hcollects.elim

end Turns

/-! ## Parallel runs -/

/-- The second engine provides the same files as the first one but one, and lacks its task. -/
structure Parallel (p : Nat) (us : List String) (uri : String) (vs : List String)
    (a b : Engine) : Prop where
  twins : Twins p (p + 1 + us.length) a b
  whole : a.Serves p (us ++ uri :: vs)
  rest : b.Serves p (us ++ vs)
  ended : ∀ r, a.result? p = some r → ∃ r', b.result? p = some r'

namespace Parallel

variable {p : Nat} {us vs : List String} {uri : String} {a b : Engine}

/-- The number of a file that is left out is that of its task. -/
theorem exists_file (h : Parallel p us uri vs a b) :
    ∃ x, a.task? (p + 1 + us.length) = some ⟨some p, x⟩ ∧ x.IsFile uri := by
  refine h.whole.files us.length uri ?_
  rw [List.getElem?_append_right (Nat.le_refl _), Nat.sub_self]
  rfl

/-- The task of another file has ended with the same. -/
theorem result?_file (h : Parallel p us uri vs a b) {k : Nat} (hk : k ≠ us.length) :
    b.result? (p + 1 + closeUp us.length k) = a.result? (p + 1 + k) := by
  rw [← closeUp_add _ hk]
  exact h.twins.result?_eq (fun heq => hk (Nat.add_left_cancel heq))
    (Nat.ne_of_gt (Nat.lt_add_right k (Nat.lt_succ_self p)))

/-- What the tasks of the other files end with. -/
theorem yields (h : Parallel p us uri vs a b) {slots : List (Option ProvidedItem)}
    (hslots : a.Yields (fileIds p (us ++ uri :: vs).length) slots) :
    b.Yields (fileIds p (us ++ vs).length) (slots.eraseIdx us.length) := by
  obtain ⟨hlength, hitems⟩ := yields_fileIds_iff.mp hslots
  simp only [List.length_append, List.length_cons] at hlength
  refine yields_fileIds_iff.mpr ⟨?_, fun k x hk => ?_⟩
  · rw [List.length_eraseIdx, List.length_append]
    split <;> omega
  · obtain ⟨i, hi, rfl⟩ := exists_closeUp_eq us.length k
    rw [getElem?_closeUp slots hi] at hk
    rw [h.result?_file hi]
    exact hitems i x hk

/-- The tasks of the other files have ended if all have. -/
theorem exists_outcomes (h : Parallel p us uri vs a b) {slots : List (Option ProvidedItem)}
    (hslots : a.Yields (fileIds p (us ++ uri :: vs).length) slots) :
    ∃ outcomes, b.outcomes? (fileIds p (us ++ vs).length) = some outcomes := by
  obtain ⟨hlength, hitems⟩ := yields_fileIds_iff.mp (h.yields hslots)
  refine exists_outcomes? fun id hid => ?_
  obtain ⟨k, hk, rfl⟩ := mem_fileIds.mp hid
  exact ⟨_, hitems k _ (List.getElem?_eq_getElem (hlength ▸ hk))⟩

/-- The task that waits for the files ends where it does with all of them. -/
theorem ended_resume (h : Parallel p us uri vs a b) (answers : Answers)
    {r : Except Failure Outcome} (hr : (a.resume p answers).result? p = some r) :
    ∃ r', (b.resume p answers).result? p = some r' := by
  have hpersists {r' : Except Failure Outcome} (hr' : b.result? p = some r') :
      ∃ r', (b.resume p answers).result? p = some r' :=
    ⟨r', result?_step hr' (.resume p answers)⟩
  obtain ⟨x, hx, hcollects⟩ := h.whole.collects
  cases x with
  | done r =>
    obtain ⟨r', hr'⟩ := h.ended r (result?_eq_some_iff.mpr ⟨_, hx, rfl⟩)
    exact hpersists hr'
  | gathering children noted after =>
    obtain ⟨rfl, rfl, rfl⟩ := hcollects
    rcases h.whole.resume_collecting hx answers with ⟨-, heq⟩ | ⟨slots, hslots, -⟩
    · rw [heq] at hr
      obtain ⟨t, ht, hdone⟩ := result?_eq_some_iff.mp hr
      rw [hx] at ht
      cases ht
      cases hdone
    · obtain ⟨outcomes, ho⟩ := h.exists_outcomes hslots
      obtain ⟨y, hy, hcollects⟩ := h.rest.collects
      cases y with
      | done r' => exact hpersists (result?_eq_some_iff.mpr ⟨_, hy, rfl⟩)
      | gathering children noted after =>
        obtain ⟨rfl, rfl, rfl⟩ := hcollects
        rcases h.rest.resume_collecting hy answers with ⟨hnone, -⟩ | ⟨slots', -, heq⟩
        · rw [hnone] at ho
          cases ho
        · rw [heq]
          exact ⟨_, result?_eq_some_iff.mpr ⟨_, task?_take_self hy _, rfl⟩⟩
      | _ => exact hcollects.elim
  | _ => exact hcollects.elim

/-- An event that is not a turn of the task that is left out. -/
theorem step (h : Parallel p us uri vs a b) {event event' : Event}
    (hevent : event.without (p + 1 + us.length) = some event') :
    Parallel p us uri vs (a.step event) (b.step event') := by
  cases event with
  | call op =>
    obtain rfl : .call op = event' := Option.some.inj hevent
    refine ⟨h.twins.start op, h.whole.step _, h.rest.step _, fun r hr => ?_⟩
    obtain ⟨r', hr'⟩ := h.ended r (h.whole.result?_of_step (fun _ heq => by cases heq) hr)
    exact ⟨r', result?_step hr' _⟩
  | resume id answers =>
    have hc : id ≠ p + 1 + us.length := by
      rintro rfl
      exact Event.ne_resume_of_without hevent answers rfl
    rw [Event.without, if_neg hc] at hevent
    obtain rfl := Option.some.inj hevent
    by_cases hp : id = p
    · obtain rfl : p = id := hp.symm
      rw [closeUp_of_lt h.twins.lt]
      obtain ⟨hw, hlength, hothers⟩ := h.whole.resume_self answers
      obtain ⟨hw', hlength', hothers'⟩ := h.rest.resume_self answers
      refine ⟨?_, h.whole.step _, h.rest.step _, fun r hr => h.ended_resume answers hr⟩
      exact h.twins.of_same (hw'.trans (h.twins.workspace.trans hw.symm)) hlength hlength'
        (fun j _ hj => hothers j hj) hothers'
    · refine ⟨h.twins.resume hc hp answers, h.whole.step _, h.rest.step _, fun r hr => ?_⟩
      have hne : ∀ answers', Event.resume id answers ≠ .resume p answers' := by
        rintro answers' heq
        cases heq
        exact hp rfl
      obtain ⟨r', hr'⟩ := h.ended r (h.whole.result?_of_step hne hr)
      exact ⟨r', result?_step hr' _⟩

/-- The task that waits for the files does not end in a turn of the task that is left out. -/
theorem ended_left (h : Parallel p us uri vs a b) {answers : Answers} (r : Except Failure Outcome)
    (hr : (a.resume (p + 1 + us.length) answers).result? p = some r) :
    ∃ r', b.result? p = some r' := by
  have hne (answers' : Answers) : Event.resume (p + 1 + us.length) answers ≠ .resume p answers' :=
    fun heq => Nat.ne_of_gt h.twins.lt (Event.resume.inj heq).1
  exact h.ended r (h.whole.result?_of_step hne hr)

/-- A turn of the task that is left out, which leaves the workspace. -/
theorem spared (h : Parallel p us uri vs a b) {answers : Answers}
    (hw : (a.resume (p + 1 + us.length) answers).workspace = a.workspace) :
    Parallel p us uri vs (a.resume (p + 1 + us.length) answers) b := by
  obtain ⟨x, hx, hfile⟩ := h.exists_file
  refine ⟨?_, h.whole.step (.resume _ answers), h.rest, h.ended_left⟩
  exact h.twins.of_same (h.twins.workspace.trans hw.symm) (length_resume_file hx hfile answers) rfl
    (fun j hj _ => task?_resume_file_of_ne hx hfile answers hj) fun _ _ => rfl

/-- A turn of the task that is left out, which leaves something in the memory of a model. -/
theorem kept (h : Parallel p us uri vs a b) {answers : Answers} {m : ModelId}
    {fragments : FragmentCache}
    (hw : (a.resume (p + 1 + us.length) answers).workspace =
      a.workspace.refreshed m fun _ => fragments) :
    Parallel p us uri vs (a.resume (p + 1 + us.length) answers)
      (b.happen (.keep m fragments)) := by
  obtain ⟨x, hx, hfile⟩ := h.exists_file
  refine ⟨?_, h.whole.step (.resume _ answers), ⟨h.rest.files, h.rest.collects⟩, h.ended_left⟩
  have hworkspace : (b.happen (.keep m fragments)).workspace =
      b.workspace.refreshed m fun _ => fragments := rfl
  exact h.twins.of_same (by rw [hworkspace, h.twins.workspace, hw])
    (length_resume_file hx hfile answers) rfl
    (fun j hj _ => task?_resume_file_of_ne hx hfile answers hj) fun _ _ => rfl

/-- Two engines stay parallel. -/
theorem run (h : Parallel p us uri vs a b) (events : List Event) :
    ∃ happenings, Without (p + 1 + us.length) a events happenings ∧
      Parallel p us uri vs (a.run events) (b.undergo happenings) := by
  induction events generalizing a b with
  | nil => exact ⟨[], .nil, h⟩
  | cons event rest ih =>
    cases hevent : event.without (p + 1 + us.length) with
    | some event' =>
      obtain ⟨happenings, hwithout, hparallel⟩ := ih (h.step hevent)
      exact ⟨.event event' :: happenings, .same hevent hwithout, hparallel⟩
    | none =>
      obtain ⟨answers, rfl⟩ := Event.exists_eq_resume_of_without hevent
      obtain ⟨x, hx, hfile⟩ := h.exists_file
      by_cases hw : (a.resume (p + 1 + us.length) answers).workspace = a.workspace
      · obtain ⟨happenings, hwithout, hparallel⟩ := ih (h.spared hw)
        exact ⟨happenings, .spared hw hwithout, hparallel⟩
      · obtain ⟨m, fragments, hkept⟩ := (refreshed_resume_file hx hfile answers).resolve_left hw
        obtain ⟨happenings, hwithout, hparallel⟩ := ih (h.kept hkept)
        exact ⟨.keep m fragments :: happenings, .kept hw hkept hwithout, hparallel⟩

end Parallel

theorem eraseIdx_length_append (us : List String) (uri : String) (vs : List String) :
    (us ++ uri :: vs).eraseIdx us.length = us ++ vs := by
  rw [List.eraseIdx_append_of_length_le (Nat.le_refl _), Nat.sub_self]
  rfl

/-- Two calls for files that differ by one file begin parallel runs. -/
theorem parallel_start {e : Engine} (he : e.Numbered) (us : List String) (uri : String)
    (vs : List String) :
    Parallel e.tasks.length us uri vs (e.start (.provide (us ++ uri :: vs)))
      (e.start (.provide (us ++ vs))) where
  twins := by
    have hlength : (us ++ uri :: vs).length = (us ++ vs).length + 1 := by
      rw [List.length_append, List.length_append, List.length_cons, Nat.add_assoc]
    refine ⟨?_, by omega, ?_, ?_, ?_⟩
    · rw [workspace_start_provide, workspace_start_provide]
    · rw [length_start_provide, length_start_provide, hlength]
      omega
    · rw [length_start_provide, List.length_append, List.length_cons]
      omega
    · intro j t hc hp ht
      by_cases hj : j < e.tasks.length
      · have hold : e.task? j = some e.tasks[j] := List.getElem?_eq_getElem hj
        obtain ⟨hparent, hwaits⟩ := he j _ hold
        rw [task?_start hold] at ht
        cases ht
        have hlt {k : Nat} (hk : k < e.tasks.length) : k < e.tasks.length + 1 + us.length := by
          omega
        rw [closeUp_of_lt (hlt hj), Task.renumber_eq_self (fun q hq => hlt (hparent q hq))
          fun k hk => hlt (hwaits k hk)]
        refine ⟨task?_start hold _, fun heq => ?_, fun hmem => ?_, fun hmem => ?_⟩
        · exact Nat.lt_irrefl _ (hlt (hparent _ heq))
        · exact Nat.lt_irrefl _ (hlt (hwaits _ hmem))
        · exact Nat.lt_irrefl _ (hwaits _ hmem)
      · obtain ⟨k, rfl⟩ : ∃ k, j = e.tasks.length + 1 + k := ⟨j - (e.tasks.length + 1), by omega⟩
        have hk : k ≠ us.length := fun heq => hc (heq ▸ rfl)
        rw [task?_start_provide] at ht
        obtain ⟨u, hu, rfl⟩ := Option.map_eq_some_iff.mp ht
        rw [closeUp_add _ hk, task?_start_provide, ← eraseIdx_length_append us uri vs,
          getElem?_closeUp _ hk, hu]
        have hparent : e.tasks.length < e.tasks.length + 1 + us.length := by omega
        refine ⟨?_, fun heq => ?_, List.not_mem_nil, List.not_mem_nil⟩
        · exact congrArg (fun q => some (Task.mk (some q) (.providing u))) (closeUp_of_lt hparent).symm
        · exact absurd (Option.some.inj heq) (Nat.ne_of_lt hparent)
  whole := serves_start e _
  rest := serves_start e _
  ended r hr := by
    obtain ⟨t, ht, hdone⟩ := result?_eq_some_iff.mp hr
    rw [task?_start_collecting e (List.append_ne_nil_of_right_ne_nil us (List.cons_ne_nil uri vs))]
      at ht
    cases ht
    cases hdone

/-- What happens without the `n`-th of the files, where the answers for all of them are `slots`: the
workspace becomes the same, and the files that are left are answered for in the same way. -/
structure LeftOut (e : Engine) (uris : List String) (n : Nat) (events : List Event)
    (slots : List (Option ProvidedItem)) (happenings : List Happening) : Prop where
  without : Without (e.tasks.length + 1 + n) (e.start (.provide uris)) events happenings
  workspace : ((e.start (.provide (uris.eraseIdx n))).undergo happenings).workspace =
    ((e.start (.provide uris)).run events).workspace
  answer : ((e.start (.provide (uris.eraseIdx n))).undergo happenings).result? e.tasks.length =
    some (.ok (.items ((slots.eraseIdx n).filterMap id)))

/-- Any file may be left out. -/
theorem exists_leftOut {e : Engine} (he : e.Numbered) {uris : List String} {n : Nat}
    (hn : n < uris.length) {events : List Event} {slots : List (Option ProvidedItem)}
    (hslots : ((e.start (.provide uris)).run events).Yields
      (fileIds e.tasks.length uris.length) slots)
    {r : Except Failure Outcome}
    (hr : ((e.start (.provide uris)).run events).result? e.tasks.length = some r) :
    ∃ happenings, LeftOut e uris n events slots happenings := by
  obtain ⟨us, vs, huris, hlength, -⟩ :
      ∃ us vs, uris = us ++ uris[n] :: vs ∧ us.length = n ∧ uris.set n "" = us ++ "" :: vs :=
    List.exists_of_set hn
  generalize uris[n] = uri at huris
  subst huris hlength
  obtain ⟨happenings, hwithout, hparallel⟩ := (parallel_start he us uri vs).run events
  refine ⟨happenings, hwithout, ?_, ?_⟩
  · rw [eraseIdx_length_append]
    exact hparallel.twins.workspace
  · rw [eraseIdx_length_append]
    obtain ⟨r', hr'⟩ := hparallel.ended r hr
    obtain ⟨slots', hslots', rfl⟩ := hparallel.rest.items_of_result? hr'
    rw [hr', hslots'.unique (hparallel.yields hslots)]

end Engine

end BuildLens
