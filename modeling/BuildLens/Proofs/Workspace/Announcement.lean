import BuildLens.Proofs.Workspace.Files
import BuildLens.Proofs.Workspace.Provider
import BuildLens.Proofs.Workspace.Telling

/-!
# Calls that return have told of what they changed

The rebuilds of a call run side by side, and the task of the call waits for all of them before it
tells the provider in force. So a change that a rebuild brings about is told of when the call
returns, and any other change is told of in the turn that brings it about. Within a turn nothing
else sees the workspace, so the turn is the time of the change.

Main definitions:

- `Engine.AwaitsRebuilds`: a task waits for rebuilds.
- `Engine.Minded`: every rebuild has a task that waits for it, or that has failed.
- `Engine.rebuildCall?`: the call for which a turn rebuilds a folder.

Main results:

- `minded_run`: the call of a rebuild that goes on waits for it, unless it has failed.
- `notified_of_returned`: a call that rebuilds folders tells the provider before it returns.
- `change_announced`: when a call has returned, the provider in force was told of what it changed,
  or registered afterwards.
-/

namespace BuildLens

/-! ## What a provider learns in a run -/

/-- The operation that the event begins disposes of a provider from the side of the editor. -/
def Event.disposesOf (p : Nat) : Event → Bool
  | .call (.disposeOf n) => n == p
  | _ => false

/-- The provider was told of a change if it is in force in the end and was registered before. -/
def Workspace.Notified (p : Nat) (w w' : Workspace) : Prop :=
  w'.provider = some p → w.registrations.length ≤ p ∨ w.Learns p w'

namespace Workspace

variable {p : Nat} {w w' w'' : Workspace}

theorem Informs.notified (h : Informs p w w') (hpasses : Passes p w w')
    (hfollows : Follows p w' w'') : Notified p w w'' := by
  intro hp
  rcases hfollows.held hp with hheld | hlength
  · exact .inr ((h hheld).before hfollows.told)
  · exact .inl (hpasses.length ▸ hlength)

theorem Notified.after (h : Follows p w w') (h' : Notified p w' w'') : Notified p w w'' := by
  intro hp
  rcases h' hp with hlength | hlearns
  · exact .inl (h.length.trans hlength)
  · exact .inr (hlearns.after h.told)

end Workspace

/-- The line on which a turn is. -/
def Engine.lineOf (e : Engine) : Event → Line
  | .call _ => .other
  | .resume id _ => ((e.task? id).map fun t => t.activity.line).getD .other

namespace Engine

variable {p : Nat} {e : Engine}

/-- What a provider is told in any turn. -/
theorem turned_step (hs : e.view.Sound) {event : Event} (hevent : event.disposesOf p = false) :
    e.workspace.Turned (e.lineOf event) p (e.step event).workspace := by
  cases event with
  | call op =>
    apply Workspace.Turned.of_heralds
    apply heralds_start hs
    intro heq
    subst heq
    simp [Event.disposesOf] at hevent
  | resume id answers =>
    cases ht : e.task? id with
    | none =>
      rw [step, resume_of_task?_eq_none ht]
      exact .of_heralds (.refl _)
    | some t =>
      have hline : e.lineOf (.resume id answers) = t.activity.line := by
        rw [lineOf, ht]
        rfl
      rw [hline]
      exact turned_resume hs ht answers

theorem follows_run (hs : e.view.Sound) {events : List Event}
    (hopen : ∀ event ∈ events, event.disposesOf p = false) :
    e.workspace.Follows p (e.run events).workspace := by
  induction events generalizing e with
  | nil => exact .refl _
  | cons event rest ih =>
    have hevent := hopen event List.mem_cons_self
    exact (turned_step hs hevent).follows.trans
      (ih (hs.step event) fun event h => hopen event (List.mem_cons_of_mem _ h))

end Engine

/-! ## Rebuilds and the calls that wait for them -/

namespace Engine

/-- A task waits for rebuilds by the tasks with the given numbers. -/
def AwaitsRebuilds (e : Engine) (call : TaskId) (children : List TaskId) : Prop :=
  ∃ t failure, e.task? call = some t ∧ t.activity = .gathering children failure .rebuilt

/-- Every task that is part of a rebuild has one that waits for it, or that has failed. -/
def Minded (e : Engine) : Prop :=
  ∀ j t, e.task? j = some t → t.activity.line.rebuilds = true → ∃ call, t.parent = some call ∧
    ((∃ children, j ∈ children ∧ e.AwaitsRebuilds call children) ∨
      ∃ f, e.result? call = some (.error f))

variable {e : Engine} {call id : TaskId} {children : List TaskId}

theorem AwaitsRebuilds.result?_eq_none (h : e.AwaitsRebuilds call children) :
    e.result? call = none := by
  obtain ⟨t, failure, ht, ha⟩ := h
  rw [result?, ht, Option.map_some, ha]

theorem AwaitsRebuilds.start (h : e.AwaitsRebuilds call children) (op : Operation) :
    (e.start op).AwaitsRebuilds call children := by
  obtain ⟨t, failure, ht, ha⟩ := h
  exact ⟨t, failure, task?_start ht op, ha⟩

theorem AwaitsRebuilds.resume_of_ne (h : e.AwaitsRebuilds call children) (hne : id ≠ call)
    (answers : Answers) : (e.resume id answers).AwaitsRebuilds call children := by
  cases ht : e.task? id with
  | none =>
    rw [resume_of_task?_eq_none ht]
    exact h
  | some t =>
    obtain ⟨u, failure, hu, ha⟩ := h
    obtain ⟨w', eff, -, heq⟩ := exists_turn ht answers
    rw [heq]
    exact ⟨_, _, task?_take_of_ne (e := { e with workspace := w' }) ht eff hu hne,
      Task.activity_after_gathering ha⟩

/-- The turn of a task that waits for rebuilds: it goes on waiting, it fails, or all rebuilds have
ended and it tells the provider and returns. -/
theorem AwaitsRebuilds.resume_self (h : e.AwaitsRebuilds call children) (answers : Answers) :
    (e.resume call answers).AwaitsRebuilds call children ∨
      (∃ f, (e.resume call answers).result? call = some (.error f)) ∨
      (∀ i ∈ children, ∃ o, e.result? i = some (.ok o)) ∧
        (e.resume call answers).workspace = e.workspace.notifyChange := by
  obtain ⟨t, failure, ht, ha⟩ := h
  have hresume := resume_eq_resumeAs ht answers
  rw [ha] at hresume
  cases failure with
  | some f =>
    refine .inr (.inl ⟨f, ?_⟩)
    rw [hresume]
    exact result?_eq_some_iff.mpr ⟨_, task?_take_self ht (.finish (.error f)), rfl⟩
  | none =>
    cases houtcomes : e.outcomes? children with
    | none =>
      have hstay : e.resume call answers = e := by
        rw [hresume, awaited?, houtcomes]
        rfl
      rw [hstay]
      exact .inl ⟨t, none, ht, ha⟩
    | some outcomes =>
      refine .inr (.inr ⟨fun i hi => ?_, ?_⟩)
      · exact result?_of_mem (outcomes?_eq_some_iff.mp houtcomes) hi
      · rw [hresume, awaited?, houtcomes]
        exact workspace_finish _ _ _

/-- A task that is part of a rebuild has not ended. -/
theorem result?_eq_none_of_rebuilds {t : Task} (ht : e.task? id = some t)
    (hline : t.activity.line.rebuilds = true) : e.result? id = none := by
  rw [result?, ht, Option.map_some]
  cases ha : t.activity with
  | done r =>
    rw [ha] at hline
    cases hline
  | _ => rfl

/-- The task that waits for a rebuild goes on waiting for it, or fails. -/
theorem AwaitsRebuilds.resume {j : TaskId} (h : e.AwaitsRebuilds call children)
    (hj : j ∈ children) (hresult : e.result? j = none) (answers : Answers) :
    (e.resume id answers).AwaitsRebuilds call children ∨
      ∃ f, (e.resume id answers).result? call = some (.error f) := by
  by_cases hid : id = call
  · subst hid
    rcases h.resume_self answers with hwaits | hfails | ⟨hall, -⟩
    · exact .inl hwaits
    · exact .inr hfails
    · obtain ⟨o, ho⟩ := hall j hj
      rw [hresult] at ho
      cases ho
  · exact .inl (h.resume_of_ne hid answers)

/-- A task that is part of a rebuild after a turn was so before. -/
theorem exists_task?_of_rebuilds {j : TaskId} {u : Task} {answers : Answers}
    (hu : (e.resume id answers).task? j = some u) (hline : u.activity.line.rebuilds = true) :
    ∃ v, e.task? j = some v ∧ v.parent = u.parent ∧ v.activity.line.rebuilds = true := by
  cases ht : e.task? id with
  | none =>
    rw [resume_of_task?_eq_none ht] at hu
    exact ⟨u, hu, rfl, hline⟩
  | some t =>
    obtain ⟨w', eff, hkeeps, heq⟩ := exists_keeping_turn ht answers
    have ht' : Engine.task? { e with workspace := w' } id = some t := ht
    rw [heq] at hu
    rcases task?_take_cases ht' hu with ⟨rfl, rfl⟩ | ⟨-, v, hv, rfl⟩ | ⟨k, a, rfl, ha, rfl⟩
    · refine ⟨t, ht, rfl, ?_⟩
      rcases hkeeps.leads_activity e.tasks.length t.activity with hsame | hleads
      · exact hsame ▸ hline
      · exact Line.rebuilds_of_leads hleads hline
    · rw [Task.line_after] at hline
      exact ⟨v, hv, (Task.parent_after ..).symm, hline⟩
    · have hspawns := hkeeps.children a (List.mem_of_getElem? ha)
      rw [Line.rebuilds_of_spawns hspawns] at hline
      cases hline

theorem Minded.resume (he : e.Minded) (id : TaskId) (answers : Answers) :
    (e.resume id answers).Minded := by
  intro j u hu hline
  obtain ⟨v, hv, hparent, hvline⟩ := exists_task?_of_rebuilds hu hline
  obtain ⟨call, hcall, hminds⟩ := he j v hv hvline
  refine ⟨call, hparent ▸ hcall, ?_⟩
  rcases hminds with ⟨children, hj, hwaits⟩ | ⟨f, hf⟩
  · rcases hwaits.resume hj (result?_eq_none_of_rebuilds hv hvline) answers with hwaits | hfails
    · exact .inl ⟨children, hj, hwaits⟩
    · exact .inr hfails
  · exact .inr ⟨f, result?_step hf (.resume id answers)⟩

theorem Minded.start (he : e.Minded) (op : Operation) : (e.start op).Minded := by
  intro j u hu hline
  obtain ⟨w', eff, hopens, heq⟩ := exists_opening_turn e op
  have ht : Engine.task? { e.spawned with workspace := w' } e.tasks.length =
      some ⟨none, .done (.ok .nothing)⟩ := task?_spawned_new e
  have hu' := hu
  rw [heq] at hu'
  generalize op.rebuilds = rebuilds at hopens
  rcases task?_take_cases ht hu' with ⟨rfl, rfl⟩ | ⟨hne, v, hv, rfl⟩ | ⟨k, a, rfl, ha, rfl⟩
  · -- The task of the call itself is part of no rebuild.
    rw [eff.line_activity] at hline
    cases hopens with
    | idle => cases hline
    | rebuilds models => cases hline
    | others hown hchildren =>
      cases hl : eff.line? with
      | none =>
        rw [hl] at hline
        cases hline
      | some l =>
        obtain ⟨hscheduled, hrebuild⟩ := hown l hl
        rw [hl] at hline
        cases l <;> simp_all [Line.rebuilds]
  · rw [Task.line_after] at hline
    obtain ⟨call, hcall, hminds⟩ := he j v (task?_of_spawned hv hne) hline
    refine ⟨call, (Task.parent_after ..).trans hcall, ?_⟩
    rcases hminds with ⟨children, hj, hwaits⟩ | ⟨f, hf⟩
    · exact .inl ⟨children, hj, hwaits.start op⟩
    · exact .inr ⟨f, result?_step hf (.call op)⟩
  · refine ⟨e.tasks.length, rfl, .inl ?_⟩
    cases hopens with
    | idle => cases ha
    | rebuilds models =>
      rw [heq]
      refine ⟨_, ?_, _, _, task?_take_self ht _, rfl⟩
      have hk : k < (models.map Activity.rebuilding).length :=
        (List.getElem?_eq_some_iff.mp ha).choose
      exact List.mem_map.mpr ⟨k, List.mem_range.mpr hk, rfl⟩
    | others hown hchildren =>
      obtain ⟨hscheduled, hrebuild⟩ := hchildren a (List.mem_of_getElem? ha)
      dsimp only at hline
      cases hl : a.line <;> simp_all [Line.rebuilds]

theorem Minded.step (he : e.Minded) (event : Event) : (e.step event).Minded := by
  cases event with
  | call op => exact he.start op
  | resume id answers => exact he.resume id answers

/-- Whenever a task is part of a rebuild, the call for which it rebuilds waits for it or has
failed. -/
theorem minded_run (context : Context) (events : List Event) :
    ((fresh context).run events).Minded :=
  @run_keeps (fun e => e.Minded) events (fun _ event _ he => he.step event) _
    fun _ _ ht => nomatch ht

/-! ## Calls that return -/

/-- A task that waits for rebuilds goes on waiting, or it fails, or it tells the provider. -/
theorem AwaitsRebuilds.step (h : e.AwaitsRebuilds call children) (event : Event) :
    (e.step event).AwaitsRebuilds call children ∨
      (∃ f, (e.step event).result? call = some (.error f)) ∨
      (e.step event).workspace = e.workspace.notifyChange := by
  cases event with
  | call op => exact .inl (h.start op)
  | resume id answers =>
    by_cases hid : id = call
    · subst hid
      rcases h.resume_self answers with hwaits | hfails | ⟨-, htells⟩
      · exact .inl hwaits
      · exact .inr (.inl hfails)
      · exact .inr (.inr htells)
    · exact .inl (h.resume_of_ne hid answers)

variable {p : Nat}

/-- A call that rebuilds folders tells the provider before it returns. -/
theorem notified_of_returned (hs : e.view.Sound) (h : e.AwaitsRebuilds call children)
    (hw : e.workspace.Usable p) {events : List Event}
    (hopen : ∀ event ∈ events, event.disposesOf p = false) {o : Outcome}
    (hr : (e.run events).result? call = some (.ok o)) :
    e.workspace.Notified p (e.run events).workspace := by
  induction events generalizing e with
  | nil =>
    have hnone := h.result?_eq_none
    rw [show e.result? call = some (.ok o) from hr] at hnone
    cases hnone
  | cons event rest ih =>
    have hrest : ∀ event ∈ rest, event.disposesOf p = false :=
      fun event h => hopen event (List.mem_cons_of_mem _ h)
    have hfollows : e.workspace.Follows p (e.step event).workspace :=
      (turned_step hs (hopen event List.mem_cons_self)).follows
    have hlater : (e.step event).workspace.Follows p ((e.step event).run rest).workspace :=
      follows_run (hs.step event) hrest
    rcases h.step event with hwaits | ⟨f, hf⟩ | htells
    · exact .after hfollows (ih (hs.step event) hwaits (hfollows.usable hw) hrest hr)
    · have hfailed := result?_run hf rest
      rw [show ((e.step event).run rest).result? call = some (.ok o) from hr] at hfailed
      cases hfailed
    · rw [htells] at hlater
      exact (e.workspace.informs_notifyChange hw).notified
        e.workspace.heralds_notifyChange.toPasses hlater

/-- A turn that is part of no rebuild tells the provider of what it changes. -/
theorem learns_of_change (hs : e.view.Sound) (hw : e.workspace.Usable p) {event : Event}
    {after : List Event} (hopen : ∀ event' ∈ event :: after, event'.disposesOf p = false)
    (hline : (e.lineOf event).rebuilds = false)
    (hchange : (e.step event).workspace.recognized ≠ e.workspace.recognized)
    (hp : ((e.step event).run after).workspace.provider = some p) :
    (e.step event).workspace.registrations.length ≤ p ∨
      e.workspace.Learns p ((e.step event).run after).workspace := by
  obtain ⟨w₁, hsame, hfollows, hpasses, htells⟩ :=
    turned_step hs (hopen event List.mem_cons_self)
  have hlater : (e.step event).workspace.Follows p ((e.step event).run after).workspace :=
    follows_run (hs.step event) fun event h => hopen event (List.mem_cons_of_mem _ h)
  rcases htells hline (hfollows.usable hw) with hsame' | hinforms
  · exact absurd (hsame'.trans hsame) hchange
  · rcases hinforms.notified hpasses hlater hp with hlength | hlearns
    · exact .inl (hpasses.length.symm ▸ hlength)
    · exact .inr (hlearns.after hfollows.told)

/-- The call for which a turn rebuilds a folder: the task that waits for the rebuild. Any other task
tells the provider itself. -/
def rebuildCall? (e : Engine) : Event → Option TaskId
  | .call _ => none
  | .resume id _ =>
    (e.task? id).bind fun t => if t.activity.line.rebuilds then t.parent else none

/-- A turn that is part of a rebuild has a call that waits for it or has failed. -/
theorem Minded.exists_rebuildCall? (he : e.Minded) {event : Event}
    (hline : (e.lineOf event).rebuilds = true) :
    ∃ call, e.rebuildCall? event = some call ∧
      ((∃ children, (e.step event).AwaitsRebuilds call children) ∨
        ∃ f, (e.step event).result? call = some (.error f)) := by
  cases event with
  | call op => cases hline
  | resume id answers =>
    cases ht : e.task? id with
    | none =>
      rw [lineOf, ht] at hline
      cases hline
    | some t =>
      have hrebuilds : t.activity.line.rebuilds = true := by
        rw [lineOf, ht] at hline
        exact hline
      obtain ⟨call, hcall, hminds⟩ := he id t ht hrebuilds
      refine ⟨call, ?_, ?_⟩
      · simp [rebuildCall?, ht, hrebuilds, hcall]
      · rcases hminds with ⟨children, hid, hwaits⟩ | ⟨f, hf⟩
        · rcases hwaits.resume hid (result?_eq_none_of_rebuilds ht hrebuilds) answers with
            hwaits | hfails
          · exact .inl ⟨children, hwaits⟩
          · exact .inr hfails
        · exact .inr ⟨f, result?_step hf (.resume id answers)⟩

/-- When a turn has changed which build trees are published, and the call that rebuilds in it has
returned if there is one, the provider in force was registered after the turn, or it was told since
that configurations and directories to browse have changed. A provider that is disposed of from the
side of the editor is told nothing any more. -/
theorem change_announced (context : Context) (before after : List Event) (event : Event) (p : Nat)
    (hopen : ∀ event' ∈ before ++ event :: after, event'.disposesOf p = false) :
    let e₀ := (fresh context).run before
    let e₁ := e₀.step event
    let e := e₁.run after
    e₁.workspace.recognized ≠ e₀.workspace.recognized →
      (∀ call, e₀.rebuildCall? event = some call → ∃ o, e.result? call = some (.ok o)) →
      e.workspace.provider = some p →
      e₁.workspace.registrations.length ≤ p ∨
        ∃ events, e.workspace.told p = e₀.workspace.told p ++ events ∧
          .changed .configurationChanged ∈ events ∧
          .changed .browseConfigurationChanged ∈ events := by
  intro e₀ e₁ e hchange hreturned hp
  have hs : e₀.view.Sound := sound_run context before
  have hbefore : ∀ event' ∈ before, event'.disposesOf p = false :=
    fun event' h => hopen event' (List.mem_append_left _ h)
  have hlater : ∀ event' ∈ event :: after, event'.disposesOf p = false :=
    fun event' h => hopen event' (List.mem_append_right _ h)
  have hafter : ∀ event' ∈ after, event'.disposesOf p = false :=
    fun event' h => hlater event' (List.mem_cons_of_mem _ h)
  have hw : e₀.workspace.Usable p :=
    (follows_run (View.Sound.fresh context) hbefore).usable nofun
  cases hline : (e₀.lineOf event).rebuilds with
  | false => exact learns_of_change hs hw hlater hline hchange hp
  | true =>
    have hfollows : e₀.workspace.Follows p e₁.workspace :=
      (turned_step hs (hlater event List.mem_cons_self)).follows
    obtain ⟨call, hcall, hminds⟩ := (minded_run context before).exists_rebuildCall? hline
    obtain ⟨o, ho⟩ := hreturned call hcall
    rcases hminds with ⟨children, hwaits⟩ | ⟨f, hf⟩
    · rcases notified_of_returned (hs.step event) hwaits (hfollows.usable hw) hafter ho hp with
        hlength | hlearns
      · exact .inl hlength
      · exact .inr (hlearns.after hfollows.told)
    · have hfailed := result?_run hf after
      rw [show (e₁.run after).result? call = some (.ok o) from ho] at hfailed
      cases hfailed

/-- A run in which a build tree that was added is looked at again, up to the end of the new look. -/
def treeRebuilding : List Event :=
  buildTreeAdded ++ .call (.rebuild none) ::
    [4, 4, 4, 4, 5, 6, 5, 6].map fun id => .resume id .ofBuiltTree

/-- The new look takes the place of the old one, and when the call has returned the provider was
told of that. -/
theorem change_announced_treeRebuilding :
    let e₁ := ((fresh {}).run treeRebuilding).step (.resume 4 .ofBuiltTree)
    let e := e₁.run [.resume 3 .ofBuiltTree]
    e.workspace.published.find? "/r" = some 1 ∧
      ∃ events, e.workspace.told 0 = ((fresh {}).run treeRebuilding).workspace.told 0 ++ events ∧
        .changed .configurationChanged ∈ events ∧
        .changed .browseConfigurationChanged ∈ events := by
  intro e₁ e
  have hfacts : e.workspace.published.find? "/r" = some 1 ∧
      ((e.result? 3).bind Except.toOption).isSome = true ∧
      (((fresh {}).run treeRebuilding).step (.resume 4 .ofBuiltTree)
        ).workspace.registrations.length = 1 ∧ 0 ∉ e₁.workspace.publishedIds := by
    decide +kernel
  have hfacts₀ : 0 ∈ ((fresh {}).run treeRebuilding).workspace.publishedIds ∧
      ((fresh {}).run treeRebuilding).workspace.isBuildTree 0 = true ∧
      ((fresh {}).run treeRebuilding).rebuildCall? (.resume 4 .ofBuiltTree) = some 3 := by
    decide +kernel
  have hopen : ∀ event ∈ treeRebuilding ++ .resume 4 .ofBuiltTree :: [.resume 3 .ofBuiltTree],
      event.disposesOf 0 = false := by
    decide +kernel
  obtain ⟨hpublished, hresult, hlength, hgone⟩ := hfacts
  obtain ⟨hold, hbuild, hcall⟩ := hfacts₀
  have hchange : e₁.workspace.recognized ≠
      ((fresh {}).run treeRebuilding).workspace.recognized := by
    intro hsame
    have hmem : 0 ∈ e₁.workspace.recognized := by
      rw [hsame]
      exact ⟨hold, hbuild⟩
    exact hgone hmem.1
  have hreturned : ∀ call,
      ((fresh {}).run treeRebuilding).rebuildCall? (.resume 4 .ofBuiltTree) = some call →
        ∃ o, e.result? call = some (.ok o) := by
    intro call h
    rw [hcall] at h
    cases h
    obtain ⟨o, ho⟩ := Option.isSome_iff_exists.mp hresult
    obtain ⟨r, hr, hok⟩ := Option.bind_eq_some_iff.mp ho
    cases r with
    | ok o => exact ⟨o, hr⟩
    | error f => cases hok
  refine ⟨hpublished, ?_⟩
  rcases change_announced {} treeRebuilding [.resume 3 .ofBuiltTree] (.resume 4 .ofBuiltTree) 0
    hopen hchange hreturned (by decide +kernel) with hnever | htold
  · rw [hlength] at hnever
    cases hnever
  · exact htold

end Engine

end BuildLens
