import BuildLens.Proofs.Workspace.Lines
import BuildLens.Proofs.Workspace.NewestSettings

/-!
# New settings while nothing else is under way

When operations run one by one, no root can be taken away between the time at which a rebuild is
scheduled and the time at which it begins to look. So there are no strays, and whenever nothing is
under way no rebuild is noted. New settings then concern exactly the folders whose own settings
change, or all of them if MozillaBuild moves. Each of these gets a model of its own that is newer,
and all other models stay.

Main definitions:

- `Engine.oneByOne`: every operation of a run begins when no other one is under way.
- `View.Anchored`: rebuilds are only scheduled for roots that are published.
- `Chronicle.Tidy`: what operations that run one by one leave.
- `View.Renewing`: what becomes of models while some are looked at again.

Main results:

- `Chronicle.Tidy.run`: there are no strays as long as operations run one by one.
- `Engine.updateSettings_rebuilds`: which models new settings replace, and by what.
-/

namespace BuildLens

/-- Whether every operation of a run begins when no other one is under way. -/
def Engine.oneByOne (e : Engine) : List Event → Bool
  | [] => true
  | .call op :: rest => e.atRest && (e.start op).oneByOne rest
  | .resume id answers :: rest => (e.resume id answers).oneByOne rest

/-! ## Rebuilds of roots that are published -/

namespace View

/-- Rebuilds are only scheduled for roots that are published. -/
def Anchored (v : View) : Prop :=
  ∀ old, .rebuilding old ∈ v.roles → v.workspace.knows (v.workspace.keyOf old) = true

namespace Anchored

variable {input : Input} {h : History} {v v' : View}

/-- A steady move takes no root away from under a rebuild. -/
theorem steady (hs : v.Sound) (hmove : Steady input v v') (hv : v.Anchored) : v'.Anchored := by
  intro old hr
  rw [(Move.steady hmove).keyOf, hmove.knows]
  rcases (Move.steady hmove).rebuilding hr with hr | hmem
  · exact hv old hr
  · obtain ⟨key, hp⟩ := Workspace.mem_publishedIds_iff.mp hmem
    rw [(hs.published key old hp).2]
    exact Workspace.knows_eq_true_iff.mpr ⟨old, hp⟩

/-- Steady moves take no root away from under a rebuild. -/
theorem steadily (hs : v.Sound) (hmoves : Steadily input v v') (hv : v.Anchored) :
    v'.Sound ∧ v'.Anchored :=
  Steadily.keeps (I := fun u => u.Sound ∧ u.Anchored)
    (fun _ _ hmove hu => ⟨hu.1.move (.steady hmove), hu.2.steady hu.1 hmove⟩) hmoves ⟨hs, hv⟩

/-- A look that begins takes no root away. -/
theorem beginning (hs : v.Sound) (hb : Beginning v v')
    (hsame : v'.workspace.published = v.workspace.published) (hv : v.Anchored) : v'.Anchored := by
  intro old hr
  have hold := hb.rebuilding hr
  rw [hb.keyOf_of_lt (hs.rebuilding old hold), Workspace.knows, hsame]
  exact hv old hold

/-- A turn in which no root is added or taken away leaves the rebuilds their roots. -/
theorem tended (hs : v.Sound) (ht : Tended input v v') (hv : v.Anchored) : v'.Anchored := by
  cases ht with
  | steady h => exact (hv.steadily hs h).2
  | retried h₁ hsame h₂ => exact ((hv.beginning hs h₁ hsame).steadily (hs.beginning h₁) h₂).2

/-- A turn records no stray if rebuilds are only scheduled for roots that are published. -/
theorem strays_after (hs : v.Sound) (ho : Outline input v v') (hv : v.Anchored) :
    (h.after v.workspace v'.workspace).strays = h.strays := by
  cases ho with
  | quiet hm => rw [h.after_quiet hm]
  | @begun v₁ v₂ h₁ h₂ h₃ hnew =>
    rw [h.after_begun h₁ h₃]
    have hv₁ := (hv.steadily hs h₁).2
    cases h₂ with
    | introduce w R id source root hid hk => rw [h.after_admitted source hk]
    | retry w R id old f hid hf =>
      have hknown : w.knows f.root.key = true := by
        rw [← Workspace.keyOf_of_model? hf]
        exact hv₁ old (List.mem_of_getElem? hid)
      rw [h.after_retried, hknown]
      rfl

end Anchored

end View

/-! ## Rebuilds apart from other changes -/

namespace Engine

variable {e : Engine} {id : TaskId} {old : ModelId}

/-- No rebuild is scheduled. -/
def Unscheduled (e : Engine) : Prop := ∀ t ∈ e.tasks, t.activity.line ≠ .scheduled

/-- No folder is about to be added, and none are being taken away. -/
def Settled (e : Engine) : Prop :=
  ∀ t ∈ e.tasks, t.activity.line ≠ .entry ∧ t.activity.line ≠ .removal

/-- The role of a rebuild that is scheduled is that of a task. -/
theorem exists_rebuilding (h : .rebuilding old ∈ e.roles) :
    ∃ t ∈ e.tasks, t.activity = .rebuilding old := by
  obtain ⟨t, ht, hrole⟩ := List.mem_map.mp h
  refine ⟨t, ht, ?_⟩
  cases ha : t.activity with
  | rebuilding i =>
    rw [ha] at hrole
    cases hrole
    rfl
  | gathering children failure after =>
    rw [ha] at hrole
    cases after <;> cases hrole
  | _ =>
    rw [ha] at hrole
    cases hrole

/-- Where no rebuild is scheduled all have their roots. -/
theorem Unscheduled.anchored (he : e.Unscheduled) : e.view.Anchored := by
  intro old hr
  obtain ⟨t, ht, ha⟩ := exists_rebuilding hr
  exact absurd (by rw [ha]; rfl) (he t ht)

/-- A task that goes on schedules no rebuild. -/
theorem Unscheduled.resume (he : e.Unscheduled) (answers : Answers) :
    (e.resume id answers).Unscheduled := by
  intro u hu hline
  obtain ⟨j, hj⟩ := List.getElem?_of_mem hu
  rcases line_resume answers hj with ⟨v, hv, ⟨-, hsame⟩ | hleads⟩ | ⟨t, ht, hspawns⟩
  · exact he v (List.mem_of_getElem? hv) (hsame.symm.trans hline)
  · rw [hline] at hleads
    cases hl : v.activity.line <;> simp [hl, Line.leads] at hleads
  · rw [hline] at hspawns
    cases hl : t.activity.line <;> simp [hl, Line.spawns] at hspawns

/-- A task that goes on adds no folder and takes none away, if none did before. -/
theorem Settled.resume (he : e.Settled) (answers : Answers) : (e.resume id answers).Settled := by
  intro u hu
  obtain ⟨j, hj⟩ := List.getElem?_of_mem hu
  rcases line_resume answers hj with ⟨v, hv, ⟨-, hsame⟩ | hleads⟩ | ⟨t, ht, hspawns⟩
  · rw [hsame]
    exact he v (List.mem_of_getElem? hv)
  · have hold := he v (List.mem_of_getElem? hv)
    cases hl : v.activity.line <;> cases hl' : u.activity.line <;> simp_all [Line.leads]
  · have hold := he t (List.mem_of_getElem? ht)
    cases hl : t.activity.line <;> cases hl' : u.activity.line <;> simp_all [Line.spawns]

/-- No turn schedules a rebuild. -/
theorem rebuilding_resume {answers : Answers}
    (h : .rebuilding old ∈ (e.resume id answers).roles) : .rebuilding old ∈ e.roles := by
  obtain ⟨u, hu, ha⟩ := exists_rebuilding h
  obtain ⟨j, hj⟩ := List.getElem?_of_mem hu
  have hline : u.activity.line = .scheduled := by rw [ha]; rfl
  rcases line_resume answers hj with ⟨v, hv, ⟨hsame, -⟩ | hleads⟩ | ⟨t, ht, hspawns⟩
  · rw [ha] at hsame
    exact List.mem_map.mpr ⟨v, List.mem_of_getElem? hv, hsame.symm⟩
  · rw [hline] at hleads
    cases hl : v.activity.line <;> simp [hl, Line.leads] at hleads
  · rw [hline] at hspawns
    cases hl : t.activity.line <;> simp [hl, Line.spawns] at hspawns

/-- As long as no folder is added or taken away, the roots stay. -/
theorem Settled.tended (he : e.Settled) (id : TaskId) (answers : Answers) :
    Tended (Event.resume id answers).input e.view (e.resume id answers).view := by
  cases ht : e.task? id with
  | none =>
    rw [resume_of_task?_eq_none ht]
    exact .steady .refl
  | some t =>
    have hline := he t (List.mem_of_getElem? ht)
    apply tended_resume ht
    · intro folder ha
      exact hline.1 (by rw [ha]; rfl)
    · intro rest added ha
      exact hline.2 (by rw [ha]; rfl)

/-! ## Operations that begin while nothing is under way -/

/-- A task that has ended is on no line. -/
theorem line_eq_other_of_atRest (hrest : e.atRest = true) {t : Task} (ht : t ∈ e.tasks) :
    t.activity.line = .other := by
  have hdone := List.all_eq_true.mp hrest t ht
  cases ha : t.activity with
  | done r => rfl
  | _ =>
    rw [ha] at hdone
    cases hdone

/-- An operation other than a rebuild schedules none. -/
theorem Unscheduled.start (hrest : e.atRest = true) {op : Operation} (hop : op.rebuilds = false) :
    (e.start op).Unscheduled := by
  intro u hu
  obtain ⟨j, hj⟩ := List.getElem?_of_mem hu
  rcases line_start op hj with ⟨v, hv, hsame⟩ | hnew
  · rw [← hsame, line_eq_other_of_atRest hrest (List.mem_of_getElem? hv)]
    exact nofun
  · rw [hop] at hnew
    exact hnew.1

/-- A rebuild that begins adds no folder and takes none away. -/
theorem Settled.start (hrest : e.atRest = true) {op : Operation} (hop : op.rebuilds = true) :
    (e.start op).Settled := by
  intro u hu
  obtain ⟨j, hj⟩ := List.getElem?_of_mem hu
  rcases line_start op hj with ⟨v, hv, hsame⟩ | hnew
  · rw [← hsame, line_eq_other_of_atRest hrest (List.mem_of_getElem? hv)]
    exact ⟨nofun, nofun⟩
  · rw [hop] at hnew
    rcases hnew with hline | hline <;> rw [hline] <;> exact ⟨nofun, nofun⟩

/-- An operation that rebuilds schedules rebuilds of models in force, and may put settings in
force. -/
theorem view_start_rebuildAll (e : Engine) (context : Context) (models : List ModelId) :
    (({ e.spawned with workspace := { e.workspace with context } } : Engine).rebuildAll
      e.tasks.length models).view =
        ⟨{ e.workspace with context }, e.roles ++ [.idle] ++ models.map .rebuilding, .resting⟩ := by
  have hlt : e.tasks.length < e.spawned.tasks.length := by
    rw [length_spawned]
    exact Nat.lt_succ_self _
  have hroles : e.spawned.roles = e.roles ++ [.idle] := List.map_append
  have hset : e.spawned.roles.set e.tasks.length .idle = e.roles ++ [.idle] := by
    rw [hroles, List.set_append_right _ _ (Nat.le_of_eq e.roles_length), roles_length]
    simp
  have hview := view_rebuildAll (e := { e.spawned with workspace := { e.workspace with context } })
    hlt models
  rw [hview]
  exact congrArg (fun R => View.mk { e.workspace with context } (R ++ models.map .rebuilding)
    .resting) hset

/-- A rebuild that begins schedules looks at published models, and does nothing else. -/
theorem exists_view_start {op : Operation} (hop : op.rebuilds = true) :
    ∃ (context : Context) (models : List ModelId),
      (∀ i ∈ models, i ∈ e.workspace.publishedIds) ∧ (e.start op).view =
      ⟨{ e.workspace with context }, e.roles ++ [.idle] ++ models.map .rebuilding, .resting⟩ := by
  cases op with
  | rebuild roots =>
    cases roots with
    | none =>
      exact ⟨e.workspace.context, e.workspace.publishedIds, fun _ h => h,
        view_start_rebuildAll e _ _⟩
    | some roots =>
      refine ⟨e.workspace.context,
        roots.filterMap fun r : FilePath => e.workspace.published.find? r.key, ?_,
        view_start_rebuildAll e _ _⟩
      intro i hi
      obtain ⟨root, -, hfind⟩ := List.mem_filterMap.mp hi
      exact Workspace.mem_publishedIds_iff.mpr ⟨root.key, hfind⟩
  | updateSettings settings =>
    exact ⟨_, concerned e.workspace settings, fun _ h => mem_publishedIds_of_concerned h,
      view_start_rebuildAll e _ _⟩
  | _ => cases hop

/-- The rebuilds that an operation schedules are those of published roots. -/
theorem anchored_start (hs : e.view.Sound) (hrest : e.atRest = true) {op : Operation}
    (hop : op.rebuilds = true) : (e.start op).view.Anchored := by
  obtain ⟨context, models, hmodels, hview⟩ := exists_view_start (e := e) hop
  rw [hview]
  intro old hr
  rcases List.mem_append.mp hr with hr | hr
  · rcases List.mem_append.mp hr with hr | hr
    · cases role_eq_idle_of_atRest hrest hr
    · cases List.mem_singleton.mp hr
  · have hold : old ∈ models := by simpa using hr
    obtain ⟨key, hp⟩ := Workspace.mem_publishedIds_iff.mp (hmodels old hold)
    have hkey : e.workspace.keyOf old = key := (hs.published key old hp).2
    have hknown : e.workspace.knows (e.workspace.keyOf old) = true := by
      rw [hkey]
      exact Workspace.knows_eq_true_iff.mpr ⟨old, hp⟩
    exact hknown

/-- What is under way is either no rebuild, or rebuilds of published roots and nothing that adds a
root or takes one away. -/
def Apart (e : Engine) : Prop := e.Unscheduled ∨ e.view.Anchored ∧ e.Settled

/-- Where rebuilds are kept apart they have their roots. -/
theorem Apart.anchored (he : e.Apart) : e.view.Anchored := by
  rcases he with he | ⟨he, -⟩
  · exact he.anchored
  · exact he

/-- A task that goes on keeps rebuilds and changes of roots apart. -/
theorem Apart.resume (he : e.Apart) (hs : e.view.Sound) (answers : Answers) :
    (e.resume id answers).Apart := by
  rcases he with he | ⟨hanchored, hsettled⟩
  · exact .inl (he.resume answers)
  · exact .inr ⟨hanchored.tended hs (hsettled.tended id answers), hsettled.resume answers⟩

/-- An operation that begins when no other one is under way keeps them apart. -/
theorem Apart.start (hs : e.view.Sound) (hrest : e.atRest = true) (op : Operation) :
    (e.start op).Apart := by
  cases hop : op.rebuilds with
  | false => exact .inl (.start hrest hop)
  | true => exact .inr ⟨anchored_start hs hrest hop, .start hrest hop⟩

end Engine

/-! ## Operations that run one by one -/

namespace Chronicle

/-- What operations that run one by one leave: the records are right and hold no strays. -/
structure Tidy (c : Chronicle) : Prop where
  right : c.Right
  current : c.engine.view.Current c.history
  apart : c.engine.Apart
  strays : c.history.strays = []

namespace Tidy

variable {c : Chronicle}

/-- The records of a fresh engine are tidy. -/
theorem fresh (context : Context) : (Chronicle.fresh context).Tidy where
  right := .fresh context
  current := nofun
  apart := .inl fun _ ht => absurd ht List.not_mem_nil
  strays := rfl

/-- An event keeps the records tidy if it keeps rebuilds and changes of roots apart. -/
theorem step (hc : c.Tidy) {event : Event} (hapart : (c.engine.step event).Apart) :
    (c.step event).Tidy where
  right := hc.right.step event
  current :=
    hc.current.outline (Engine.step_outline c.engine event) hc.right.sound hc.right.recorded
  apart := hapart
  strays := by
    have hafter := hc.apart.anchored.strays_after (h := c.history) hc.right.sound
      (Engine.step_outline c.engine event)
    exact hafter.trans hc.strays

/-- A task that goes on keeps the records tidy. -/
theorem resume (hc : c.Tidy) (id : TaskId) (answers : Answers) :
    (c.step (.resume id answers)).Tidy :=
  hc.step (hc.apart.resume hc.right.sound answers)

/-- An operation that begins when no other one is under way keeps the records tidy. -/
theorem call (hc : c.Tidy) (hrest : c.engine.atRest = true) (op : Operation) :
    (c.step (.call op)).Tidy :=
  hc.step (.start hc.right.sound hrest op)

/-- Operations that run one by one keep the records tidy. -/
theorem run (hc : c.Tidy) {events : List Event} (h : c.engine.oneByOne events = true) :
    (c.run events).Tidy := by
  induction events generalizing c with
  | nil => exact hc
  | cons event rest ih =>
    cases event with
    | call op =>
      rw [Engine.oneByOne, Bool.and_eq_true] at h
      exact ih (hc.call h.1 op) h.2
    | resume id answers =>
      rw [Engine.oneByOne] at h
      exact ih (hc.resume id answers) h

/-- Whenever nothing is under way no rebuild is noted. -/
theorem latest_eq_none (hc : c.Tidy) (hrest : c.engine.atRest = true) (key : String) :
    c.engine.workspace.latest.find? key = none := by
  rw [Option.eq_none_iff_forall_ne_some]
  intro m hl
  have hstray : m ∈ c.history.strays := by
    cases hp : c.engine.workspace.published.find? key with
    | none => exact hc.right.recorded.forgotten key m hp hl
    | some i => exact hc.right.mem_strays_of_latest hrest hp hl
  rw [hc.strays] at hstray
  cases hstray

/-- At rest the model that is published for a root is the newest one of that root. -/
theorem newest (hc : c.Tidy) (hrest : c.engine.atRest = true) {key : String} {i : ModelId}
    (hp : c.engine.workspace.published.find? key = some i) :
    c.engine.workspace.Newest key i := by
  apply hc.right.newest hrest hp
  rw [hc.strays]
  exact List.not_mem_nil

/-- At rest the model that is published for a root was begun under the settings in force. -/
theorem inForce (hc : c.Tidy) (hrest : c.engine.atRest = true) {key : String} {i : ModelId}
    (hp : c.engine.workspace.published.find? key = some i) : c.engine.workspace.InForce i := by
  apply hc.right.inForce hc.current hrest hp
  rw [hc.strays]
  exact List.not_mem_nil

/-- Whenever nothing is under way new settings concern the folders whose own settings change, or all
folders if MozillaBuild moves. -/
theorem mem_concerned_iff (hc : c.Tidy) (hrest : c.engine.atRest = true) (settings : Settings)
    {key : String} {i : ModelId} {f : Folder}
    (hp : c.engine.workspace.published.find? key = some i)
    (hf : c.engine.workspace.model? i = some f) :
    i ∈ Engine.concerned c.engine.workspace settings ↔
      c.engine.workspace.context.movesMozillaBuild settings = true ∨
        f.settings.agrees (settings.forFolder c.engine.workspace.platform f.root) = false := by
  have hmem : i ∈ c.engine.workspace.publishedIds :=
    Workspace.mem_publishedIds_iff.mpr ⟨key, hp⟩
  have hlatest := hc.latest_eq_none hrest f.root.key
  unfold Engine.concerned
  split
  · next hmoves => simp [hmem, hmoves]
  · next hmoves => simp [List.mem_filter, hmem, hf, hlatest, hmoves]

end Tidy

end Chronicle

/-! ## Models while some are looked at again -/

/-- The folder of a model, as the editor names it and by its root. -/
def Workspace.folderOf (w : Workspace) (i : ModelId) : Option (EditorFolder × FilePath) :=
  (w.model? i).map fun f => (f.source, f.root)

/-- The folder of a model depends on where the models come from. -/
theorem Workspace.folderOf_congr {w w' : Workspace} (h : w'.origins = w.origins) (i : ModelId) :
    w'.folderOf i = w.folderOf i := by
  have hfolder (w : Workspace) : w.folderOf i = w.origins[i]?.map fun f => (f.source, f.root) := by
    rw [origins_getElem?, Option.map_map]
    rfl
  rw [hfolder, hfolder, h]

section

variable {input : Input} {v v' : View}

/-- A look that begins does not change the folders of older models. -/
theorem Beginning.folderOf_of_lt (h : Beginning v v') {i : ModelId}
    (hi : i < v.workspace.models.length) : v'.workspace.folderOf i = v.workspace.folderOf i := by
  unfold Workspace.folderOf
  rw [h.model?_of_lt hi]

/-- A look that begins without a root being added is one that was scheduled, and it is at the same
folder. -/
theorem Beginning.exists_rebuilding (h : Beginning v v')
    (hsame : v'.workspace.published = v.workspace.published) :
    ∃ old, .rebuilding old ∈ v.roles ∧
      v'.workspace.folderOf v.workspace.models.length = v.workspace.folderOf old := by
  cases h with
  | introduce w R id source root hid hk =>
    have hfind : (w.admitted source root).published.find? root.key = some w.models.length := by
      simp [Workspace.admitted, Table.find?_insert]
    have hsame : (w.admitted source root).published = w.published := hsame
    rw [hsame, hk] at hfind
    cases hfind
  | retry w R id old f hid hf =>
    refine ⟨old, List.mem_of_getElem? hid, ?_⟩
    have hself : (w.retried f.source f.root).model? w.models.length =
        some (w.fresh f.source f.root) :=
      w.model?_begun_self _
    simp only [Workspace.folderOf, hself, hf]
    rfl

/-- A steady move keeps the published roots, and their order. -/
theorem Steady.names_published (h : Steady input v v') :
    v'.workspace.published.names = v.workspace.published.names := by
  cases h with
  | follow w R h => rw [Workspace.retire_eq]
  | register w R id hid => rw [Workspace.registered_eq]
  | replace w R m current a hp hl ha =>
    have hmem : (w.published.names.any (w.keyOf m == ·)) = true := by
      rw [List.any_eq_true]
      exact ⟨w.keyOf m, Table.mem_names_iff.mpr ⟨current, hp⟩, beq_self_eq_true _⟩
    simp only [Workspace.replaced, Table.names_insert, hmem, if_true]
  | _ => rfl

/-- Steady moves keep the published roots, and their order. -/
theorem Steadily.names_published (h : Steadily input v v') :
    v'.workspace.published.names = v.workspace.published.names :=
  Steadily.keeps (I := fun u => u.workspace.published.names = v.workspace.published.names)
    (fun _ _ h ih => h.names_published.trans ih) h rfl

/-- What is known of a model changes only with the outcome of a look at it. -/
theorem Move.bare_model? {m : ModelId} (h : Move input v v') (hm : ∀ p, ¬ v.Looks p m) :
    (v'.workspace.model? m).map Folder.bare = (v.workspace.model? m).map Folder.bare := by
  cases h with
  | steady h =>
    cases h with
    | refresh w R a i f => exact (Workspace.Calm.refreshed w i f).models m
    | takeIn w R p i outcome =>
      have hne : i ≠ m := by
        rintro rfl
        exact hm p (.inr rfl)
      dsimp only
      rw [Workspace.concluded, Workspace.model?_modifyModel, if_neg hne]
    | follow w R h => rw [Workspace.retire_eq]; rfl
    | register w R id hid => rw [Workspace.registered_eq]; rfl
    | _ => rfl
  | clearing h =>
    cases h with
    | empty w R => rw [Workspace.emptied_eq]; rfl
    | _ => rfl

end

namespace View

/-- Nobody looks at a model, and what is known of it is what was known before. -/
structure Untouched (w₀ : Workspace) (i : ModelId) (v : View) : Prop where
  looks : ∀ p, ¬ v.Looks p i
  lt : i < v.workspace.models.length
  bare : (v.workspace.model? i).map Folder.bare = (w₀.model? i).map Folder.bare

/-- A rebuild of a root is scheduled, or a look at it was begun since there were `n` models. -/
def Renewed (n : Nat) (key : String) (v : View) : Prop :=
  v.Scheduled key ∨ ∃ m, n ≤ m ∧ m < v.workspace.models.length ∧ v.workspace.keyOf m = key

/-- Only some models are looked at again: rebuilds are scheduled only for them, every new model is
of the folder of one of them, and the roots stay. -/
structure Renewing (w₀ : Workspace) (ids : List ModelId) (v : View) : Prop where
  names : v.workspace.published.names = w₀.published.names
  scheduled : ∀ old, .rebuilding old ∈ v.roles → old ∈ ids
  lt : ∀ old ∈ ids, old < w₀.models.length
  older : ∀ i, i < w₀.models.length → v.workspace.folderOf i = w₀.folderOf i
  le : w₀.models.length ≤ v.workspace.models.length
  newer : ∀ m, w₀.models.length ≤ m → m < v.workspace.models.length →
    ∃ old ∈ ids, v.workspace.folderOf m = w₀.folderOf old

variable {input : Input} {w₀ : Workspace} {ids : List ModelId} {n : Nat} {key : String}
  {i : ModelId} {v v' : View}

/-- A move that begins no look touches no model that nobody looks at. -/
theorem Untouched.move (hmove : Move input v v') (hv : v.Untouched w₀ i) : v'.Untouched w₀ i where
  looks p hl := hv.looks p (hmove.looks hl)
  lt := hmove.models_length.symm ▸ hv.lt
  bare := (hmove.bare_model? hv.looks).trans hv.bare

/-- A look that begins is at a new model. -/
theorem Untouched.beginning (hb : Beginning v v') (hv : v.Untouched w₀ i) : v'.Untouched w₀ i where
  looks p hl := by
    rcases hb.looks hl with hl | heq
    · exact hv.looks p hl
    · exact Nat.ne_of_lt hv.lt heq
  lt := hb.lt_of_lt hv.lt
  bare := by
    rw [hb.model?_of_lt hv.lt]
    exact hv.bare

/-- A rebuild that was scheduled or begun is not undone by a move. -/
theorem Renewed.move (hmove : Move input v v') (hv : v.Renewed n key) : v'.Renewed n key := by
  rcases hv with hscheduled | ⟨m, hn, hlt, hkey⟩
  · exact .inl (Current.scheduled_of_move hmove hscheduled)
  · exact .inr ⟨m, hn, hmove.models_length.symm ▸ hlt, (hmove.keyOf m).trans hkey⟩

/-- A scheduled rebuild of a root is still scheduled when another look begins, unless it is the one
that begins. -/
theorem Renewed.beginning (hb : Beginning v v') (hs : v.Sound)
    (hn : n ≤ v.workspace.models.length) (hv : v.Renewed n key) : v'.Renewed n key := by
  rcases hv with ⟨old, hr, hkey⟩ | ⟨m, hle, hlt, hkey⟩
  · have hold := hs.rebuilding old hr
    cases hb with
    | introduce w R id source root hid hk =>
      have hb := Beginning.introduce w R id source root hid hk
      exact .inl ⟨old, mem_set_of_ne hid hr nofun, (hb.keyOf_of_lt hold).trans hkey⟩
    | retry w R id old' f hid hf =>
      by_cases heq : key = f.root.key
      · subst heq
        have hb := Beginning.retry w R id old' f hid hf
        exact .inr ⟨w.models.length, hn, hb.lt_self, Recorded.keyOf_retried_self w f⟩
      · exact .inl (Current.scheduled_of_retry hid hf hs heq ⟨old, hr, hkey⟩)
  · exact .inr ⟨m, hle, hb.keyed_of_keyed ⟨hlt, hkey⟩⟩

namespace Renewing

/-- Steady moves look at no other models again, if no others are scheduled in the end. -/
theorem steadily (hmoves : Steadily input v v') (hr : ∀ old, .rebuilding old ∈ v'.roles → old ∈ ids)
    (hv : v.Renewing w₀ ids) : v'.Renewing w₀ ids := by
  have horigins : v'.workspace.origins = v.workspace.origins :=
    Steadily.keeps (I := fun u => u.workspace.origins = v.workspace.origins)
      (fun _ _ h ih => h.origins.trans ih) hmoves rfl
  have hlength := hmoves.moves.models_length
  refine ⟨hmoves.names_published.trans hv.names, hr, hv.lt, ?_, hlength.symm ▸ hv.le, ?_⟩
  · intro i hi
    exact (Workspace.folderOf_congr horigins i).trans (hv.older i hi)
  · intro m hm hlt
    rw [hlength] at hlt
    rw [Workspace.folderOf_congr horigins]
    exact hv.newer m hm hlt

/-- A look that begins is at the folder of a model that is to be looked at again. -/
theorem beginning (hb : Beginning v v') (hsame : v'.workspace.published = v.workspace.published)
    (hv : v.Renewing w₀ ids) : v'.Renewing w₀ ids := by
  refine ⟨hsame ▸ hv.names, fun old hr => hv.scheduled old (hb.rebuilding hr), hv.lt, ?_, ?_, ?_⟩
  · intro i hi
    exact (hb.folderOf_of_lt (Nat.lt_of_lt_of_le hi hv.le)).trans (hv.older i hi)
  · rw [hb.models_length]
    exact Nat.le_succ_of_le hv.le
  · intro m hm hlt
    rw [hb.models_length] at hlt
    rcases Nat.lt_succ_iff_lt_or_eq.mp hlt with hlt | rfl
    · rw [hb.folderOf_of_lt hlt]
      exact hv.newer m hm hlt
    · obtain ⟨old, hr, hfolder⟩ := hb.exists_rebuilding hsame
      have hold := hv.scheduled old hr
      exact ⟨old, hold, hfolder.trans (hv.older old (hv.lt old hold))⟩

/-- A turn in which no root is added or taken away looks at no other models again. -/
theorem tended (ht : Tended input v v') (hr : ∀ old, .rebuilding old ∈ v'.roles → old ∈ ids)
    (hv : v.Renewing w₀ ids) : v'.Renewing w₀ ids := by
  cases ht with
  | steady h => exact hv.steadily h hr
  | retried h₁ hsame h₂ => exact (hv.beginning h₁ hsame).steadily h₂ hr

end Renewing

end View

/-! ## New settings -/

/-- The turns of tasks, one after the other. -/
def Event.turns (turns : List (TaskId × Answers)) : List Event :=
  turns.map fun turn => .resume turn.1 turn.2

/-- The turns of tasks put no settings in force. -/
theorem Event.settingsAfter_turns (settings : Settings) (turns : List (TaskId × Answers)) :
    settingsAfter settings (Event.turns turns) = settings := by
  induction turns with
  | nil => rfl
  | cons turn rest ih => exact ih

namespace Chronicle

/-- The models that settings concern are looked at again, and nothing else is done. -/
structure Renews (w₀ : Workspace) (ids : List ModelId) (c : Chronicle) : Prop where
  tidy : c.Tidy
  settled : c.engine.Settled
  renewing : c.engine.view.Renewing w₀ ids
  renewed : ∀ i ∈ ids, c.engine.view.Renewed w₀.models.length (w₀.keyOf i)
  untouched : ∀ i < w₀.models.length, c.engine.view.Untouched w₀ i

namespace Renews

variable {w₀ : Workspace} {ids : List ModelId} {c : Chronicle}

/-- New settings that are put in force while nothing is under way let the models that they concern
be looked at again. -/
theorem updateSettings (hc : c.Tidy) (hrest : c.engine.atRest = true) (settings : Settings) :
    (c.step (.call (.updateSettings settings))).Renews c.engine.workspace
      (Engine.concerned c.engine.workspace settings) := by
  have hview : (c.step (.call (.updateSettings settings))).engine.view = _ :=
    Engine.view_start_rebuildAll c.engine (c.engine.workspace.context.updateSettings settings)
      (Engine.concerned c.engine.workspace settings)
  have hidle {r : Role} (hr : r ∈ c.engine.roles ++ [.idle]) : r = .idle := by
    rcases List.mem_append.mp hr with hr | hr
    · exact Engine.role_eq_idle_of_atRest hrest hr
    · exact List.mem_singleton.mp hr
  refine ⟨hc.call hrest _, .start hrest rfl, ?_, ?_, ?_⟩
  · rw [hview]
    refine ⟨rfl, ?_, ?_, fun _ _ => rfl, Nat.le_refl _, ?_⟩
    · intro old hr
      rcases List.mem_append.mp hr with hr | hr
      · cases hidle hr
      · simpa using hr
    · intro old hold
      exact hc.right.sound.lt_of_mem_publishedIds (mem_publishedIds_of_concerned hold)
    · intro m hm hlt
      exact absurd hlt (Nat.not_lt.mpr hm)
  · intro i hi
    rw [hview]
    exact .inl ⟨i, List.mem_append_right _ (List.mem_map_of_mem hi), rfl⟩
  · intro i hi
    rw [hview]
    refine ⟨?_, hi, rfl⟩
    rintro p (hr | ha)
    · rcases List.mem_append.mp hr with hr | hr
      · cases hidle hr
      · simp at hr
    · cases ha

/-- A task that goes on does so with the rebuilds that were asked for, and nothing else. -/
theorem resume (hc : c.Renews w₀ ids) (id : TaskId) (answers : Answers) :
    (c.step (.resume id answers)).Renews w₀ ids where
  tidy := hc.tidy.resume id answers
  settled := hc.settled.resume answers
  renewing := by
    apply hc.renewing.tended (hc.settled.tended id answers)
    intro old hr
    exact hc.renewing.scheduled old (Engine.rebuilding_resume hr)
  renewed i hi := by
    -- The numbers of models are in order all the while, and there are no fewer of them.
    have hkeeps := @Engine.step_keeps
      (fun v => (v.Sound ∧ w₀.models.length ≤ v.workspace.models.length) ∧
        v.Renewed w₀.models.length (w₀.keyOf i)) (.resume id answers)
      (fun v v' hmove hv => ⟨⟨hv.1.1.move hmove, hmove.models_length.symm ▸ hv.1.2⟩,
        hv.2.move hmove⟩)
      (fun v v' hb hv => ⟨⟨hv.1.1.beginning hb,
        Nat.le_trans hv.1.2 (hb.models_length ▸ Nat.le_succ _)⟩,
        hv.2.beginning hb hv.1.1 hv.1.2⟩) c.engine
    exact (hkeeps ⟨⟨hc.tidy.right.sound, hc.renewing.le⟩, hc.renewed i hi⟩).2
  untouched i hi :=
    Engine.step_keeps (fun _ _ hmove hv => hv.move hmove) (fun _ _ hb hv => hv.beginning hb)
      (hc.untouched i hi)

/-- Any number of turns go on with the rebuilds that were asked for. -/
theorem run (hc : c.Renews w₀ ids) (turns : List (TaskId × Answers)) :
    (c.run (Event.turns turns)).Renews w₀ ids := by
  induction turns generalizing c with
  | nil => exact hc
  | cons turn rest ih => exact ih (hc.resume turn.1 turn.2)

/-- The model of a root is of a folder with that root. -/
theorem exists_published (hc : c.Renews w₀ ids) {key : String} {i : ModelId}
    (hp₀ : w₀.published.find? key = some i) :
    ∃ j g, c.engine.workspace.published.find? key = some j ∧
      c.engine.workspace.model? j = some g ∧ g.root.key = key := by
  have hmem : key ∈ c.engine.view.workspace.published.names := by
    rw [hc.renewing.names]
    exact Table.mem_names_iff.mpr ⟨i, hp₀⟩
  obtain ⟨j, hp⟩ := Table.mem_names_iff.mp hmem
  obtain ⟨hlt, hkey⟩ := hc.tidy.right.sound.published key j hp
  obtain ⟨g, hg⟩ := Workspace.exists_model? hlt
  exact ⟨j, g, hp, hg, (Workspace.keyOf_of_model? hg).symm.trans hkey⟩

/-- A new model of a root is of the folder that was published under the root, and that folder was
to be looked at again. -/
theorem eq_of_newer (hc : c.Renews w₀ ids)
    (hids : ∀ old ∈ ids, w₀.published.find? (w₀.keyOf old) = some old) {j : ModelId}
    {g : Folder} (hg : c.engine.workspace.model? j = some g) (hj : w₀.models.length ≤ j)
    {i : ModelId} (hp₀ : w₀.published.find? g.root.key = some i) :
    i ∈ ids ∧ w₀.folderOf i = some (g.source, g.root) := by
  obtain ⟨old, hold, hfolder⟩ := hc.renewing.newer j hj (Workspace.lt_of_model? hg)
  rw [Workspace.folderOf, show c.engine.view.workspace.model? j = some g from hg] at hfolder
  obtain ⟨f, hf, hsame⟩ := Option.map_eq_some_iff.mp hfolder.symm
  have hkey : w₀.keyOf old = g.root.key :=
    (Workspace.keyOf_of_model? hf).trans (congrArg (fun x => x.2.key) hsame)
  have heq : old = i := by
    have hp := hids old hold
    rw [hkey, hp₀] at hp
    exact (Option.some.inj hp).symm
  subst heq
  exact ⟨hold, hfolder.symm⟩

/-- A folder whose rebuild was scheduled is published with a new model of the same root in the
end. -/
theorem newer_of_mem (hc : c.Renews w₀ ids) (hrest : c.engine.atRest = true)
    (hids : ∀ old ∈ ids, w₀.published.find? (w₀.keyOf old) = some old) {i j : ModelId}
    {f g : Folder} (hi : i ∈ ids) (hf : w₀.model? i = some f)
    (hp : c.engine.workspace.published.find? f.root.key = some j)
    (hg : c.engine.workspace.model? j = some g) (hkey : g.root.key = f.root.key) :
    i < j ∧ g.root = f.root := by
  have hle : w₀.models.length ≤ j := by
    rcases hc.renewed i hi with ⟨old, hr, -⟩ | ⟨m, hm, hlt, hsame⟩
    · cases Engine.role_eq_idle_of_atRest hrest hr
    · have hroot := hsame.trans (Workspace.keyOf_of_model? hf)
      exact Nat.le_trans hm (hc.tidy.newest hrest hp m hlt hroot)
  have hp₀ : w₀.published.find? g.root.key = some i := by
    have hp₀ := hids i hi
    rwa [Workspace.keyOf_of_model? hf, ← hkey] at hp₀
  have hfolder := (hc.eq_of_newer hids hg hle hp₀).2
  rw [Workspace.folderOf, hf] at hfolder
  have hsame := congrArg Prod.snd (Option.some.inj hfolder)
  exact ⟨Nat.lt_of_lt_of_le (Workspace.lt_of_model? hf) hle, hsame.symm⟩

/-- The models that were there before keep their keys. -/
theorem keyOf_of_lt (hc : c.Renews w₀ ids) {m : ModelId} (hm : m < w₀.models.length) :
    c.engine.workspace.keyOf m = w₀.keyOf m := by
  have hroot := congrArg (Option.map fun x => x.2.key) (hc.renewing.older m hm)
  simp only [Workspace.folderOf, Option.map_map] at hroot
  exact congrArg (·.getD "") hroot

/-- A folder whose rebuild was not scheduled keeps its model, and nothing else becomes known of
it. -/
theorem same_of_not_mem (hc : c.Renews w₀ ids) (hrest : c.engine.atRest = true)
    (hids : ∀ old ∈ ids, w₀.published.find? (w₀.keyOf old) = some old) {i j : ModelId}
    {f g : Folder} (hi : i ∉ ids) (hf : w₀.model? i = some f)
    (hnewest : w₀.Newest f.root.key i) (hp₀ : w₀.published.find? f.root.key = some i)
    (hp : c.engine.workspace.published.find? f.root.key = some j)
    (hg : c.engine.workspace.model? j = some g) (hkey : g.root.key = f.root.key) :
    j = i ∧ g.bare = f.bare := by
  have hlt : i < w₀.models.length := Workspace.lt_of_model? hf
  have hold : j < w₀.models.length := by
    by_contra hnot
    exact hi (hc.eq_of_newer hids hg (Nat.le_of_not_lt hnot) (hkey ▸ hp₀)).1
  have hle : i ≤ j := by
    apply hc.tidy.newest hrest hp i (Nat.lt_of_lt_of_le hlt hc.renewing.le)
    exact (hc.keyOf_of_lt hlt).trans (Workspace.keyOf_of_model? hf)
  have hge : j ≤ i := by
    apply hnewest j hold
    rw [← hc.keyOf_of_lt hold, Workspace.keyOf_of_model? hg, hkey]
  have heq : j = i := Nat.le_antisymm hge hle
  subst heq
  have hbare := (hc.untouched j hlt).bare
  rw [show c.engine.view.workspace.model? j = some g from hg, hf] at hbare
  exact ⟨rfl, Option.some.inj hbare⟩

end Renews

/-- Settings that are put in force while nothing is under way are those of every published folder
when nothing is under way again. -/
theorem Tidy.settings_agree {c : Chronicle} (hc : c.Tidy) (hrest : c.engine.atRest = true)
    {settings : Settings} (hs : c.engine.workspace.context.settings = settings) {key : String}
    {i : ModelId} {f : Folder} (hp : c.engine.workspace.published.find? key = some i)
    (hf : c.engine.workspace.model? i = some f) :
    f.settings.agrees (settings.forFolder c.engine.workspace.platform f.root) = true := by
  have horigin : c.engine.workspace.origins[i]? = some f.origin := by
    rw [Workspace.origins_getElem?, hf]
    rfl
  have hforce := hc.inForce hrest hp f.origin horigin
  rw [Context.folderSettings, hs] at hforce
  exact hforce

end Chronicle

namespace Engine

/-- What settings concern is published under its own key. -/
theorem find?_of_mem_concerned {w : Workspace} {R : List Role} {a : Acting} {settings : Settings}
    (hs : View.Sound ⟨w, R, a⟩) {old : ModelId} (hold : old ∈ concerned w settings) :
    w.published.find? (w.keyOf old) = some old := by
  obtain ⟨key, hp⟩ := Workspace.mem_publishedIds_iff.mp (mem_publishedIds_of_concerned hold)
  have hkey : w.keyOf old = key := (hs.published key old hp).2
  rw [hkey]
  exact hp

/-- Where operations run one by one, new settings keep all roots. They replace the model of a folder
by a newer one of the same root if and only if MozillaBuild moves or the settings that hold for the
folder differ from its own; every other folder keeps its model, and what is known of it. In the end
every folder has the settings that hold for its root under the new ones. -/
theorem updateSettings_rebuilds (context : Context) (before : List Event) (settings : Settings)
    (turns : List (TaskId × Answers)) (honebyone : (fresh context).oneByOne before = true) :
    let e₀ := (fresh context).run before
    let e := (e₀.start (.updateSettings settings)).run (Event.turns turns)
    e₀.atRest = true → e.atRest = true →
      e.workspace.published.names = e₀.workspace.published.names ∧
      ∀ key i f, e₀.workspace.published.find? key = some i → e₀.workspace.model? i = some f →
        ∃ j g, e.workspace.published.find? key = some j ∧ e.workspace.model? j = some g ∧
          g.root = f.root ∧
          (f.generation < g.generation ↔
            e₀.workspace.context.movesMozillaBuild settings = true ∨
              f.settings.agrees (settings.forFolder context.surroundings.platform f.root) =
                false) ∧
          (¬ f.generation < g.generation → j = i ∧ g.bare = f.bare) ∧
          g.settings.agrees (settings.forFolder context.surroundings.platform g.root) = true := by
  intro e₀ e hrest₀ hrest
  have hcontext₀ := (context_run (fresh context) before).1
  have hcontext := context_run e₀ (.call (.updateSettings settings) :: Event.turns turns)
  let c₀ := (Chronicle.fresh context).run before
  let c := (c₀.step (.call (.updateSettings settings))).run (Event.turns turns)
  have hengine₀ : c₀.engine = e₀ := Chronicle.run_engine _ _
  have hengine : c.engine = e := by
    have hstart : (c₀.step (.call (.updateSettings settings))).engine =
        e₀.start (.updateSettings settings) := by rw [← hengine₀]; rfl
    rw [Chronicle.run_engine, hstart]
  have hsurroundings₀ : c₀.engine.workspace.context.surroundings = context.surroundings := by
    rw [hengine₀]
    exact hcontext₀
  have hsurroundings : c.engine.workspace.context.surroundings = context.surroundings := by
    rw [hengine]
    exact hcontext.1.trans hcontext₀
  have hsettings : c.engine.workspace.context.settings = settings := by
    rw [hengine]
    exact hcontext.2.trans (Event.settingsAfter_turns settings turns)
  rw [← hengine₀] at hrest₀ ⊢
  rw [← hengine] at hrest ⊢
  have hc₀ : c₀.Tidy := (Chronicle.Tidy.fresh context).run honebyone
  have hc : c.Renews c₀.engine.workspace (concerned c₀.engine.workspace settings) :=
    (Chronicle.Renews.updateSettings hc₀ hrest₀ settings).run turns
  refine ⟨hc.renewing.names, fun key i f hp₀ hf => ?_⟩
  obtain ⟨j, g, hp, hg, hkey⟩ := hc.exists_published hp₀
  have hroot : f.root.key = key :=
    (Workspace.keyOf_of_model? hf).symm.trans (hc₀.right.sound.published key i hp₀).2
  have hconcerned := hc₀.mem_concerned_iff hrest₀ settings hp₀ hf
  have hagree := hc.tidy.settings_agree hrest hsettings hp hg
  have hids : ∀ old ∈ concerned c₀.engine.workspace settings,
      c₀.engine.workspace.published.find? (c₀.engine.workspace.keyOf old) = some old :=
    fun _ hold => find?_of_mem_concerned hc₀.right.sound hold
  rw [Workspace.platform, hsurroundings₀] at hconcerned
  rw [Workspace.platform, hsurroundings] at hagree
  subst hroot
  have hgeneration₀ : f.generation = i + 1 := hc₀.right.generation_eq hf
  have hgeneration : g.generation = j + 1 := hc.tidy.right.generation_eq hg
  by_cases hi : i ∈ concerned c₀.engine.workspace settings
  · obtain ⟨hlt, hsame⟩ := hc.newer_of_mem hrest hids hi hf hp hg hkey
    have hnewer : f.generation < g.generation := by
      rw [hgeneration₀, hgeneration]
      exact Nat.succ_lt_succ hlt
    exact ⟨j, g, hp, hg, hsame, ⟨fun _ => hconcerned.mp hi, fun _ => hnewer⟩,
      fun hnot => absurd hnewer hnot, hagree⟩
  · obtain ⟨heq, hbare⟩ :=
      hc.same_of_not_mem hrest hids hi hf (hc₀.newest hrest₀ hp₀) hp₀ hp hg hkey
    have hsame : g.bare.root = f.bare.root := by rw [hbare]
    have hnot : ¬ f.generation < g.generation := by
      rw [hgeneration₀, hgeneration, heq]
      exact Nat.lt_irrefl _
    exact ⟨j, g, hp, hg, hsame, ⟨fun hlt => absurd hlt hnot, fun h => absurd (hconcerned.mpr h) hi⟩,
      fun _ => ⟨heq, hbare⟩, hagree⟩

/-- A folder is added, and then the settings that hold for it change. -/
theorem updateSettings_rebuilds_settingsChanged :
    let e₀ := (fresh {}).run [.call (.add plainFolder), .resume 0 .ofPlainFolder]
    ∃ f g, e₀.workspace.model? 0 = some f ∧
      ((fresh {}).run settingsChanged).workspace.model? 1 = some g ∧ g.root = f.root ∧
      (f.generation < g.generation ↔
        e₀.workspace.context.movesMozillaBuild otherSettings = true ∨
          f.settings.agrees (otherSettings.forFolder .linux f.root) = false) ∧
      g.settings.agrees (otherSettings.forFolder .linux g.root) = true := by
  intro e₀
  have hp₀ : e₀.workspace.published.find? "/r" = some 0 := by decide +kernel
  have hlt : 0 < e₀.workspace.models.length := by decide +kernel
  have hp : ((fresh {}).run settingsChanged).workspace.published.find? "/r" = some 1 := by
    decide +kernel
  obtain ⟨f, hf⟩ := Workspace.exists_model? hlt
  have hmain := updateSettings_rebuilds {}
    [.call (.add plainFolder), .resume 0 .ofPlainFolder] otherSettings
    [(2, .ofPlainFolder), (2, .ofPlainFolder), (1, .ofPlainFolder)] (by decide +kernel)
    (by decide +kernel) (by decide +kernel)
  obtain ⟨j, g, hpj, hg, hroot, hnewer, -, hagree⟩ := hmain.2 "/r" 0 f hp₀ hf
  have heq : j = 1 := Option.some.inj (hpj.symm.trans hp)
  subst heq
  exact ⟨f, g, hf, hg, hroot, hnewer, hagree⟩

end Engine

end BuildLens
