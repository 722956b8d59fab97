import BuildLens.Proofs.Workspace.Newest

/-!
# The newest settings are in force

A model keeps the settings under which the look at it began, and it is published much later. When
settings change, every folder whose model would be under old settings is looked at again, and so is
every folder for which a rebuild is noted. This module shows that the published models are under the
newest settings once all looks have ended, except for strays.

Main definitions:

- `Event.settingsAfter`: the settings that a run puts in force last.
- `View.heir`: the model that is going to be the published one.
- `View.Current`: that model is under the settings in force, or a rebuild is scheduled.

Main results:

- `settings_run`: the settings in force after a run.
- `newest_settings`: published models that are no strays are under the settings in force.
-/

namespace BuildLens

/-- Settings agree with themselves. -/
theorem FolderSettings.agrees_refl (s : FolderSettings) : s.agrees s = true := by
  simp [agrees, Table.agrees_refl]

/-- The settings in force after a run that began under given ones: those that were put in force
last. -/
def Event.settingsAfter (settings : Settings) (events : List Event) : Settings :=
  events.foldl (fun s event => event.settings?.getD s) settings

/-! ## The settings in force -/

section Settings

variable {input : Input} {v v' : View}

/-- Only one move puts settings in force, and it schedules rebuilds. -/
theorem Move.context_cases (h : Move input v v') :
    v'.workspace.context.surroundings = v.workspace.context.surroundings ∧
        v'.workspace.context.settings = v.workspace.context.settings ∨
      ∃ w R a settings, input.settings = some settings ∧ v = ⟨w, R, a⟩ ∧
        v' = ⟨{ w with context := w.context.updateSettings settings },
          R ++ (Engine.concerned w settings).map .rebuilding, a⟩ := by
  cases h with
  | steady h =>
    cases h with
    | configure w R a settings hs => exact .inr ⟨w, R, a, settings, hs, rfl, rfl⟩
    | follow w R h =>
      rw [Workspace.retire_eq]
      exact .inl ⟨rfl, rfl⟩
    | register w R id hid =>
      rw [Workspace.registered_eq]
      exact .inl ⟨rfl, rfl⟩
    | _ => exact .inl ⟨rfl, rfl⟩
  | clearing h =>
    cases h with
    | empty w R =>
      rw [Workspace.emptied_eq]
      exact .inl ⟨rfl, rfl⟩
    | _ => exact .inl ⟨rfl, rfl⟩

/-- A look that begins leaves what all folders share. -/
theorem Beginning.context_eq (h : Beginning v v') :
    v'.workspace.context = v.workspace.context := by
  cases h <;> rfl

/-- Moves that put no settings in force leave the surroundings and the settings. -/
theorem Moves.context_eq (hinput : input.settings = none) (h : Moves input v v') :
    v'.workspace.context.surroundings = v.workspace.context.surroundings ∧
      v'.workspace.context.settings = v.workspace.context.settings := by
  refine h.keeps (I := fun u =>
    u.workspace.context.surroundings = v.workspace.context.surroundings ∧
      u.workspace.context.settings = v.workspace.context.settings) ?_ ⟨rfl, rfl⟩
  intro u u' hmove hu
  rcases hmove.context_cases with hsame | ⟨w, R, a, settings, hs, -, -⟩
  · exact ⟨hsame.1.trans hu.1, hsame.2.trans hu.2⟩
  · rw [hinput] at hs
    cases hs

/-- A turn that puts no settings in force leaves the surroundings and the settings. -/
theorem Outline.context_eq (hinput : input.settings = none) (h : Outline input v v') :
    v'.workspace.context.surroundings = v.workspace.context.surroundings ∧
      v'.workspace.context.settings = v.workspace.context.settings := by
  cases h with
  | quiet h => exact h.context_eq hinput
  | begun h₁ h₂ h₃ _ =>
    have hbefore := h₁.moves.context_eq hinput
    have hafter := h₃.moves.context_eq hinput
    rw [h₂.context_eq] at hafter
    exact ⟨hafter.1.trans hbefore.1, hafter.2.trans hbefore.2⟩

end Settings

namespace Engine

/-- An event leaves the surroundings, and puts its settings in force if it has any. -/
theorem context_step (e : Engine) (event : Event) :
    (e.step event).workspace.context.surroundings = e.workspace.context.surroundings ∧
      (e.step event).workspace.context.settings =
        event.settings?.getD e.workspace.context.settings := by
  cases hs : event.settings? with
  | none => exact (step_outline e event).context_eq hs
  | some settings =>
    obtain rfl : event = .call (.updateSettings settings) := by
      unfold Event.settings? at hs
      split at hs
      · cases hs
        rfl
      · cases hs
    dsimp only [step, start, perform]
    rw [workspace_rebuildAll]
    exact ⟨rfl, rfl⟩

/-- A run leaves the surroundings, and the settings that were put in force last. -/
theorem context_run (e : Engine) (events : List Event) :
    (e.run events).workspace.context.surroundings = e.workspace.context.surroundings ∧
      (e.run events).workspace.context.settings =
        Event.settingsAfter e.workspace.context.settings events := by
  induction events generalizing e with
  | nil => exact ⟨rfl, rfl⟩
  | cons event rest ih =>
    obtain ⟨hsurroundings, hsettings⟩ := context_step e event
    obtain ⟨hsurroundings', hsettings'⟩ := ih (e.step event)
    rw [hsettings] at hsettings'
    exact ⟨hsurroundings'.trans hsurroundings, hsettings'⟩

end Engine

/-! ## Models under the settings in force -/

/-- The model is under the settings in force. -/
def Workspace.InForce (w : Workspace) (i : ModelId) : Prop :=
  ∀ f, w.origins[i]? = some f → f.settings.agrees (w.context.folderSettings f.root) = true

namespace View

/-- A rebuild of a root is scheduled. -/
def Scheduled (v : View) (key : String) : Prop :=
  ∃ old, .rebuilding old ∈ v.roles ∧ v.workspace.keyOf old = key

/-- The model that is going to be published under a root under which a model is published: that of
the rebuild that is noted, if it is no stray. -/
def heir (v : View) (h : History) (key : String) (i : ModelId) : ModelId :=
  match v.workspace.latest.find? key with
  | some m => if m ∈ h.strays then i else m
  | none => i

/-- Unless a rebuild is scheduled or a stray is published, the model that is going to be published
is under the settings in force. -/
def Current (h : History) (v : View) : Prop :=
  ∀ key i, v.workspace.published.find? key = some i →
    v.Scheduled key ∨ v.heir h key i ∈ h.strays ∨ v.workspace.InForce (v.heir h key i)

namespace Current

variable {input : Input} {h : History} {v v' : View}

/-- A rebuild that is scheduled stays so in a move that begins no look. -/
theorem scheduled_of_move (hmove : Move input v v') {key : String} (hk : v.Scheduled key) :
    v'.Scheduled key := by
  obtain ⟨old, hr, hkey⟩ := hk
  refine ⟨old, ?_, (hmove.keyOf old).trans hkey⟩
  cases hmove with
  | steady h =>
    cases h with
    | spawn w R a n => exact List.mem_append_left _ hr
    | schedule w R a ids hids => exact List.mem_append_left _ hr
    | configure w R a settings hs => exact List.mem_append_left _ hr
    | conclude w R id p i hid => exact mem_set_of_ne hid hr nofun
    | tell w R id p i hid hm => exact mem_set_of_ne hid hr nofun
    | ask w R id hid hw hc hp => exact mem_set_of_ne hid hr nofun
    | register w R id hid => exact mem_set_of_ne hid hr nofun
    | _ => exact hr
  | clearing h =>
    cases h with
    | _ => exact hr

/-- Whether a model is under the settings in force depends on where it comes from and on these. -/
theorem inForce_congr {w w' : Workspace} (horigins : w'.origins = w.origins)
    (hsurroundings : w'.context.surroundings = w.context.surroundings)
    (hsettings : w'.context.settings = w.context.settings) {i : ModelId} :
    w'.InForce i ↔ w.InForce i := by
  unfold Workspace.InForce Context.folderSettings
  rw [horigins, hsurroundings, hsettings]

/-- A published model that settings do not concern is not being replaced, and its own settings
stay. -/
theorem of_not_concerned {w : Workspace} {settings : Settings} {i : ModelId} {f : Folder}
    (hf : w.model? i = some f) (hi : i ∈ w.publishedIds)
    (hc : i ∉ Engine.concerned w settings) :
    w.latest.find? f.root.key = none ∧
      f.settings.agrees (settings.forFolder w.platform f.root) = true := by
  unfold Engine.concerned at hc
  split at hc
  · exact absurd hi hc
  · simpa [List.mem_filter, hi, hf] using hc

/-- New settings concern every folder whose model is not under them. -/
theorem configure {w : Workspace} {R : List Role} {a : Acting} (settings : Settings)
    (hs : View.Sound ⟨w, R, a⟩) :
    View.Current h ⟨{ w with context := w.context.updateSettings settings },
      R ++ (Engine.concerned w settings).map .rebuilding, a⟩ := by
  intro key i hp
  have hmem : i ∈ w.publishedIds := Workspace.mem_publishedIds_iff.mpr ⟨key, hp⟩
  obtain ⟨hlt, hkey⟩ := hs.published key i hp
  by_cases hc : i ∈ Engine.concerned w settings
  · exact .inl ⟨i, List.mem_append_right _ (List.mem_map_of_mem hc), hkey⟩
  · obtain ⟨f, hf⟩ := Workspace.exists_model? hlt
    obtain ⟨hl, hagrees⟩ := of_not_concerned hf hmem hc
    have hroot : f.root.key = key := (Workspace.keyOf_of_model? hf).symm.trans hkey
    rw [hroot] at hl
    have hheir : View.heir ⟨{ w with context := w.context.updateSettings settings },
        R ++ (Engine.concerned w settings).map .rebuilding, a⟩ h key i = i := by
      rw [heir, hl]
    rw [hheir]
    refine .inr (.inr fun g hg => ?_)
    have horigin : w.origins[i]? = some f.origin := by
      rw [Workspace.origins_getElem?, hf]
      rfl
    obtain rfl : f.origin = g := Option.some.inj (horigin.symm.trans hg)
    exact hagrees

/-- A move that begins no look keeps the models current. -/
theorem move (hmove : Move input v v') (hs : v.Sound) (hv : v.Current h) : v'.Current h := by
  rcases hmove.context_cases with ⟨hsurroundings, hsettings⟩ | ⟨w, R, a, settings, -, rfl, rfl⟩
  · intro key i hp
    have hforce {j : ModelId} := inForce_congr (i := j) hmove.origins hsurroundings hsettings
    rcases hmove.key_cases key with ⟨hp', hl'⟩ | ⟨hp', -⟩ | ⟨m, hm⟩
    · have hheir : v'.heir h key i = v.heir h key i := by rw [heir, heir, hl']
      rw [hheir, hforce]
      exact (hv key i (hp' ▸ hp)).imp_left (scheduled_of_move hmove)
    · rw [hp'] at hp
      cases hp
    · obtain rfl : m = i := Option.some.inj (hm.published.symm.trans hp)
      have hheir : v'.heir h key m = m := by rw [heir, hm.cleared]
      rw [hheir, hforce]
      by_cases hstray : m ∈ h.strays
      · exact .inr (.inl hstray)
      · obtain ⟨current, hcurrent⟩ := Workspace.knows_eq_true_iff.mp hm.known
        have hbefore : v.heir h key current = m := by rw [heir, hm.noted]; exact if_neg hstray
        have hcase := hv key current hcurrent
        rw [hbefore] at hcase
        exact hcase.imp_left (scheduled_of_move hmove)
  · exact configure settings hs

section Beginning

variable {w : Workspace} {R : List Role} {id : TaskId}

/-- A model that was begun before is under the settings that it was under. -/
theorem inForce_of_lt (hb : Beginning v v') {i : ModelId} (hi : i < v.workspace.models.length)
    (hforce : v.workspace.InForce i) : v'.workspace.InForce i := by
  intro f hf
  rw [Workspace.origins_getElem?, hb.model?_of_lt hi, ← Workspace.origins_getElem?] at hf
  rw [hb.context_eq]
  exact hforce f hf

/-- A look begins under the settings in force. -/
theorem inForce_begun {w' : Workspace} {source : EditorFolder} {root : FilePath}
    (hmodels : w'.models = (w.begun (w.fresh source root)).models)
    (hcontext : w'.context = w.context) : w'.InForce w.models.length := by
  intro f hf
  have hmodel : w'.model? w.models.length = some (w.fresh source root) := by
    rw [Workspace.model?, hmodels]
    exact w.model?_begun_self _
  rw [Workspace.origins_getElem?, hmodel] at hf
  obtain rfl : (w.fresh source root).origin = f := Option.some.inj hf
  rw [hcontext]
  exact FolderSettings.agrees_refl _

/-- The model that is going to be published was begun. -/
theorem heir_lt (hs : v.Sound) {key : String} {i : ModelId}
    (hp : v.workspace.published.find? key = some i) :
    v.heir h key i < v.workspace.models.length := by
  unfold heir
  split
  · next m hl =>
    split
    · exact (hs.published key i hp).1
    · exact (hs.latest key m hl).1
  · exact (hs.published key i hp).1

/-- A new folder is under the settings in force. -/
theorem introduce (source : EditorFolder) {root : FilePath} (hid : R[id]? = some .idle)
    (hk : w.published.find? root.key = none) (hs : View.Sound ⟨w, R, .resting⟩)
    (hrec : View.Recorded h ⟨w, R, .resting⟩) (hv : View.Current h ⟨w, R, .resting⟩) :
    View.Current h
      ⟨w.admitted source root, R.set id (.looking .add w.models.length), .resting⟩ := by
  have hb := Beginning.introduce w R id source root hid hk
  intro key i hp
  rcases Table.find?_insert_eq_some.mp hp with ⟨rfl, rfl⟩ | ⟨-, hp⟩
  · -- Whatever is noted for the root is a stray.
    have hheir : View.heir ⟨w.admitted source root, R.set id (.looking .add w.models.length),
        .resting⟩ h root.key w.models.length = w.models.length := by
      unfold heir
      split
      · next m hl => rw [if_pos (hrec.forgotten root.key m hk hl)]
      · rfl
    rw [hheir]
    exact .inr (.inr (inForce_begun rfl rfl))
  · rcases hv key i hp with ⟨old, hr, hkey⟩ | hcase
    · have hlt := hs.rebuilding old hr
      exact .inl ⟨old, mem_set_of_ne hid hr nofun, (hb.keyOf_of_lt hlt).trans hkey⟩
    · exact .inr (hcase.imp_right (inForce_of_lt hb (heir_lt hs hp)))

/-- A look at one folder again does not change what is going to be published under other roots. -/
theorem heir_retried_of_ne {f : Folder} {R' : List Role} {key : String} (hne : key ≠ f.root.key)
    (i : ModelId) :
    View.heir ⟨w.retried f.source f.root, R', .resting⟩ h key i =
      View.heir ⟨w, R, .resting⟩ h key i := by
  have hlatest := Recorded.find?_latest_retried w f key
  rw [if_neg hne] at hlatest
  unfold heir
  rw [hlatest]

/-- Another look at one root leaves what is scheduled for the others. -/
theorem scheduled_of_retry {old : ModelId} {f : Folder} (hid : R[id]? = some (.rebuilding old))
    (hf : w.model? old = some f) (hs : View.Sound ⟨w, R, .resting⟩) {key : String}
    (hne : key ≠ f.root.key) (hk : View.Scheduled ⟨w, R, .resting⟩ key) :
    View.Scheduled
      ⟨w.retried f.source f.root, R.set id (.looking .rebuild w.models.length), .resting⟩ key := by
  have hb := Beginning.retry w R id old f hid hf
  obtain ⟨other, hr, hkey⟩ := hk
  have hlt := hs.rebuilding other hr
  refine ⟨other, mem_set_of_ne hid hr ?_, (hb.keyOf_of_lt hlt).trans hkey⟩
  rintro ⟨⟩
  exact hne (hkey.symm.trans (Workspace.keyOf_of_model? hf))

/-- A look that begins again is under the settings in force. -/
theorem retry {old : ModelId} {f : Folder} (hid : R[id]? = some (.rebuilding old))
    (hf : w.model? old = some f) (hs : View.Sound ⟨w, R, .resting⟩)
    (hrec : View.Recorded h ⟨w, R, .resting⟩) (hv : View.Current h ⟨w, R, .resting⟩) :
    View.Current h
      ⟨w.retried f.source f.root, R.set id (.looking .rebuild w.models.length), .resting⟩ := by
  have hb := Beginning.retry w R id old f hid hf
  intro key i hp
  by_cases heq : key = f.root.key
  · subst heq
    have hnew : w.models.length ∉ h.strays :=
      fun hmem => Nat.lt_irrefl _ (hrec.strays_lt _ hmem)
    have hheir : View.heir ⟨w.retried f.source f.root,
        R.set id (.looking .rebuild w.models.length), .resting⟩ h f.root.key i =
          w.models.length := by
      unfold heir
      rw [Recorded.find?_latest_retried, if_pos rfl]
      exact if_neg hnew
    rw [hheir]
    exact .inr (.inr (inForce_begun rfl rfl))
  · rw [heir_retried_of_ne (R := R) heq]
    rcases hv key i hp with hscheduled | hcase
    · exact .inl (scheduled_of_retry hid hf hs heq hscheduled)
    · exact .inr (hcase.imp_right (inForce_of_lt hb (heir_lt hs hp)))

/-- A stray that is recorded changes nothing for roots that are published. -/
theorem of_stray {h : History} {n : ModelId} (hv : v.Current h)
    (hn : ∀ key i, v.workspace.published.find? key = some i →
      v.workspace.latest.find? key ≠ some n) :
    v.Current { h with strays := h.strays ++ [n] } := by
  intro key i hp
  have hheir : v.heir { h with strays := h.strays ++ [n] } key i = v.heir h key i := by
    unfold heir
    split
    · next m hl =>
      have hne : m ≠ n := by
        rintro rfl
        exact hn key i hp hl
      simp [hne]
    · rfl
  rw [hheir]
  exact (hv key i hp).imp_right fun hcase => hcase.imp_left (List.mem_append_left _)

/-- A look that begins keeps the models current. -/
theorem beginning (hb : Beginning v v') (hs : v.Sound) (hrec : v.Recorded h)
    (hv : v.Current h) : v'.Current (h.after v.workspace v'.workspace) := by
  cases hb with
  | introduce w R id source root hid hk =>
    have hintroduce := hv.introduce source hid hk hs hrec
    rw [h.after_admitted source hk]
    exact hintroduce
  | retry w R id old f hid hf =>
    have hretry := hv.retry hid hf hs hrec
    rw [h.after_retried w f.source f.root]
    cases hk : w.knows f.root.key with
    | true => exact hretry
    | false =>
      refine hretry.of_stray fun key i hp hl => ?_
      rw [Recorded.find?_latest_retried] at hl
      split at hl
      · next heq =>
        have hknown : w.knows key = true := Workspace.knows_eq_true_iff.mpr ⟨i, hp⟩
        rw [heq, hk] at hknown
        cases hknown
      · exact Nat.lt_irrefl _ (hs.latest key _ hl).1

end Beginning

/-- A turn keeps folders current as its moves do. -/
theorem outline (ho : Outline input v v') (hs : v.Sound) (hrec : v.Recorded h)
    (hv : v.Current h) : v'.Current (h.after v.workspace v'.workspace) := by
  have hmove (h : History) (u u' : View) (hm : Move input u u')
      (hu : (u.Sound ∧ u.Recorded h) ∧ u.Current h) :
      (u'.Sound ∧ u'.Recorded h) ∧ u'.Current h :=
    ⟨⟨hu.1.1.move hm, hu.1.2.move hm hu.1.1⟩, hu.2.move hm hu.1.1⟩
  cases ho with
  | quiet hm =>
    rw [h.after_quiet hm]
    exact (hm.keeps (hmove h) ⟨⟨hs, hrec⟩, hv⟩).2
  | @begun v₁ v₂ h₁ h₂ h₃ _ =>
    obtain ⟨⟨hs₁, hrec₁⟩, hv₁⟩ := h₁.moves.keeps (hmove h) ⟨⟨hs, hrec⟩, hv⟩
    rw [h.after_begun h₁ h₃]
    exact (h₃.moves.keeps (hmove _)
      ⟨⟨hs₁.beginning h₂, hrec₁.beginning h₂ hs₁⟩, hv₁.beginning h₂ hs₁ hrec₁⟩).2

end Current

end View

namespace Chronicle.Right

variable {c : Chronicle}

/-- Whenever nothing is under way, a published model that is no stray is under the settings in
force. -/
theorem inForce (hc : c.Right) (hcurrent : c.engine.view.Current c.history)
    (hrest : c.engine.atRest = true) {key : String} {i : ModelId}
    (hp : c.engine.workspace.published.find? key = some i) (hi : i ∉ c.history.strays) :
    c.engine.workspace.InForce i := by
  have hheir : c.engine.view.heir c.history key i = i := by
    unfold View.heir
    split
    · next m hl => exact if_pos (hc.mem_strays_of_latest hrest hp hl)
    · rfl
  have hcase := hcurrent key i hp
  rw [hheir] at hcase
  rcases hcase with ⟨old, hr, -⟩ | hstray | hforce
  · cases Engine.role_eq_idle_of_atRest hrest hr
  · exact absurd hstray hi
  · exact hforce

end Chronicle.Right

/-- Whenever nothing is under way, every published model that is no stray has the settings that hold
for its root under those that were put in force last. -/
theorem Engine.newest_settings (context : Context) (events : List Event) :
    let c := (Chronicle.fresh context).run events
    let w := c.engine.workspace
    c.engine.atRest = true → ∀ key i f, w.published.find? key = some i → w.model? i = some f →
      i ∉ c.history.strays →
        f.settings.agrees ((Event.settingsAfter context.settings events).forFolder
          context.surroundings.platform f.root) = true := by
  intro c w hrest key i f hp hf hi
  have hrun : c.Right ∧ c.engine.view.Current c.history := by
    refine @Chronicle.run_keeps (fun c => c.Right ∧ c.engine.view.Current c.history) events ?_ _
      ⟨.fresh context, nofun⟩
    rintro c event - ⟨hc, hcurrent⟩
    exact ⟨hc.step event,
      hcurrent.outline (step_outline c.engine event) hc.sound hc.recorded⟩
  have horigin : w.origins[i]? = some f.origin := by
    rw [Workspace.origins_getElem?, hf]
    rfl
  have hengine : c.engine = (Engine.fresh context).run events := Chronicle.run_engine _ _
  obtain ⟨hsurroundings, hsettings⟩ := context_run (Engine.fresh context) events
  have hforce := hrun.1.inForce hrun.2 hrest hp hi f.origin horigin
  rw [Context.folderSettings, hengine, hsurroundings, hsettings] at hforce
  exact hforce

/-- Settings other than the usual ones. -/
def otherSettings : Settings := { defaults := { cCompiler := some "cc" } }

/-- A run in which settings change after a folder was added. -/
def Engine.settingsChanged : List Event := [
  .call (.add plainFolder), .resume 0 .ofPlainFolder,
  .call (.updateSettings otherSettings), .resume 2 .ofPlainFolder, .resume 2 .ofPlainFolder,
  .resume 1 .ofPlainFolder]

theorem Engine.newest_settings_settingsChanged :
    ∃ f, ((Chronicle.fresh {}).run settingsChanged).engine.workspace.model? 1 = some f ∧
      f.settings.agrees (otherSettings.forFolder .linux f.root) = true := by
  have hrest : ((Chronicle.fresh {}).run settingsChanged).engine.atRest = true := by
    decide +kernel
  have hp : ((Chronicle.fresh {}).run settingsChanged).engine.workspace.published.find? "/r" =
      some 1 := by decide +kernel
  have hlt : 1 < ((Chronicle.fresh {}).run settingsChanged).engine.workspace.models.length := by
    decide +kernel
  have hstray : 1 ∉ ((Chronicle.fresh {}).run settingsChanged).history.strays := by
    decide +kernel
  obtain ⟨f, hf⟩ := Workspace.exists_model? hlt
  exact ⟨f, hf, newest_settings {} settingsChanged hrest "/r" 1 f hp hf hstray⟩

/-- A run in which settings change while a stray is under way. -/
def Engine.settingsChangedMeanwhile : List Event := [
  .call (.add plainFolder), .resume 0 .ofPlainFolder,
  .call (.rebuild none), .call (.remove plainRoot), .resume 2 .ofPlainFolder,
  .call (.updateSettings otherSettings), .call (.add plainFolder), .resume 5 .ofPlainFolder,
  .resume 2 .ofPlainFolder, .resume 1 .ofPlainFolder]

/-- The stray is published under settings that are not in force any more. -/
theorem Engine.stray_published_settingsChangedMeanwhile :
    ((Chronicle.fresh {}).run settingsChangedMeanwhile).engine.atRest = true ∧
      ((Chronicle.fresh {}).run settingsChangedMeanwhile).engine.workspace.published.find? "/r" =
        some 1 ∧
      (((Chronicle.fresh {}).run settingsChangedMeanwhile).engine.workspace.model? 1).map
        (fun f => f.settings.agrees ((Event.settingsAfter {} settingsChangedMeanwhile).forFolder
          .linux f.root)) = some false := by
  decide +kernel

end BuildLens
