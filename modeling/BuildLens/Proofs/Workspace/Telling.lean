import BuildLens.Proofs.Workspace.Lines
import BuildLens.Proofs.Workspace.Looks

/-!
# What providers are told in a turn

A provider is to hear of every change of the build trees that are published, unless it is registered
afterwards. Most turns that bring about such a change tell the provider in force at once. Only the
turns of a rebuild do not, since the task that waits for them does it in the end.

Main definitions:

- `Workspace.recognized`: the models of build trees that are published.
- `Workspace.told`: what a provider was told so far.
- `Workspace.Informs`: a provider is told of a change.
- `Workspace.Heralds`: a provider is told of whatever changes.

Main results:

- `heralds_removeAll`, `heralds_conclude_add`, `heralds_beginAdd`: the turns that tell at once.
- `heralds_start`, `turned_resume`: what a provider is told in any turn.
-/

namespace BuildLens

namespace Workspace

/-- The models of build trees that are published. -/
def recognized (w : Workspace) : Set ModelId :=
  { i | i ∈ w.publishedIds ∧ w.isBuildTree i = true }

/-- What a provider was told so far. -/
def told (w : Workspace) (p : Nat) : List ApiEvent :=
  (w.registrations[p]?.map Registration.events).getD []

/-- The provider is not disposed of if it is in force. -/
def Usable (w : Workspace) (p : Nat) : Prop :=
  w.provider = some p → ∃ r, w.registrations[p]? = some r ∧ r.disposed = false

/-- The provider is told that configurations and directories to browse have changed. -/
def Learns (p : Nat) (w w' : Workspace) : Prop :=
  ∃ events, w'.told p = w.told p ++ events ∧
    .changed .configurationChanged ∈ events ∧ .changed .browseConfigurationChanged ∈ events

/-- The provider is told of a change if it is in force in the end. -/
def Informs (p : Nat) (w w' : Workspace) : Prop := w'.provider = some p → w.Learns p w'

/-- The provider is not put out of use while it is in force, and it comes into force only by being
registered. -/
structure Follows (p : Nat) (w w' : Workspace) : Prop where
  length : w.registrations.length ≤ w'.registrations.length
  held : w'.provider = some p → w.provider = some p ∨ w.registrations.length ≤ p
  told : w.told p <+: w'.told p
  usable : w.Usable p → w'.Usable p

/-- Nothing is registered on the way, and the provider is not put out of use while it is in
force. -/
structure Passes (p : Nat) (w w' : Workspace) : Prop where
  length : w'.registrations.length = w.registrations.length
  held : w'.provider = some p → w.provider = some p
  told : w.told p <+: w'.told p
  usable : w.Usable p → w'.Usable p

/-- The provider is told of whatever changes about the build trees that are published. -/
structure Heralds (p : Nat) (w w' : Workspace) : Prop extends Passes p w w' where
  change : w.Usable p → w'.recognized = w.recognized ∨ Informs p w w'

variable {p : Nat} {w w' w'' : Workspace}

/-! ## One way after the other -/

/-- A provider is followed where nothing is registered on the way. -/
theorem Passes.follows (h : Passes p w w') : Follows p w w' where
  length := h.length.ge
  held hp := .inl (h.held hp)
  told := h.told
  usable := h.usable

theorem Follows.refl (w : Workspace) : Follows p w w where
  length := Nat.le_refl _
  held := .inl
  told := List.prefix_rfl
  usable := id

/-- A provider that is followed all the way is followed on each part of it. -/
theorem Follows.trans (h : Follows p w w') (h' : Follows p w' w'') : Follows p w w'' where
  length := h.length.trans h'.length
  held hp := by
    rcases h'.held hp with hp | hlength
    · exact h.held hp
    · exact .inr (h.length.trans hlength)
  told := h.told.trans h'.told
  usable hw := h'.usable (h.usable hw)

namespace Passes

/-- Nothing is done to a provider where neither the registrations nor the one in force change. -/
theorem of_same (hregs : w'.registrations = w.registrations)
    (hprovider : w'.provider = w.provider) : Passes p w w' where
  length := by rw [hregs]
  held := by
    rw [hprovider]
    exact id
  told := by
    rw [Workspace.told, Workspace.told, hregs]
  usable := by
    unfold Usable
    rw [hregs, hprovider]
    exact id

theorem refl (w : Workspace) : Passes p w w :=
  of_same rfl rfl

theorem trans (h : Passes p w w') (h' : Passes p w' w'') : Passes p w w'' where
  length := h'.length.trans h.length
  held hp := h.held (h'.held hp)
  told := h.told.trans h'.told
  usable hw := h'.usable (h.usable hw)

end Passes

/-- What is told later is told all the same if nothing that was told before is taken back. -/
theorem Learns.after (h : w.told p <+: w'.told p) (h' : Learns p w' w'') : Learns p w w'' := by
  obtain ⟨earlier, htold⟩ := h
  obtain ⟨events, htold', hfirst, hsecond⟩ := h'
  refine ⟨earlier ++ events, ?_, List.mem_append_right _ hfirst, List.mem_append_right _ hsecond⟩
  rw [htold', ← htold, List.append_assoc]

/-- What is told stays told if nothing is taken back later. -/
theorem Learns.before (h : Learns p w w') (h' : w'.told p <+: w''.told p) : Learns p w w'' := by
  obtain ⟨events, htold, hfirst, hsecond⟩ := h
  obtain ⟨later, htold'⟩ := h'
  refine ⟨events ++ later, ?_, List.mem_append_left _ hfirst, List.mem_append_left _ hsecond⟩
  rw [← htold', htold, List.append_assoc]

/-- A provider that is informed later is informed on the whole way. -/
theorem Informs.after (h : Passes p w w') (h' : Informs p w' w'') : Informs p w w'' :=
  fun hp => (h' hp).after h.told

/-- A provider stays informed where nothing is registered later. -/
theorem Informs.before (h : Informs p w w') (h' : Passes p w' w'') : Informs p w w'' :=
  fun hp => (h (h'.held hp)).before h'.told

/-- No provider has to be informed if none is in force in the end. -/
theorem Informs.of_provider_eq_none (h : w'.provider = none) : Informs p w w' := by
  intro hp
  rw [h] at hp
  cases hp

namespace Heralds

/-- Where the published build trees stay the same there is nothing to herald. -/
theorem of_same (h : Passes p w w') (hsame : w'.recognized = w.recognized) : Heralds p w w' :=
  ⟨h, fun _ => .inl hsame⟩

theorem refl (w : Workspace) : Heralds p w w :=
  of_same (.refl w) rfl

/-- What is heralded on each of two ways is heralded on both of them together. -/
theorem trans (h : Heralds p w w') (h' : Heralds p w' w'') : Heralds p w w'' where
  toPasses := h.toPasses.trans h'.toPasses
  change hw := by
    rcases h'.change (h.usable hw) with hsame' | hinforms'
    · rcases h.change hw with hsame | hinforms
      · exact .inl (hsame'.trans hsame)
      · exact .inr (hinforms.before h'.toPasses)
    · exact .inr (hinforms'.after h.toPasses)

end Heralds

/-! ## Changes of registrations -/

/-- A change of one registration leaves the others as they are. -/
theorem getElem?_modifyRegistration (w : Workspace) (n : Nat) (f : Registration → Registration)
    (p : Nat) : (w.modifyRegistration n f).registrations[p]? =
      if n = p then w.registrations[p]?.map f else w.registrations[p]? := by
  unfold modifyRegistration
  rw [List.getElem?_modify]
  split <;> simp

/-- A change of a registration that takes back nothing leaves told what was told. -/
theorem told_modifyRegistration (w : Workspace) (n : Nat) {f : Registration → Registration}
    (htold : ∀ r, r.events <+: (f r).events) (p : Nat) :
    w.told p <+: (w.modifyRegistration n f).told p := by
  unfold told
  rw [getElem?_modifyRegistration]
  split
  · cases w.registrations[p]? with
    | none => exact List.prefix_rfl
    | some r => exact htold r
  · exact List.prefix_rfl

/-- A change of a registration passes a provider if it takes back nothing that was told and does not
dispose of that provider. -/
theorem passes_modifyRegistration (w : Workspace) (n : Nat) {f : Registration → Registration}
    (htold : ∀ r, r.events <+: (f r).events)
    (hopen : n = p → ∀ r, r.disposed = false → (f r).disposed = false) :
    Passes p w (w.modifyRegistration n f) where
  length := List.length_modify ..
  held := id
  told := told_modifyRegistration w n htold p
  usable hw hp := by
    obtain ⟨r, hr, hdisposed⟩ := hw hp
    rw [getElem?_modifyRegistration, hr]
    split
    · next heq => exact ⟨f r, rfl, hopen heq r hdisposed⟩
    · exact ⟨r, rfl, hdisposed⟩

end Workspace

namespace Registration

/-- A notice takes back nothing of what a provider was told. -/
theorem events_notify (r : Registration) (notice : ChangeNotice) :
    r.events <+: (r.notify notice).events := by
  unfold notify
  split
  · exact List.prefix_rfl
  · exact List.prefix_append _ _

/-- A notice disposes of no provider. -/
theorem disposed_notify (r : Registration) (notice : ChangeNotice) :
    (r.notify notice).disposed = r.disposed := by
  unfold notify
  split <;> rfl

/-- To dispose of a provider takes back nothing of what it was told. -/
theorem events_dispose (r : Registration) : r.events <+: r.dispose.events := by
  unfold dispose
  split
  · exact List.prefix_rfl
  · exact List.prefix_append _ _

/-- A provider that is not disposed of is told of both changes. -/
theorem events_notifyChange {r : Registration} (h : r.disposed = false) :
    r.notifyChange.events =
      r.events ++ [.changed .configurationChanged, .changed .browseConfigurationChanged] := by
  simp [notifyChange, notify, h]

end Registration

namespace Workspace

variable {p : Nat} {w w' : Workspace}

/-- A model is recognized if it is published and known to be that of a build tree. -/
theorem mem_recognized_iff {i : ModelId} :
    i ∈ w.recognized ↔ i ∈ w.publishedIds ∧ w.isBuildTree i = true :=
  Iff.rfl

/-- The recognized models depend on the published ones and on what these are known to be. -/
theorem recognized_congr (hids : w'.publishedIds = w.publishedIds)
    (hbuild : ∀ i ∈ w.publishedIds, w'.isBuildTree i = w.isBuildTree i) :
    w'.recognized = w.recognized := by
  ext i
  simp only [mem_recognized_iff, hids]
  constructor
  · intro ⟨hi, hb⟩
    exact ⟨hi, hbuild i hi ▸ hb⟩
  · intro ⟨hi, hb⟩
    exact ⟨hi, (hbuild i hi).trans hb⟩

/-- A notice puts no provider out of use. -/
theorem passes_notify (w : Workspace) (notice : ChangeNotice) : Passes p w (w.notify notice) := by
  unfold notify
  split
  · apply passes_modifyRegistration
    · exact fun r => r.events_notify notice
    · exact fun _ r hr => (r.disposed_notify notice).trans hr
  · exact .refl w

/-- A notice changes nothing about the published build trees. -/
theorem heralds_notify (w : Workspace) (notice : ChangeNotice) :
    Heralds p w (w.notify notice) := by
  apply Heralds.of_same (passes_notify w notice)
  unfold notify
  split <;> rfl

theorem heralds_notifyChange (w : Workspace) : Heralds p w w.notifyChange :=
  (heralds_notify w _).trans (heralds_notify _ _)

/-- The provider in force is told of both changes. -/
theorem notifyChange_eq (h : w.provider = some p) :
    w.notifyChange = w.modifyRegistration p Registration.notifyChange := by
  have hmodify (f g : Registration → Registration) : (w.modifyRegistration p f).modifyRegistration
      p g = w.modifyRegistration p (g ∘ f) := by
    simp only [modifyRegistration, List.modify_modify_eq]
  have hnotify (notice : ChangeNotice) (w : Workspace) (h : w.provider = some p) :
      w.notify notice = w.modifyRegistration p (·.notify notice) := by
    unfold notify
    rw [h]
  rw [notifyChange, hnotify _ w h, hnotify _ (w.modifyRegistration p _) h, hmodify]
  rfl

/-- The provider in force is informed by being told of both changes. -/
theorem informs_notifyChange (hw : w.Usable p) : Informs p w w.notifyChange := by
  intro hp
  have hp : w.provider = some p := (heralds_notifyChange w).held hp
  obtain ⟨r, hr, hdisposed⟩ := hw hp
  refine ⟨[.changed .configurationChanged, .changed .browseConfigurationChanged], ?_, by simp,
    by simp⟩
  unfold told
  rw [notifyChange_eq hp, getElem?_modifyRegistration, if_pos rfl, hr]
  exact Registration.events_notifyChange hdisposed

/-- A provider that is disposed of is not in force any more. -/
theorem passes_disposeProvider (w : Workspace) : Passes p w w.disposeProvider := by
  unfold disposeProvider
  split
  · next n hn =>
    exact ⟨List.length_modify .., nofun,
      told_modifyRegistration { w with provider := none } n Registration.events_dispose p, nofun⟩
  · exact .refl w

/-- A provider that is still in force when one may have been retired is the same as before. -/
theorem passes_retire (w : Workspace) : Passes p w w.retire := by
  unfold retire
  split
  · exact passes_disposeProvider w
  · exact .refl w

/-- To follow the count of build trees registers nothing at once. -/
theorem passes_sync (w : Workspace) : Passes p w w.sync.2 := by
  unfold sync
  split
  · split
    · exact .refl w
    · exact .of_same rfl rfl
  · exact passes_retire w

/-- The editor is asked for its interface only while no provider is in force. -/
theorem provider_of_asking (h : w.sync.1 = .asking) : w.sync.2.provider = none := by
  unfold sync at h ⊢
  split
  · next hwanted => split <;> exact hwanted.2
  · next hwanted =>
    rw [if_neg hwanted] at h
    cases h

/-- The interface of the editor only adds a provider, which is then in force. -/
theorem follows_registered (w : Workspace) (hasApi : Bool) :
    Follows p w (w.registered hasApi).2 := by
  cases hasApi with
  | false => exact ⟨Nat.le_refl _, .inl, List.prefix_rfl, id⟩
  | true =>
    let w' : Workspace :=
      { w with
        registering := false
        registrations := w.registrations ++ [Registration.fresh]
        provider := some w.registrations.length }
    have hregistered : Follows p w w' := by
      refine ⟨?_, ?_, ?_, ?_⟩
      · simp [w']
      · intro hp
        exact .inr (Option.some.inj hp).le
      · unfold told
        rcases Nat.lt_or_ge p w.registrations.length with hlt | hge
        · rw [List.getElem?_append_left hlt]
        · rw [List.getElem?_eq_none hge]
          exact List.nil_prefix
      · intro _ hp
        have heq : w.registrations.length = p := Option.some.inj hp
        exact ⟨.fresh, by simp [w', ← heq], rfl⟩
    exact hregistered.trans (passes_retire w').follows

/-- The interface of the editor changes nothing about the published build trees. -/
theorem recognized_registered (w : Workspace) (hasApi : Bool) :
    (w.registered hasApi).2.recognized = w.recognized := by
  rw [registered_eq]
  rfl

/-- Models are published under their keys. -/
def Keyed (w : Workspace) : Prop :=
  ∀ key i, w.published.find? key = some i → i < w.models.length ∧ w.keyOf i = key

/-- Whether models are published under their keys depends on what is published and where the models
come from. -/
theorem Keyed.congr (hw : w.Keyed) (hp : w'.published = w.published)
    (ho : w'.origins = w.origins) : w'.Keyed := by
  intro key i hi
  rw [hp] at hi
  rw [models_length_congr ho, keyOf_congr ho]
  exact hw key i hi

/-- A new folder is published under its key, and no other key changes. -/
theorem find?_admitted (w : Workspace) (source : EditorFolder) (root : FilePath) (key : String) :
    (w.admitted source root).published.find? key =
      if key = root.key then some w.models.length else w.published.find? key :=
  Table.find?_insert _ _ _ _

/-- A new folder does not change the models that were begun before it. -/
theorem model?_admitted_of_lt {i : ModelId} (source : EditorFolder) (root : FilePath)
    (hi : i < w.models.length) : (w.admitted source root).model? i = w.model? i :=
  model?_begun_of_lt (w.fresh source root) hi

/-- A new folder is published under its own key. -/
theorem Keyed.admitted (hw : w.Keyed) (source : EditorFolder) (root : FilePath) :
    (w.admitted source root).Keyed := by
  intro key i hi
  have hlength : (w.admitted source root).models.length = w.models.length + 1 :=
    w.models_length_begun _
  rw [hlength]
  rw [find?_admitted] at hi
  split at hi
  · next heq =>
    obtain rfl := Option.some.inj hi
    exact ⟨Nat.lt_succ_self _, (w.keyOf_begun_self _).trans heq.symm⟩
  · obtain ⟨hlt, hkey⟩ := hw key i hi
    rw [keyOf, model?_admitted_of_lt source root hlt]
    exact ⟨Nat.lt_succ_of_lt hlt, hkey⟩

/-- A model that is not published, or not known to be that of a build tree, is not recognized. -/
theorem Keyed.not_mem_recognized (hw : w.Keyed) {m : ModelId}
    (h : w.isPublished m = false ∨ w.isBuildTree m = false) : m ∉ w.recognized := by
  intro ⟨hm, hbuild⟩
  rcases h with hp | hb
  · obtain ⟨key, hkey⟩ := mem_publishedIds_iff.mp hm
    have hpublished : w.isPublished m = true := by
      rw [isPublished, (hw key m hkey).2, hkey]
      exact beq_self_eq_true _
    rw [hp] at hpublished
    cases hpublished
  · rw [hb] at hbuild
    cases hbuild

end Workspace

/-! ## Turns that tell at once -/

namespace Engine

variable {p : Nat} {e : Engine} {id : TaskId} {m : ModelId}

/-- To go on after following the count of build trees registers nothing at once. -/
theorem passes_syncThen (after : AfterRegistration) {settled : Engine → Engine}
    (hsettled : ∀ e : Engine, e.workspace.Passes p (settled e).workspace) :
    e.workspace.Passes p (e.syncThen id after settled).workspace := by
  have hsync := e.workspace.passes_sync (p := p)
  unfold syncThen
  split
  · next w h =>
    rw [h] at hsync
    exact hsync
  · next w h =>
    rw [h] at hsync
    exact hsync.trans (hsettled { e with workspace := w })

/-- A task that asks the editor for its interface has nobody to tell. -/
theorem informs_syncThen (after : AfterRegistration) {settled : Engine → Engine}
    (hsettled : ∀ e : Engine, e.workspace.Usable p →
      e.workspace.Informs p (settled e).workspace)
    (hw : e.workspace.Usable p) :
    e.workspace.Informs p (e.syncThen id after settled).workspace := by
  have hsync := e.workspace.passes_sync (p := p)
  unfold syncThen
  split
  · next w h =>
    have hnone := e.workspace.provider_of_asking (by rw [h])
    rw [h] at hnone
    exact .of_provider_eq_none hnone
  · next w h =>
    rw [h] at hsync
    exact (hsettled { e with workspace := w } (hsync.usable hw)).after hsync

/-- The end of an addition changes nothing about the published build trees. -/
theorem heralds_added (m : ModelId) (isNew : Bool) :
    e.workspace.Heralds p (e.added id m isNew).workspace := by
  unfold added
  rw [workspace_finishWith]
  split
  · exact .refl _
  · exact e.workspace.heralds_notifyChange

/-- An addition that ends tells the provider in force of the change. -/
theorem informs_added (hw : e.workspace.Usable p) :
    e.workspace.Informs p (e.added id m false).workspace := by
  unfold added
  rw [workspace_finishWith]
  exact e.workspace.informs_notifyChange hw

/-- To take a folder away registers no provider. -/
theorem passes_unpublish (w : Workspace) (root : FilePath) :
    w.Passes p (w.unpublish root).2 := by
  unfold Workspace.unpublish
  dsimp only
  split <;> exact .of_same rfl rfl

/-- Nothing changes if the folder that is taken away is no build tree. -/
theorem recognized_unpublish {w : Workspace} {root : FilePath}
    (h : (w.unpublish root).1 = false) : (w.unpublish root).2.recognized = w.recognized := by
  unfold Workspace.unpublish at h ⊢
  dsimp only at h ⊢
  split
  · rfl
  · next i hi =>
    rw [hi] at h
    have hbuild : w.isBuildTree i = false := h
    let w' : Workspace :=
      { w with latest := w.latest.erase root.key, published := w.published.erase root.key }
    ext j
    have hsame : (w'.disposeModel i).isBuildTree j = w.isBuildTree j :=
      w'.isBuildTree_refreshed i FragmentCache.clear j
    change j ∈ w'.publishedIds ∧ (w'.disposeModel i).isBuildTree j = true ↔
      j ∈ w.publishedIds ∧ w.isBuildTree j = true
    rw [hsame, Workspace.mem_publishedIds_iff, Workspace.mem_publishedIds_iff]
    simp only [w', Table.find?_erase]
    constructor
    · intro ⟨⟨key, hp⟩, hj⟩
      split at hp
      · cases hp
      · exact ⟨⟨key, hp⟩, hj⟩
    · intro ⟨⟨key, hp⟩, hj⟩
      refine ⟨⟨key, ?_⟩, hj⟩
      rw [if_neg]
      · exact hp
      · intro heq
        have hpublished : w.published.find? root.key = some i := hi
        rw [heq, hpublished] at hp
        rw [← Option.some.inj hp, hbuild] at hj
        cases hj

/-- Each build tree that is taken away is told at once, or the editor is asked for its interface
first. -/
theorem heralds_removeAll (added : List EditorFolder) (roots : List (Except PathError FilePath)) :
    e.workspace.Heralds p (e.removeAll id added roots).workspace := by
  induction roots generalizing e with
  | nil =>
    rw [removeAll]
    split
    · rw [workspace_finish]
      exact .refl _
    · exact .refl _
  | cons root rest ih =>
    cases root with
    | error err =>
      rw [removeAll, workspace_finish]
      exact .refl _
    | ok root =>
      have hpasses := passes_unpublish (p := p) e.workspace root
      have hsame := @recognized_unpublish e.workspace root
      rw [removeAll]
      split
      · next w h =>
        rw [h] at hpasses hsame
        exact (Workspace.Heralds.of_same hpasses (hsame rfl)).trans (@ih { e with workspace := w })
      · next w h =>
        rw [h] at hpasses
        let counted : Workspace := { w with buildCount := w.buildCount - 1 }
        have hcounted : e.workspace.Passes p counted := hpasses.trans (.of_same rfl rfl)
        have hrest (e : Engine) : e.workspace.Heralds p
            ((e.modifyWorkspace (·.notifyChange)).removeAll id added rest).workspace :=
          e.workspace.heralds_notifyChange.trans (@ih (e.modifyWorkspace (·.notifyChange)))
        refine ⟨hcounted.trans (passes_syncThen (e := { e with workspace := counted }) _
          fun e => (hrest e).toPasses), fun hw => .inr ?_⟩
        apply Workspace.Informs.after hcounted
        refine informs_syncThen (e := { e with workspace := counted }) _ ?_ (hcounted.usable hw)
        intro e hw
        exact (e.workspace.informs_notifyChange hw).before
          (@ih (e.modifyWorkspace (·.notifyChange))).toPasses

/-! ### Looks at new folders -/

/-- The end of a look at a new folder tells at once if the folder is a build tree that is
published. -/
theorem told_endAdd (e : Engine) (id : TaskId) (m : ModelId) :
    e.workspace.Passes p (e.endAdd id m).workspace ∧ (e.workspace.Usable p →
      e.workspace.Informs p (e.endAdd id m).workspace ∨
        (e.endAdd id m).workspace.recognized = e.workspace.recognized ∧
          (e.workspace.isPublished m = false ∨ e.workspace.isBuildTree m = false)) := by
  unfold endAdd
  split
  · next hp =>
    rw [workspace_finishWith]
    refine ⟨.of_same rfl rfl, fun _ => .inr ⟨?_, .inl (by simpa using hp)⟩⟩
    exact Workspace.recognized_congr rfl fun j _ =>
      e.workspace.isBuildTree_refreshed m FragmentCache.clear j
  · split
    · let counted : Workspace :=
        { e.workspace with buildCount := e.workspace.buildCount + 1 }
      have hcounted : e.workspace.Passes p counted := .of_same rfl rfl
      refine ⟨hcounted.trans (passes_syncThen (e := { e with workspace := counted }) _
        fun e => (heralds_added m false).toPasses), fun hw => .inl ?_⟩
      apply Workspace.Informs.after hcounted
      exact informs_syncThen (e := { e with workspace := counted }) _
        (fun e hw => informs_added hw) (hcounted.usable hw)
    · next hb =>
      rw [workspace_finishWith]
      exact ⟨.refl _, fun _ => .inr ⟨rfl, .inr (by simpa using hb)⟩⟩

/-- The end of another look at a folder leaves it to the task that waits for it to tell. -/
theorem passes_endRebuild (m : ModelId) :
    e.workspace.Passes p (e.endRebuild id m).workspace := by
  have hfinish (e : Engine) :
      e.workspace.Passes p (e.finish id (.ok .nothing)).workspace := by
    rw [workspace_finish]
    exact .refl _
  unfold endRebuild
  dsimp only
  split
  · split
    · split
      · rw [workspace_finish]
        exact .of_same rfl rfl
      · refine Workspace.Passes.trans ?_ (passes_syncThen .rebuilt hfinish)
        exact .of_same rfl rfl
    · rw [workspace_finish]
      exact .of_same rfl rfl
  · rw [workspace_finish]
    exact .of_same rfl rfl

/-- The end of a look registers no provider. -/
theorem passes_endLook (m : ModelId) (purpose : Purpose) :
    e.workspace.Passes p (e.endLook id m purpose).workspace := by
  cases purpose with
  | add => exact (told_endAdd e id m).1
  | rebuild => exact passes_endRebuild m

/-- The end of an addition tells of the new build tree. -/
theorem heralds_endAdd (m : ModelId) : e.workspace.Heralds p (e.endAdd id m).workspace where
  toPasses := (told_endAdd e id m).1
  change hw := by
    rcases (told_endAdd e id m).2 hw with hinforms | ⟨hsame, -⟩
    · exact .inr hinforms
    · exact .inl hsame

/-- The conclusion of a look registers no provider. -/
theorem passes_conclude (purpose : Purpose) (m : ModelId)
    (outcome : Except Failure (Option Build)) :
    e.workspace.Passes p (e.conclude id purpose m outcome).workspace := by
  have hconcluded : e.workspace.Passes p (e.workspace.concluded m outcome) := .of_same rfl rfl
  unfold conclude
  dsimp only
  split
  · exact hconcluded.trans (passes_endLook (e := e.modifyWorkspace (·.concluded m outcome)) m _)
  · split
    · exact hconcluded.trans (passes_endLook (e := e.modifyWorkspace (·.concluded m outcome)) m _)
    · exact hconcluded.trans (.of_same rfl rfl)

/-- The outcome of a look changes nothing about the build trees if its model is not recognized
before or after it. -/
theorem recognized_concluded {w : Workspace} {outcome : Except Failure (Option Build)}
    (hm : w.isBuildTree m = false) (hm' : m ∉ (w.concluded m outcome).recognized) :
    (w.concluded m outcome).recognized = w.recognized := by
  ext i
  by_cases hi : i = m
  · subst hi
    have hold : i ∉ w.recognized := fun h => Bool.noConfusion (h.2.symm.trans hm)
    exact iff_of_false hm' hold
  · rw [Workspace.mem_recognized_iff, w.isBuildTree_concluded_of_ne outcome (Ne.symm hi)]
    rfl

/-- The outcome of a look at a new folder is told at once if the folder is a build tree. -/
theorem heralds_conclude_add (hkeyed : e.workspace.Keyed) (hm : e.workspace.isBuildTree m = false)
    (outcome : Except Failure (Option Build)) :
    e.workspace.Heralds p (e.conclude id .add m outcome).workspace where
  toPasses := passes_conclude .add m outcome
  change hw := by
    let concluded := e.modifyWorkspace (·.concluded m outcome)
    have hconcluded : e.workspace.Passes p concluded.workspace := .of_same rfl rfl
    have hkeyed' : concluded.workspace.Keyed :=
      hkeyed.congr rfl (e.workspace.origins_concluded m outcome)
    have hsame (h : concluded.workspace.isPublished m = false ∨
        concluded.workspace.isBuildTree m = false) :
        concluded.workspace.recognized = e.workspace.recognized :=
      recognized_concluded hm (hkeyed'.not_mem_recognized h)
    have hend : (concluded.endAdd id m).workspace.recognized = e.workspace.recognized ∨
        e.workspace.Informs p (concluded.endAdd id m).workspace := by
      rcases (told_endAdd concluded id m).2 (hconcluded.usable hw) with hinforms | ⟨hend, h⟩
      · exact .inr (hinforms.after hconcluded)
      · exact .inl (hend.trans (hsame h))
    unfold conclude
    dsimp only
    split
    · exact hend
    · next key text hmessage =>
      split
      · exact hend
      · -- The user is told only of failures.
        cases outcome with
        | ok build =>
          obtain ⟨f, -, hf⟩ := Option.bind_eq_some_iff.mp hmessage
          cases hf
        | error f =>
          exact .inl (hsame (.inr (e.workspace.isBuildTree_concluded_error m f)))

/-- Going on with the inquiry into a folder ends the turn, or its outcome is taken in. -/
theorem workspace_survey (e : Engine) (id : TaskId) (purpose : Purpose) (m : ModelId)
    (i : Inquiry (Option SourceTree)) :
    (e.survey id purpose m i).workspace = e.workspace.settled m i ∨
      ∃ outcome, (e.survey id purpose m i).workspace =
        ((e.modifyWorkspace (·.settled m i)).conclude id purpose m outcome).workspace := by
  unfold survey
  rw [settle_eq]
  rcases i.settle_cases (e.workspace.kept m) with ⟨tree, hi⟩ | ⟨f, hi⟩ | ⟨q, next, hi⟩
  · rw [hi]
    cases tree with
    | none => exact .inr ⟨.ok none, rfl⟩
    | some tree => exact .inl rfl
  · rw [hi]
    exact .inr ⟨.error f, rfl⟩
  · rw [hi]
    exact .inl rfl

/-- A survey registers no provider. -/
theorem passes_survey (purpose : Purpose) (m : ModelId) (i : Inquiry (Option SourceTree)) :
    e.workspace.Passes p (e.survey id purpose m i).workspace := by
  have hsettled : e.workspace.Passes p (e.workspace.settled m i) := .of_same rfl rfl
  rcases e.workspace_survey id purpose m i with h | ⟨outcome, h⟩ <;> rw [h]
  · exact hsettled
  · exact hsettled.trans (passes_conclude (e := e.modifyWorkspace (·.settled m i)) _ m outcome)

/-- What an inquiry leaves in memory changes nothing about the published build trees. -/
theorem heralds_settled {α : Type} (m : ModelId) (i : Inquiry α) :
    e.workspace.Heralds p (e.workspace.settled m i) :=
  .of_same (.of_same rfl rfl)
    (Workspace.recognized_congr rfl fun j _ => e.workspace.isBuildTree_refreshed m _ j)

/-- A survey of a new folder tells of the build tree that it finds. -/
theorem heralds_survey_add (hkeyed : e.workspace.Keyed) (hm : e.workspace.isBuildTree m = false)
    (i : Inquiry (Option SourceTree)) :
    e.workspace.Heralds p (e.survey id .add m i).workspace := by
  rcases e.workspace_survey id .add m i with h | ⟨outcome, h⟩ <;> rw [h]
  · exact heralds_settled m i
  · have hkeyed' : (e.workspace.settled m i).Keyed :=
      hkeyed.congr rfl (e.workspace.origins_refreshed m _)
    have hm' : (e.workspace.settled m i).isBuildTree m = false :=
      (e.workspace.isBuildTree_refreshed m _ m).trans hm
    exact (heralds_settled m i).trans
      (heralds_conclude_add (e := e.modifyWorkspace (·.settled m i)) hkeyed' hm' outcome)

/-- A folder that is new is published before anything is known of it. -/
theorem recognized_admitted {w : Workspace} (hkeyed : w.Keyed) (source : EditorFolder)
    {root : FilePath} (hroot : w.published.find? root.key = none) :
    (w.admitted source root).recognized = w.recognized := by
  have hnew : (w.admitted source root).isBuildTree w.models.length = false :=
    w.isBuildTree_begun_self (w.fresh source root)
  have hold {key : String} {i : ModelId} (hp : w.published.find? key = some i) :
      (w.admitted source root).isBuildTree i = w.isBuildTree i := by
    unfold Workspace.isBuildTree
    rw [Workspace.model?_admitted_of_lt source root (hkeyed key i hp).1]
  ext i
  simp only [Workspace.mem_recognized_iff, Workspace.mem_publishedIds_iff,
    Workspace.find?_admitted]
  constructor
  · intro ⟨⟨key, hp⟩, hi⟩
    split at hp
    · rw [← Option.some.inj hp, hnew] at hi
      cases hi
    · exact ⟨⟨key, hp⟩, (hold hp).symm.trans hi⟩
  · intro ⟨⟨key, hp⟩, hi⟩
    refine ⟨⟨key, ?_⟩, (hold hp).trans hi⟩
    rw [if_neg]
    · exact hp
    · intro heq
      rw [heq, hroot] at hp
      cases hp

/-- The turn that begins an addition tells of the build tree, if it finds one at once. -/
theorem heralds_beginAdd (hkeyed : e.workspace.Keyed) (folder : EditorFolder) :
    e.workspace.Heralds p (e.beginAdd id folder).workspace := by
  unfold beginAdd
  split
  · rw [workspace_finish]
    exact .refl _
  · next root _ =>
    split
    · rw [workspace_finishWith]
      exact .refl _
    · next hroot =>
      let admitted := e.modifyWorkspace (·.admitted folder root)
      have hadmitted : e.workspace.Heralds p admitted.workspace :=
        .of_same (.of_same rfl rfl) (recognized_admitted hkeyed folder hroot)
      have hmodel : admitted.workspace.model? e.workspace.models.length =
          some (e.workspace.fresh folder root) :=
        Workspace.model?_begun_self e.workspace _
      have hbuild : admitted.workspace.isBuildTree e.workspace.models.length = false :=
        e.workspace.isBuildTree_begun_self (e.workspace.fresh folder root)
      rw [show e.workspace.takeUp folder root =
        (e.workspace.models.length, (e.workspace.takeUp folder root).2) from rfl]
      dsimp only
      rw [Workspace.takeUp_publish]
      refine hadmitted.trans ?_
      change admitted.workspace.Heralds p (admitted.look id .add _).workspace
      unfold look
      rw [hmodel]
      exact heralds_survey_add (hkeyed.admitted folder root) hbuild _

/-- Another look at a folder is not published when it begins. -/
theorem passes_beginRebuild (old : ModelId) :
    e.workspace.Passes p (e.beginRebuild id old).workspace := by
  unfold beginRebuild
  split
  · unfold look
    dsimp only
    split
    · refine Workspace.Passes.trans ?_ (passes_survey _ _ _)
      exact .of_same rfl rfl
    · exact .of_same rfl rfl
  · exact .refl _

/-! ### Files -/

/-- The configuration of a file that is provided changes nothing about the build trees. -/
theorem heralds_resolve (uri : String) (path : FilePath) (m : ModelId)
    (i : Inquiry (Option SourceConfiguration)) :
    e.workspace.Heralds p (e.resolve id uri path m i).workspace := by
  have hsettled : e.workspace.Heralds p (e.modifyWorkspace (·.settled m i)).workspace :=
    heralds_settled m i
  unfold resolve
  rw [settle_eq]
  cases (i.settle (e.workspace.kept m)).1 with
  | answer c => rwa [workspace_finish]
  | failed f => rwa [workspace_finish]
  | _ => exact hsettled

/-- To begin to provide for a file changes nothing about the build trees. -/
theorem heralds_beginProvide (uri : String) :
    e.workspace.Heralds p (e.beginProvide id uri).workspace := by
  rw [beginProvide_eq]
  split
  · rw [workspace_finish]
    exact .refl _
  · exact heralds_resolve uri _ _ _

/-- The configuration of a file changes nothing about the build trees. -/
theorem heralds_configure (m : ModelId) (i : Inquiry (Option SourceConfiguration)) :
    e.workspace.Heralds p (e.configure id m i).workspace := by
  have hsettled : e.workspace.Heralds p (e.modifyWorkspace (·.settled m i)).workspace :=
    heralds_settled m i
  unfold configure
  rw [settle_eq]
  cases (i.settle (e.workspace.kept m)).1 with
  | answer c => rwa [workspace_finish]
  | failed f => rwa [workspace_finish]
  | _ => exact hsettled

/-- A test compilation changes nothing about the build trees. -/
theorem heralds_testCompile (m : ModelId) (i : Inquiry (Option CompileReport)) :
    e.workspace.Heralds p (e.testCompile id m i).workspace := by
  have hsettled : e.workspace.Heralds p (e.modifyWorkspace (·.settled m i)).workspace :=
    heralds_settled m i
  unfold testCompile
  rw [settle_eq]
  cases (i.settle (e.workspace.kept m)).1 with
  | answer r => rwa [workspace_finish]
  | failed f => rwa [workspace_finish]
  | _ => exact hsettled

/-- An inquiry into a compiler changes nothing about the build trees. -/
theorem heralds_discover (i : Inquiry Compiler) :
    e.workspace.Heralds p (e.discover id i).workspace := by
  unfold discover
  cases (i.settle {}).1 with
  | answer c =>
    rw [workspace_finish]
    exact .refl _
  | failed f =>
    rw [workspace_finish]
    exact .refl _
  | _ => exact .refl _

/-! ## Operations that begin -/

/-- When everything is let go of, no provider is left to be told. -/
theorem heralds_dispose (w : Workspace) : w.Heralds p w.dispose := by
  have hmodels (ids : List ModelId) (w : Workspace) :
      w.Passes p (ids.foldl Workspace.disposeModel w) := by
    induction ids generalizing w with
    | nil => exact .refl w
    | cons i rest ih =>
      have hmodel : w.Passes p (w.disposeModel i) := .of_same rfl rfl
      exact hmodel.trans (ih (w.disposeModel i))
  let emptied : Workspace :=
    { w.publishedIds.foldl Workspace.disposeModel w with
      published := ∅, latest := ∅, buildCount := 0 }
  have hemptied : w.Passes p emptied := (hmodels w.publishedIds w).trans (.of_same rfl rfl)
  refine ⟨hemptied.trans emptied.passes_disposeProvider, fun _ => .inr ?_⟩
  exact .of_provider_eq_none emptied.provider_disposeProvider

/-- An operation that begins tells the provider of what it changes, unless it disposes of it. -/
theorem heralds_perform (hkeyed : e.workspace.Keyed) {op : Operation} (hop : op ≠ .disposeOf p) :
    e.workspace.Heralds p (e.perform id op).workspace := by
  cases op with
  | add folder => exact heralds_beginAdd hkeyed folder
  | addMany folders =>
    rw [perform]
    split
    · rw [workspace_finish]
      exact .refl _
    · exact .refl _
  | remove root => exact heralds_removeAll [] [.ok root]
  | change added removed => exact heralds_removeAll added _
  | rebuild roots =>
    cases roots <;> rw [perform, workspace_rebuildAll] <;> exact .refl _
  | updateSettings settings =>
    rw [perform, workspace_rebuildAll]
    exact .of_same (.of_same rfl rfl) rfl
  | configure source =>
    rw [perform]
    split
    · rw [workspace_finish]
      exact .refl _
    · exact heralds_configure _ _
  | testCompile source =>
    rw [perform]
    split
    · rw [workspace_finish]
      exact .refl _
    · exact heralds_testCompile _ _
  | provide uris =>
    rw [perform]
    split
    · rw [workspace_finish]
      exact .refl _
    · exact .refl _
  | notify notice =>
    rw [perform, workspace_finish]
    exact e.workspace.heralds_notify notice
  | notifyThrough n =>
    rw [perform, workspace_finish]
    refine .of_same (e.workspace.passes_modifyRegistration n (fun r => ?_) fun _ r hr => ?_) rfl
    · exact (r.events_notify _).trans ((r.notify _).events_notify _)
    · exact (Registration.disposed_notify _ _).trans ((r.disposed_notify _).trans hr)
  | disposeOf n =>
    have hne : n ≠ p := fun heq => hop (heq ▸ rfl)
    rw [perform, workspace_finish]
    exact .of_same (e.workspace.passes_modifyRegistration n (fun r => r.events_dispose)
      fun heq => absurd heq hne) rfl
  | dispose =>
    rw [perform, workspace_finish]
    exact heralds_dispose e.workspace

/-- An operation that begins tells of whatever it changes at once. -/
theorem heralds_start (hs : e.view.Sound) {op : Operation} (hop : op ≠ .disposeOf p) :
    e.workspace.Heralds p (e.start op).workspace :=
  heralds_perform (e := e.spawned) hs.published hop

end Engine

/-! ## Tasks that go on -/

/-- Whether a task is part of a rebuild. -/
def Line.rebuilds : Line → Bool
  | .scheduled => true
  | .rebuild => true
  | _ => false

/-- Only what is part of a rebuild leads to a part of one. -/
theorem Line.rebuilds_of_leads {l l' : Line} (h : l.leads l' = true) (hl : l'.rebuilds = true) :
    l.rebuilds = true := by
  cases l <;> cases l' <;> simp_all [Line.leads, Line.rebuilds]

/-- A task that goes on lets no rebuild begin. -/
theorem Line.rebuilds_of_spawns {l l' : Line} (h : l.spawns l' = true) : l'.rebuilds = false := by
  cases l <;> cases l' <;> simp_all [Line.spawns, Line.rebuilds]

/-- What a provider is told in the turn of a task: it may be registered first, and of what changes
then only a rebuild does not tell at once. -/
def Workspace.Turned (l : Line) (p : Nat) (w w' : Workspace) : Prop :=
  ∃ w₁, w₁.recognized = w.recognized ∧ Follows p w w₁ ∧ Passes p w₁ w' ∧
    (l.rebuilds = false → w₁.Usable p → w'.recognized = w₁.recognized ∨ Informs p w₁ w')

namespace Workspace.Turned

variable {l : Line} {p : Nat} {w w' : Workspace}

/-- A turn that heralds its changes may be on any line. -/
theorem of_heralds (h : Heralds p w w') : Turned l p w w' :=
  ⟨w, rfl, .refl w, h.toPasses, fun _ => h.change⟩

/-- A turn of a rebuild need not tell of a change before the rebuild ends. -/
theorem of_passes (hl : l.rebuilds = true) (h : Passes p w w') : Turned l p w w' :=
  ⟨w, rfl, .refl w, h, fun hnot => Bool.noConfusion (hl.symm.trans hnot)⟩

/-- A turn that goes on with the editor's interface heralds what it changes from then on. -/
theorem of_registered (hasApi : Bool) (h : Heralds p (w.registered hasApi).2 w') :
    Turned l p w w' :=
  ⟨_, w.recognized_registered hasApi, w.follows_registered hasApi, h.toPasses, fun _ => h.change⟩

/-- Whatever its line, a turn keeps the provider in use. -/
theorem follows (h : Turned l p w w') : Follows p w w' := by
  obtain ⟨w₁, -, hfollows, hpasses, -⟩ := h
  exact hfollows.trans hpasses.follows

end Workspace.Turned

namespace Engine

variable {p : Nat} {e : Engine} {id : TaskId}

/-- What follows the editor's answer heralds its changes. -/
theorem heralds_afterRegistration (hasApi : Bool) (after : AfterRegistration) :
    (e.workspace.registered hasApi).2.Heralds p
      (e.afterRegistration id hasApi after).workspace := by
  let registered : Engine := { e with workspace := (e.workspace.registered hasApi).2 }
  cases after with
  | added m => exact heralds_added (e := registered) m _
  | removed rest added =>
    exact registered.workspace.heralds_notifyChange.trans
      (heralds_removeAll (e := registered.modifyWorkspace (·.notifyChange)) added rest)
  | rebuilt =>
    rw [afterRegistration, workspace_finish]
    exact .refl _

/-- The conclusion of a look tells of its change as its purpose requires. -/
theorem turned_conclude (hkeyed : e.workspace.Keyed) {m : ModelId}
    (hm : e.workspace.isBuildTree m = false) (purpose : Purpose)
    (outcome : Except Failure (Option Build)) :
    e.workspace.Turned purpose.line p (e.conclude id purpose m outcome).workspace := by
  cases purpose with
  | add => exact .of_heralds (heralds_conclude_add hkeyed hm outcome)
  | rebuild => exact .of_passes rfl (passes_conclude .rebuild m outcome)

/-- A task whose children have all ended tells of what they have changed. -/
theorem turned_afterGathering {after : AfterGathering} (hkeyed : e.workspace.Keyed)
    (hm : ∀ purpose m tree, after = .compilers purpose m tree → e.workspace.isBuildTree m = false)
    (outcomes : List Outcome) :
    e.workspace.Turned after.line p (e.afterGathering id outcomes after).workspace := by
  cases after with
  | compilers purpose m tree =>
    unfold afterGathering
    dsimp only
    split
    · exact turned_conclude hkeyed (hm purpose m tree rfl) purpose _
    · exact .of_heralds (.refl _)
  | rebuilt =>
    rw [afterGathering, workspace_finish]
    exact .of_heralds e.workspace.heralds_notifyChange
  | _ =>
    rw [afterGathering, workspace_finish]
    exact .of_heralds (.refl _)

/-- A failure among the tasks that were waited for tells of its change as the line requires. -/
theorem turned_afterFailure {after : AfterGathering} (hkeyed : e.workspace.Keyed)
    (hm : ∀ purpose m tree, after = .compilers purpose m tree → e.workspace.isBuildTree m = false)
    (f : Failure) : e.workspace.Turned after.line p (e.afterFailure id f after).workspace := by
  unfold afterFailure
  split
  · next purpose m tree => exact turned_conclude hkeyed (hm purpose m tree rfl) purpose (.error f)
  · rw [workspace_finish]
    exact .of_heralds (.refl _)

/-- What a provider is told when a task goes on. -/
theorem turned_resume (hs : e.view.Sound) {t : Task} (ht : e.task? id = some t)
    (answers : Answers) :
    e.workspace.Turned t.activity.line p (e.resume id answers).workspace := by
  have hkeyed : e.workspace.Keyed := hs.published
  have hrole : t.activity.role ∈ e.roles := List.mem_of_getElem? (role_eq ht)
  rw [resume_eq_resumeAs ht]
  obtain ⟨parent, a⟩ := t
  have hstay : e.workspace.Turned a.line p e.workspace := .of_heralds (.refl _)
  cases a with
  | adding folder => exact .of_heralds (heralds_beginAdd hkeyed folder)
  | rebuilding old => exact .of_passes rfl (passes_beginRebuild old)
  | asking tree l => exact .of_heralds (heralds_discover _)
  | providing uri => exact .of_heralds (heralds_beginProvide uri)
  | surveying purpose m i =>
    cases i with
    | ask q next =>
      cases purpose with
      | add => exact .of_heralds (heralds_survey_add hkeyed (hs.undecided _ m hrole) _)
      | rebuild => exact .of_passes rfl (passes_survey .rebuild m _)
    | _ => exact hstay
  | discovering i =>
    cases i with
    | ask q next => exact .of_heralds (heralds_discover _)
    | _ => exact hstay
  | telling purpose m =>
    cases purpose with
    | add => exact .of_heralds (heralds_endAdd m)
    | rebuild => exact .of_passes rfl (passes_endRebuild m)
  | registering after => exact .of_registered _ (heralds_afterRegistration answers.hasApi after)
  | gathering children failure after =>
    have hm (purpose : Purpose) (m : ModelId) (tree : SourceTree)
        (hafter : after = .compilers purpose m tree) : e.workspace.isBuildTree m = false := by
      subst hafter
      exact hs.undecided purpose m hrole
    cases failure with
    | some f => exact turned_afterFailure hkeyed hm f
    | none =>
      unfold resumeAs
      dsimp only
      split
      · exact turned_afterGathering hkeyed hm _
      · exact hstay
  | resolving uri path m i =>
    cases i with
    | ask q next => exact .of_heralds (heralds_resolve uri path m _)
    | _ => exact hstay
  | configuring m i =>
    cases i with
    | ask q next => exact .of_heralds (heralds_configure m _)
    | _ => exact hstay
  | compiling m i =>
    cases i with
    | ask q next => exact .of_heralds (heralds_testCompile m _)
    | _ => exact hstay
  | done r => exact hstay

end Engine

end BuildLens
