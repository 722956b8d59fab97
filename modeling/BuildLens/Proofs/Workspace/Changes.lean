import BuildLens.Proofs.Table
import BuildLens.Workspace.Engine

/-!
# Changes of a workspace

What tasks do to a workspace comes down to a few changes of its fields. This module gives each of
them a name of its own and says what it does to what the workspace is asked: the number of models,
the key of a model, and whether a model is that of a build tree.

Main definitions:

- `Folder.origin`, `Workspace.origins`: what looks began with.
- `Workspace.fresh`: the model that a look begins with.
- `Workspace.admitted`, `Workspace.retried`: a look at a folder that is new, or another look.
- `Workspace.replaced`, `Workspace.withdrawn`: the folder published under a root changes or goes.

Main results:

- `keyOf_congr`: the key of a model is settled when the look at it begins.
- `retire_eq`, `registered_eq`, `emptied_eq`: the fields that following the count changes.
-/

namespace BuildLens

/-- The folder as it was taken up for a look. -/
def Folder.origin (f : Folder) : Folder := { f with phase := .probing, fragments := {} }

namespace Workspace

/-- What the looks that were begun began with, by the numbers of their models. -/
def origins (w : Workspace) : List Folder := w.models.map Folder.origin

theorem origins_length (w : Workspace) : w.origins.length = w.models.length :=
  List.length_map _

/-- Where a model comes from is noted under its number. -/
theorem origins_getElem? (w : Workspace) (i : ModelId) :
    w.origins[i]? = (w.model? i).map Folder.origin :=
  List.getElem?_map

/-- The key of a model depends on where the models come from. -/
theorem keyOf_congr {w w' : Workspace} (h : w'.origins = w.origins) (i : ModelId) :
    w'.keyOf i = w.keyOf i := by
  have hkey (w : Workspace) : w.keyOf i = (w.origins[i]?.map (·.root.key)).getD "" := by
    rw [origins_getElem?, Option.map_map]
    rfl
  rw [hkey, hkey, h]

/-- How many models there are is told by where they come from. -/
theorem models_length_congr {w w' : Workspace} (h : w'.origins = w.origins) :
    w'.models.length = w.models.length := by
  rw [← origins_length, ← origins_length, h]

/-- The key of a model is that of its root. -/
theorem keyOf_of_model? {w : Workspace} {i : ModelId} {f : Folder} (hf : w.model? i = some f) :
    w.keyOf i = f.root.key := by
  rw [keyOf, hf]
  rfl

/-- A model that exists has a number below that of the next one. -/
theorem lt_of_model? {w : Workspace} {i : ModelId} {f : Folder} (hf : w.model? i = some f) :
    i < w.models.length :=
  (List.getElem?_eq_some_iff.mp hf).choose

/-- Every number below that of the next model is that of one. -/
theorem exists_model? {w : Workspace} {i : ModelId} (hi : i < w.models.length) :
    ∃ f, w.model? i = some f :=
  ⟨_, List.getElem?_eq_getElem hi⟩

/-! ## Changes of a model -/

/-- A change of one model leaves the others as they are. -/
theorem model?_modifyModel (w : Workspace) (i : ModelId) (f : Folder → Folder) (j : ModelId) :
    (w.modifyModel i f).model? j = if i = j then (w.model? j).map f else w.model? j := by
  unfold model? modifyModel
  rw [List.getElem?_modify]
  split <;> simp

/-- A change that keeps where a model comes from keeps the whole list. -/
theorem origins_modifyModel (w : Workspace) (i : ModelId) {f : Folder → Folder}
    (hf : ∀ g, (f g).origin = g.origin) : (w.modifyModel i f).origins = w.origins := by
  apply List.ext_getElem?
  intro j
  rw [origins_getElem?, origins_getElem?, model?_modifyModel]
  split
  · rw [Option.map_map]
    congr 1
    funext g
    exact hf g
  · rfl

/-- A change that keeps the phase of a model keeps whether it is a build tree. -/
theorem isBuildTree_modifyModel (w : Workspace) (i : ModelId) {f : Folder → Folder} {j : ModelId}
    (hf : i = j → ∀ g, (f g).phase = g.phase) :
    (w.modifyModel i f).isBuildTree j = w.isBuildTree j := by
  unfold isBuildTree
  rw [model?_modifyModel]
  split
  · next h =>
    cases w.model? j with
    | none => rfl
    | some g => simp [Folder.isBuildTree, Folder.build?, hf h g]
  · rfl

/-- What a model keeps in memory is no part of what a workspace is asked about it. -/
def refreshed (w : Workspace) (i : ModelId) (f : FragmentCache → FragmentCache) : Workspace :=
  w.modifyModel i fun g => { g with fragments := f g.fragments }

/-- The outcome of a look at a model is taken in. -/
def concluded (w : Workspace) (i : ModelId) (outcome : Except Failure (Option Build)) :
    Workspace :=
  w.modifyModel i (·.conclude outcome)

/-- What is kept in memory has nothing to do with where models come from. -/
@[simp]
theorem origins_refreshed (w : Workspace) (i : ModelId) (f : FragmentCache → FragmentCache) :
    (w.refreshed i f).origins = w.origins :=
  origins_modifyModel w i fun _ => rfl

/-- The outcome of a look has nothing to do with where models come from. -/
@[simp]
theorem origins_concluded (w : Workspace) (i : ModelId)
    (outcome : Except Failure (Option Build)) : (w.concluded i outcome).origins = w.origins :=
  origins_modifyModel w i fun _ => rfl

/-- What is kept in memory does not tell build trees. -/
@[simp]
theorem isBuildTree_refreshed (w : Workspace) (i : ModelId) (f : FragmentCache → FragmentCache)
    (j : ModelId) : (w.refreshed i f).isBuildTree j = w.isBuildTree j :=
  isBuildTree_modifyModel w i fun _ _ => rfl

/-- The outcome of a look at one model does not tell what another one is. -/
theorem isBuildTree_concluded_of_ne (w : Workspace) {i j : ModelId}
    (outcome : Except Failure (Option Build)) (h : i ≠ j) :
    (w.concluded i outcome).isBuildTree j = w.isBuildTree j :=
  isBuildTree_modifyModel w i fun heq => absurd heq h

/-- A look that fails has not found a build tree. -/
theorem isBuildTree_concluded_error (w : Workspace) (i : ModelId) (e : Failure) :
    (w.concluded i (.error e)).isBuildTree i = false := by
  unfold isBuildTree concluded
  rw [model?_modifyModel, if_pos rfl]
  cases w.model? i <;> rfl

/-! ## Looks that begin -/

/-- The model that a look at a folder begins with. -/
def fresh (w : Workspace) (source : EditorFolder) (root : FilePath) : Folder :=
  { Folder.take w.platform w.context.settings source root (w.models.length + 1) with
    phase := .probing }

/-- The workspace where one more look was begun. -/
def begun (w : Workspace) (f : Folder) : Workspace := { w with models := w.models ++ [f] }

/-- A model that is begun stands behind the others. -/
theorem origins_begun (w : Workspace) (f : Folder) :
    (w.begun f).origins = w.origins ++ [f.origin] :=
  List.map_append

@[simp]
theorem models_length_begun (w : Workspace) (f : Folder) :
    (w.begun f).models.length = w.models.length + 1 := by
  simp [begun]

/-- The models before it stay as they are. -/
theorem model?_begun_of_lt {w : Workspace} (f : Folder) {i : ModelId} (h : i < w.models.length) :
    (w.begun f).model? i = w.model? i :=
  List.getElem?_append_left h

/-- It has the next number. -/
@[simp]
theorem model?_begun_self (w : Workspace) (f : Folder) :
    (w.begun f).model? w.models.length = some f := by
  simp [model?, begun]

/-- All models are those from before and the new one. -/
theorem model?_begun_eq_some_iff {w : Workspace} {f g : Folder} {i : ModelId} :
    (w.begun f).model? i = some g ↔ w.model? i = some g ∨ i = w.models.length ∧ f = g := by
  constructor
  · intro h
    by_cases hi : i < w.models.length
    · exact .inl ((model?_begun_of_lt f hi).symm.trans h)
    · have hlt : i < w.models.length + 1 := by
        rw [← models_length_begun w f]
        exact lt_of_model? h
      obtain rfl : i = w.models.length :=
        Nat.le_antisymm (Nat.le_of_lt_succ hlt) (Nat.le_of_not_lt hi)
      exact .inr ⟨rfl, Option.some.inj ((model?_begun_self w f).symm.trans h)⟩
  · rintro (h | ⟨rfl, rfl⟩)
    · exact (model?_begun_of_lt f (lt_of_model? h)).trans h
    · exact model?_begun_self w f

/-- The new model has the key of its root. -/
@[simp]
theorem keyOf_begun_self (w : Workspace) (f : Folder) :
    (w.begun f).keyOf w.models.length = f.root.key := by
  simp [keyOf]

/-- The new model is a build tree if its folder is known to be one. -/
@[simp]
theorem isBuildTree_begun_self (w : Workspace) (f : Folder) :
    (w.begun f).isBuildTree w.models.length = f.isBuildTree := by
  simp [isBuildTree]

/-- A folder that is new is published, and a look at it begins. -/
def admitted (w : Workspace) (source : EditorFolder) (root : FilePath) : Workspace :=
  { w.begun (w.fresh source root) with
    published := w.published.insert root.key w.models.length }

/-- Another look at a folder begins. -/
def retried (w : Workspace) (source : EditorFolder) (root : FilePath) : Workspace :=
  { w.begun (w.fresh source root) with latest := w.latest.insert root.key w.models.length }

/-- A folder that is taken up and published is admitted. -/
theorem takeUp_publish (w : Workspace) (source : EditorFolder) (root : FilePath) :
    (w.takeUp source root).2.publish w.models.length = w.admitted source root := by
  have hkey : (w.takeUp source root).2.keyOf w.models.length = root.key :=
    keyOf_begun_self w (w.fresh source root)
  unfold publish
  rw [hkey]
  rfl

/-! ## Published folders -/

/-- The model of a rebuild takes the place of the model in force. -/
def replaced (w : Workspace) (m current : ModelId) : Workspace :=
  { w with
    latest := w.latest.erase (w.keyOf m)
    published := w.published.insert (w.keyOf m) m
    buildCount := w.buildCount + (Engine.weight w m - Engine.weight w current) }

/-- A root is taken from the published folders, with any rebuild in flight. -/
def withdrawn (w : Workspace) (key : String) (i : ModelId) : Workspace :=
  { w with
    latest := w.latest.erase key
    published := w.published.erase key
    buildCount := w.buildCount - Engine.weight w i }

/-- All roots are taken from the published folders, and the provider goes with them. -/
def emptied (w : Workspace) : Workspace :=
  { w with published := ∅, latest := ∅, buildCount := 0 }.disposeProvider

/-! ## The provider follows -/

/-- To dispose of the provider changes what it was told and that it is in force. -/
theorem disposeProvider_eq (w : Workspace) : w.disposeProvider =
    { w with
      registrations := w.disposeProvider.registrations
      provider := w.disposeProvider.provider } := by
  unfold disposeProvider
  split <;> rfl

/-- No provider is in force once it is disposed of. -/
theorem provider_disposeProvider (w : Workspace) : w.disposeProvider.provider = none := by
  unfold disposeProvider
  split
  · rfl
  · next h => exact h

/-- To retire a provider changes nothing but the providers. -/
theorem retire_eq (w : Workspace) : w.retire =
    { w with registrations := w.retire.registrations, provider := w.retire.provider } := by
  unfold retire
  split
  · exact disposeProvider_eq w
  · rfl

/-- To register a provider changes nothing but the providers, and nobody asks any more. -/
theorem registered_eq (w : Workspace) (hasApi : Bool) : (w.registered hasApi).2 =
    { w with
      registrations := (w.registered hasApi).2.registrations
      provider := (w.registered hasApi).2.provider
      registering := false } := by
  unfold registered
  cases hasApi with
  | false => rfl
  | true => exact retire_eq _

/-- To let go of everything leaves no folder, no rebuild in flight and no provider. -/
theorem emptied_eq (w : Workspace) : w.emptied =
    { w with
      published := ∅
      latest := ∅
      buildCount := 0
      registrations := w.emptied.registrations
      provider := w.emptied.provider } :=
  disposeProvider_eq _

/-! ## Known roots -/

/-- Whether a folder is published under a key. -/
def knows (w : Workspace) (key : String) : Bool := (w.published.find? key).isSome

/-- A key is known if a model is published under it. -/
theorem knows_eq_true_iff {w : Workspace} {key : String} :
    w.knows key = true ↔ ∃ i, w.published.find? key = some i :=
  Option.isSome_iff_exists

/-- A key is unknown if no model is published under it. -/
theorem knows_eq_false_iff {w : Workspace} {key : String} :
    w.knows key = false ↔ w.published.find? key = none := by
  rw [knows, Option.isSome_eq_false_iff, Option.isNone_iff_eq_none]

/-- The published models are those that some key leads to. -/
theorem mem_publishedIds_iff {w : Workspace} {i : ModelId} :
    i ∈ w.publishedIds ↔ ∃ key, w.published.find? key = some i :=
  Table.mem_values_iff

end Workspace

end BuildLens
