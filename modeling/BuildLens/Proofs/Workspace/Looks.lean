import BuildLens.Proofs.Workspace.Simulation
import Mathlib.Data.List.Nodup

/-!
# Who looks at which model

A model is numbered when a look at its folder begins. Until the look ends one task carries the
number, and nobody else does. This module follows the numbers through all moves: the ones that are
published, the ones noted as the newest rebuilds, and the ones that tasks carry.

Main definitions:

- `View.Looks`: a task carries the number of a model.
- `View.Sound`: the numbers are in order.

Main results:

- `Move.origins`, `Move.looks`, `Move.key_cases`: what a move does to models, tasks and roots.
- `sound_run`: the numbers are in order after every run.
-/

namespace BuildLens

/-- Whether a task looks at a model. -/
def Role.looksAt (m : ModelId) : Role → Bool
  | .looking _ i => i == m
  | _ => false

/-- Whether the outcome of a look at a model has yet to be published or dropped. -/
def Acting.looksAt (m : ModelId) : Acting → Bool
  | .concluding _ i => i == m
  | _ => false

namespace View

/-- A task looks at a model for a purpose, or has the outcome of that look. -/
def Looks (v : View) (purpose : Purpose) (m : ModelId) : Prop :=
  .looking purpose m ∈ v.roles ∨ v.acting = .concluding purpose m

/-- How many tasks look at a model. -/
def lookers (v : View) (m : ModelId) : Nat :=
  v.roles.countP (Role.looksAt m) + (v.acting.looksAt m).toNat

/-- The numbers of models are in order: generations are counted on from one, and all that is
published or noted under a key, or looked at, is a model that was begun under that key. No two tasks
look at one model, and while one does the model is no published rebuild and not known to be that of
a build tree. -/
structure Sound (v : View) : Prop where
  generation : ∀ i f, v.workspace.origins[i]? = some f → f.generation = i + 1
  published : ∀ key i, v.workspace.published.find? key = some i →
    i < v.workspace.models.length ∧ v.workspace.keyOf i = key
  latest : ∀ key m, v.workspace.latest.find? key = some m →
    m < v.workspace.models.length ∧ v.workspace.keyOf m = key
  rebuilding : ∀ old, .rebuilding old ∈ v.roles → old < v.workspace.models.length
  looks : ∀ p m, v.Looks p m → m < v.workspace.models.length
  exclusive : ∀ m, v.lookers m ≤ 1
  unpublished : ∀ m, v.Looks .rebuild m → m ∉ v.workspace.publishedIds
  undecided : ∀ p m, .looking p m ∈ v.roles → v.workspace.isBuildTree m = false

end View

/-! ## Tasks that change their roles -/

/-- One element of a list is replaced by another. -/
theorem countP_set_add {α : Type} (p : α → Bool) {l : List α} {i : Nat} {a : α}
    (h : l[i]? = some a) (b : α) :
    (l.set i b).countP p + (p a).toNat = l.countP p + (p b).toNat := by
  obtain ⟨hi, rfl⟩ := List.getElem?_eq_some_iff.mp h
  have hle := List.boole_getElem_le_countP (p := p) hi
  have htoNat (b : Bool) : b.toNat = if b then 1 else 0 := by cases b <;> rfl
  rw [List.countP_set hi, htoNat, htoNat]
  omega

/-- An entry other than the new one was in the list before. -/
theorem mem_of_mem_set {α : Type} {l : List α} {i : Nat} {a b : α} (h : a ∈ l.set i b)
    (hne : a ≠ b) : a ∈ l :=
  (List.mem_or_eq_of_mem_set h).resolve_right hne

/-- New settings concern only models in force. -/
theorem mem_publishedIds_of_concerned {w : Workspace} {settings : Settings} {i : ModelId}
    (h : i ∈ Engine.concerned w settings) : i ∈ w.publishedIds := by
  unfold Engine.concerned at h
  split at h
  · exact h
  · exact (List.mem_filter.mp h).1

/-! ## What a move leaves as it is -/

section Move

variable {input : Input} {v v' : View}

/-- A steady move begins no model. -/
theorem Steady.origins (h : Steady input v v') : v'.workspace.origins = v.workspace.origins := by
  cases h with
  | refresh w R a i f => exact w.origins_refreshed i f
  | takeIn w R p m outcome => exact w.origins_concluded m outcome
  | follow w R h => rw [Workspace.retire_eq]; rfl
  | register w R id hid => rw [Workspace.registered_eq]; rfl
  | _ => rfl

/-- A move that begins no look begins no model. -/
theorem Move.origins (h : Move input v v') : v'.workspace.origins = v.workspace.origins := by
  cases h with
  | steady h => exact h.origins
  | clearing h =>
    cases h with
    | empty w R => rw [Workspace.emptied_eq]; rfl
    | _ => rfl

/-- The number of models stays in such a move. -/
theorem Move.models_length (h : Move input v v') :
    v'.workspace.models.length = v.workspace.models.length :=
  Workspace.models_length_congr h.origins

/-- The keys of models stay in such a move. -/
theorem Move.keyOf (h : Move input v v') (i : ModelId) :
    v'.workspace.keyOf i = v.workspace.keyOf i :=
  Workspace.keyOf_congr h.origins i

/-- The newest rebuild of a root is published, and it is not looked at any more. -/
structure Replaces (v v' : View) (key : String) (m : ModelId) : Prop where
  acting : v.acting = .concluding .rebuild m
  keyOf : v.workspace.keyOf m = key
  noted : v.workspace.latest.find? key = some m
  known : v.workspace.knows key = true
  published : v'.workspace.published.find? key = some m
  cleared : v'.workspace.latest.find? key = none
  fewer : v'.lookers m + 1 = v.lookers m

/-- A move leaves a root as it is, takes it away, or publishes the newest rebuild of it. -/
theorem Move.key_cases (h : Move input v v') (key : String) :
    v'.workspace.published.find? key = v.workspace.published.find? key ∧
        v'.workspace.latest.find? key = v.workspace.latest.find? key ∨
      v'.workspace.published.find? key = none ∧ v'.workspace.latest.find? key = none ∨
      ∃ m, Replaces v v' key m := by
  cases h with
  | steady h =>
    cases h with
    | follow w R h =>
      rw [Workspace.retire_eq]
      exact .inl ⟨rfl, rfl⟩
    | register w R id hid =>
      rw [Workspace.registered_eq]
      exact .inl ⟨rfl, rfl⟩
    | replace w R m current a hp hl ha =>
      by_cases hk : key = w.keyOf m
      · subst hk
        refine .inr (.inr ⟨m, rfl, rfl, hl, ?_, ?_, ?_, ?_⟩)
        · exact Workspace.knows_eq_true_iff.mpr ⟨current, hp⟩
        · simp [Workspace.replaced, Table.find?_insert]
        · simp [Workspace.replaced, Table.find?_erase]
        · rcases ha with rfl | ⟨rfl, -⟩ <;> simp [View.lookers, Acting.looksAt]
      · refine .inl ⟨?_, ?_⟩
        · simp [Workspace.replaced, Table.find?_insert, hk]
        · simp [Workspace.replaced, Table.find?_erase, hk]
    | _ => exact .inl ⟨rfl, rfl⟩
  | clearing h =>
    cases h with
    | forget w R a key' hk =>
      by_cases hkey : key = key'
      · subst hkey
        exact .inr (.inl ⟨hk, by simp [Table.find?_erase]⟩)
      · exact .inl ⟨rfl, by simp [Table.find?_erase, hkey]⟩
    | withdraw w R key' i a hk ha =>
      by_cases hkey : key = key'
      · subst hkey
        exact .inr (.inl ⟨by simp [Workspace.withdrawn, Table.find?_erase],
          by simp [Workspace.withdrawn, Table.find?_erase]⟩)
      · exact .inl ⟨by simp [Workspace.withdrawn, Table.find?_erase, hkey],
          by simp [Workspace.withdrawn, Table.find?_erase, hkey]⟩
    | empty w R =>
      rw [Workspace.emptied_eq]
      exact .inr (.inl ⟨rfl, rfl⟩)

/-- Only the outcome of a rebuild is published anew. -/
theorem Move.published {key : String} {i : ModelId} (h : Move input v v')
    (hp : v'.workspace.published.find? key = some i) :
    v.workspace.published.find? key = some i ∨ Replaces v v' key i := by
  rcases h.key_cases key with ⟨hp', -⟩ | ⟨hp', -⟩ | ⟨m, hm⟩
  · exact .inl (hp' ▸ hp)
  · rw [hp'] at hp
    cases hp
  · obtain rfl : m = i := Option.some.inj (hm.published.symm.trans hp)
    exact .inr hm

/-- A note that remains belongs to a root that is left as it is. -/
theorem Move.eq_of_latest {key : String} {m : ModelId} (h : Move input v v')
    (hl : v'.workspace.latest.find? key = some m) :
    v'.workspace.published.find? key = v.workspace.published.find? key ∧
      v'.workspace.latest.find? key = v.workspace.latest.find? key := by
  rcases h.key_cases key with hsame | ⟨-, hl'⟩ | ⟨_, hm⟩
  · exact hsame
  · rw [hl'] at hl
    cases hl
  · rw [hm.cleared] at hl
    cases hl

/-- Only a model that is published is to be looked at again. -/
theorem Move.rebuilding {old : ModelId} (h : Move input v v') (hr : .rebuilding old ∈ v'.roles) :
    .rebuilding old ∈ v.roles ∨ old ∈ v.workspace.publishedIds := by
  cases h with
  | steady h =>
    cases h with
    | spawn w R a n => exact .inl (by simpa using hr)
    | schedule w R a ids hids =>
      rcases List.mem_append.mp hr with hr | hr
      · exact .inl hr
      · exact .inr (hids old (by simpa using hr))
    | configure w R a settings hs =>
      rcases List.mem_append.mp hr with hr | hr
      · exact .inl hr
      · exact .inr (mem_publishedIds_of_concerned (by simpa using hr))
    | conclude w R id p m hid => exact .inl (mem_of_mem_set hr Role.noConfusion)
    | tell w R id p m hid hm => exact .inl (mem_of_mem_set hr Role.noConfusion)
    | ask w R id hid hw hc hp => exact .inl (mem_of_mem_set hr Role.noConfusion)
    | register w R id hid => exact .inl (mem_of_mem_set hr Role.noConfusion)
    | _ => exact .inl hr
  | clearing h =>
    cases h with
    | _ => exact .inl hr

/-- A task goes back to its look only to tell the user of a failure. -/
theorem Move.looking {p : Purpose} {m : ModelId} (h : Move input v v')
    (hr : .looking p m ∈ v'.roles) :
    .looking p m ∈ v.roles ∨ v.acting = .concluding p m ∧ v'.workspace.isBuildTree m = false := by
  cases h with
  | steady h =>
    cases h with
    | spawn w R a n => exact .inl (by simpa using hr)
    | schedule w R a ids hids => exact .inl (by simpa using hr)
    | configure w R a settings hs => exact .inl (by simpa using hr)
    | conclude w R id p m hid => exact .inl (mem_of_mem_set hr Role.noConfusion)
    | tell w R id p' m' hid hm =>
      rcases List.mem_or_eq_of_mem_set hr with hr | heq
      · exact .inl hr
      · cases heq
        exact .inr ⟨rfl, hm⟩
    | ask w R id hid hw hc hp => exact .inl (mem_of_mem_set hr Role.noConfusion)
    | register w R id hid => exact .inl (mem_of_mem_set hr Role.noConfusion)
    | _ => exact .inl hr
  | clearing h =>
    cases h with
    | _ => exact .inl hr

/-- A task has the outcome of the look that was its own. -/
theorem Move.concluding {p : Purpose} {m : ModelId} (h : Move input v v')
    (ha : v'.acting = .concluding p m) :
    v.acting = .concluding p m ∨ .looking p m ∈ v.roles := by
  cases h with
  | steady h =>
    cases h with
    | conclude w R id p' m' hid =>
      cases ha
      exact .inr (List.mem_of_getElem? hid)
    | replace w R m' current a hp hl ha' =>
      rcases ha' with rfl | ⟨rfl, -⟩ <;> cases ha
    | tell => cases ha
    | keep => cases ha
    | count => cases ha
    | drop => cases ha
    | ask => cases ha
    | wait => cases ha
    | follow => cases ha
    | register => cases ha
    | _ => exact .inl ha
  | clearing h =>
    cases h with
    | forget w R a key' hk => exact .inl ha
    | withdraw w R key' j a hk ha' =>
      rcases ha' with rfl | ⟨rfl, -⟩ <;> cases ha
    | empty w R => cases ha

/-- A look that is under way after such a move was so before. -/
theorem Move.looks {p : Purpose} {m : ModelId} (h : Move input v v') (hl : v'.Looks p m) :
    v.Looks p m := by
  rcases hl with hr | ha
  · rcases h.looking hr with hr | ⟨ha, -⟩
    · exact .inl hr
    · exact .inr ha
  · rcases h.concluding ha with ha | hr
    · exact .inr ha
    · exact .inl hr

/-- No task more looks at a model after such a move. -/
theorem Move.lookers_le (h : Move input v v') (m : ModelId) : v'.lookers m ≤ v.lookers m := by
  have hidle (ids : List ModelId) : (ids.map Role.rebuilding).countP (Role.looksAt m) = 0 := by
    rw [List.countP_map, List.countP_eq_zero]
    intro i hi
    exact Bool.false_ne_true
  cases h with
  | steady h =>
    cases h with
    | spawn w R a n => simp [View.lookers, List.countP_replicate, Role.looksAt]
    | schedule w R a ids hids => simp [View.lookers, hidle]
    | configure w R a settings hs => simp [View.lookers, hidle]
    | conclude w R id p i hid =>
      have hset := countP_set_add (Role.looksAt m) hid .idle
      simp only [View.lookers, Role.looksAt, Acting.looksAt, Bool.toNat_false] at hset ⊢
      omega
    | tell w R id p i hid hm =>
      have hset := countP_set_add (Role.looksAt m) hid (.looking p i)
      simp only [View.lookers, Role.looksAt, Acting.looksAt, Bool.toNat_false] at hset ⊢
      omega
    | ask w R id hid hw hc hp =>
      have hset := countP_set_add (Role.looksAt m) hid .registering
      simp only [View.lookers, Role.looksAt, Acting.looksAt, Bool.toNat_false] at hset ⊢
      omega
    | register w R id hid =>
      have hset := countP_set_add (Role.looksAt m) hid .idle
      simp only [View.lookers, Role.looksAt, Acting.looksAt, Bool.toNat_false] at hset ⊢
      omega
    | replace w R i current a hp hl ha =>
      rcases ha with rfl | ⟨rfl, -⟩ <;> exact Nat.le_add_right _ _
    | keep => exact Nat.le_add_right _ _
    | count => exact Nat.le_add_right _ _
    | drop => exact Nat.le_add_right _ _
    | _ => exact Nat.le_refl _
  | clearing h =>
    cases h with
    | withdraw w R key i a hk ha => rcases ha with rfl | ⟨rfl, -⟩ <;> exact Nat.le_refl _
    | _ => exact Nat.le_refl _

/-- Whether a model is that of a build tree is only told by the outcome of the look at it. -/
theorem Move.isBuildTree {m : ModelId} (h : Move input v v')
    (hm : ∀ p, v.acting ≠ .concluding p m) :
    v'.workspace.isBuildTree m = v.workspace.isBuildTree m := by
  cases h with
  | steady h =>
    cases h with
    | refresh w R a i f => exact w.isBuildTree_refreshed i f m
    | takeIn w R p i outcome =>
      have hne : i ≠ m := by
        rintro rfl
        exact hm p rfl
      exact w.isBuildTree_concluded_of_ne outcome hne
    | follow w R h => rw [Workspace.retire_eq]; rfl
    | register w R id hid => rw [Workspace.registered_eq]; rfl
    | _ => rfl
  | clearing h =>
    cases h with
    | empty w R => rw [Workspace.emptied_eq]; rfl
    | _ => rfl

end Move

/-! ## What the beginning of a look leaves as it is -/

section Beginning

variable {v v' : View}

/-- A look begins with one more model, which is not known to be that of a build tree. -/
theorem Beginning.begun (h : Beginning v v') :
    ∃ f, v'.workspace.models = (v.workspace.begun f).models ∧
      f.generation = v.workspace.models.length + 1 ∧ f.isBuildTree = false := by
  cases h with
  | introduce w R id source root hid hk => exact ⟨w.fresh source root, rfl, rfl, rfl⟩
  | retry w R id old f hid hf => exact ⟨w.fresh f.source f.root, rfl, rfl, rfl⟩

/-- A look that begins adds one model. -/
theorem Beginning.models_length (h : Beginning v v') :
    v'.workspace.models.length = v.workspace.models.length + 1 := by
  obtain ⟨f, hmodels, -⟩ := h.begun
  rw [hmodels, Workspace.models_length_begun]

/-- A look that begins leaves the older models. -/
theorem Beginning.model?_of_lt (h : Beginning v v') {i : ModelId}
    (hi : i < v.workspace.models.length) : v'.workspace.model? i = v.workspace.model? i := by
  obtain ⟨f, hmodels, -⟩ := h.begun
  rw [← Workspace.model?_begun_of_lt f hi, Workspace.model?, hmodels]
  rfl

/-- The older models keep their keys. -/
theorem Beginning.keyOf_of_lt (h : Beginning v v') {i : ModelId}
    (hi : i < v.workspace.models.length) : v'.workspace.keyOf i = v.workspace.keyOf i := by
  unfold Workspace.keyOf
  rw [h.model?_of_lt hi]

/-- The number of an older model stays that of a model. -/
theorem Beginning.lt_of_lt (h : Beginning v v') {i : ModelId}
    (hi : i < v.workspace.models.length) : i < v'.workspace.models.length := by
  rw [h.models_length]
  exact Nat.lt_succ_of_lt hi

/-- The new model has the next number. -/
theorem Beginning.lt_self (h : Beginning v v') :
    v.workspace.models.length < v'.workspace.models.length := by
  rw [h.models_length]
  exact Nat.lt_succ_self _

/-- A model of a root stays one. -/
theorem Beginning.keyed_of_keyed (h : Beginning v v') {i : ModelId} {key : String}
    (hi : i < v.workspace.models.length ∧ v.workspace.keyOf i = key) :
    i < v'.workspace.models.length ∧ v'.workspace.keyOf i = key :=
  ⟨h.lt_of_lt hi.1, (h.keyOf_of_lt hi.1).trans hi.2⟩

/-- A look that begins tells nothing of the older models. -/
theorem Beginning.isBuildTree_of_lt (h : Beginning v v') {i : ModelId}
    (hi : i < v.workspace.models.length) :
    v'.workspace.isBuildTree i = v.workspace.isBuildTree i := by
  unfold Workspace.isBuildTree
  rw [h.model?_of_lt hi]

/-- The new model is not known to be that of a build tree. -/
theorem Beginning.isBuildTree_self (h : Beginning v v') :
    v'.workspace.isBuildTree v.workspace.models.length = false := by
  obtain ⟨f, hmodels, -, hf⟩ := h.begun
  rw [← hf, ← Workspace.isBuildTree_begun_self v.workspace f]
  unfold Workspace.isBuildTree Workspace.model?
  rw [hmodels]

/-- A model that begins is published only if its root was not known. -/
theorem Beginning.published {key : String} {i : ModelId} (h : Beginning v v')
    (hp : v'.workspace.published.find? key = some i) :
    v.workspace.published.find? key = some i ∨
      i = v.workspace.models.length ∧ v'.workspace.keyOf i = key ∧
        v.workspace.published.find? key = none ∧
        ∀ m, .looking .rebuild m ∈ v'.roles → .looking .rebuild m ∈ v.roles := by
  cases h with
  | introduce w R id source root hid hk =>
    rcases Table.find?_insert_eq_some.mp hp with ⟨rfl, rfl⟩ | ⟨-, hp⟩
    · refine .inr ⟨rfl, w.keyOf_begun_self (w.fresh source root), hk, ?_⟩
      intro m hr
      rcases List.mem_or_eq_of_mem_set hr with hr | heq
      · exact hr
      · cases heq
    · exact .inl hp
  | retry w R id old f hid hf => exact .inl hp

/-- A rebuild that is noted was noted before or begins now. -/
theorem Beginning.latest {key : String} {m : ModelId} (h : Beginning v v')
    (hl : v'.workspace.latest.find? key = some m) :
    v.workspace.latest.find? key = some m ∨
      m = v.workspace.models.length ∧ v'.workspace.keyOf m = key := by
  cases h with
  | introduce w R id source root hid hk => exact .inl hl
  | retry w R id old f hid hf =>
    rcases Table.find?_insert_eq_some.mp hl with ⟨rfl, rfl⟩ | ⟨-, hl⟩
    · exact .inr ⟨rfl, w.keyOf_begun_self (w.fresh f.source f.root)⟩
    · exact .inl hl

/-- A look that begins schedules no rebuild. -/
theorem Beginning.rebuilding {old : ModelId} (h : Beginning v v')
    (hr : .rebuilding old ∈ v'.roles) : .rebuilding old ∈ v.roles := by
  cases h with
  | introduce w R id source root hid hk => exact mem_of_mem_set hr Role.noConfusion
  | retry w R id old f hid hf => exact mem_of_mem_set hr Role.noConfusion

/-- A look that begins adds one task that looks at the new model. -/
theorem Beginning.lookers (h : Beginning v v') (m : ModelId) :
    v'.lookers m = v.lookers m + (v.workspace.models.length == m).toNat := by
  cases h with
  | introduce w R id source root hid hk =>
    have hset := countP_set_add (Role.looksAt m) hid (.looking .add w.models.length)
    simp only [View.lookers, Role.looksAt, Acting.looksAt, Bool.toNat_false] at hset ⊢
    omega
  | retry w R id old f hid hf =>
    have hset := countP_set_add (Role.looksAt m) hid (.looking .rebuild w.models.length)
    simp only [View.lookers, Role.looksAt, Acting.looksAt, Bool.toNat_false] at hset ⊢
    omega

/-- A task looks at a model as before or at the new one. -/
theorem Beginning.looking {p : Purpose} {m : ModelId} (h : Beginning v v')
    (hr : .looking p m ∈ v'.roles) :
    .looking p m ∈ v.roles ∨ m = v.workspace.models.length := by
  cases h with
  | introduce w R id source root hid hk =>
    rcases List.mem_or_eq_of_mem_set hr with hr | heq
    · exact .inl hr
    · cases heq
      exact .inr rfl
  | retry w R id old f hid hf =>
    rcases List.mem_or_eq_of_mem_set hr with hr | heq
    · exact .inl hr
    · cases heq
      exact .inr rfl

/-- A look is one from before or that at the new model. -/
theorem Beginning.looks {p : Purpose} {m : ModelId} (h : Beginning v v') (hl : v'.Looks p m) :
    v.Looks p m ∨ m = v.workspace.models.length := by
  rcases hl with hr | ha
  · exact (h.looking hr).imp_left .inl
  · cases h <;> cases ha

end Beginning

/-! ## Every run keeps the numbers in order -/

namespace View.Sound

variable {input : Input} {v v' : View}

/-- The numbers of a fresh engine are in order. -/
theorem fresh (context : Context) : (Engine.fresh context).view.Sound where
  generation i f h := by simp [Engine.fresh, Engine.view, Workspace.origins] at h
  published key i h := by simp [Engine.fresh, Engine.view] at h
  latest key m h := by simp [Engine.fresh, Engine.view] at h
  rebuilding old h := by simp [Engine.fresh, Engine.view, Engine.roles] at h
  looks p m h := by simp [Engine.fresh, Engine.view, Engine.roles, Looks] at h
  exclusive m := by simp [Engine.fresh, Engine.view, Engine.roles, lookers, Acting.looksAt]
  unpublished m h := by simp [Engine.fresh, Engine.view, Engine.roles, Looks] at h
  undecided p m h := by simp [Engine.fresh, Engine.view, Engine.roles] at h

/-- A task that looks at a model is counted. -/
theorem one_le_lookers {p : Purpose} {m : ModelId} (h : .looking p m ∈ v.roles) :
    1 ≤ v.roles.countP (Role.looksAt m) :=
  List.one_le_countP_iff.mpr ⟨_, h, by simp [Role.looksAt]⟩

/-- While a task has the outcome of a look at a model, no other task looks at the model. -/
theorem not_looking (hv : v.Sound) {p p' : Purpose} {m : ModelId}
    (ha : v.acting = .concluding p m) : .looking p' m ∉ v.roles := by
  intro h
  have hle := hv.exclusive m
  have hone := one_le_lookers h
  simp only [lookers, ha, Acting.looksAt, beq_self_eq_true, Bool.toNat_true] at hle
  omega

/-- Nobody looks at a model if no purpose has a look at it. -/
theorem lookers_eq_zero_iff {m : ModelId} : v.lookers m = 0 ↔ ∀ p, ¬ v.Looks p m := by
  constructor
  · rintro h p (hr | ha)
    · have hone := one_le_lookers hr
      simp only [lookers] at h
      omega
    · simp [lookers, ha, Acting.looksAt] at h
  · intro h
    have hroles : v.roles.countP (Role.looksAt m) = 0 := by
      rw [List.countP_eq_zero]
      intro r hr hlooks
      cases r with
      | looking p i =>
        obtain rfl : i = m := by simpa [Role.looksAt] using hlooks
        exact h p (.inl hr)
      | _ => cases hlooks
    have hacting : v.acting.looksAt m = false := by
      cases ha : v.acting with
      | concluding p i =>
        refine beq_eq_false_iff_ne.mpr ?_
        rintro rfl
        exact h p (.inr ha)
      | _ => rfl
    rw [lookers, hroles, hacting, Bool.toNat_false]

/-- A model in force was begun. -/
theorem lt_of_mem_publishedIds (hv : v.Sound) {i : ModelId} (h : i ∈ v.workspace.publishedIds) :
    i < v.workspace.models.length := by
  obtain ⟨key, hkey⟩ := Workspace.mem_publishedIds_iff.mp h
  exact (hv.published key i hkey).1

/-- A model is published once. -/
theorem publishedIds_nodup (hv : v.Sound) : v.workspace.publishedIds.Nodup := by
  have hkeys : v.workspace.publishedIds.map v.workspace.keyOf = v.workspace.published.names := by
    rw [Workspace.publishedIds, List.map_map]
    apply List.map_congr_left
    intro e he
    exact (hv.published e.1 e.2 (Table.find?_eq_some_iff.mpr he)).2
  apply List.Nodup.of_map v.workspace.keyOf
  rw [hkeys]
  exact v.workspace.published.distinct

/-- A model in force is published under its own key. -/
theorem isPublished_of_mem (hv : v.Sound) {i : ModelId} (h : i ∈ v.workspace.publishedIds) :
    v.workspace.isPublished i = true := by
  obtain ⟨key, hkey⟩ := Workspace.mem_publishedIds_iff.mp h
  rw [Workspace.isPublished, (hv.published key i hkey).2, hkey, beq_self_eq_true]

/-- A move that begins no look keeps the numbers in order. -/
theorem move (h : Move input v v') (hv : v.Sound) : v'.Sound where
  generation := by
    rw [h.origins]
    exact hv.generation
  published key i hp := by
    rw [h.models_length, h.keyOf]
    rcases h.published hp with hp | hi
    · exact hv.published key i hp
    · exact ⟨hv.looks _ _ (.inr hi.acting), hi.keyOf⟩
  latest key m hl := by
    rw [h.models_length, h.keyOf]
    rw [(h.eq_of_latest hl).2] at hl
    exact hv.latest key m hl
  rebuilding old hr := by
    rw [h.models_length]
    rcases h.rebuilding hr with hr | hr
    · exact hv.rebuilding old hr
    · exact hv.lt_of_mem_publishedIds hr
  looks p m hl := by
    rw [h.models_length]
    exact hv.looks p m (h.looks hl)
  exclusive m := Nat.le_trans (h.lookers_le m) (hv.exclusive m)
  unpublished m hl hm := by
    obtain ⟨key, hp⟩ := Workspace.mem_publishedIds_iff.mp hm
    rcases h.published hp with hp | hreplaces
    · exact hv.unpublished m (h.looks hl) (Workspace.mem_publishedIds_iff.mpr ⟨key, hp⟩)
    · have hle := hv.exclusive m
      have hfewer := hreplaces.fewer
      exact lookers_eq_zero_iff.mp (by omega) .rebuild hl
  undecided p m hr := by
    rcases h.looking hr with hr | ⟨-, hm⟩
    · rw [h.isBuildTree fun _ ha => hv.not_looking ha hr]
      exact hv.undecided p m hr
    · exact hm

/-- A look that begins keeps the numbers in order. -/
theorem beginning (h : Beginning v v') (hv : v.Sound) : v'.Sound where
  generation i f hf := by
    obtain ⟨g, hmodels, hg, -⟩ := h.begun
    have horigins : v'.workspace.origins = v.workspace.origins ++ [g.origin] := by
      rw [← Workspace.origins_begun, Workspace.origins, hmodels]
      rfl
    rw [horigins] at hf
    rw [List.getElem?_append] at hf
    split at hf
    · exact hv.generation i f hf
    · next hi =>
      rw [List.getElem?_singleton] at hf
      split at hf
      · next hlast =>
        obtain rfl : g.origin = f := Option.some.inj hf
        rw [Workspace.origins_length] at hi hlast
        change g.generation = i + 1
        omega
      · cases hf
  published key i hp := by
    rcases h.published hp with hp | ⟨rfl, hk, -⟩
    · exact h.keyed_of_keyed (hv.published key i hp)
    · exact ⟨h.lt_self, hk⟩
  latest key m hl := by
    rcases h.latest hl with hl | ⟨rfl, hk⟩
    · exact h.keyed_of_keyed (hv.latest key m hl)
    · exact ⟨h.lt_self, hk⟩
  rebuilding old hr := h.lt_of_lt (hv.rebuilding old (h.rebuilding hr))
  looks p m hl := by
    rcases h.looks hl with hl | rfl
    · exact h.lt_of_lt (hv.looks p m hl)
    · exact h.lt_self
  exclusive m := by
    rw [h.lookers]
    by_cases hm : v.workspace.models.length = m
    · -- Nobody could look at the model before it was begun.
      have hnone : v.lookers m = 0 :=
        lookers_eq_zero_iff.mpr fun p hl => Nat.lt_irrefl _ (hm ▸ hv.looks p m hl)
      rw [hnone, beq_iff_eq.mpr hm]
      exact Nat.le_refl 1
    · rw [beq_eq_false_iff_ne.mpr hm]
      exact hv.exclusive m
  unpublished m hl hm := by
    obtain ⟨key, hp⟩ := Workspace.mem_publishedIds_iff.mp hm
    rcases h.published hp with hp | ⟨rfl, -, -, hold⟩
    · rcases h.looks hl with hl | rfl
      · exact hv.unpublished m hl (Workspace.mem_publishedIds_iff.mpr ⟨key, hp⟩)
      · exact absurd (hv.published key _ hp).1 (Nat.lt_irrefl _)
    · rcases hl with hr | ha
      · exact absurd (hv.looks _ _ (.inl (hold _ hr))) (Nat.lt_irrefl _)
      · cases h <;> cases ha
  undecided p m hr := by
    rcases h.looking hr with hr | rfl
    · rw [h.isBuildTree_of_lt (hv.looks p m (.inl hr))]
      exact hv.undecided p m hr
    · exact h.isBuildTree_self

/-- An event keeps the numbers in order. -/
theorem step (event : Event) {e : Engine} (he : e.view.Sound) : (e.step event).view.Sound :=
  Engine.step_keeps (fun _ _ => move) (fun _ _ => beginning) he

end View.Sound

/-- The numbers are in order throughout every run. -/
theorem Engine.sound_run (context : Context) (events : List Event) :
    ((fresh context).run events).view.Sound :=
  @run_keeps (fun e => e.view.Sound) events (fun _ event _ he => View.Sound.step event he) _
    (View.Sound.fresh context)

end BuildLens
