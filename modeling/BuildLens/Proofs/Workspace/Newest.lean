import BuildLens.Proofs.Workspace.History
import Mathlib.Order.Bounds.Defs

/-!
# The newest look is published

Rebuilds of a root may overlap and end in any order, and the root may go and come back meanwhile.
What keeps old models from taking the place of newer ones is the note of the newest rebuild. The
note can be wrong: a rebuild that begins when its root is not published is noted all the same, and
nothing clears the note when the root is added anew. This module shows that nothing else goes wrong.

Main definitions:

- `Workspace.Newest`: no model of a root is newer.
- `View.Recorded`: what the notes of newest rebuilds are worth.

Main results:

- `newest_published_iff`: the newest model of a root is published unless a stray is.
- `knows_only_new`: a root that was taken away only comes back with a model that begins.
-/

namespace BuildLens

/-- No model of a root is newer. -/
def Workspace.Newest (w : Workspace) (key : String) (i : ModelId) : Prop :=
  ∀ j < w.models.length, w.keyOf j = key → j ≤ i

namespace View

/-- The newest rebuild that is noted for a published root is the newest model of the root and will
be published, unless it is a stray. -/
structure Recorded (h : History) (v : View) : Prop where
  strays_lt : ∀ s ∈ h.strays, s < v.workspace.models.length
  admitted : ∀ key, v.workspace.knows key = true →
    h.admitted key < v.workspace.models.length ∧ v.workspace.keyOf (h.admitted key) = key
  /-- A stray is older than the model with which its root was last newly added. -/
  strays_lt_admitted : ∀ s ∈ h.strays, v.workspace.knows (v.workspace.keyOf s) = true →
    s < h.admitted (v.workspace.keyOf s)
  settled : ∀ key i, v.workspace.published.find? key = some i →
    v.workspace.latest.find? key = none → i ∉ h.strays → v.workspace.Newest key i
  underway : ∀ key i m, v.workspace.published.find? key = some i →
    v.workspace.latest.find? key = some m → m ∉ h.strays →
      v.workspace.Newest key m ∧ v.Looks .rebuild m
  /-- As long as a stray is noted no rebuild was begun since the root was added. -/
  untouched : ∀ key i m, v.workspace.published.find? key = some i →
    v.workspace.latest.find? key = some m → m ∈ h.strays → v.workspace.Newest key i
  /-- Only strays are noted for roots that are not published. -/
  forgotten : ∀ key m, v.workspace.published.find? key = none →
    v.workspace.latest.find? key = some m → m ∈ h.strays

end View

/-! ## Looks that go on -/

/-- An entry stays in a list if another one is set. -/
theorem mem_set_of_ne {α : Type} {l : List α} {i : Nat} {a b c : α} (hi : l[i]? = some a)
    (hc : c ∈ l) (hne : c ≠ a) : c ∈ l.set i b := by
  obtain ⟨j, hj⟩ := List.getElem?_of_mem hc
  have hij : i ≠ j := by
    rintro rfl
    exact hne (Option.some.inj (hj.symm.trans hi))
  apply List.mem_of_getElem? (i := j)
  rw [List.getElem?_set_ne hij, hj]

section

variable {input : Input} {v v' : View}

/-- A rebuild goes on until its outcome is published or dropped. -/
theorem Move.looks_rebuild {m : ModelId} (h : Move input v v') (hl : v.Looks .rebuild m) :
    v'.Looks .rebuild m ∨ v.workspace.published.find? (v.workspace.keyOf m) = none ∨
      v.workspace.latest.find? (v.workspace.keyOf m) ≠ some m ∨
      v'.workspace.latest.find? (v.workspace.keyOf m) = none := by
  rcases hl with hr | ha
  · cases h with
    | steady h =>
      cases h with
      | spawn w R a n => exact .inl (.inl (List.mem_append_left _ hr))
      | schedule w R a ids hids => exact .inl (.inl (List.mem_append_left _ hr))
      | configure w R a settings hs => exact .inl (.inl (List.mem_append_left _ hr))
      | conclude w R id p i hid =>
        by_cases hsame : Role.looking .rebuild m = .looking p i
        · cases hsame
          exact .inl (.inr rfl)
        · exact .inl (.inl (mem_set_of_ne hid hr hsame))
      | tell w R id p i hid hm => exact .inl (.inl (mem_set_of_ne hid hr nofun))
      | ask w R id hid hw hc hp => exact .inl (.inl (mem_set_of_ne hid hr nofun))
      | register w R id hid => exact .inl (.inl (mem_set_of_ne hid hr nofun))
      | _ => exact .inl (.inl hr)
    | clearing h =>
      cases h with
      | _ => exact .inl (.inl hr)
  · cases h with
    | steady h =>
      cases h with
      | tell w R id p i hid hm =>
        cases ha
        have hlt : id < R.length := (List.getElem?_eq_some_iff.mp hid).choose
        exact .inl (.inl (List.mem_set hlt _))
      | drop w R i h =>
        cases ha
        exact .inr (h.imp_right .inl)
      | replace w R i current a hp hl ha' =>
        cases ha
        have herased : (w.replaced m current).latest.find? (w.keyOf m) = none := by
          simp [Workspace.replaced, Table.find?_erase]
        exact .inr (.inr (.inr herased))
      | takeIn w R p i outcome => exact .inl (.inr ha)
      | conclude => cases ha
      | keep => cases ha
      | count => cases ha
      | ask => cases ha
      | wait => cases ha
      | follow => cases ha
      | register => cases ha
      | _ => exact .inl (.inr ha)
    | clearing h =>
      cases h with
      | forget w R a key hk => exact .inl (.inr ha)
      | withdraw => cases ha
      | empty => cases ha

/-- A move that begins no look leaves which models are the newest ones. -/
theorem Move.newest_iff (h : Move input v v') {key : String} {i : ModelId} :
    v'.workspace.Newest key i ↔ v.workspace.Newest key i := by
  simp only [Workspace.Newest, h.models_length, h.keyOf]

/-- A look that is under way goes on when another one begins. -/
theorem Beginning.looks_of_looks {p : Purpose} {m : ModelId} (h : Beginning v v')
    (hl : v.Looks p m) : v'.Looks p m := by
  cases h with
  | introduce w R id source root hid hk =>
    rcases hl with hr | ha
    · exact .inl (mem_set_of_ne hid hr nofun)
    · cases ha
  | retry w R id old f hid hf =>
    rcases hl with hr | ha
    · exact .inl (mem_set_of_ne hid hr nofun)
    · cases ha

/-- The new model is the newest one of any root. -/
theorem Beginning.newest_self (h : Beginning v v') (key : String) :
    v'.workspace.Newest key v.workspace.models.length := by
  intro j hj _
  rw [h.models_length] at hj
  exact Nat.le_of_lt_succ hj

/-- The newest model of another root stays so. -/
theorem Beginning.newest_of_ne (h : Beginning v v') {key : String} {i : ModelId}
    (hne : v'.workspace.keyOf v.workspace.models.length ≠ key)
    (hi : v.workspace.Newest key i) : v'.workspace.Newest key i := by
  intro j hj hkey
  rw [h.models_length] at hj
  rcases Nat.lt_succ_iff_lt_or_eq.mp hj with hlt | rfl
  · rw [h.keyOf_of_lt hlt] at hkey
    exact hi j hlt hkey
  · exact absurd hkey hne

end

/-! ## Every turn keeps the records right -/

namespace View.Recorded

variable {input : Input} {h : History} {v v' : View}

/-- A move that begins no look keeps the records right. -/
theorem move (hmove : Move input v v') (hs : v.Sound) (hv : v.Recorded h) : v'.Recorded h where
  strays_lt s hs := by
    rw [hmove.models_length]
    exact hv.strays_lt s hs
  admitted key hk := by
    rw [hmove.models_length, hmove.keyOf]
    exact hv.admitted key (hmove.knows_of_knows hk)
  strays_lt_admitted s hs hk := by
    rw [hmove.keyOf] at hk ⊢
    exact hv.strays_lt_admitted s hs (hmove.knows_of_knows hk)
  settled key i hp hl hi := by
    rw [hmove.newest_iff]
    rcases hmove.key_cases key with ⟨hp', hl'⟩ | ⟨hp', -⟩ | ⟨m, hm⟩
    · exact hv.settled key i (hp' ▸ hp) (hl' ▸ hl) hi
    · rw [hp'] at hp
      cases hp
    · obtain rfl : m = i := Option.some.inj (hm.published.symm.trans hp)
      obtain ⟨current, hcurrent⟩ := Workspace.knows_eq_true_iff.mp hm.known
      exact (hv.underway key current m hcurrent hm.noted hi).1
  underway key i m hp hl hm := by
    rw [hmove.newest_iff]
    obtain ⟨hp', hl'⟩ := hmove.eq_of_latest hl
    rw [hp'] at hp
    rw [hl'] at hl
    obtain ⟨hnewest, hlooks⟩ := hv.underway key i m hp hl hm
    refine ⟨hnewest, ?_⟩
    have hkey := (hs.latest key m hl).2
    rcases hmove.looks_rebuild hlooks with hlooks | hnone | hother | hnone
    · exact hlooks
    · rw [hkey, hp] at hnone
      cases hnone
    · rw [hkey] at hother
      exact absurd hl hother
    · rw [hkey, hl', hl] at hnone
      cases hnone
  untouched key i m hp hl hm := by
    rw [hmove.newest_iff]
    obtain ⟨hp', hl'⟩ := hmove.eq_of_latest hl
    exact hv.untouched key i m (hp' ▸ hp) (hl' ▸ hl) hm
  forgotten key m hp hl := by
    obtain ⟨hp', hl'⟩ := hmove.eq_of_latest hl
    exact hv.forgotten key m (hp' ▸ hp) (hl' ▸ hl)

section Beginning

variable {w : Workspace} {R : List Role} {id : TaskId}

/-- The model with which a root is newly added is the newest one of the root. -/
theorem introduce {source : EditorFolder} {root : FilePath} (hid : R[id]? = some .idle)
    (hk : w.published.find? root.key = none) (hv : View.Recorded h ⟨w, R, .resting⟩) :
    View.Recorded { h with admitted := Function.update h.admitted root.key w.models.length }
      ⟨w.admitted source root, R.set id (.looking .add w.models.length), .resting⟩ := by
  have hb := Beginning.introduce w R id source root hid hk
  have hself : (w.admitted source root).keyOf w.models.length = root.key :=
    w.keyOf_begun_self (w.fresh source root)
  have hpublished (key : String) : (w.admitted source root).published.find? key =
      if key = root.key then some w.models.length else w.published.find? key :=
    Table.find?_insert _ _ _ _
  -- What is published under another root was published before.
  have hother {key : String} (hne : key ≠ root.key) :
      (w.admitted source root).published.find? key = w.published.find? key := by
    rw [hpublished, if_neg hne]
  have hknows {key : String} (hne : key ≠ root.key) :
      (w.admitted source root).knows key = w.knows key :=
    congrArg Option.isSome (hother hne)
  have hself_ne {key : String} (hne : key ≠ root.key) :
      (w.admitted source root).keyOf w.models.length ≠ key := by
    rw [hself]
    exact hne.symm
  constructor
  case strays_lt => exact fun s hs => hb.lt_of_lt (hv.strays_lt s hs)
  case admitted =>
    intro key hkey
    dsimp only
    by_cases heq : key = root.key
    · subst heq
      rw [Function.update_self]
      exact ⟨hb.lt_self, hself⟩
    · rw [Function.update_of_ne heq]
      exact hb.keyed_of_keyed (hv.admitted key (hknows heq ▸ hkey))
  case strays_lt_admitted =>
    intro s hs hkey
    have hlt := hv.strays_lt s hs
    dsimp only at hkey ⊢
    rw [hb.keyOf_of_lt hlt] at hkey ⊢
    by_cases heq : w.keyOf s = root.key
    · rw [heq, Function.update_self]
      exact hlt
    · rw [Function.update_of_ne heq]
      exact hv.strays_lt_admitted s hs (hknows heq ▸ hkey)
  case settled =>
    intro key i hp hl hi
    by_cases heq : key = root.key
    · rw [hpublished, if_pos heq] at hp
      cases hp
      exact hb.newest_self key
    · exact hb.newest_of_ne (hself_ne heq) (hv.settled key i (hother heq ▸ hp) hl hi)
  case underway =>
    intro key i m hp hl hm
    by_cases heq : key = root.key
    · subst heq
      exact absurd (hv.forgotten root.key m hk hl) hm
    · obtain ⟨hnewest, hlooks⟩ := hv.underway key i m (hother heq ▸ hp) hl hm
      exact ⟨hb.newest_of_ne (hself_ne heq) hnewest, hb.looks_of_looks hlooks⟩
  case untouched =>
    intro key i m hp hl hm
    by_cases heq : key = root.key
    · rw [hpublished, if_pos heq] at hp
      cases hp
      exact hb.newest_self key
    · exact hb.newest_of_ne (hself_ne heq) (hv.untouched key i m (hother heq ▸ hp) hl hm)
  case forgotten =>
    intro key m hp hl
    have heq : key ≠ root.key := by
      rintro rfl
      rw [hpublished, if_pos rfl] at hp
      cases hp
    exact hv.forgotten key m (hother heq ▸ hp) hl

/-- A look that begins again is noted under its key, and no other key changes. -/
theorem find?_latest_retried (w : Workspace) (f : Folder) (key : String) :
    (w.retried f.source f.root).latest.find? key =
      if key = f.root.key then some w.models.length else w.latest.find? key :=
  Table.find?_insert _ _ _ _

/-- A look that begins again is at a model of the same key. -/
theorem keyOf_retried_self (w : Workspace) (f : Folder) :
    (w.retried f.source f.root).keyOf w.models.length = f.root.key :=
  w.keyOf_begun_self (w.fresh f.source f.root)

/-- A rebuild of a published root is noted and is the newest model of the root. -/
theorem retry_known {old : ModelId} {f : Folder} (hid : R[id]? = some (.rebuilding old))
    (hf : w.model? old = some f) (hk : w.knows f.root.key = true)
    (hv : View.Recorded h ⟨w, R, .resting⟩) :
    View.Recorded h ⟨w.retried f.source f.root, R.set id (.looking .rebuild w.models.length),
      .resting⟩ := by
  have hb := Beginning.retry w R id old f hid hf
  have hlatest := find?_latest_retried w f
  have hself := keyOf_retried_self w f
  constructor
  case strays_lt => exact fun s hs => hb.lt_of_lt (hv.strays_lt s hs)
  case admitted => exact fun key hkey => hb.keyed_of_keyed (hv.admitted key hkey)
  case strays_lt_admitted =>
    intro s hs hkey
    rw [hb.keyOf_of_lt (hv.strays_lt s hs)] at hkey ⊢
    exact hv.strays_lt_admitted s hs hkey
  case settled =>
    intro key i hp hl hi
    rw [hlatest] at hl
    split at hl
    · cases hl
    · next hne =>
      exact hb.newest_of_ne (hself ▸ Ne.symm hne) (hv.settled key i hp hl hi)
  case underway =>
    intro key i m hp hl hm
    rw [hlatest] at hl
    split at hl
    · cases hl
      have hlt : id < R.length := (List.getElem?_eq_some_iff.mp hid).choose
      exact ⟨hb.newest_self key, .inl (List.mem_set hlt _)⟩
    · next hne =>
      obtain ⟨hnewest, hlooks⟩ := hv.underway key i m hp hl hm
      exact ⟨hb.newest_of_ne (hself ▸ Ne.symm hne) hnewest, hb.looks_of_looks hlooks⟩
  case untouched =>
    intro key i m hp hl hm
    rw [hlatest] at hl
    split at hl
    · cases hl
      exact absurd (hv.strays_lt _ hm) (Nat.lt_irrefl _)
    · next hne =>
      exact hb.newest_of_ne (hself ▸ Ne.symm hne) (hv.untouched key i m hp hl hm)
  case forgotten =>
    intro key m hp hl
    rw [hlatest] at hl
    split at hl
    · next heq =>
      have hp : w.published.find? key = none := hp
      rw [← heq, Workspace.knows, hp] at hk
      cases hk
    · exact hv.forgotten key m hp hl

/-- A rebuild of a root that is not published is a stray. -/
theorem retry_stray {old : ModelId} {f : Folder} (hid : R[id]? = some (.rebuilding old))
    (hf : w.model? old = some f) (hk : w.knows f.root.key = false)
    (hs : View.Sound ⟨w, R, .resting⟩) (hv : View.Recorded h ⟨w, R, .resting⟩) :
    View.Recorded { h with strays := h.strays ++ [w.models.length] }
      ⟨w.retried f.source f.root, R.set id (.looking .rebuild w.models.length), .resting⟩ := by
  have hb := Beginning.retry w R id old f hid hf
  have hlatest := find?_latest_retried w f
  have hself := keyOf_retried_self w f
  -- The root of the stray is not published, so that nothing is claimed of it.
  have hother {key : String} {i : ModelId} (hp : w.published.find? key = some i) :
      key ≠ f.root.key := by
    rintro rfl
    rw [Workspace.knows, hp] at hk
    cases hk
  constructor
  case strays_lt =>
    intro s hs
    rcases List.mem_append.mp hs with hs | hs
    · exact hb.lt_of_lt (hv.strays_lt s hs)
    · rw [List.mem_singleton.mp hs]
      exact hb.lt_self
  case admitted => exact fun key hkey => hb.keyed_of_keyed (hv.admitted key hkey)
  case strays_lt_admitted =>
    intro s hs hkey
    rcases List.mem_append.mp hs with hs | hs
    · rw [hb.keyOf_of_lt (hv.strays_lt s hs)] at hkey ⊢
      exact hv.strays_lt_admitted s hs hkey
    · rw [List.mem_singleton.mp hs, hself] at hkey
      exact absurd hkey (Bool.eq_false_iff.mp hk)
  case settled =>
    intro key i hp hl hi
    rw [hlatest, if_neg (hother hp)] at hl
    have hi : i ∉ h.strays := fun hmem => hi (List.mem_append_left _ hmem)
    exact hb.newest_of_ne (hself ▸ (hother hp).symm) (hv.settled key i hp hl hi)
  case underway =>
    intro key i m hp hl hm
    rw [hlatest, if_neg (hother hp)] at hl
    have hm : m ∉ h.strays := fun hmem => hm (List.mem_append_left _ hmem)
    obtain ⟨hnewest, hlooks⟩ := hv.underway key i m hp hl hm
    exact ⟨hb.newest_of_ne (hself ▸ (hother hp).symm) hnewest, hb.looks_of_looks hlooks⟩
  case untouched =>
    intro key i m hp hl hm
    rw [hlatest, if_neg (hother hp)] at hl
    have hlt := (hs.latest key m hl).1
    have hm : m ∈ h.strays := by
      rcases List.mem_append.mp hm with hm | hm
      · exact hm
      · exact absurd (List.mem_singleton.mp hm) (Nat.ne_of_lt hlt)
    exact hb.newest_of_ne (hself ▸ (hother hp).symm) (hv.untouched key i m hp hl hm)
  case forgotten =>
    intro key m hp hl
    rw [hlatest] at hl
    split at hl
    · cases hl
      exact List.mem_append_right _ (List.mem_singleton_self _)
    · exact List.mem_append_left _ (hv.forgotten key m hp hl)

end Beginning

/-- A look that begins keeps the records right, once it is noted what became of roots. -/
theorem beginning (hb : Beginning v v') (hs : v.Sound) (hv : v.Recorded h) :
    v'.Recorded (h.after v.workspace v'.workspace) := by
  cases hb with
  | introduce w R id source root hid hk =>
    rw [h.after_admitted source hk]
    exact hv.introduce hid hk
  | retry w R id old f hid hf =>
    rw [h.after_retried w f.source f.root]
    cases hk : w.knows f.root.key with
    | true => exact hv.retry_known hid hf hk
    | false => exact hv.retry_stray hid hf hk hs

/-- A turn is recorded as its moves are. -/
theorem outline (ho : Outline input v v') (hs : v.Sound) (hv : v.Recorded h) :
    v'.Sound ∧ v'.Recorded (h.after v.workspace v'.workspace) := by
  have hmove (h : History) (u u' : View) (hm : Move input u u') (hu : u.Sound ∧ u.Recorded h) :
      u'.Sound ∧ u'.Recorded h :=
    ⟨hu.1.move hm, hu.2.move hm hu.1⟩
  cases ho with
  | quiet hm =>
    rw [h.after_quiet hm]
    exact hm.keeps (hmove h) ⟨hs, hv⟩
  | @begun v₁ v₂ h₁ h₂ h₃ _ =>
    obtain ⟨hs₁, hv₁⟩ := h₁.moves.keeps (hmove h) ⟨hs, hv⟩
    rw [h.after_begun h₁ h₃]
    exact h₃.moves.keeps (hmove _) ⟨hs₁.beginning h₂, hv₁.beginning h₂ hs₁⟩

end View.Recorded

/-! ## What is published when nothing is under way -/

/-- Whether a task has ended. -/
def Activity.isDone : Activity → Bool
  | .done _ => true
  | _ => false

namespace Engine

/-- Whether no operation is under way. -/
def atRest (e : Engine) : Bool := e.tasks.all fun t => t.activity.isDone

/-- Where no operation is under way every task is idle. -/
theorem role_eq_idle_of_atRest {e : Engine} (h : e.atRest = true) {r : Role} (hr : r ∈ e.roles) :
    r = .idle := by
  obtain ⟨t, ht, rfl⟩ := List.mem_map.mp hr
  have hdone := List.all_eq_true.mp h t ht
  cases ha : t.activity with
  | done r => rfl
  | _ =>
    rw [ha] at hdone
    cases hdone

end Engine

namespace Chronicle

/-- An engine on which no operation was begun. -/
def fresh (context : Context) : Chronicle := ⟨.fresh context, {}⟩

/-- The numbers of models are in order and the records are right. -/
structure Right (c : Chronicle) : Prop where
  sound : c.engine.view.Sound
  recorded : c.engine.view.Recorded c.history

namespace Right

variable {c : Chronicle}

/-- The records of a fresh engine are right. -/
theorem fresh (context : Context) : (Chronicle.fresh context).Right where
  sound := View.Sound.fresh context
  recorded := by
    refine ⟨?_, ?_, ?_, ?_, ?_, ?_, ?_⟩
    all_goals simp [Chronicle.fresh, Engine.fresh, Engine.view, Workspace.knows]

/-- An event keeps the records right. -/
theorem step (hc : c.Right) (event : Event) : (c.step event).Right := by
  obtain ⟨hs, hv⟩ := hc.recorded.outline (Engine.step_outline c.engine event) hc.sound
  exact ⟨hs, hv⟩

/-- What is noted for a published root while nothing is under way is a stray: any other rebuild that
is noted has not yet ended. -/
theorem mem_strays_of_latest (hc : c.Right) (hrest : c.engine.atRest = true) {key : String}
    {i m : ModelId} (hp : c.engine.workspace.published.find? key = some i)
    (hl : c.engine.workspace.latest.find? key = some m) : m ∈ c.history.strays := by
  by_contra hm
  rcases (hc.recorded.underway key i m hp hl hm).2 with hr | ha
  · cases Engine.role_eq_idle_of_atRest hrest hr
  · cases ha

/-- A published model is the newest one of its root, or a stray. -/
theorem newest (hc : c.Right) (hrest : c.engine.atRest = true) {key : String} {i : ModelId}
    (hp : c.engine.workspace.published.find? key = some i) (hi : i ∉ c.history.strays) :
    c.engine.workspace.Newest key i := by
  cases hl : c.engine.workspace.latest.find? key with
  | none => exact hc.recorded.settled key i hp hl hi
  | some m =>
    exact hc.recorded.untouched key i m hp hl (hc.mem_strays_of_latest hrest hp hl)

/-- The generation of a model is one more than its number. -/
theorem generation_eq (hc : c.Right) {i : ModelId} {f : Folder}
    (hf : c.engine.workspace.model? i = some f) : f.generation = i + 1 := by
  have horigin : c.engine.workspace.origins[i]? = some f.origin := by
    rw [Workspace.origins_getElem?, hf]
    rfl
  exact hc.sound.generation i f.origin horigin

end Right

end Chronicle

/-- The generations of the models of a root from one model on. -/
def Workspace.generationsFrom (w : Workspace) (m : ModelId) (key : String) : Set Nat :=
  { g | ∃ i f, m ≤ i ∧ w.model? i = some f ∧ f.root.key = key ∧ f.generation = g }

namespace Chronicle.Right

variable {c : Chronicle}

/-- The model that is published under a root is the newest one since the root was added, unless it
is a stray. -/
theorem isGreatest_iff (hc : c.Right) (hrest : c.engine.atRest = true) {key : String} {i : ModelId}
    {f : Folder} (hp : c.engine.workspace.published.find? key = some i)
    (hf : c.engine.workspace.model? i = some f) :
    IsGreatest (c.engine.workspace.generationsFrom (c.history.admitted key) key) f.generation ↔
      i ∉ c.history.strays := by
  have hknows : c.engine.workspace.knows key = true :=
    Workspace.knows_eq_true_iff.mpr ⟨i, hp⟩
  have hkey : c.engine.workspace.keyOf i = key := (hc.sound.published key i hp).2
  have hgen := hc.generation_eq hf
  constructor
  · rintro ⟨⟨j, g, hle, hg, -, hsame⟩, -⟩ hi
    have hlt : i < c.history.admitted key := by
      have hlt := hc.recorded.strays_lt_admitted i hi
      rw [show c.engine.view.workspace.keyOf i = key from hkey] at hlt
      exact hlt hknows
    have hji : j + 1 = i + 1 := by rw [← hc.generation_eq hg, hsame, hgen]
    exact absurd hle (Nat.not_le_of_lt (Nat.succ.inj hji ▸ hlt))
  · intro hi
    have hnewest := hc.newest hrest hp hi
    obtain ⟨hadmitted_lt, hadmitted_key⟩ := hc.recorded.admitted key hknows
    refine ⟨⟨i, f, hnewest _ hadmitted_lt hadmitted_key, hf, ?_, rfl⟩, ?_⟩
    · rw [← Workspace.keyOf_of_model? hf, hkey]
    · rintro _ ⟨j, g, -, hg, hroot, rfl⟩
      have hle : j ≤ i := by
        apply hnewest j (Workspace.lt_of_model? hg)
        rw [Workspace.keyOf_of_model? hg, hroot]
      rw [hgen, hc.generation_eq hg]
      exact Nat.succ_le_succ hle

end Chronicle.Right

/-- A root that is not published comes back only with a model that begins in the same turn. -/
theorem Engine.published_of_knows {e : Engine} {event : Event} {key : String}
    (hk : e.workspace.knows key = false) (hk' : (e.step event).workspace.knows key = true) :
    (e.step event).workspace.published.find? key = some e.workspace.models.length := by
  cases step_outline e event with
  | quiet h =>
    have hknown : e.workspace.knows key = true := h.knows_of_knows hk'
    rw [hk] at hknown
    cases hknown
  | @begun v₁ v₂ h₁ h₂ h₃ hnew =>
    have hk₁ : v₁.workspace.published.find? key = none :=
      Workspace.knows_eq_false_iff.mp ((h₁.knows key).trans hk)
    obtain ⟨i, hi⟩ := Workspace.knows_eq_true_iff.mp ((h₃.knows key).symm.trans hk')
    have hlength : v₁.workspace.models.length = e.workspace.models.length := h₁.moves.models_length
    rcases hnew with hsame | hsame
    · rw [hsame, hk₁] at hi
      cases hi
    · rcases h₂.published hi with hold | ⟨rfl, -⟩
      · rw [hk₁] at hold
        cases hold
      · rw [← hlength, ← hi]
        exact congrArg (·.find? key) hsame

/-- Whenever nothing is under way, the model that is published under a root has the largest
generation of all models of the root since the root was last newly added, if and only if it is not
a stray. In every state a root that is not published comes back only with a model that begins in
the same turn. -/
theorem Engine.newest_published_iff (context : Context) (events : List Event) :
    let c := (Chronicle.fresh context).run events
    let w := c.engine.workspace
    (c.engine.atRest = true → ∀ key i f, w.published.find? key = some i → w.model? i = some f →
      (IsGreatest (w.generationsFrom (c.history.admitted key) key) f.generation ↔
        i ∉ c.history.strays)) ∧
      ∀ event key, w.knows key = false → (c.engine.step event).workspace.knows key = true →
        (c.engine.step event).workspace.published.find? key = some w.models.length := by
  intro c w
  have hc : c.Right := Chronicle.run_keeps (fun c event _ hc => hc.step event) (.fresh context)
  exact ⟨fun hrest _ _ _ hp hf => hc.isGreatest_iff hrest hp hf,
    fun _ _ hk hk' => published_of_knows hk hk'⟩

/-- The answers about a folder that holds no build tool. -/
def Answers.ofPlainFolder : Answers where
  hasApi := true
  reply
    | .isFile _ => false
    | .mtime _ => .error .noEntry
    | .read _ => .error .noEntry
    | .realPath path => path.text
    | .run .. => .error .noCommand

/-- A folder that holds no build tool. -/
def plainFolder : EditorFolder := { uri := "/r" }

/-- The path of that folder. -/
def plainRoot : FilePath := .posix ⟨.single, [⟨['r'], by decide⟩]⟩

/-- A run in which a folder is added and looked at again. -/
def Engine.folderRebuilt : List Event := [
  .call (.add plainFolder), .resume 0 .ofPlainFolder,
  .call (.rebuild none), .resume 2 .ofPlainFolder, .resume 2 .ofPlainFolder,
  .resume 1 .ofPlainFolder]

theorem Engine.newest_published_folderRebuilt :
    ∃ f, ((Chronicle.fresh {}).run folderRebuilt).engine.workspace.model? 1 = some f ∧
      IsGreatest (((Chronicle.fresh {}).run folderRebuilt).engine.workspace.generationsFrom
        (((Chronicle.fresh {}).run folderRebuilt).history.admitted "/r") "/r") f.generation := by
  have hrest : ((Chronicle.fresh {}).run folderRebuilt).engine.atRest = true := by decide +kernel
  have hp : ((Chronicle.fresh {}).run folderRebuilt).engine.workspace.published.find? "/r" =
      some 1 := by decide +kernel
  have hlt : 1 < ((Chronicle.fresh {}).run folderRebuilt).engine.workspace.models.length := by
    decide +kernel
  have hstray : 1 ∉ ((Chronicle.fresh {}).run folderRebuilt).history.strays := by decide +kernel
  obtain ⟨f, hf⟩ := Workspace.exists_model? hlt
  exact ⟨f, hf, ((newest_published_iff {} folderRebuilt).1 hrest "/r" 1 f hp hf).mpr hstray⟩

/-- A run in which a folder is taken away before the first step of a rebuild that was scheduled,
and is added again before that step ends. -/
def Engine.folderReadded : List Event := [
  .call (.add plainFolder), .resume 0 .ofPlainFolder,
  .call (.rebuild none), .call (.remove plainRoot), .resume 2 .ofPlainFolder,
  .call (.add plainFolder), .resume 4 .ofPlainFolder,
  .resume 2 .ofPlainFolder, .resume 1 .ofPlainFolder]

/-- The stray takes the place of the model with which the folder was added again. -/
theorem Engine.stray_published_folderReadded :
    ((Chronicle.fresh {}).run folderReadded).engine.atRest = true ∧
      ∃ f, ((Chronicle.fresh {}).run folderReadded).engine.workspace.published.find? "/r" =
          some 1 ∧
        ((Chronicle.fresh {}).run folderReadded).engine.workspace.model? 1 = some f ∧
        ¬ IsGreatest (((Chronicle.fresh {}).run folderReadded).engine.workspace.generationsFrom
          (((Chronicle.fresh {}).run folderReadded).history.admitted "/r") "/r") f.generation := by
  have hright : ((Chronicle.fresh {}).run folderReadded).Right :=
    Chronicle.run_keeps (fun c event _ hc => hc.step event) (.fresh {})
  have hrest : ((Chronicle.fresh {}).run folderReadded).engine.atRest = true := by decide +kernel
  have hp : ((Chronicle.fresh {}).run folderReadded).engine.workspace.published.find? "/r" =
      some 1 := by decide +kernel
  have hlt : 1 < ((Chronicle.fresh {}).run folderReadded).engine.workspace.models.length := by
    decide +kernel
  have hstray : 1 ∈ ((Chronicle.fresh {}).run folderReadded).history.strays := by decide +kernel
  obtain ⟨f, hf⟩ := Workspace.exists_model? hlt
  refine ⟨hrest, f, hp, hf, fun hgreatest => ?_⟩
  exact (hright.isGreatest_iff hrest hp hf).mp hgreatest hstray

end BuildLens
