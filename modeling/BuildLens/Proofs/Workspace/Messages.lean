import BuildLens.Proofs.Folder.Message
import BuildLens.Proofs.Workspace.Recognition

/-!
# One message for each problem

Looks at one root may overlap, take each other's place and be dropped, and they may fail alike. The
user is told of each problem once, in the turn in which the first look fails in it, and of nothing
else. A look that finds no build tool tells nothing.

A root counts as it is spelled. On Windows letter case does not tell folders apart, but it tells the
texts of their paths apart, and so a folder that is added again under another spelling is told of
again.

Main definitions:

- `Workspace.Fails`: a look at a root has ended in a failure, and what there is to tell of it.
- `Workspace.Faithful`: the user was told of the problems in a list, and there are no others.
- `Workspace.Hears`, `Workspace.Advances`: what a turn makes known.
- `Activity.Inquires`, `Effect.Attends`: tasks that take in the outcomes of looks.
- `Engine.Tells`: what holds of an engine whose user was told of some problems.

Main results:

- `Workspace.Faithful.advances`: a turn adds to the list what it makes known.
- `Engine.Turn.advances`: what one turn makes known.
- `Engine.told_once`: after every run the user was told of each problem once, and of nothing else.
- `Engine.told_twice_respelled`: a folder with two spellings, of which the user was told twice.
-/

namespace BuildLens

/-! ## Failures that are known -/

/-- What a folder keeps in memory has no part in its failure. -/
theorem Folder.fails_bare {f : Folder} {p : Problem} {msg : Message} :
    f.bare.Fails p msg ↔ f.Fails p msg :=
  Iff.rfl

namespace Workspace

variable {w w' w₁ : Workspace} {p : Problem} {msg : Message} {m : ModelId} {f : Folder}
  {outcome : Except Failure (Option Build)} {told : List Problem}

/-- A look at a model has ended in a failure that is the problem, and the message tells of it. The
model may be in force, or it may have been replaced or dropped. -/
def Fails (w : Workspace) (p : Problem) (msg : Message) : Prop :=
  ∃ m f, w.model? m = some f ∧ f.Fails p msg

/-- The roots of all models are paths of the system. -/
def Rooted (w : Workspace) : Prop := ∀ m f, w.model? m = some f → f.root.Normal w.platform

/-- The user was told of the given problems in order, of none twice, and they are those that looks
have ended in. Each message tells of its problem. -/
structure Faithful (w : Workspace) (told : List Problem) : Prop where
  rooted : w.Rooted
  nodup : told.Nodup
  mem_iff : ∀ p, p ∈ told ↔ ∃ msg, w.Fails p msg
  known : w.context.messages.known = told.map (·.key.text)
  shown : List.Forall₂ w.Fails told w.context.messages.shown

namespace Calm

/-- A calm change leaves the platform. -/
theorem platform_eq (h : w.Calm w') : w'.platform = w.platform :=
  congrArg Surroundings.platform h.surroundings

/-- A change is as calm backwards. -/
theorem symm (h : w.Calm w') : w'.Calm w where
  surroundings := h.surroundings.symm
  classifier := h.classifier.symm
  messages := h.messages.symm
  models i := (h.models i).symm

/-- A model after a change that leaves what is known: only what is kept in memory is another. -/
theorem exists_bare_eq (h : w.Calm w') (hf : w'.model? m = some f) :
    ∃ g, w.model? m = some g ∧ g.bare = f.bare := by
  have hmodels := h.models m
  rw [hf, Option.map_some] at hmodels
  exact Option.map_eq_some_iff.mp hmodels.symm

/-- A calm change leaves the failures of looks. -/
theorem fails_iff (h : w.Calm w') : w'.Fails p msg ↔ w.Fails p msg := by
  have hleaves {u u' : Workspace} (h : u.Calm u') (hu : u'.Fails p msg) : u.Fails p msg := by
    obtain ⟨m, f, hf, hfails⟩ := hu
    obtain ⟨g, hg, hbare⟩ := h.exists_bare_eq hf
    refine ⟨m, g, hg, ?_⟩
    rw [← Folder.fails_bare, hbare]
    exact hfails
  exact ⟨hleaves h, hleaves h.symm⟩

/-- A calm change leaves the roots of models. -/
theorem rooted (h : w.Calm w') (hw : w.Rooted) : w'.Rooted := by
  intro m f hf
  obtain ⟨g, hg, hbare⟩ := h.exists_bare_eq hf
  have hroot : g.bare.root = f.bare.root := by rw [hbare]
  have hnormal : g.bare.root.Normal w.platform := hw m g hg
  rw [hroot, ← h.platform_eq] at hnormal
  exact hnormal

/-- The outcome of a look is taken in alike. -/
theorem reported (h : w.Calm w') (m : ModelId) (outcome : Except Failure (Option Build)) :
    (w.reported m outcome).Calm (w'.reported m outcome) where
  surroundings := h.surroundings
  classifier := h.classifier
  messages := by
    have hbare (u : Workspace) : (u.model? m).map (·.report outcome u.context.messages) =
        ((u.model? m).map Folder.bare).map (·.report outcome u.context.messages) := by
      rw [Option.map_map]
      rfl
    rw [messages_reported, messages_reported, hbare, hbare, h.models m, h.messages]
  models i := by
    have hbare (u : Workspace) : ((u.model? i).map (·.conclude outcome)).map Folder.bare =
        ((u.model? i).map Folder.bare).map (·.conclude outcome) := by
      rw [Option.map_map, Option.map_map]
      rfl
    rw [model?_reported, model?_reported]
    split
    · rw [hbare, hbare, h.models i]
    · exact h.models i

end Calm

/-! ## Outcomes that are taken in -/

/-- What has failed stays so when the outcome of another look is taken in. -/
theorem Fails.reported (h : w.Fails p msg) (hm : w.phaseOf m = .probing) :
    (w.reported m outcome).Fails p msg := by
  obtain ⟨n, g, hg, hfails⟩ := h
  -- A look that has failed is none of those that have not ended.
  have hne : m ≠ n := by
    rintro rfl
    obtain ⟨f, hf, hphase⟩ := exists_model?_of_phaseOf hm nofun
    obtain rfl : f = g := Option.some.inj (hf.symm.trans hg)
    exact Folder.not_fails_of_probing hphase hfails
  refine ⟨n, g, ?_, hfails⟩
  rw [model?_reported, if_neg hne]
  exact hg

/-- What has failed after the outcome of a look was taken in has failed before, or in that look. -/
theorem fails_reported_iff (hf : w.model? m = some f) (hm : f.phase = .probing) :
    (w.reported m outcome).Fails p msg ↔ w.Fails p msg ∨ (f.conclude outcome).Fails p msg := by
  have hconcluded : (w.reported m outcome).model? m = some (f.conclude outcome) := by
    rw [model?_reported, if_pos rfl, hf, Option.map_some]
  constructor
  · rintro ⟨n, g, hg, hfails⟩
    by_cases hmn : m = n
    · obtain rfl := hmn
      obtain rfl : f.conclude outcome = g := Option.some.inj (hconcluded.symm.trans hg)
      exact .inr hfails
    · rw [model?_reported, if_neg hmn] at hg
      exact .inl ⟨n, g, hg, hfails⟩
  · rintro (h | h)
    · exact h.reported (by rw [phaseOf, hf]; exact hm)
    · exact ⟨m, _, hconcluded, h⟩

/-- The outcome of a look changes no root. -/
theorem Rooted.reported (hw : w.Rooted) (m : ModelId) (outcome : Except Failure (Option Build)) :
    (w.reported m outcome).Rooted := by
  intro n g hg
  rw [model?_reported] at hg
  split at hg
  · obtain ⟨f, hf, rfl⟩ := Option.map_eq_some_iff.mp hg
    exact hw n f hf
  · exact hw n g hg

namespace Faithful

/-- A calm change tells the user nothing and ends no look. -/
theorem calm (h : w.Faithful told) (hw : w.Calm w') : w'.Faithful told where
  rooted := hw.rooted h.rooted
  nodup := h.nodup
  mem_iff p := by simp only [hw.fails_iff, h.mem_iff]
  known := by rw [hw.messages, h.known]
  shown := by
    rw [hw.messages]
    exact h.shown.imp fun _ _ => hw.fails_iff.mpr

/-- A look that begins has not failed. -/
theorem begun (h : w.Faithful told) {f : Folder} (hphase : f.phase = .probing)
    (hroot : f.root.Normal w.platform) : (w.begun f).Faithful told := by
  have hfails (p : Problem) (msg : Message) : (w.begun f).Fails p msg ↔ w.Fails p msg := by
    constructor
    · rintro ⟨n, g, hg, hfails⟩
      rcases model?_begun_eq_some_iff.mp hg with hg | ⟨-, rfl⟩
      · exact ⟨n, g, hg, hfails⟩
      · exact absurd hfails (Folder.not_fails_of_probing hphase)
    · rintro ⟨n, g, hg, hfails⟩
      exact ⟨n, g, model?_begun_eq_some_iff.mpr (.inl hg), hfails⟩
  refine ⟨?_, h.nodup, fun p => ?_, h.known, h.shown.imp fun p msg => (hfails p msg).mpr⟩
  · intro n g hg
    rcases model?_begun_eq_some_iff.mp hg with hg | ⟨-, rfl⟩
    · exact h.rooted n g hg
    · exact hroot
  · simp only [hfails, h.mem_iff]

/-- The problems that were told are at roots of the system. -/
theorem normal_of_mem (h : w.Faithful told) (hp : p ∈ told) : p.root.Normal w.platform := by
  obtain ⟨msg, m, f, hf, hfails⟩ := (h.mem_iff p).mp hp
  rw [hfails.root_eq]
  exact h.rooted m f hf

/-- The user knows of the problems that were told. -/
theorem knows_iff (h : w.Faithful told) (hp : p.root.Normal w.platform) :
    w.context.messages.knows p.key = true ↔ p ∈ told := by
  rw [Messages.knows, List.contains_iff_mem, h.known, List.mem_map]
  constructor
  · rintro ⟨q, hq, hkey⟩
    exact (Problem.text_key_inj (h.normal_of_mem hq) hp).mp hkey ▸ hq
  · exact fun hmem => ⟨p, hmem, rfl⟩

/-- The outcome of a look is taken in: nothing is told of a look that has not failed, nor of a
problem that was told before, and any other problem is told. -/
theorem reported (h : w.Faithful told) (hm : w.phaseOf m = .probing)
    (outcome : Except Failure (Option Build)) :
    ∃ new, (w.reported m outcome).Faithful (told ++ new) := by
  obtain ⟨f, hf, hphase⟩ := exists_model?_of_phaseOf hm nofun
  have hrooted := h.rooted.reported m outcome
  have hmessages : (w.reported m outcome).context.messages =
      f.report outcome w.context.messages := by
    rw [messages_reported, hf, Option.map_some, Option.getD_some]
  have hfails (p : Problem) (msg : Message) : (w.reported m outcome).Fails p msg ↔
      w.Fails p msg ∨ (f.conclude outcome).Fails p msg :=
    fails_reported_iff hf hphase
  have hshown : List.Forall₂ (w.reported m outcome).Fails told w.context.messages.shown :=
    h.shown.imp fun p msg hold => (hfails p msg).mpr (.inl hold)
  cases outcome with
  | ok build =>
    have hsame (p : Problem) (msg : Message) :
        (w.reported m (.ok build)).Fails p msg ↔ w.Fails p msg :=
      (hfails p msg).trans (or_iff_left (f.not_fails_conclude_ok build))
    refine ⟨[], ?_⟩
    rw [List.append_nil]
    exact ⟨hrooted, h.nodup, fun p => by simp only [hsame, h.mem_iff], hmessages ▸ h.known,
      hmessages ▸ hshown⟩
  | error e =>
    let new : Problem := ⟨f.root, e.kind⟩
    have hmem (p : Problem) :
        (∃ msg, (w.reported m (.error e)).Fails p msg) ↔ p ∈ told ∨ p = new := by
      simp only [hfails, f.fails_conclude_error, exists_or, ← h.mem_iff, exists_and_left,
        exists_eq, and_true]
      rfl
    have htell : (w.reported m (.error e)).context.messages =
        w.context.messages.tell new.key (f.failureMessage e).2 := by
      rw [hmessages, ← f.failureMessage_fst e]
      rfl
    rw [Messages.tell] at htell
    -- The problem may have been told by another look at the root, which failed alike.
    by_cases hnew : new ∈ told
    · rw [if_pos ((h.knows_iff (h.rooted m f hf)).mpr hnew)] at htell
      refine ⟨[], ?_⟩
      rw [List.append_nil]
      refine ⟨hrooted, h.nodup, fun p => ?_, htell ▸ h.known, htell ▸ hshown⟩
      rw [hmem]
      exact (or_iff_left_of_imp fun hp => hp ▸ hnew).symm
    · rw [if_neg (mt (h.knows_iff (h.rooted m f hf)).mp hnew)] at htell
      refine ⟨[new], hrooted, ?_, fun p => ?_, ?_, ?_⟩
      · exact List.nodup_append.mpr ⟨h.nodup, List.nodup_singleton new,
          fun p hp q hq heq => hnew (List.mem_singleton.mp hq ▸ heq ▸ hp)⟩
      · rw [hmem, List.mem_append, List.mem_singleton]
      · rw [htell, h.known, List.map_append]
        rfl
      · rw [htell]
        refine List.rel_append hshown (.cons ?_ .nil)
        exact (hfails new _).mpr (.inr ((f.fails_conclude_error e).mpr ⟨rfl, rfl⟩))

end Faithful

/-! ## What a turn makes known -/

/-- One look may end, and the user is told of its outcome. Nothing else is made known. -/
inductive Hears (w w' : Workspace) : Prop
  | calm (h : w.Calm w')
  | reports {m : ModelId} {outcome : Except Failure (Option Build)} (hm : w.phaseOf m = .probing)
      (h : (w.reported m outcome).Calm w')

/-- One look may begin, and then one look may end, of whose outcome the user is told. -/
inductive Advances (w w' : Workspace) : Prop
  | hears (h : w.Hears w')
  | begins {f : Folder} (hphase : f.phase = .probing) (hroot : f.root.Normal w.platform)
      (h : (w.begun f).Hears w')

/-- A look may end after a calm change. -/
theorem Hears.of_calm (hw : w.Calm w₁) (h : w₁.Hears w') : w.Hears w' := by
  cases h with
  | calm h => exact .calm (hw.trans h)
  | @reports m outcome hm h =>
    exact .reports ((hw.phaseOf_eq m).symm.trans hm) ((hw.reported m outcome).trans h)

/-- What a look that ends adds to the messages is told of its own problem. -/
theorem Faithful.hears (h : w.Faithful told) (hw : w.Hears w') :
    ∃ new, w'.Faithful (told ++ new) := by
  cases hw with
  | calm hw => exact ⟨[], (List.append_nil told).symm ▸ h.calm hw⟩
  | @reports m outcome hm hw =>
    obtain ⟨new, hnew⟩ := h.reported hm outcome
    exact ⟨new, hnew.calm hw⟩

/-- A turn adds to the problems that were told. -/
theorem Faithful.advances (h : w.Faithful told) (hw : w.Advances w') :
    ∃ new, w'.Faithful (told ++ new) := by
  cases hw with
  | hears hw => exact h.hears hw
  | begins hphase hroot hw => exact (h.begun hphase hroot).hears hw

/-- The outcome of a look at one model is not that of another. -/
theorem phaseOf_reported_of_ne (w : Workspace) {n : ModelId}
    (outcome : Except Failure (Option Build)) (h : n ≠ m) :
    (w.reported n outcome).phaseOf m = w.phaseOf m := by
  rw [phaseOf, model?_reported, if_neg h]
  rfl

/-- Messages are added at the end. -/
theorem shown_reported (w : Workspace) (m : ModelId) (outcome : Except Failure (Option Build)) :
    w.context.messages.shown <+: (w.reported m outcome).context.messages.shown := by
  rw [messages_reported]
  cases w.model? m with
  | none => exact List.prefix_rfl
  | some f =>
    rw [Option.map_some, Option.getD_some, Folder.report]
    split
    · next key text _ =>
      rw [Messages.tell]
      split
      · exact List.prefix_rfl
      · exact List.prefix_append _ _
    · exact List.prefix_rfl

/-- A message that was shown stays shown when a look ends. -/
theorem Hears.shown (h : w.Hears w') :
    w.context.messages.shown <+: w'.context.messages.shown := by
  cases h with
  | calm h => rw [h.messages]
  | reports hm h =>
    rw [h.messages]
    exact w.shown_reported _ _

/-- A message that was shown stays shown when a look begins or ends. -/
theorem Advances.shown (h : w.Advances w') :
    w.context.messages.shown <+: w'.context.messages.shown := by
  cases h with
  | hears h => exact h.shown
  | begins hphase hroot h => exact h.shown

/-- A look that finds no tool tells nothing. -/
theorem Hears.messages_eq (h : w.Hears w') (hbefore : w.phaseOf m ≠ .notBuildTree none)
    (hafter : w'.phaseOf m = .notBuildTree none) : w'.context.messages = w.context.messages := by
  cases h with
  | calm h => exact h.messages
  | @reports n outcome hn h =>
    rw [h.phaseOf_eq] at hafter
    by_cases hnm : n = m
    · obtain rfl := hnm
      obtain ⟨f, hf, -⟩ := exists_model?_of_phaseOf hn nofun
      rw [phaseOf, model?_reported, if_pos rfl, hf] at hafter
      rw [h.messages, messages_reported, hf]
      rcases outcome with e | _ | b
      · cases hafter
      · rfl
      · cases hafter
    · rw [w.phaseOf_reported_of_ne outcome hnm] at hafter
      exact absurd hafter hbefore

/-- The user is told nothing when a look finds no build tree. -/
theorem Advances.messages_eq (h : w.Advances w') (hbefore : w.phaseOf m ≠ .notBuildTree none)
    (hafter : w'.phaseOf m = .notBuildTree none) : w'.context.messages = w.context.messages := by
  cases h with
  | hears h => exact h.messages_eq hbefore hafter
  | @begins f hphase hroot h =>
    refine h.messages_eq (fun hbegun => ?_) hafter
    obtain ⟨g, hg, hgphase⟩ := exists_model?_of_phaseOf hbegun nofun
    rcases model?_begun_eq_some_iff.mp hg with hg | ⟨-, rfl⟩
    · exact hbefore (by rw [phaseOf, hg]; exact hgphase)
    · rw [hphase] at hgphase
      cases hgphase

end Workspace

/-! ## Tasks that take in outcomes -/

/-- The task will take in the outcome of a look at the model. -/
def Activity.Inquires (m : ModelId) : Activity → Prop
  | .surveying _ n _ => n = m
  | .gathering _ _ (.compilers _ n _) => n = m
  | _ => False

namespace Activity

variable {m : ModelId} {a : Activity}

/-- A task that will take in an outcome is in the middle of a look. -/
theorem Inquires.isLook (h : a.Inquires m) : a.isLook = true := by
  unfold Inquires at h
  split at h
  · rfl
  · rfl
  · exact h.elim

/-- A task that will take in an outcome has the role of a look at that model. -/
theorem Inquires.exists_role (h : a.Inquires m) : ∃ p, a.role = .looking p m := by
  unfold Inquires at h
  split at h
  · exact ⟨_, congrArg _ h⟩
  · exact ⟨_, congrArg _ h⟩
  · exact h.elim

end Activity

/-- A failure that is noted does not change what a task will take in. -/
theorem Task.inquires_after {m : ModelId} {parent : Option TaskId} {id child : TaskId}
    {failure : Option Failure} {t : Task} :
    (t.after parent id child failure).activity.Inquires m ↔ t.activity.Inquires m := by
  obtain ⟨own, a⟩ := t
  cases a with
  | gathering children noted after =>
    rw [after_gathering]
    cases after <;> exact Iff.rfl
  | _ => rw [after_eq_self rfl]

/-- The outcomes that the task is still to take in are those of looks that have not ended, and the
tasks that begin take in none. -/
structure Effect.Attends (w : Workspace) (a : Activity) (eff : Effect) : Prop where
  own : ∀ size m, (eff.activity size a).Inquires m → w.phaseOf m = .probing
  children : ∀ c ∈ eff.children, ∀ m, ¬ c.Inquires m

namespace Effect.Attends

variable {w w' : Workspace} {a : Activity}

/-- A task that stays has to take in what it had to before. -/
theorem stay (h : ∀ m, a.Inquires m → w.phaseOf m = .probing) : Effect.stay.Attends w a :=
  ⟨fun _ => h, fun _ h => absurd h List.not_mem_nil⟩

/-- A task that ends takes in nothing more. -/
theorem finish (r : Except Failure Outcome) : (Effect.finish r).Attends w a :=
  ⟨fun _ _ h => h.elim, fun _ h => absurd h List.not_mem_nil⟩

/-- A task that does something else has to take in what that requires. -/
theorem become {b : Activity} (h : ∀ m, b.Inquires m → w.phaseOf m = .probing) :
    (Effect.become b).Attends w a :=
  ⟨fun _ => h, fun _ h => absurd h List.not_mem_nil⟩

/-- A task that waits for others has to take in what they find, if it is part of a look. -/
theorem gather {children : List Activity} {after : AfterGathering}
    (hown : ∀ p m tree, after = .compilers p m tree → w.phaseOf m = .probing)
    (hchildren : ∀ c ∈ children, ∀ m, ¬ c.Inquires m) :
    (Effect.gather children after).Attends w a where
  own size m h := by
    cases after with
    | compilers p n tree =>
      obtain rfl : n = m := h
      exact hown p n tree rfl
    | _ => exact h.elim
  children := hchildren

/-- A plain effect takes in no other outcomes. -/
theorem of_plain {eff : Effect} (h : eff.Plain) (ha : ∀ m, a.Inquires m → w.phaseOf m = .probing) :
    eff.Attends w a := by
  have hplain {b : Activity} (hb : b.Plain) (m : ModelId) : ¬ b.Inquires m := by
    intro hinquires
    have hlook := hb.1
    rw [hinquires.isLook] at hlook
    cases hlook
  cases eff with
  | stay => exact stay ha
  | become b => exact become fun m hb => absurd hb (hplain h m)
  | finish r => exact finish r
  | gather children after =>
    exact gather (fun p m tree heq => absurd heq (h.2 p m tree)) fun c hc => hplain (h.1 c hc)

end Effect.Attends

namespace Engine

variable {w w' : Workspace} {a : Activity} {eff : Effect} {p : Purpose} {m : ModelId}

/-- A look that ends is not taken in again. -/
theorem EndsLook.attends (h : EndsLook m p eff) : eff.Attends w' a := by
  cases h with
  | added phase => exact .finish _
  | counted => exact .become fun _ h => h.elim
  | rebuilt => exact .finish _
  | recounted => exact .become fun _ h => h.elim

/-- The outcome of a look that has not ended is heard of, and is not taken in again. -/
theorem Concludes.hears {o : Except Failure (Option Build)} (h : Concludes w p m o w' eff)
    (hm : w.phaseOf m = .probing) : w.Hears w' ∧ eff.Attends w' a := by
  refine ⟨.reports hm h.calm, ?_⟩
  rcases h.effect with rfl | hend
  · exact .become fun _ h => h.elim
  · exact hend.attends

/-- An inquiry that goes on is heard of once it ends, and not before. -/
theorem Surveys.hears {i : Inquiry (Option SourceTree)} (h : Surveys w p m i w' eff)
    (hm : w.phaseOf m = .probing) : w.Hears w' ∧ eff.Attends w' a := by
  cases h with
  | asks hi hw =>
    refine ⟨.calm hw, .become ?_⟩
    rintro n rfl
    exact (hw.phaseOf_eq m).trans hm
  | finds hi hw =>
    refine ⟨.calm hw, .gather ?_ ?_⟩
    · rintro p' n tree' heq
      cases heq
      exact (hw.phaseOf_eq m).trans hm
    · intro c hc n hinquires
      have hlook := List.mem_pair.mp hc
      rcases hlook with rfl | rfl <;> exact hinquires
  | lacks hi hw h =>
    exact (h.hears ((hw.phaseOf_eq m).trans hm)).imp_left (.of_calm hw)
  | fails hi hw h =>
    exact (h.hears ((hw.phaseOf_eq m).trans hm)).imp_left (.of_calm hw)

/-- A turn in which a look begins. -/
theorem Surveys.advances {w₁ : Workspace} {f : Folder} {i : Inquiry (Option SourceTree)}
    (h : Surveys w₁ p w.models.length i w' eff) (hcalm : (w.begun f).Calm w₁)
    (hphase : f.phase = .probing) (hroot : f.root.Normal w.platform) :
    w.Advances w' ∧ eff.Attends w' a := by
  have hbegun : (w.begun f).phaseOf w.models.length = .probing := by
    rw [Workspace.phaseOf, Workspace.model?_begun_self, Option.map_some, hphase]
    rfl
  exact (h.hears ((hcalm.phaseOf_eq _).trans hbegun)).imp_left fun h =>
    .begins hphase hroot (h.of_calm hcalm)

/-- The first turn of an addition begins a look at most. -/
theorem Adds.advances {folder : EditorFolder} (h : Adds w folder w' eff) :
    w.Advances w' ∧ eff.Attends w' a := by
  cases h with
  | refused hpath => exact ⟨.hears (.calm (.refl w)), .finish _⟩
  | known hpath hm => exact ⟨.hears (.calm (.refl w)), .finish _⟩
  | @begins root _ _ hpath hm h =>
    have hroot : root.Normal w.platform := by
      obtain ⟨t, ht⟩ := FilePath.exists_ofText_of_ofUri hpath
      exact FilePath.normal_of_ofText ht
    exact h.advances (f := w.fresh folder root) (.of_models_eq rfl rfl rfl rfl) rfl hroot

/-- The first turn of a rebuild begins a look at most. -/
theorem Rebuilds.advances {old : ModelId} (h : Rebuilds w old w' eff) (hw : w.Rooted)
    (ha : ∀ m, a.Inquires m → w.phaseOf m = .probing) :
    w.Advances w' ∧ eff.Attends w' a := by
  cases h with
  | missing hm => exact ⟨.hears (.calm (.refl w)), .stay ha⟩
  | @begins f _ _ hm h =>
    exact h.advances (f := w.fresh f.source f.root) (.of_models_eq rfl rfl rfl rfl) rfl
      (hw old f hm)

/-- A plain turn neither begins nor ends a look. -/
theorem Plainly.advances (h : Plainly w w' eff)
    (ha : ∀ m, a.Inquires m → w.phaseOf m = .probing) : w.Advances w' ∧ eff.Attends w' a :=
  ⟨.hears (.calm h.1), .of_plain h.2 fun m hm => (h.1.phaseOf_eq m).trans (ha m hm)⟩

/-- A task whose children have ended well may end the look that they were part of. -/
theorem Gathered.advances {outcomes : List Outcome} {children : List TaskId}
    {noted : Option Failure} {after : AfterGathering} (h : Gathered w outcomes after w' eff)
    (ha : ∀ m, (Activity.gathering children noted after).Inquires m → w.phaseOf m = .probing) :
    w.Advances w' ∧ eff.Attends w' (.gathering children noted after) := by
  cases h with
  | compilers ho h => exact (h.hears (ha _ rfl)).imp_left .hears
  | stuck ho => exact ⟨.hears (.calm (.refl w)), .stay ha⟩
  | ends hafter hw => exact ⟨.hears (.calm hw), .finish _⟩

/-- A task one of whose children has failed may end the look that it was part of. -/
theorem Failed.advances {f : Failure} {children : List TaskId} {noted : Option Failure}
    {after : AfterGathering} (h : Failed w f after w' eff)
    (ha : ∀ m, (Activity.gathering children noted after).Inquires m → w.phaseOf m = .probing) :
    w.Advances w' ∧ eff.Attends w' (.gathering children noted after) := by
  cases h with
  | compilers h => exact (h.hears (ha _ rfl)).imp_left .hears
  | ends hafter => exact ⟨.hears (.calm (.refl w)), .finish _⟩

/-- A task that inquires into a compiler takes in no outcome of a look itself. -/
theorem Discovers.attends {i : Inquiry Compiler} (h : Discovers i eff) : eff.Attends w' a := by
  cases h with
  | asks hi => exact .become fun _ h => h.elim
  | finds hi => exact .finish _
  | fails hi => exact .finish _

/-- A task that inquires into a file takes in no outcome of a look. -/
theorem Resolves.attends {uri : String} {path : FilePath} {n : ModelId}
    {i : Inquiry (Option SourceConfiguration)} (h : Resolves w uri path n i eff) :
    eff.Attends w' a := by
  cases h with
  | asks hi => exact .become fun _ h => h.elim
  | answers hi => exact .finish _
  | fails hi => exact .finish _

/-- What one turn makes known, and what its task is to take in afterwards. -/
theorem Turn.advances {answers : Answers} {outcomes : Option (List Outcome)}
    (h : Turn w answers outcomes a w' eff) (hw : w.Rooted)
    (ha : ∀ m, a.Inquires m → w.phaseOf m = .probing) :
    w.Advances w' ∧ eff.Attends w' a := by
  have hcalm {u : Workspace} (hu : w.Calm u) : w.Advances u := .hears (.calm hu)
  have hstays (h : w' = w ∧ eff = .stay) : w.Advances w' ∧ eff.Attends w' a := by
    obtain ⟨rfl, rfl⟩ := h
    exact ⟨hcalm (.refl w'), .stay ha⟩
  cases a with
  | adding folder => exact Adds.advances h
  | rebuilding old => exact Rebuilds.advances h hw ha
  | asking tree l =>
    obtain ⟨rfl, h⟩ := h
    exact ⟨hcalm (.refl w'), h.attends⟩
  | providing uri =>
    cases h with
    | unanswered hasked => exact ⟨hcalm (.refl w), .finish _⟩
    | begins hasked h => exact ⟨hcalm (.settled w _ _), h.attends⟩
  | surveying p n i =>
    cases i with
    | ask q next => exact (Surveys.hears h (ha n rfl)).imp_left .hears
    | _ => exact hstays h
  | discovering i =>
    cases i with
    | ask q next =>
      obtain ⟨rfl, h⟩ := h
      exact ⟨hcalm (.refl w'), h.attends⟩
    | _ => exact hstays h
  | telling p n => exact ⟨hcalm h.1, h.2.attends⟩
  | registering after =>
    cases after with
    | added n =>
      obtain ⟨hw', phase, rfl⟩ := h
      exact ⟨hcalm hw', .finish _⟩
    | _ => exact Plainly.advances h ha
  | gathering children noted after =>
    cases noted with
    | some f => exact Failed.advances h ha
    | none =>
      cases outcomes with
      | none => exact hstays h
      | some outcomes => exact Gathered.advances h ha
  | resolving uri path n i =>
    cases i with
    | ask q next =>
      obtain ⟨rfl, h⟩ := h
      exact ⟨hcalm (.settled w _ _), h.attends⟩
    | _ => exact hstays h
  | configuring n i =>
    cases i with
    | ask q next => exact Plainly.advances h ha
    | _ => exact hstays h
  | compiling n i =>
    cases i with
    | ask q next => exact Plainly.advances h ha
    | _ => exact hstays h
  | done r => exact hstays h

/-- The first turn of an operation begins a look at most. -/
theorem Begins.advances {op : Operation} (h : Begins w op w' eff)
    (ha : ∀ m, a.Inquires m → w.phaseOf m = .probing) : w.Advances w' ∧ eff.Attends w' a := by
  cases op with
  | add folder => exact Adds.advances h
  | _ => exact Plainly.advances h ha

end Engine

/-! ## Runs -/

/-- No two tasks look at one model. -/
theorem View.Sound.eq_of_looking {v : View} (hv : v.Sound) {i j : TaskId} {p q : Purpose}
    {m : ModelId} (hi : v.roles[i]? = some (.looking p m))
    (hj : v.roles[j]? = some (.looking q m)) : i = j := by
  by_contra hne
  have hset := countP_set_add (Role.looksAt m) hi .idle
  have hother : (v.roles.set i .idle)[j]? = some (.looking q m) := by
    rw [List.getElem?_set_ne hne]
    exact hj
  have hone : 1 ≤ (v.roles.set i .idle).countP (Role.looksAt m) :=
    List.one_le_countP_iff.mpr ⟨_, List.mem_of_getElem? hother, beq_self_eq_true m⟩
  have htwo : v.lookers m ≤ 1 := hv.exclusive m
  simp only [Role.looksAt, beq_self_eq_true, Bool.toNat_true, Bool.toNat_false] at hset
  rw [View.lookers] at htwo
  omega

namespace Engine

variable {e : Engine} {told : List Problem}

/-- The user was told of the given problems, and the looks whose outcomes tasks are still to take in
have not ended. -/
structure Tells (e : Engine) (told : List Problem) : Prop where
  sound : e.view.Sound
  attentive : ∀ id t m, e.task? id = some t → t.activity.Inquires m →
    e.workspace.phaseOf m = .probing
  faithful : e.workspace.Faithful told

/-- The tasks after a turn still wait for looks that have not ended. -/
theorem attentive_take {id : TaskId} {t : Task} {w' : Workspace} {eff : Effect}
    (ht : e.task? id = some t) (heff : eff.Attends w' t.activity)
    (hothers : ∀ j u m, j ≠ id → e.task? j = some u → u.activity.Inquires m →
      w'.phaseOf m = .probing) (j : TaskId) (u : Task) (m : ModelId)
    (hu : ({ e with workspace := w' }.take id eff).task? j = some u) (hm : u.activity.Inquires m) :
    w'.phaseOf m = .probing := by
  rcases task?_take_cases (e := { e with workspace := w' }) ht hu with
    ⟨-, rfl⟩ | ⟨hne, v, hv, rfl⟩ | ⟨k, c, -, hc, rfl⟩
  · exact heff.own _ m hm
  · exact hothers j v m hne hv (Task.inquires_after.mp hm)
  · exact absurd hm (heff.children c (List.mem_of_getElem? hc) m)

namespace Tells

/-- A model whose outcome another task is to take in is not looked at in the turn. -/
theorem role_ne_looking (he : e.Tells told) {id j : TaskId} {t u : Task} {m : ModelId}
    (ht : e.task? id = some t) (hu : e.task? j = some u) (hne : j ≠ id)
    (hm : u.activity.Inquires m) (p : Purpose) : t.activity.role ≠ .looking p m := by
  intro hrole
  obtain ⟨q, hq⟩ := hm.exists_role
  have hid : e.view.roles[id]? = some (.looking p m) := hrole ▸ role_eq ht
  have hj : e.view.roles[j]? = some (.looking q m) := hq ▸ role_eq hu
  exact hne (he.sound.eq_of_looking hj hid)

/-- The workspace after one event, and the tasks. -/
theorem advances_step (he : e.Tells told) (event : Event) :
    e.workspace.Advances (e.step event).workspace ∧
      ∀ j u m, (e.step event).task? j = some u → u.activity.Inquires m →
        (e.step event).workspace.phaseOf m = .probing := by
  have hlt {m : ModelId} (hm : e.workspace.phaseOf m = .probing) :
      m < e.workspace.models.length := by
    obtain ⟨f, hf, -⟩ := Workspace.exists_model?_of_phaseOf hm nofun
    exact Workspace.lt_of_model? hf
  cases event with
  | call op =>
    obtain ⟨w', eff, hbegins, heq⟩ := exists_begins e op
    obtain ⟨hadvances, heff⟩ := hbegins.advances (a := .done (.ok .nothing)) fun _ h => h.elim
    simp only [step, heq, workspace_take]
    refine ⟨hadvances, attentive_take (e := e.spawned) (task?_spawned_new e) heff ?_⟩
    intro j u m hne hu hm
    have hprobing := he.attentive j u m (task?_of_spawned hu hne) hm
    exact (hbegins.phaseOf_eq (hlt hprobing)).trans hprobing
  | resume id answers =>
    cases ht : e.task? id with
    | none =>
      rw [step, resume_of_task?_eq_none ht]
      exact ⟨.hears (.calm (.refl _)), he.attentive⟩
    | some t =>
      obtain ⟨w', eff, hturn, heq⟩ := exists_turn ht answers
      obtain ⟨hadvances, heff⟩ :=
        hturn.advances he.faithful.rooted fun m hm => he.attentive id t m ht hm
      simp only [step, heq, workspace_take]
      refine ⟨hadvances, attentive_take ht heff ?_⟩
      intro j u m hne hu hm
      have hprobing := he.attentive j u m hu hm
      exact (hturn.phaseOf_eq (hlt hprobing) (he.role_ne_looking ht hu hne hm)).trans hprobing

/-- An event tells the user of problems that are new, and of no others. -/
theorem step (he : e.Tells told) (event : Event) : ∃ new, (e.step event).Tells (told ++ new) := by
  obtain ⟨hadvances, hattentive⟩ := he.advances_step event
  obtain ⟨new, hnew⟩ := he.faithful.advances hadvances
  exact ⟨new, .step event he.sound, hattentive, hnew⟩

end Tells

/-- In a fresh engine the user was told of nothing. -/
theorem tells_fresh (context : Context) (h : context.messages = {}) : (fresh context).Tells [] where
  sound := .fresh context
  attentive _ _ _ ht _ := nomatch ht
  faithful := by
    have hnone (m : ModelId) : (fresh context).workspace.model? m = none := rfl
    refine ⟨fun m f hf => ?_, List.nodup_nil, fun p => ?_, ?_, ?_⟩
    · rw [hnone] at hf
      cases hf
    · refine iff_of_false List.not_mem_nil ?_
      rintro ⟨msg, m, f, hf, -⟩
      rw [hnone] at hf
      cases hf
    · exact congrArg Messages.known h
    · exact congrArg Messages.shown h ▸ .nil

/-- Throughout a run there are problems of which the user was told, as the records say. -/
theorem exists_tells_run (context : Context) (h : context.messages = {}) (events : List Event) :
    ∃ told, ((fresh context).run events).Tells told :=
  run_keeps (I := fun e => ∃ told, e.Tells told)
    (fun _ event _ ⟨_, he⟩ => (he.step event).imp' _ fun _ h => h) ⟨[], tells_fresh context h⟩

end Engine

/-- However the tasks take turns, there is one message for each problem and there are no others: the
problems are those that looks have ended in, whatever has become of the looks since. The message of
a problem was made by a look that failed in it. It is no error if the tree is not built, and an
error otherwise. Away from Windows a folder and a kind of failure are one problem; on Windows each
spelling of the folder is one. What happens next only adds messages, and adds none where a look
finds no tool. -/
theorem Engine.told_once (context : Context) (h : context.messages = {}) (events : List Event) :
    let e := (fresh context).run events
    let w := e.workspace
    ∃ problems : List Problem,
      problems.Nodup ∧
      (∀ p, p ∈ problems ↔ ∃ msg, w.Fails p msg) ∧
      (w.platform ≠ .windows → ∀ p ∈ problems, ∀ q ∈ problems,
        p.root.same q.root = true → p.kind = q.kind → p = q) ∧
      w.context.messages.known = problems.map (·.key.text) ∧
      List.Forall₂ (fun p msg => w.Fails p msg ∧ msg.isError = (p.kind != .notBuilt)) problems
        w.context.messages.shown ∧
      ∀ event, w.context.messages.shown <+: (e.step event).workspace.context.messages.shown ∧
        ∀ m, w.phaseOf m ≠ .notBuildTree none →
          (e.step event).workspace.phaseOf m = .notBuildTree none →
          (e.step event).workspace.context.messages = w.context.messages := by
  intro e w
  obtain ⟨told, he⟩ := exists_tells_run context h events
  have hshown : List.Forall₂ (fun p msg => w.Fails p msg ∧ msg.isError = (p.kind != .notBuilt)) told
      w.context.messages.shown :=
    he.faithful.shown.imp fun p msg hfails => by
      obtain ⟨m, f, hf, hfolder⟩ := hfails
      exact ⟨⟨m, f, hf, hfolder⟩, hfolder.isError_eq⟩
  refine ⟨told, he.faithful.nodup, he.faithful.mem_iff, fun hplatform p hp q hq hroot hkind => ?_,
    he.faithful.known, hshown, fun event => ?_⟩
  · exact Problem.eq_of_same (he.faithful.normal_of_mem hp) (he.faithful.normal_of_mem hq) hplatform
      hroot hkind
  · obtain ⟨hadvances, -⟩ := he.advances_step event
    exact ⟨hadvances.shown, fun m => hadvances.messages_eq⟩

/-- The answers about a folder whose build tool may not be run. -/
def Answers.ofDeniedTool : Answers where
  hasApi := true
  reply
    | .isFile _ => true
    | .mtime _ => .error .noEntry
    | .read _ => .error .noEntry
    | .realPath path => path.text
    | .run .. => .error .noCommand

/-- A run in which two looks at one folder overlap, and both fail. -/
def Engine.failedTwice : List Event := [
  .call (.add plainFolder), .call (.rebuild none), .resume 2 .ofDeniedTool,
  .resume 0 .ofDeniedTool, .resume 2 .ofDeniedTool,
  .resume 0 .ofDeniedTool, .resume 2 .ofDeniedTool]

/-- Two looks have failed, and there is one message. -/
theorem Engine.told_once_failedTwice :
    let w := ((fresh {}).run failedTwice).workspace
    (∃ p msg, w.Fails p msg ∧ w.context.messages.shown = [msg] ∧
      msg.isError = (p.kind != .notBuilt)) ∧
      ∀ m < 2, ((w.model? m).bind Folder.error?).isSome = true := by
  intro w
  obtain ⟨problems, -, -, -, -, hshown, -⟩ := told_once {} rfl failedTwice
  have hone : w.context.messages.shown.length = 1 := by decide +kernel
  obtain ⟨msg, hmsg⟩ := List.length_eq_one_iff.mp hone
  have hboth : ∀ m < 2, ((w.model? m).bind Folder.error?).isSome = true := by decide +kernel
  refine ⟨?_, hboth⟩
  obtain ⟨p, -, ⟨hfails, herror⟩, -, -⟩ := List.forall₂_cons_right_iff.mp (hmsg ▸ hshown)
  exact ⟨p, msg, hfails, hmsg, herror⟩

/-- The answers about a tree that has not been built. -/
def Answers.ofUnbuiltTree : Answers where
  hasApi := true
  reply
    | .isFile _ => true
    | .mtime _ => .error .noEntry
    | .read _ => .error .noEntry
    | .realPath path => path.text
    | .run .. => .ok { args := [], chunks := [⟨.stdout, "The tree has not been built yet."⟩] }

/-- A run on Windows in which a folder is added, taken away, and added under another spelling. -/
def Engine.folderRespelled : List Event := [
  .call (.add { uri := "C:\\t" }), .resume 0 .ofUnbuiltTree, .resume 0 .ofUnbuiltTree,
  .call (.remove (.windows ⟨"C:\\t".toList⟩)), .call (.add { uri := "c:\\t" }),
  .resume 2 .ofUnbuiltTree, .resume 2 .ofUnbuiltTree]

/-- All looks were at one folder and found one thing, and there are two messages. -/
theorem Engine.told_twice_respelled :
    let w := ((fresh { surroundings := { platform := .windows } }).run folderRespelled).workspace
    (∀ f ∈ w.models, ∀ g ∈ w.models, f.root.same g.root = true) ∧
      w.context.messages.errors = [] ∧ w.context.messages.infos.length = 2 := by
  decide +kernel

end BuildLens
