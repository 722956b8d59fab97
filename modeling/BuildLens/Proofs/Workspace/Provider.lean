import BuildLens.Proofs.Workspace.BuildCount

/-!
# The life of providers

A provider is wanted while there are build trees. The editor is asked for its interface and answers
later, when the provider may no longer be wanted; and it may be wanted again while the editor is
being asked. This module shows that there is a provider whenever one is wanted, that there is never
more than one, and what each interface is told from first to last.

The editor has to hand out its interface whenever it is asked: a task that is refused does not ask
again.

Main definitions:

- `Registration.Orderly`: an interface was told what it has to be told, in that order.
- `Workspace.Registered`: what is known of all registrations between two changes.
- `View.Attended`: the provider follows the count.

Main results:

- `provider_lifecycle`: the provider follows the count after every run.
-/

namespace BuildLens

/-! ## What an interface is told -/

namespace Registration

/-- The interface was told of a provider that is ready, then of changes, and at last that the
provider goes away if it did. -/
def Orderly (r : Registration) : Prop :=
  ∃ notices : List ChangeNotice,
    r.events = [.register, .ready] ++ notices.map .changed ++ if r.disposed then [.dispose] else []

/-- A fresh registration is orderly. -/
theorem orderly_fresh : fresh.Orderly :=
  ⟨[], rfl⟩

/-- A notice leaves a registration orderly, since it says nothing once disposed of. -/
theorem Orderly.notify {r : Registration} (h : r.Orderly) (notice : ChangeNotice) :
    (r.notify notice).Orderly := by
  unfold Registration.notify
  split
  · exact h
  · next hd =>
    obtain ⟨notices, hevents⟩ := h
    refine ⟨notices ++ [notice], ?_⟩
    rw [if_neg hd, List.append_nil] at hevents ⊢
    rw [hevents, List.map_append, ← List.append_assoc]
    rfl

/-- To dispose of a provider is the last thing that its interface is told. -/
theorem Orderly.dispose {r : Registration} (h : r.Orderly) : r.dispose.Orderly := by
  unfold Registration.dispose
  split
  · exact h
  · next hd =>
    obtain ⟨notices, hevents⟩ := h
    refine ⟨notices, ?_⟩
    rw [hevents, if_neg hd, List.append_nil]
    rfl

/-- A notice brings no provider back. -/
theorem disposed_of_notify {r : Registration} {notice : ChangeNotice}
    (h : (r.notify notice).disposed = false) : r.disposed = false := by
  unfold Registration.notify at h
  split at h
  · exact h
  · exact h

/-- A provider that is disposed of is so. -/
@[simp]
theorem disposed_dispose (r : Registration) : r.dispose.disposed = true := by
  unfold Registration.dispose
  split
  · next h => exact h
  · rfl

/-- The events tell whether the provider is disposed of. -/
theorem Orderly.dispose_mem_iff {r : Registration} (h : r.Orderly) :
    .dispose ∈ r.events ↔ r.disposed = true := by
  obtain ⟨notices, hevents⟩ := h
  rw [hevents]
  cases r.disposed <;> simp

end Registration

/-! ## All registrations -/

namespace Workspace

/-- Every interface was told what it has to be told, and only the last one may still be in use, by
the provider in force. -/
structure Registered (w : Workspace) : Prop where
  orderly : ∀ r ∈ w.registrations, r.Orderly
  current : ∀ n, w.provider = some n → n + 1 = w.registrations.length
  last : ∀ (n : Nat) (r : Registration), w.registrations[n]? = some r → r.disposed = false →
    w.provider = some n

namespace Registered

variable {w : Workspace}

/-- A registration is one from before, changed if it is the one that changes. -/
theorem getElem?_modifyRegistration {n i : Nat} {f : Registration → Registration}
    {r : Registration} (h : (w.modifyRegistration n f).registrations[i]? = some r) :
    ∃ r₀, w.registrations[i]? = some r₀ ∧ r = if n = i then f r₀ else r₀ := by
  simp only [Workspace.modifyRegistration, List.getElem?_modify] at h
  obtain ⟨r₀, hr₀, rfl⟩ := Option.map_eq_some_iff.mp h
  exact ⟨r₀, hr₀, rfl⟩

/-- A change that leaves registrations orderly leaves all of them so. -/
theorem orderly_modifyRegistration (hw : w.Registered) (n : Nat) {f : Registration → Registration}
    (hf : ∀ r, r.Orderly → (f r).Orderly) :
    ∀ r ∈ (w.modifyRegistration n f).registrations, r.Orderly := by
  intro r hr
  obtain ⟨i, hi⟩ := List.getElem?_of_mem hr
  obtain ⟨r₀, hr₀, rfl⟩ := getElem?_modifyRegistration hi
  have ho := hw.orderly r₀ (List.mem_of_getElem? hr₀)
  split
  · exact hf r₀ ho
  · exact ho

/-- A change that leaves registrations orderly and brings no provider back leaves only the last one
in use. -/
theorem modifyRegistration (hw : w.Registered) (n : Nat) {f : Registration → Registration}
    (hf : ∀ r, r.Orderly → (f r).Orderly)
    (hd : ∀ r, (f r).disposed = false → r.disposed = false) :
    (w.modifyRegistration n f).Registered where
  orderly := hw.orderly_modifyRegistration n hf
  current i hi := by
    rw [Workspace.modifyRegistration, List.length_modify]
    exact hw.current i hi
  last i r hi hr := by
    obtain ⟨r₀, hr₀, rfl⟩ := getElem?_modifyRegistration hi
    refine hw.last i r₀ hr₀ ?_
    split at hr
    · exact hd r₀ hr
    · exact hr

/-- A notice leaves all as it is about who is in use. -/
theorem notify (hw : w.Registered) (n : Nat) (notice : ChangeNotice) :
    (w.modifyRegistration n (·.notify notice)).Registered :=
  hw.modifyRegistration n (fun _ h => h.notify notice) fun _ => Registration.disposed_of_notify

/-- A provider that the editor disposes of is not in use any more. -/
theorem dismiss (hw : w.Registered) (n : Nat) :
    (w.modifyRegistration n Registration.dispose).Registered := by
  refine hw.modifyRegistration n (fun _ h => h.dispose) fun r h => ?_
  rw [Registration.disposed_dispose] at h
  cases h

/-- No provider is in use once the one in force is disposed of. -/
theorem disposeProvider (hw : w.Registered) : w.disposeProvider.Registered := by
  unfold Workspace.disposeProvider
  split
  · next n hn =>
    refine ⟨hw.orderly_modifyRegistration n fun _ h => h.dispose, nofun, ?_⟩
    intro i r hi hr
    obtain ⟨r₀, hr₀, rfl⟩ := getElem?_modifyRegistration hi
    split at hr
    · rw [Registration.disposed_dispose] at hr
      cases hr
    · -- Another registration that is in use would be that of the provider in force.
      next hne =>
      have hi := hw.last i r₀ hr₀ hr
      rw [hn] at hi
      exact absurd (Option.some.inj hi) hne
  · exact hw

/-- A provider that retires is not in use any more. -/
theorem retire (hw : w.Registered) : w.retire.Registered := by
  unfold Workspace.retire
  split
  · exact hw.disposeProvider
  · exact hw

/-- A new provider is the only one in use if none was in force before. -/
theorem registered (hw : w.Registered) (hp : w.provider = none) (hasApi : Bool) :
    (w.registered hasApi).2.Registered := by
  have hdisposed : ∀ (n : Nat) (r : Registration), w.registrations[n]? = some r →
      r.disposed ≠ false := by
    intro n r hn hr
    have hcurrent := hw.last n r hn hr
    rw [hp] at hcurrent
    cases hcurrent
  cases hasApi with
  | false => exact ⟨hw.orderly, hw.current, hw.last⟩
  | true =>
    apply retire
    refine ⟨?_, ?_, ?_⟩
    · intro r hr
      rcases List.mem_append.mp hr with hr | hr
      · exact hw.orderly r hr
      · rw [List.mem_singleton.mp hr]
        exact Registration.orderly_fresh
    · rintro n ⟨⟩
      simp
    · intro n r hn hr
      rw [List.getElem?_append] at hn
      split at hn
      · exact absurd hr (hdisposed n r hn)
      · next hle =>
        rw [List.getElem?_singleton] at hn
        split at hn
        · next hlast =>
          have hlen : w.registrations.length = n :=
            Nat.le_antisymm (Nat.le_of_not_lt hle) (Nat.sub_eq_zero_iff_le.mp hlast)
          exact congrArg some hlen
        · cases hn

end Registered

/-- The provider retires if no build tree is left. -/
theorem provider_retire (w : Workspace) :
    w.retire.provider = if w.buildCount = 0 then none else w.provider := by
  unfold retire disposeProvider
  split
  · cases hp : w.provider with
    | none => exact hp
    | some n => rfl
  · rfl

/-- A provider that is there for every build tree follows the count. -/
theorem retire_isSome_iff (w : Workspace) (hcount : 0 ≤ w.buildCount)
    (hheld : 0 < w.buildCount → w.provider ≠ none) :
    w.retire.provider.isSome = true ↔ 0 < w.buildCount := by
  rw [provider_retire]
  split
  · next hzero => simp [hzero]
  · next hne =>
    have hpos : 0 < w.buildCount := by omega
    simp [Option.isSome_iff_ne_none, hheld hpos, hpos]

end Workspace

/-! ## The provider follows the count -/

/-- The provider follows the count of build trees, unless a task is asking the editor for its
interface. At most one task asks, of which the workspace knows, and only while there is no
provider. -/
structure View.Attended (v : View) : Prop where
  registered : v.workspace.Registered
  asking : v.roles.count .registering = v.workspace.registering.toNat
  unheld : v.workspace.registering = true → v.workspace.provider = none
  follows : v.acting ≠ .owing → v.workspace.registering = false →
    (v.workspace.provider.isSome = true ↔ 0 < v.workspace.buildCount)

namespace View.Attended

variable {v v' : View}

/-- A change that the provider does not notice, or has yet to follow. -/
theorem of_same (hv : v.Attended)
    (hregs : v'.workspace.registrations = v.workspace.registrations)
    (hprovider : v'.workspace.provider = v.workspace.provider)
    (hregistering : v'.workspace.registering = v.workspace.registering)
    (hroles : v'.roles.count .registering = v.roles.count .registering)
    (hcount : v'.acting ≠ .owing →
      v.acting ≠ .owing ∧ v'.workspace.buildCount = v.workspace.buildCount) : v'.Attended where
  registered :=
    ⟨hregs ▸ hv.registered.orderly, hregs ▸ hprovider ▸ hv.registered.current,
      hregs ▸ hprovider ▸ hv.registered.last⟩
  asking := by rw [hroles, hregistering, hv.asking]
  unheld := by
    rw [hregistering, hprovider]
    exact hv.unheld
  follows ha hw := by
    obtain ⟨ha, hcount⟩ := hcount ha
    rw [hprovider, hcount]
    exact hv.follows ha (hregistering ▸ hw)

/-- How many tasks ask for the interface does not depend on what the others do. -/
theorem count_set_role {R : List Role} {id : TaskId} {r : Role} (hid : R[id]? = some r)
    (hr : r ≠ .registering) {r' : Role} (hr' : r' ≠ .registering) :
    (R.set id r').count .registering = R.count .registering := by
  have hset := countP_set_add (· == Role.registering) hid r'
  rw [beq_eq_false_iff_ne.mpr hr, beq_eq_false_iff_ne.mpr hr'] at hset
  exact hset

/-- Rebuilds that are scheduled do not ask for the interface. -/
theorem count_append_rebuilding (R : List Role) (ids : List ModelId) :
    (R ++ ids.map Role.rebuilding).count .registering = R.count .registering := by
  have hnone : (ids.map Role.rebuilding).count .registering = 0 :=
    List.count_eq_zero_of_not_mem (by simp)
  rw [List.count_append, hnone, Nat.add_zero]

/-- A task asks the editor for its interface, and is the only one that does. -/
theorem ask {w : Workspace} {R : List Role} {acting acting' : Acting} {id : TaskId}
    (hv : View.Attended ⟨w, R, acting⟩) (hid : R[id]? = some .idle)
    (hw : w.registering = false) (hp : w.provider = none) :
    View.Attended ⟨{ w with registering := true }, R.set id .registering, acting'⟩ := by
  have hset := countP_set_add (· == Role.registering) hid .registering
  have hbefore : R.countP (· == Role.registering) = 0 := by
    rw [← Bool.toNat_false, ← hw]
    exact hv.asking
  rw [hbefore] at hset
  exact ⟨⟨hv.registered.orderly, hv.registered.current, hv.registered.last⟩, hset, fun _ => hp,
    fun _ h => Bool.noConfusion h⟩

/-- The provider that is there for every build tree goes away if there are no build trees. -/
theorem follow {w : Workspace} {R : List Role} {acting acting' : Acting}
    (hc : View.Counted ⟨w, R, acting⟩) (hv : View.Attended ⟨w, R, acting⟩)
    (hheld : 0 < w.buildCount → w.provider ≠ none) : View.Attended ⟨w.retire, R, acting'⟩ := by
  have hnonneg : 0 ≤ w.buildCount := hc ▸ Int.natCast_nonneg _
  have hasking := hv.asking
  have hunheld := hv.unheld
  refine ⟨hv.registered.retire, ?_, ?_, ?_⟩
  · rw [Workspace.retire_eq]
    exact hasking
  · rw [Workspace.provider_retire, Workspace.retire_eq]
    intro hw
    rw [hunheld hw, ite_self]
  · intro _ _
    rw [Workspace.retire_eq]
    exact w.retire_isSome_iff hnonneg hheld

/-- The editor hands out its interface to the task that asks for it. -/
theorem register {w : Workspace} {R : List Role} {acting acting' : Acting} {id : TaskId}
    (hc : View.Counted ⟨w, R, acting⟩) (hv : View.Attended ⟨w, R, acting⟩)
    (hid : R[id]? = some .registering) :
    View.Attended ⟨(w.registered true).2, R.set id .idle, acting'⟩ := by
  have hnonneg : 0 ≤ w.buildCount := hc ▸ Int.natCast_nonneg _
  have hset := countP_set_add (· == Role.registering) hid .idle
  have hasking : R.countP (· == Role.registering) = w.registering.toNat := hv.asking
  have hw : w.registering = true := by
    cases hw : w.registering with
    | true => rfl
    | false =>
      rw [hasking, hw] at hset
      cases hset
  have hp : w.provider = none := hv.unheld hw
  rw [hasking, hw] at hset
  refine ⟨hv.registered.registered hp true, ?_, ?_, ?_⟩
  · rw [Workspace.registered_eq]
    exact Nat.succ.inj hset
  · rw [Workspace.registered_eq]
    exact fun h => Bool.noConfusion h
  · intro _ _
    rw [Workspace.registered_eq]
    exact Workspace.retire_isSome_iff _ hnonneg fun _ => Option.some_ne_none _

/-- A steady move keeps the provider attended, if the editor hands out its interface. -/
theorem steady {input : Input} (hapi : input.hasApi = true) (h : Steady input v v')
    (hc : v.Counted) (hv : v.Attended) : v'.Attended := by
  cases h with
  | refresh => exact hv.of_same rfl rfl rfl rfl fun h => ⟨h, rfl⟩
  | remember => exact hv.of_same rfl rfl rfl rfl fun h => ⟨h, rfl⟩
  | notify w R a n notice =>
    exact ⟨hv.registered.notify n notice, hv.asking, hv.unheld, hv.follows⟩
  | dismiss w R a n => exact ⟨hv.registered.dismiss n, hv.asking, hv.unheld, hv.follows⟩
  | spawn w R a n =>
    refine hv.of_same rfl rfl rfl ?_ fun h => ⟨h, rfl⟩
    have hnone : (List.replicate n Role.idle).count .registering = 0 :=
      List.count_eq_zero_of_not_mem (by simp)
    rw [List.count_append, hnone, Nat.add_zero]
  | schedule w R a ids hids =>
    exact hv.of_same rfl rfl rfl (count_append_rebuilding R ids) fun h => ⟨h, rfl⟩
  | configure w R a settings hs =>
    exact hv.of_same rfl rfl rfl (count_append_rebuilding R _) fun h => ⟨h, rfl⟩
  | conclude w R id p m hid =>
    exact hv.of_same rfl rfl rfl (count_set_role hid nofun nofun) fun _ => ⟨nofun, rfl⟩
  | takeIn => exact hv.of_same rfl rfl rfl rfl fun h => ⟨h, rfl⟩
  | tell w R id p m hid hm =>
    exact hv.of_same rfl rfl rfl (count_set_role hid nofun nofun) fun _ => ⟨nofun, rfl⟩
  | keep => exact hv.of_same rfl rfl rfl rfl fun _ => ⟨nofun, rfl⟩
  | count => exact hv.of_same rfl rfl rfl rfl fun h => absurd rfl h
  | drop => exact hv.of_same rfl rfl rfl rfl fun _ => ⟨nofun, rfl⟩
  | replace w R m current a hp hl ha =>
    refine hv.of_same rfl rfl rfl rfl fun h => ⟨nofun, ?_⟩
    rcases ha with rfl | ⟨-, hweight⟩
    · exact absurd rfl h
    · simp [Workspace.replaced, hweight]
  | ask w R id hid hw hcount hp => exact hv.ask hid hw hp
  | wait w R hw hp =>
    exact ⟨hv.registered, hv.asking, hv.unheld, fun _ h => Bool.noConfusion (hw.symm.trans h)⟩
  | follow w R h => exact hv.follow hc fun hpos hnone => h ⟨hpos, hnone⟩
  | register w R id hid =>
    rw [hapi]
    exact hv.register hc hid

/-- A move that takes roots away keeps the provider attended. -/
theorem clearing (h : Clearing v v') (hv : v.Attended) : v'.Attended := by
  cases h with
  | forget => exact hv.of_same rfl rfl rfl rfl fun h => ⟨h, rfl⟩
  | withdraw w R key i a hk ha =>
    refine hv.of_same rfl rfl rfl rfl fun h => ⟨nofun, ?_⟩
    rcases ha with rfl | ⟨-, hi⟩
    · exact absurd rfl h
    · simp [Workspace.withdrawn, Engine.weight, hi]
  | empty w R =>
    have hw : Workspace.Registered { w with published := ∅, latest := ∅, buildCount := 0 } :=
      ⟨hv.registered.orderly, hv.registered.current, hv.registered.last⟩
    have hasking := hv.asking
    have hnone : w.emptied.provider = none := Workspace.provider_disposeProvider _
    refine ⟨hw.disposeProvider, ?_, fun _ => hnone, ?_⟩
    · rw [Workspace.emptied_eq]
      exact hasking
    · intro _ _
      rw [hnone, Workspace.emptied_eq]
      simp

/-- A look that begins keeps the provider attended. -/
theorem beginning (h : Beginning v v') (hv : v.Attended) : v'.Attended := by
  cases h with
  | introduce w R id source root hid hk =>
    exact hv.of_same rfl rfl rfl (count_set_role hid nofun nofun) fun _ => ⟨nofun, rfl⟩
  | retry w R id old f hid hf =>
    exact hv.of_same rfl rfl rfl (count_set_role hid nofun nofun) fun _ => ⟨nofun, rfl⟩

/-- An event keeps the provider attended, if the editor hands out its interface in it. -/
theorem step {event : Event} (hapi : event.hasApi = true) {e : Engine} (hs : e.view.Sound)
    (hc : e.view.Counted) (he : e.view.Attended) : (e.step event).view.Attended := by
  have hmove : ∀ v v', Move event.input v v' →
      (v.Sound ∧ v.Counted) ∧ v.Attended → (v'.Sound ∧ v'.Counted) ∧ v'.Attended := by
    rintro v v' h ⟨⟨hs, hc⟩, hv⟩
    refine ⟨⟨hs.move h, hc.move h hs⟩, ?_⟩
    cases h with
    | steady h => exact steady hapi h hc hv
    | clearing h => exact clearing h hv
  have hbegin : ∀ v v', Beginning v v' →
      (v.Sound ∧ v.Counted) ∧ v.Attended → (v'.Sound ∧ v'.Counted) ∧ v'.Attended :=
    fun v v' h hv => ⟨⟨hv.1.1.beginning h, hv.1.2.beginning h hv.1.1⟩, hv.2.beginning h⟩
  exact (Engine.step_keeps hmove hbegin ⟨⟨hs, hc⟩, he⟩).2

/-- In a fresh engine there is neither a provider nor a build tree. -/
theorem fresh (context : Context) : (Engine.fresh context).view.Attended where
  registered := ⟨nofun, nofun, nofun⟩
  asking := rfl
  unheld _ := rfl
  follows _ _ := by simp [Engine.fresh, Engine.view]

/-- The workspace knows whether a task asks for the interface. -/
theorem registering_iff {e : Engine} (he : e.view.Attended) :
    e.workspace.registering = true ↔ ∃ t ∈ e.tasks, ∃ after, t.activity = .registering after := by
  have hrole (t : Task) :
      t.activity.role = .registering ↔ ∃ after, t.activity = .registering after := by
    cases t.activity with
    | gathering children failure after => cases after <;> simp [Activity.role]
    | _ => simp [Activity.role]
  have hmem : e.workspace.registering = true ↔ .registering ∈ e.roles := by
    have hasking : e.roles.count .registering = e.workspace.registering.toNat := he.asking
    rw [← List.count_pos_iff, hasking]
    cases e.workspace.registering <;> simp
  rw [hmem, Engine.roles, List.mem_map]
  simp only [hrole]

end View.Attended

/-- Whenever nobody is asking the editor for its interface there is a provider if and only if there
are build trees. Only the interface that was handed out last may have a provider that was not
disposed of. Each interface was told of a provider that is ready, then of changes, and at last, if
at all, that the provider goes away. -/
theorem Engine.provider_lifecycle (context : Context) (events : List Event)
    (hapi : ∀ event ∈ events, event.hasApi = true) :
    let e := (fresh context).run events
    let w := e.workspace
    (w.registering = true ↔ ∃ t ∈ e.tasks, ∃ after, t.activity = .registering after) ∧
      (w.registering = false → (w.provider.isSome = true ↔ 0 < w.buildCount)) ∧
      (∀ n r, w.registrations[n]? = some r → .dispose ∉ r.events →
        n + 1 = w.registrations.length ∧ w.provider = some n) ∧
      ∀ r ∈ w.registrations, ∃ notices : List ChangeNotice,
        r.events = [.register, .ready] ++ notices.map .changed ∨
          r.events = [.register, .ready] ++ notices.map .changed ++ [.dispose] := by
  intro e w
  have hrun : (e.view.Sound ∧ e.view.Counted) ∧ e.view.Attended := by
    refine @run_keeps (fun e => (e.view.Sound ∧ e.view.Counted) ∧ e.view.Attended) events
      ?_ _ ⟨⟨View.Sound.fresh context, rfl⟩, View.Attended.fresh context⟩
    rintro e event hevent ⟨⟨hs, hc⟩, he⟩
    exact ⟨⟨hs.step event, hc.step event hs⟩, he.step (hapi event hevent) hs hc⟩
  have hattended := hrun.2
  refine ⟨hattended.registering_iff, hattended.follows nofun, ?_, ?_⟩
  · intro n r hn hopen
    have ho := hattended.registered.orderly r (List.mem_of_getElem? hn)
    have hr : r.disposed = false := by simpa [ho.dispose_mem_iff] using hopen
    have hcurrent := hattended.registered.last n r hn hr
    exact ⟨hattended.registered.current n hcurrent, hcurrent⟩
  · intro r hr
    obtain ⟨notices, hevents⟩ := hattended.registered.orderly r hr
    refine ⟨notices, ?_⟩
    cases hd : r.disposed with
    | false =>
      left
      simpa [hd] using hevents
    | true =>
      right
      simpa [hd] using hevents

/-- The answers about a folder that holds a tree that is built. -/
def Answers.ofBuiltTree : Answers where
  hasApi := true
  reply
    | .isFile _ => true
    | .mtime _ => .ok 0
    | .read _ => .ok "_CC=cc\n_CXX=c++\nCC_TYPE=gcc\n".toUTF8.toList
    | .realPath path => path.text
    | .run args (some _) _ => .ok { args := args.map Argument.render, chunks := [
        ⟨.stdout, "\x7b\"topobjdir\": \"/o\", \"topsrcdir\": \"/r\"\x7d"⟩] }
    | .run args none _ => .ok { args := args.map Argument.render, chunks := [
        ⟨.stdout, "#define a b\n"⟩] }

/-- A run in which a build tree is added: its task asks for the tool, the environment and the
configuration of the tree, two more ask for the compilers, and it ends when the editor has handed
out its interface. -/
def Engine.buildTreeAdded : List Event :=
  .call (.add { uri := "/r" }) ::
    [0, 0, 0, 1, 2, 1, 2, 0, 0].map fun id => .resume id .ofBuiltTree

theorem Engine.provider_lifecycle_buildTreeAdded :
    ((fresh {}).run buildTreeAdded).workspace.registrations = [⟨[.register, .ready], false⟩] ∧
      ((fresh {}).run buildTreeAdded).workspace.registering = false ∧
      (((fresh {}).run buildTreeAdded).workspace.provider.isSome = true ↔
        0 < ((fresh {}).run buildTreeAdded).workspace.buildCount) := by
  have hregistering : ((fresh {}).run buildTreeAdded).workspace.registering = false := by
    decide +kernel
  have hapi : ∀ event ∈ buildTreeAdded, event.hasApi = true := by decide +kernel
  exact ⟨by decide +kernel, hregistering,
    (provider_lifecycle {} buildTreeAdded hapi).2.1 hregistering⟩

end BuildLens
