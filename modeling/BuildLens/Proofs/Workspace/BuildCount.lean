import BuildLens.Proofs.Workspace.Looks

/-!
# The count of build trees

The count is never taken anew: tasks add to it and take from it when a look at a folder ends or a
folder goes. This module shows that it is right all the same, in whatever order the tasks take their
turns and whatever becomes of the folder during a look at it.

Main definitions:

- `View.Counted`: the count is that of the published build trees that the count has to tell of.
- `Workspace.recognizedCount`: the number that the count stands for.

Main results:

- `buildCount_eq_recognizedCount`: the count is that of the build trees after every run.
-/

namespace BuildLens

namespace View

/-- Whether the count has to tell of a model: that of a build tree is counted in the same turn in
which its look ends. -/
def counts (v : View) (i : ModelId) : Bool :=
  v.workspace.isBuildTree i && v.acting != .concluding .add i

/-- The count is that of the published build trees that were counted. -/
def Counted (v : View) : Prop :=
  v.workspace.buildCount = v.workspace.publishedIds.countP v.counts

end View

/-! ## Changes of the count -/

/-- One element of a list comes to satisfy a condition. -/
theorem countP_succ_of_flip {α : Type} {p q : α → Bool} {l : List α} {m : α} (hd : l.Nodup)
    (hm : m ∈ l) (hp : p m = false) (hq : q m = true) (hpq : ∀ a, a ≠ m → q a = p a) :
    l.countP q = l.countP p + 1 := by
  induction l with
  | nil => cases hm
  | cons a rest ih =>
    rw [List.nodup_cons] at hd
    rcases List.mem_cons.mp hm with rfl | hm
    · have hrest : rest.countP q = rest.countP p := by
        apply List.countP_congr
        intro b hb
        rw [hpq b (ne_of_mem_of_not_mem hb hd.1)]
      rw [List.countP_cons_of_pos hq, List.countP_cons_of_neg (by simp [hp]), hrest]
    · have hne : a ≠ m := by
        rintro rfl
        exact hd.1 hm
      rw [List.countP_cons, List.countP_cons, hpq a hne, ih hd.2 hm]
      omega

/-- The weight of a model is the number of build trees that it is. -/
theorem Engine.weight_eq_countP (w : Workspace) (m : ModelId) :
    weight w m = ([m].countP w.isBuildTree : Nat) := by
  unfold weight
  rw [List.countP_singleton]
  split <;> rfl

namespace View

variable {input : Input} {v v' : View}

/-- A model counts if it is a build tree, unless its addition is yet to be counted. -/
theorem counts_eq_isBuildTree {i : ModelId} (h : v.acting ≠ .concluding .add i) :
    v.counts i = v.workspace.isBuildTree i := by
  simp [counts, h]

/-- A change that no published model notices. -/
theorem Counted.of_same (hv : v.Counted)
    (hcount : v'.workspace.buildCount = v.workspace.buildCount)
    (hids : v'.workspace.publishedIds = v.workspace.publishedIds)
    (hcounts : ∀ i ∈ v.workspace.publishedIds, v'.counts i = v.counts i) : v'.Counted := by
  unfold Counted at hv ⊢
  rw [hcount, hv, hids, List.countP_congr]
  intro i hi
  rw [hcounts i hi]

/-- Whether a model counts depends on what is known of it. -/
theorem counts_congr {i : ModelId} (hb : v'.workspace.isBuildTree i = v.workspace.isBuildTree i)
    (h : v.workspace.isBuildTree i = true →
      v.acting ≠ .concluding .add i ∧ v'.acting ≠ .concluding .add i) :
    v'.counts i = v.counts i := by
  unfold counts
  rw [hb]
  cases hi : v.workspace.isBuildTree i with
  | false => rfl
  | true =>
    obtain ⟨ha, ha'⟩ := h hi
    rw [bne_iff_ne.mpr ha, bne_iff_ne.mpr ha']

/-- While no new folder has an outcome that is not counted yet, the count is that of all build
trees. -/
theorem Counted.eq_countP (hv : v.Counted) (ha : ∀ m, v.acting ≠ .concluding .add m) :
    v.workspace.buildCount = v.workspace.publishedIds.countP v.workspace.isBuildTree := by
  have hcounts : v.counts = v.workspace.isBuildTree := funext fun m => counts_eq_isBuildTree (ha m)
  rw [← hcounts]
  exact hv

/-- The count is right if it is the number of published build trees and no addition is to be
counted. -/
theorem Counted.of_eq_countP (ha : ∀ m, v.acting ≠ .concluding .add m)
    (h : v.workspace.buildCount = v.workspace.publishedIds.countP v.workspace.isBuildTree) :
    v.Counted := by
  have hcounts : v.counts = v.workspace.isBuildTree := funext fun m => counts_eq_isBuildTree (ha m)
  rw [Counted, hcounts]
  exact h

/-- A steady move keeps the count right. -/
theorem Counted.steady (h : Steady input v v') (hs : v.Sound) (hv : v.Counted) : v'.Counted := by
  cases h with
  | refresh w R a i f =>
    refine hv.of_same rfl rfl fun j _ => ?_
    simp [counts]
  | conclude w R id p m hid =>
    refine hv.of_same rfl rfl fun j _ => counts_congr rfl fun hj => ⟨nofun, ?_⟩
    rintro ⟨⟩
    have hm := hs.undecided _ _ (List.mem_of_getElem? hid)
    exact Bool.noConfusion (hj.symm.trans hm)
  | takeIn w R p m outcome =>
    refine hv.of_same rfl rfl fun j hj => ?_
    by_cases hjm : j = m
    · subst hjm
      cases p with
      | add => simp [counts]
      | rebuild => exact absurd hj (hs.unpublished _ (.inr rfl))
    · refine counts_congr (w.isBuildTree_concluded_of_ne outcome (Ne.symm hjm)) fun _ => ?_
      have hne : Acting.concluding p m ≠ .concluding .add j := by
        rintro ⟨⟩
        exact hjm rfl
      exact ⟨hne, hne⟩
  | tell w R id p m hid hm =>
    refine hv.of_same rfl rfl fun j _ => counts_congr rfl fun hj => ⟨?_, nofun⟩
    rintro ⟨⟩
    exact Bool.noConfusion (hj.symm.trans hm)
  | keep w R m h =>
    refine hv.of_same rfl rfl fun j hj => counts_congr rfl fun hb => ⟨?_, nofun⟩
    rintro ⟨⟩
    exact h ⟨hs.isPublished_of_mem hj, hb⟩
  | count w R m hp hm =>
    have hmem : m ∈ w.publishedIds :=
      Workspace.mem_publishedIds_iff.mpr ⟨w.keyOf m, beq_iff_eq.mp hp⟩
    have hflip : w.publishedIds.countP w.isBuildTree =
        w.publishedIds.countP (counts ⟨w, R, .concluding .add m⟩) + 1 := by
      apply countP_succ_of_flip hs.publishedIds_nodup hmem _ hm
      · intro i hi
        have hne : Acting.concluding .add m ≠ .concluding .add i := by
          rintro ⟨⟩
          exact hi rfl
        exact (counts_eq_isBuildTree (v := ⟨w, R, .concluding .add m⟩) hne).symm
      · simp [counts]
    have hcount : w.buildCount = w.publishedIds.countP (counts ⟨w, R, .concluding .add m⟩) := hv
    refine Counted.of_eq_countP (fun _ => nofun) ?_
    change w.buildCount + 1 = (w.publishedIds.countP w.isBuildTree : Nat)
    rw [hcount, hflip]
    rfl
  | drop w R m h => exact hv.of_same rfl rfl fun j _ => counts_congr rfl fun _ => ⟨nofun, nofun⟩
  | replace w R m current a hp hl ha =>
    have hresting : ∀ i, a ≠ .concluding .add i := by
      rcases ha with rfl | ⟨rfl, -⟩ <;> exact fun _ => nofun
    have hinsert := Table.countP_values_insert w.isBuildTree w.published (w.keyOf m) m
    have hcount := hv.eq_countP fun _ => nofun
    rw [hp, Option.toList_some] at hinsert
    refine Counted.of_eq_countP hresting ?_
    change w.buildCount + (Engine.weight w m - Engine.weight w current) =
      ((w.published.insert (w.keyOf m) m).values.countP w.isBuildTree : Nat)
    change w.buildCount = (w.published.values.countP w.isBuildTree : Nat) at hcount
    rw [Engine.weight_eq_countP, Engine.weight_eq_countP]
    omega
  | ask w R id hid hw hc hp =>
    exact hv.of_same rfl rfl fun j _ => counts_congr rfl fun _ => ⟨nofun, nofun⟩
  | wait w R hw hp =>
    exact hv.of_same rfl rfl fun j _ => counts_congr rfl fun _ => ⟨nofun, nofun⟩
  | follow w R h =>
    rw [Workspace.retire_eq]
    exact hv.of_same rfl rfl fun j _ => counts_congr rfl fun _ => ⟨nofun, nofun⟩
  | register w R id hid =>
    rw [Workspace.registered_eq]
    exact hv.of_same rfl rfl fun j _ => counts_congr rfl fun _ => ⟨nofun, nofun⟩
  | _ => exact hv.of_same rfl rfl fun _ _ => rfl

/-- A move that takes roots away keeps the count right. -/
theorem Counted.clearing (h : Clearing v v') (hv : v.Counted) : v'.Counted := by
  cases h with
  | forget w R a key hk => exact hv.of_same rfl rfl fun _ _ => rfl
  | withdraw w R key i a hk ha =>
    have hresting : ∀ i, a ≠ .concluding .add i := by
      rcases ha with rfl | ⟨rfl, -⟩ <;> exact fun _ => nofun
    have herase := Table.countP_values_erase w.isBuildTree w.published key
    have hcount := hv.eq_countP fun _ => nofun
    rw [hk, Option.toList_some] at herase
    refine Counted.of_eq_countP hresting ?_
    change w.buildCount - Engine.weight w i =
      ((w.published.erase key).values.countP w.isBuildTree : Nat)
    change w.buildCount = (w.published.values.countP w.isBuildTree : Nat) at hcount
    rw [Engine.weight_eq_countP]
    omega
  | empty w R =>
    refine Counted.of_eq_countP (fun _ => nofun) ?_
    rw [Workspace.emptied_eq]
    rfl

/-- A move that begins no look keeps the count right. -/
theorem Counted.move (h : Move input v v') (hs : v.Sound) (hv : v.Counted) : v'.Counted := by
  cases h with
  | steady h => exact hv.steady h hs
  | clearing h => exact hv.clearing h

/-- A look that begins keeps the count right. -/
theorem Counted.beginning (h : Beginning v v') (hs : v.Sound) (hv : v.Counted) : v'.Counted := by
  have hold : ∀ i ∈ v.workspace.publishedIds,
      v'.workspace.isBuildTree i = v.workspace.isBuildTree i :=
    fun i hi => h.isBuildTree_of_lt (hs.lt_of_mem_publishedIds hi)
  have hnew := h.isBuildTree_self
  cases h with
  | introduce w R id source root hid hk =>
    have hinsert := Table.countP_values_insert (w.admitted source root).isBuildTree w.published
      root.key w.models.length
    have hsame : w.published.values.countP (w.admitted source root).isBuildTree =
        w.published.values.countP w.isBuildTree := by
      apply List.countP_congr
      intro i hi
      rw [hold i hi]
    rw [hk, Option.toList_none, List.countP_nil, List.countP_singleton, hnew, hsame] at hinsert
    have hcount := hv.eq_countP fun _ => nofun
    refine Counted.of_eq_countP (fun _ => nofun) ?_
    change w.buildCount = ((w.published.insert root.key w.models.length).values.countP
      (w.admitted source root).isBuildTree : Nat)
    rw [hcount]
    exact congrArg _ hinsert.symm
  | retry w R id old f hid hf =>
    exact hv.of_same rfl rfl fun i hi => counts_congr (hold i hi) fun _ => ⟨nofun, nofun⟩

/-- An event keeps the count right. -/
theorem Counted.step (event : Event) {e : Engine} (hs : e.view.Sound) (he : e.view.Counted) :
    (e.step event).view.Counted :=
  (Engine.step_keeps (I := fun v => v.Sound ∧ v.Counted)
    (fun _ _ h hv => ⟨hv.1.move h, hv.2.move h hv.1⟩)
    (fun _ _ h hv => ⟨hv.1.beginning h, hv.2.beginning h hv.1⟩) ⟨hs, he⟩).2

end View

/-! ## What the count tells -/

namespace Workspace

/-- The number of published folders that are known to be build trees. -/
def recognizedCount (w : Workspace) : Nat :=
  w.publishedIds.countP fun i =>
    match w.phaseOf i with
    | .recognized _ => true
    | _ => false

/-- The recognized folders are the published build trees. -/
theorem recognizedCount_eq_countP (w : Workspace) :
    w.recognizedCount = w.publishedIds.countP w.isBuildTree := by
  unfold recognizedCount
  congr 1
  funext i
  unfold phaseOf isBuildTree Folder.isBuildTree Folder.build?
  cases w.model? i with
  | none => rfl
  | some f => cases hf : f.phase <;> simp [hf]

/-- The build folders are as many as the published build trees. -/
theorem buildFolders_length (w : Workspace) :
    w.buildFolders.length = w.publishedIds.countP w.isBuildTree := by
  rw [buildFolders, folders, ← List.countP_eq_length_filter, List.countP_filterMap]
  congr 1
  funext i
  unfold isBuildTree
  cases w.model? i <;> rfl

/-- Configurations can be provided if there is a build folder. -/
theorem canProvide_iff (w : Workspace) : w.canProvide = true ↔ 0 < w.buildFolders.length := by
  rw [canProvide, buildFolders, List.length_pos_iff_exists_mem, List.any_eq_true]
  simp only [List.mem_filter]

end Workspace

/-- In every state between two turns, in whatever order the tasks have taken their turns, the count
is that of the published build trees. -/
theorem Engine.buildCount_eq_recognizedCount (context : Context) (events : List Event) :
    let w := ((fresh context).run events).workspace
    w.buildCount = w.recognizedCount ∧ 0 ≤ w.buildCount ∧ w.buildCount = w.buildFolders.length ∧
      (w.canProvide = true ↔ 0 < w.buildCount) := by
  intro w
  have hrun : ((fresh context).run events).view.Sound ∧ ((fresh context).run events).view.Counted :=
    @run_keeps (fun e => e.view.Sound ∧ e.view.Counted) events
      (fun _ event _ he => ⟨he.1.step event, he.2.step event he.1⟩) _
      ⟨View.Sound.fresh context, rfl⟩
  have hcount : w.buildCount = w.publishedIds.countP w.isBuildTree :=
    hrun.2.eq_countP fun _ => nofun
  have hlength : w.buildCount = w.buildFolders.length := by
    rw [hcount, Workspace.buildFolders_length]
  refine ⟨?_, ?_, hlength, ?_⟩
  · rw [hcount, Workspace.recognizedCount_eq_countP]
  · rw [hlength]
    exact Int.natCast_nonneg _
  · rw [Workspace.canProvide_iff, hlength, Int.natCast_pos]

end BuildLens
