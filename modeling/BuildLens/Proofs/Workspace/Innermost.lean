import BuildLens.Proofs.Path.Nesting
import BuildLens.Workspace.Basic
import Mathlib.Data.List.Induction

/-!
# The folder to which a file belongs

Folders may lie in one another. A file belongs to the innermost of the published folders that
contain it, in whatever order they were published.

Main definitions:

- `Workspace.Innermost`: the innermost folder among some models.

Main results:

- `Workspace.innermost_of_innermost?`: the folder that is looked up is the innermost one.
- `Workspace.outside_of_innermost?`: none is found only if no folder contains the path.
-/

namespace BuildLens.Workspace

variable {w : Workspace} {path : FilePath} {ids : List ModelId} {m : ModelId}

/-- The model is one of the given ones, its folder contains the path, and it lies in every folder of
these models that contains the path. -/
structure Innermost (w : Workspace) (ids : List ModelId) (path : FilePath) (m : ModelId) : Prop where
  mem : m ∈ ids
  inside : ∃ f, w.model? m = some f ∧ f.contains path = true ∧
    ∀ i ∈ ids, ∀ g, w.model? i = some g → g.contains path = true → f.root.isUnder g.root = true

/-- No folder of the given models contains the path. -/
def Outside (w : Workspace) (ids : List ModelId) (path : FilePath) : Prop :=
  ∀ i ∈ ids, ∀ g, w.model? i = some g → g.contains path = false

/-- What is best among some models: the innermost folder, or nothing if none contains the path. -/
def Best (w : Workspace) (ids : List ModelId) (path : FilePath) : Option ModelId → Prop
  | some m => w.Innermost ids path m
  | none => w.Outside ids path

/-- A model more that does not contain the path. -/
theorem Best.skip {best : Option ModelId} {i : ModelId} (h : w.Best ids path best)
    (hi : ∀ g, w.model? i = some g → g.contains path = false) :
    w.Best (ids ++ [i]) path best := by
  have hmem {j : ModelId} (hj : j ∈ ids ++ [i]) {g : Folder} (hg : w.model? j = some g)
      (hc : g.contains path = true) : j ∈ ids := by
    rcases List.mem_append.mp hj with hj | hj
    · exact hj
    · rw [List.mem_singleton.mp hj] at hg
      rw [hi g hg] at hc
      cases hc
  cases best with
  | none =>
    intro j hj g hg
    by_contra hc
    rw [Bool.not_eq_false] at hc
    rw [h j (hmem hj hg hc) g hg] at hc
    cases hc
  | some m =>
    obtain ⟨f, hf, hcontains, hinner⟩ := h.inside
    exact ⟨List.mem_append_left _ h.mem, f, hf, hcontains,
      fun j hj g hg hc => hinner j (hmem hj hg hc) g hg hc⟩

/-- A model more whose folder contains the path: it is the best one, or the best one lies in it. -/
theorem Best.closer {best : Option ModelId} {i : ModelId} {f : Folder} (h : w.Best ids path best)
    (hf : w.model? i = some f) (hc : f.contains path = true) :
    w.Best (ids ++ [i]) path (w.closer path best i) := by
  cases best with
  | none =>
    have hcloser : w.closer path none i = some i := by simp [Workspace.closer, hf, hc]
    rw [hcloser]
    refine ⟨List.mem_append_right _ (List.mem_singleton_self i), f, hf, hc, ?_⟩
    intro j hj g hg hgc
    rcases List.mem_append.mp hj with hj | hj
    · rw [h j hj g hg] at hgc
      cases hgc
    · rw [List.mem_singleton.mp hj, hf] at hg
      cases hg
      exact FilePath.isUnder_refl f.root
  | some m =>
    obtain ⟨b, hb, hbc, hinner⟩ := h.inside
    by_cases hunder : f.root.isUnder b.root = true
    · have hcloser : w.closer path (some m) i = some i := by
        simp [Workspace.closer, hf, hb, hc, hunder]
      rw [hcloser]
      refine ⟨List.mem_append_right _ (List.mem_singleton_self i), f, hf, hc, ?_⟩
      intro j hj g hg hgc
      rcases List.mem_append.mp hj with hj | hj
      · exact FilePath.isUnder_trans hunder (hinner j hj g hg hgc)
      · rw [List.mem_singleton.mp hj, hf] at hg
        cases hg
        exact FilePath.isUnder_refl f.root
    · -- Both folders contain the path, so that the best one lies in the other.
      have hcloser : w.closer path (some m) i = some m := by
        simp [Workspace.closer, hf, hb, hunder]
      rw [hcloser]
      refine ⟨List.mem_append_left _ h.mem, b, hb, hbc, ?_⟩
      intro j hj g hg hgc
      rcases List.mem_append.mp hj with hj | hj
      · exact hinner j hj g hg hgc
      · rw [List.mem_singleton.mp hj, hf] at hg
        cases hg
        exact (FilePath.isUnder_or_isUnder hc hbc).resolve_left hunder

theorem best_foldl (w : Workspace) (path : FilePath) (ids : List ModelId) :
    w.Best ids path (ids.foldl (w.closer path) none) := by
  induction ids using List.reverseRecOn with
  | nil => exact fun _ h => absurd h List.not_mem_nil
  | append_singleton ids i ih =>
    rw [List.foldl_append, List.foldl_cons, List.foldl_nil]
    cases hf : w.model? i with
    | none =>
      have hcloser (best : Option ModelId) : w.closer path best i = best := by
        simp [Workspace.closer, hf]
      rw [hcloser]
      exact ih.skip fun g hg => by rw [hf] at hg; cases hg
    | some f =>
      cases hc : f.contains path with
      | true => exact ih.closer hf hc
      | false =>
        have hcloser (best : Option ModelId) : w.closer path best i = best := by
          cases hb : best.bind w.model? <;> simp [Workspace.closer, hf, hb, hc]
        rw [hcloser]
        exact ih.skip fun g hg => by rw [hf] at hg; cases hg; exact hc

/-- The folder that is looked up for a path is the innermost published one that contains it. -/
theorem innermost_of_innermost? (h : w.innermost? path = some m) :
    w.Innermost w.publishedIds path m := by
  have hbest := best_foldl w path w.publishedIds
  rw [innermost?] at h
  rwa [h] at hbest

/-- No folder is found for a path only if no published one contains it. -/
theorem outside_of_innermost? (h : w.innermost? path = none) :
    w.Outside w.publishedIds path := by
  have hbest := best_foldl w path w.publishedIds
  rw [innermost?] at h
  rwa [h] at hbest

end BuildLens.Workspace
