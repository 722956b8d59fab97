import Mathlib.Data.List.Range
import Mathlib.Data.List.Sort

/-!
# Things in the order in which they occur

The items of a list bring things, an item at most one, and what it brings may depend on the items
before it. A collection that keeps the first of any two like things then holds what it held before,
followed by what is new.

Main definitions:

- `InOrder`: a list of all things that the numbers bring, in the order of the numbers.
- `collect`: the things that the items of a list bring.
- `firstNew`: the things that are new, each at its first occurrence.

Main results:

- `InOrder.unique`: what the numbers bring in order is determined.
- `inOrder_collect`: the things collected from a list are those that its items bring.
- `foldl_addNew`: adding things one after the other, unless a like one is there.
-/

namespace BuildLens

variable {α β : Type}

/-! ## What numbers bring -/

/-- The list holds what the numbers bring, each number at most one thing, in order. -/
def InOrder (brings : Nat → β → Prop) (things : List β) : Prop :=
  ∃ numbered : List (Nat × β), numbered.Pairwise (fun a b => a.1 < b.1) ∧
    (∀ i b, (i, b) ∈ numbered ↔ brings i b) ∧ numbered.map Prod.snd = things

theorem InOrder.unique {brings : Nat → β → Prop} {xs ys : List β} (hx : InOrder brings xs)
    (hy : InOrder brings ys) : xs = ys := by
  obtain ⟨numbered, hsorted, hmem, rfl⟩ := hx
  obtain ⟨numbered', hsorted', hmem', rfl⟩ := hy
  have hantisymm : Std.Antisymm fun a b : Nat × β => a.1 < b.1 :=
    ⟨fun _ _ hab hba => absurd hab (Nat.lt_asymm hba)⟩
  have hirrefl : Std.Irrefl fun a b : Nat × β => a.1 < b.1 := ⟨fun a => Nat.lt_irrefl a.1⟩
  have hsame :
      ∀ e, e ∈ numbered ↔ e ∈ numbered' := fun e => (hmem e.1 e.2).trans (hmem' e.1 e.2).symm
  rw [List.Pairwise.eq_of_mem_iff hsorted hsorted' hsame]

theorem InOrder.congr {brings brings' : Nat → β → Prop} {things : List β}
    (h : InOrder brings things) (hsame : ∀ i b, brings i b ↔ brings' i b) :
    InOrder brings' things := by
  obtain ⟨numbered, hsorted, hmem, hthings⟩ := h
  exact ⟨numbered, hsorted, fun i b => (hmem i b).trans (hsame i b), hthings⟩

/-! ## What the items of a list bring -/

/-- The things that the items of a list bring, each item being read after those before it. -/
def collect (f : List α → α → Option β) (items : List α) : List β :=
  (List.range items.length).filterMap fun i => items[i]?.bind (f (items.take i))

@[simp]
theorem collect_nil (f : List α → α → Option β) : collect f [] = [] :=
  rfl

theorem collect_append_singleton (f : List α → α → Option β) (items : List α) (item : α) :
    collect f (items ++ [item]) = collect f items ++ (f items item).toList := by
  have hold : ∀ i ∈ List.range items.length,
      (items ++ [item])[i]?.bind (f ((items ++ [item]).take i)) =
        items[i]?.bind (f (items.take i)) := by
    intro i hi
    have hlt : i < items.length := List.mem_range.mp hi
    rw [List.getElem?_append_left hlt, List.take_append_of_le_length hlt.le]
  rw [collect, List.length_append, List.length_singleton, List.range_succ, List.filterMap_append,
    List.filterMap_congr hold, collect]
  congr 1
  rw [List.filterMap_cons, List.filterMap_nil]
  simp only [List.getElem?_concat_length, List.take_left, Option.bind_some]
  cases f items item <;> rfl

theorem collect_cons (f : List α → α → Option β) (item : α) (items : List α) :
    collect f (item :: items) =
      (f [] item).toList ++ collect (fun before => f (item :: before)) items := by
  simp only [collect, List.length_cons, List.range_succ_eq_map, List.filterMap_cons,
    List.filterMap_map]
  cases h : f [] item <;> simp [h, Function.comp_def]

/-- Items that all bring themselves are collected as they are. -/
@[simp]
theorem collect_some (items : List α) : collect (fun _ item => some item) items = items := by
  induction items with
  | nil => rfl
  | cons item items ih => simp [collect_cons, ih]

theorem inOrder_collect (f : List α → α → Option β) (items : List α) :
    InOrder (fun i b => ∃ item, items[i]? = some item ∧ f (items.take i) item = some b)
      (collect f items) := by
  have hbrings (i : Nat) (b : β) :
      (∃ item, items[i]? = some item ∧ f (items.take i) item = some b) ↔
        items[i]?.bind (f (items.take i)) = some b :=
    Option.bind_eq_some_iff.symm
  refine ⟨(List.range items.length).filterMap fun i =>
    (items[i]?.bind (f (items.take i))).map (i, ·), ?_, ?_, ?_⟩
  · apply List.Pairwise.filterMap _ _ List.pairwise_lt_range
    intro i j hij a ha b hb
    obtain ⟨_, _, rfl⟩ := Option.map_eq_some_iff.mp ha
    obtain ⟨_, _, rfl⟩ := Option.map_eq_some_iff.mp hb
    exact hij
  · intro i b
    rw [List.mem_filterMap]
    apply Iff.trans _ (hbrings i b).symm
    constructor
    · rintro ⟨j, -, hj⟩
      obtain ⟨b', hb, heq⟩ := Option.map_eq_some_iff.mp hj
      cases heq
      exact hb
    · intro hb
      obtain ⟨item, hitem, -⟩ := Option.bind_eq_some_iff.mp hb
      have hlt : i < items.length := (List.getElem?_eq_some_iff.mp hitem).1
      exact ⟨i, List.mem_range.mpr hlt, by rw [hb]; rfl⟩
  · rw [List.map_filterMap]
    simp [collect, Function.comp_def]

/-! ## What is new -/

/-- The things that are like none of the old ones, each at its first occurrence. -/
def firstNew (like : α → α → Bool) (old things : List α) : List α :=
  (things.filter fun a => !old.any (like a)).eraseDupsBy like

theorem firstNew_cons (like : α → α → Bool) (old : List α) (a : α) (things : List α) :
    firstNew like old (a :: things) =
      if old.any (like a) then firstNew like old things
      else a :: firstNew like (old ++ [a]) things := by
  rw [firstNew, List.filter_cons]
  by_cases h : old.any (like a) = true
  · rw [h]
    rfl
  · rw [Bool.eq_false_iff.mpr h, Bool.not_false, if_pos rfl, if_neg Bool.false_ne_true,
      List.eraseDupsBy_cons, List.filter_filter, firstNew]
    simp [Bool.and_comm]

/-- Adding things one after the other, unless a like one is there, adds the new ones. -/
theorem foldl_addNew (like : α → α → Bool) (old things : List α) :
    things.foldl (fun l a => if l.any (like a) then l else l ++ [a]) old =
      old ++ firstNew like old things := by
  induction things generalizing old with
  | nil => simp [firstNew]
  | cons a things ih =>
    rw [List.foldl_cons, ih, firstNew_cons]
    cases old.any (like a) <;> simp

/-- Of things that are all unlike each other, those are new that are like none of the old ones. -/
theorem firstNew_of_pairwise {like : α → α → Bool} {old things : List α}
    (h : things.Pairwise fun a b => like b a = false) :
    firstNew like old things = things.filter fun a => !old.any (like a) := by
  induction things generalizing old with
  | nil => simp [firstNew]
  | cons a things ih =>
    rw [List.pairwise_cons] at h
    have hrest : things.filter (fun b => !(old ++ [a]).any (like b)) =
        things.filter fun b => !old.any (like b) := by
      apply List.filter_congr
      intro b hb
      simp [h.1 b hb]
    rw [firstNew_cons, ih h.2, ih h.2, hrest, List.filter_cons]
    cases old.any (like a) <;> simp

/-- Nothing is new among things that are all there. -/
theorem firstNew_eq_nil {like : α → α → Bool} {old things : List α}
    (h : ∀ a ∈ things, old.any (like a) = true) : firstNew like old things = [] := by
  have hnone : things.filter (fun a => !old.any (like a)) = [] := by
    apply List.filter_eq_nil_iff.mpr
    intro a ha
    simp [h a ha]
  rw [firstNew, hnone, List.eraseDupsBy_nil]

end BuildLens
