import BuildLens.Proofs.Occurrence
import BuildLens.Table

/-!
# The values of a table

A table is read by its names, and as a list of values. This module ties the two readings together:
which values there are, and how many of them satisfy a condition after a change.

Main results:

- `mem_values_iff`: the values are those of the names.
- `countP_values_insert`, `countP_values_erase`: a change replaces the value of one name.
- `find?_insertMany`, `find?_insertMany_eq_or`: setting many names at once, and names repeatedly.
- `names_insertMany`: new names follow those that are there.
- `entries_insertMany`: setting one table over another.
- `insertMany_insertMany_self`: setting the same names again changes nothing.
- `agrees_refl`: a table gives its names the values that it gives them.
-/

namespace BuildLens

variable {β : Type}

/-! ## Lists of pairs -/

/-- A value that is found is in an entry. -/
theorem mem_entries_of_lookup {entries : List (String × β)} {name : String} {v : β}
    (h : entries.lookup name = some v) : (name, v) ∈ entries := by
  obtain ⟨l, r, heq, _⟩ := List.lookup_eq_some_iff.mp h
  rw [heq]
  exact List.mem_append_right l List.mem_cons_self

/-- The value of an entry is found if no name occurs twice. -/
theorem lookup_of_mem_entries {entries : List (String × β)} {name : String} {v : β}
    (hd : (entries.map Prod.fst).Nodup) (h : (name, v) ∈ entries) :
    entries.lookup name = some v := by
  induction entries with
  | nil => simp at h
  | cons e rest ih =>
    rw [List.map_cons, List.nodup_cons] at hd
    rcases List.mem_cons.mp h with rfl | h
    · exact List.lookup_cons_self
    · have hne : name ≠ e.1 := by
        intro heq
        exact hd.1 (List.mem_map.mpr ⟨(name, v), h, heq⟩)
      rw [List.lookup_cons, beq_eq_false_iff_ne.mpr hne]
      exact ih hd.2 h

/-- Setting a name adds it at the end, unless it is there. -/
theorem map_fst_putEntry (entries : List (String × β)) (name : String) (v : β) :
    (putEntry entries name v).map Prod.fst =
      if (entries.map Prod.fst).any (name == ·) then entries.map Prod.fst
      else entries.map Prod.fst ++ [name] := by
  induction entries with
  | nil => rfl
  | cons e rest ih =>
    rw [putEntry]
    by_cases h : e.1 = name
    · simp [h]
    · have hne : (name == e.1) = false := beq_eq_false_iff_ne.mpr fun heq => h heq.symm
      rw [if_neg h, List.map_cons, ih, List.map_cons, List.any_cons, hne, Bool.false_or]
      split <;> rfl

/-- To drop a name that does not occur changes nothing. -/
theorem dropEntry_eq_self {entries : List (String × β)} {name : String}
    (h : name ∉ entries.map Prod.fst) : dropEntry entries name = entries := by
  apply List.filter_eq_self.mpr
  intro e he
  have hne : e.1 ≠ name := fun heq => h (heq ▸ List.mem_map_of_mem he)
  simpa using hne

/-- Setting a name puts the new value in the place of the old one, if there was one. -/
theorem countP_putEntry (p : β → Bool) (entries : List (String × β)) (name : String) (v : β) :
    ((putEntry entries name v).map Prod.snd).countP p + (entries.lookup name).toList.countP p =
      (entries.map Prod.snd).countP p + [v].countP p := by
  induction entries with
  | nil => simp [putEntry]
  | cons e rest ih =>
    rw [putEntry]
    split
    · next he =>
      subst he
      have hlook : (e :: rest).lookup e.1 = some e.2 := List.lookup_cons_self
      rw [hlook]
      simp only [List.map_cons, List.countP_cons, Option.toList_some, List.countP_nil]
      omega
    · next he =>
      have hne : name ≠ e.1 := fun h => he h.symm
      rw [List.lookup_cons, beq_eq_false_iff_ne.mpr hne]
      simp only [List.map_cons, List.countP_cons] at ih ⊢
      omega

/-- Removing a name removes its value. -/
theorem countP_dropEntry (p : β → Bool) {entries : List (String × β)} {name : String}
    (hd : (entries.map Prod.fst).Nodup) :
    ((dropEntry entries name).map Prod.snd).countP p + (entries.lookup name).toList.countP p =
      (entries.map Prod.snd).countP p := by
  induction entries with
  | nil => simp [dropEntry]
  | cons e rest ih =>
    rw [List.map_cons, List.nodup_cons] at hd
    by_cases he : e.1 = name
    · have hlook : (e :: rest).lookup name = some e.2 := by
        rw [← he]
        exact List.lookup_cons_self
      have hdrop : dropEntry (e :: rest) name = rest := by
        rw [dropEntry, List.filter_cons_of_neg (by simpa using he)]
        exact dropEntry_eq_self (he ▸ hd.1)
      rw [hdrop, hlook]
      simp [List.countP_cons]
    · have hne : name ≠ e.1 := fun h => he h.symm
      have hdrop : dropEntry (e :: rest) name = e :: dropEntry rest name := by
        rw [dropEntry, List.filter_cons_of_pos (by simpa using he)]
        rfl
      rw [hdrop, List.lookup_cons, beq_eq_false_iff_ne.mpr hne]
      have hrest := ih hd.2
      simp only [List.map_cons, List.countP_cons]
      omega

/-! ## Tables -/

namespace Table

/-- The values in the order of the names. -/
def values (t : Table β) : List β := t.entries.map Prod.snd

@[simp]
theorem find?_empty (name : String) : (∅ : Table β).find? name = none :=
  rfl

/-- A table has a positive size if it is not empty. -/
theorem size_pos_iff {t : Table β} : 0 < t.size ↔ t.isEmpty = false := by
  rw [size, isEmpty, List.length_pos_iff, List.isEmpty_eq_false_iff]

/-- A value is found under a name if they are an entry. -/
theorem find?_eq_some_iff {t : Table β} {name : String} {v : β} :
    t.find? name = some v ↔ (name, v) ∈ t.entries :=
  ⟨mem_entries_of_lookup, lookup_of_mem_entries t.distinct⟩

/-- A value is found once another one is set if it is that or stands under another name. -/
theorem find?_insert_eq_some {t : Table β} {name n : String} {v u : β} :
    (t.insert name v).find? n = some u ↔ n = name ∧ v = u ∨ n ≠ name ∧ t.find? n = some u := by
  rw [find?_insert]
  split
  · next h => simp [h]
  · next h => simp [h]

/-- The values are those that are found under some name. -/
theorem mem_values_iff {t : Table β} {v : β} : v ∈ t.values ↔ ∃ name, t.find? name = some v := by
  simp only [values, List.mem_map, find?_eq_some_iff]
  constructor
  · rintro ⟨⟨name, w⟩, he, rfl⟩
    exact ⟨name, he⟩
  · rintro ⟨name, he⟩
    exact ⟨(name, v), he, rfl⟩

/-- A value that is set counts in place of the one from before. -/
theorem countP_values_insert (p : β → Bool) (t : Table β) (name : String) (v : β) :
    (t.insert name v).values.countP p + (t.find? name).toList.countP p =
      t.values.countP p + [v].countP p :=
  countP_putEntry p t.entries name v

/-- A value that is erased does not count any more. -/
theorem countP_values_erase (p : β → Bool) (t : Table β) (name : String) :
    (t.erase name).values.countP p + (t.find? name).toList.countP p = t.values.countP p :=
  countP_dropEntry p t.distinct

/-- Of entries with names of their own, each has the last word on its name. -/
theorem find?_insertMany {entries : List (String × β)} (hd : (entries.map Prod.fst).Nodup)
    (t : Table β) (name : String) :
    (t.insertMany entries).find? name = (entries.lookup name).or (t.find? name) := by
  rw [insertMany]
  induction entries generalizing t with
  | nil => rfl
  | cons e rest ih =>
    rw [List.map_cons, List.nodup_cons] at hd
    rw [List.foldl_cons, ih hd.2, find?_insert, List.lookup_cons]
    by_cases h : name = e.1
    · subst h
      have hrest : rest.lookup e.1 = none := by
        rw [List.lookup_eq_none_iff]
        intro e' he'
        have hne : e.1 ≠ e'.1 := fun h => hd.1 (h ▸ List.mem_map_of_mem he')
        exact bne_iff_ne.mpr hne
      rw [hrest, if_pos rfl, beq_self_eq_true]
      rfl
    · rw [if_neg h, beq_eq_false_iff_ne.mpr h]

/-- Of entries that may repeat a name, the last one has the last word. -/
theorem find?_insertMany_eq_or (t : Table β) (entries : List (String × β)) (name : String) :
    (t.insertMany entries).find? name = (entries.reverse.lookup name).or (t.find? name) := by
  induction entries generalizing t with
  | nil => rfl
  | cons e rest ih =>
    have hstep : t.insertMany (e :: rest) = (t.insert e.1 e.2).insertMany rest := rfl
    rw [hstep, ih, find?_insert, List.reverse_cons, List.lookup_append, List.lookup_cons,
      List.lookup_nil, Option.or_assoc]
    by_cases h : name = e.1
    · rw [if_pos h, beq_iff_eq.mpr h]
      rfl
    · rw [if_neg h, beq_eq_false_iff_ne.mpr h]
      rfl

/-! ## Names in order -/

/-- A name keeps its place, and a new one comes last. -/
theorem names_insert (t : Table β) (name : String) (v : β) :
    (t.insert name v).names = if t.names.any (name == ·) then t.names else t.names ++ [name] :=
  map_fst_putEntry t.entries name v

/-- New names follow those that are there, in the order in which they come first. -/
theorem names_insertMany (t : Table β) (entries : List (String × β)) :
    (t.insertMany entries).names =
      t.names ++ firstNew (· == ·) t.names (entries.map Prod.fst) := by
  rw [← foldl_addNew, List.foldl_map, insertMany]
  apply (List.foldl_hom names _).symm
  intro t e
  exact (names_insert t e.1 e.2).symm

/-- The names are those under which a value is found. -/
theorem mem_names_iff {t : Table β} {name : String} :
    name ∈ t.names ↔ ∃ v, t.find? name = some v := by
  simp only [names, List.mem_map, find?_eq_some_iff]
  constructor
  · intro ⟨e, he, hname⟩
    subst hname
    exact ⟨e.2, he⟩
  · intro ⟨v, he⟩
    exact ⟨(name, v), he, rfl⟩

/-- Nothing is found under a name that is none of the table. -/
theorem isNone_find? (t : Table β) (name : String) :
    (t.find? name).isNone = !t.names.any (name == ·) := by
  rw [Bool.eq_iff_iff, Option.isNone_iff_eq_none, find?, List.lookup_eq_none_iff]
  simp [names]

/-- The entries are the names in order, each with its value. -/
theorem map_some_entries (t : Table β) :
    t.entries.map some = t.names.map fun name => (t.find? name).map (name, ·) := by
  rw [names, List.map_map]
  apply List.map_congr_left
  intro e he
  rw [Function.comp_apply, find?_eq_some_iff.mpr he]
  rfl

/-- Tables are the same if their entries are. -/
theorem ext_of_entries {t u : Table β} (h : t.entries = u.entries) : t = u := by
  cases t
  cases u
  cases h
  rfl

/-- A table is determined by its names in order and by their values. -/
theorem ext_of_names {t u : Table β} (hnames : t.names = u.names)
    (hfind : ∀ name, t.find? name = u.find? name) : t = u := by
  have hsame : t.entries.map some = u.entries.map some := by
    rw [map_some_entries t, map_some_entries u, hnames]
    simp only [hfind]
  exact ext_of_entries ((Option.some_injective _).list_map hsame)

/-- Where one table is set over another, the names that are there keep their places, each with its
new value if it has one, and the others follow in their own order. -/
theorem entries_insertMany (t u : Table β) :
    (t.insertMany u.entries).entries =
      t.entries.map (fun e => (e.1, (u.find? e.1).getD e.2)) ++
        u.entries.filter fun e => (t.find? e.1).isNone := by
  have hfind (name : String) :
      (t.insertMany u.entries).find? name = (u.find? name).or (t.find? name) :=
    find?_insertMany u.distinct t name
  have hunlike : u.names.Pairwise fun a b => (b == a) = false :=
    u.distinct.imp fun h => beq_eq_false_iff_ne.mpr h.symm
  have hnew : u.names.filter (fun name => !t.names.any (name == ·)) =
      (u.entries.filter fun e => (t.find? e.1).isNone).map Prod.fst := by
    simp only [isNone_find?]
    exact List.filter_map
  apply (Option.some_injective _).list_map
  rw [map_some_entries, names_insertMany, ← names, firstNew_of_pairwise hunlike, hnew,
    List.map_append, List.map_append, names, List.map_map, List.map_map, List.map_map]
  congr 1
  · apply List.map_congr_left
    intro e he
    simp only [Function.comp_apply, hfind, find?_eq_some_iff.mpr he]
    cases u.find? e.1 <;> rfl
  · apply List.map_congr_left
    intro e he
    have hmem : e ∈ u.entries := List.mem_of_mem_filter he
    simp only [Function.comp_apply, hfind, find?_eq_some_iff.mpr hmem]
    rfl

/-- Setting the entries of a table one after the other gives the table. -/
@[simp]
theorem ofList_entries (t : Table β) : ofList t.entries = t := by
  have hempty : (∅ : Table β).entries = [] := rfl
  apply ext_of_entries
  rw [ofList, entries_insertMany]
  simp [hempty]

/-- Setting the same names again changes nothing, not even where a name is set repeatedly. -/
theorem insertMany_insertMany_self (t : Table β) (entries : List (String × β)) :
    (t.insertMany entries).insertMany entries = t.insertMany entries := by
  apply ext_of_names
  · have hthere : ∀ name ∈ entries.map Prod.fst,
        (t.insertMany entries).names.any (name == ·) = true := by
      intro name hname
      obtain ⟨e, he, rfl⟩ := List.mem_map.mp hname
      have hlast : (entries.reverse.lookup e.1).isSome = true := by
        rw [List.lookup_isSome_iff]
        exact ⟨e, List.mem_reverse.mpr he, beq_self_eq_true e.1⟩
      obtain ⟨v, hv⟩ := Option.isSome_iff_exists.mp hlast
      have hmem : e.1 ∈ (t.insertMany entries).names := by
        rw [mem_names_iff]
        exact ⟨v, by rw [find?_insertMany_eq_or, hv]; rfl⟩
      exact List.any_eq_true.mpr ⟨e.1, hmem, beq_self_eq_true e.1⟩
    rw [names_insertMany, firstNew_eq_nil hthere, List.append_nil]
  · intro name
    rw [find?_insertMany_eq_or, find?_insertMany_eq_or, ← Option.or_assoc, Option.or_self]

/-- A table agrees with itself. -/
theorem agrees_refl [DecidableEq β] (t : Table β) : t.agrees t = true := by
  simp only [agrees, beq_self_eq_true, Bool.true_and, List.all_eq_true, beq_iff_eq]
  intro e he
  exact find?_eq_some_iff.mpr he

end Table

end BuildLens
