/-!
# Tables in order of insertion

Variables, macros and environments are tables from names to values. The order in which names were
first set is kept, since it shows in what is written from them; setting a name again replaces its
value in place.

Main definitions:

- `putEntry`, `dropEntry`: the operations on lists of pairs.
- `Table`: a list of pairs in which no name occurs twice.
- `Table.insert`, `Table.erase`, `Table.find?`, `Table.insertMany`: the operations on tables.

Main results:

- `find?_insert`, `find?_erase`: what is found after a change.
-/

namespace BuildLens

variable {β : Type}

/-- Sets a name: a name that is there keeps its place, a new one comes last. -/
def putEntry (entries : List (String × β)) (name : String) (v : β) : List (String × β) :=
  match entries with
  | [] => [(name, v)]
  | (n, w) :: rest => if n = name then (n, v) :: rest else (n, w) :: putEntry rest name v

/-- Removes a name. -/
def dropEntry (entries : List (String × β)) (name : String) : List (String × β) :=
  entries.filter fun e => e.1 ≠ name

theorem mem_map_fst_putEntry {entries : List (String × β)} {name n : String} {v : β} :
    n ∈ (putEntry entries name v).map Prod.fst ↔ n = name ∨ n ∈ entries.map Prod.fst := by
  induction entries with
  | nil => simp [putEntry]
  | cons e rest ih =>
    rw [putEntry]
    split
    · next h =>
      simp only [List.map_cons, List.mem_cons, h]
      exact ⟨Or.inr, fun h' => h'.elim Or.inl id⟩
    · simp only [List.map_cons, List.mem_cons, ih]
      exact or_left_comm

theorem nodup_putEntry {entries : List (String × β)} {name : String} {v : β}
    (h : (entries.map Prod.fst).Nodup) : ((putEntry entries name v).map Prod.fst).Nodup := by
  induction entries with
  | nil => simp [putEntry]
  | cons e rest ih =>
    rw [List.map_cons, List.nodup_cons] at h
    rw [putEntry]
    split
    · rw [List.map_cons, List.nodup_cons]; exact h
    · next hne =>
      rw [List.map_cons, List.nodup_cons, mem_map_fst_putEntry, not_or]
      exact ⟨⟨hne, h.1⟩, ih h.2⟩

theorem nodup_dropEntry {entries : List (String × β)} {name : String}
    (h : (entries.map Prod.fst).Nodup) : ((dropEntry entries name).map Prod.fst).Nodup :=
  h.sublist ((List.filter_sublist).map _)

/-- A table from names to values, in the order in which the names were first set. -/
structure Table (β : Type) where
  entries : List (String × β)
  distinct : (entries.map Prod.fst).Nodup
deriving DecidableEq

namespace Table

/-- The table without names. -/
def empty : Table β := ⟨[], List.nodup_nil⟩

instance : EmptyCollection (Table β) := ⟨empty⟩

instance : Inhabited (Table β) := ⟨empty⟩

instance [Repr β] : Repr (Table β) where
  reprPrec t _ := repr t.entries

/-- The value of a name. -/
def find? (t : Table β) (name : String) : Option β := t.entries.lookup name

/-- Sets the value of a name. -/
def insert (t : Table β) (name : String) (v : β) : Table β :=
  ⟨putEntry t.entries name v, nodup_putEntry t.distinct⟩

/-- Removes a name. -/
def erase (t : Table β) (name : String) : Table β :=
  ⟨dropEntry t.entries name, nodup_dropEntry t.distinct⟩

/-- Sets names one after the other. -/
def insertMany (t : Table β) (entries : List (String × β)) : Table β :=
  entries.foldl (fun t e => t.insert e.1 e.2) t

/-- The table of the entries of a list; of entries with one name the last counts. -/
def ofList (entries : List (String × β)) : Table β := insertMany ∅ entries

/-- The names in order. -/
def names (t : Table β) : List String := t.entries.map Prod.fst

/-- The number of names. -/
def size (t : Table β) : Nat := t.entries.length

/-- Whether there are no names. -/
def isEmpty (t : Table β) : Bool := t.entries.isEmpty

/-- Whether the tables give the same names the same values, in any order. -/
def agrees [DecidableEq β] (t u : Table β) : Bool :=
  t.size == u.size && t.entries.all fun e => u.find? e.1 == some e.2

theorem find?_insert (t : Table β) (name n : String) (v : β) :
    (t.insert name v).find? n = if n = name then some v else t.find? n := by
  rcases t with ⟨entries, h⟩
  simp only [insert, find?]
  clear h
  induction entries with
  | nil =>
    rw [putEntry, List.lookup_cons, List.lookup_nil]
    split <;> simp_all
  | cons e rest ih =>
    rw [putEntry]
    split
    · next he =>
      subst he
      rw [List.lookup_cons, List.lookup_cons]
      split <;> simp_all
    · next he =>
      rw [List.lookup_cons, List.lookup_cons, ih]
      split
      · next hn => simp only [beq_iff_eq] at hn; subst hn; rw [if_neg he]
      · rfl

theorem find?_erase (t : Table β) (name n : String) :
    (t.erase name).find? n = if n = name then none else t.find? n := by
  rcases t with ⟨entries, h⟩
  simp only [erase, find?, dropEntry]
  clear h
  induction entries with
  | nil => simp
  | cons e rest ih =>
    rw [List.filter_cons, List.lookup_cons]
    split
    · next he =>
      rw [List.lookup_cons, ih]
      split
      · next hn => simp only [beq_iff_eq] at hn; subst hn; simp at he; rw [if_neg he]
      · rfl
    · next he =>
      rw [ih]
      simp at he
      subst he
      split
      · rfl
      · next hn => simp [beq_eq_false_iff_ne.2 hn]

end Table

end BuildLens
