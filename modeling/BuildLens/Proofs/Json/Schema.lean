import BuildLens.Json.Schema
import Mathlib.Data.List.Forall2

/-!
# What is read from JSON without a fault

A reading gives a result if no fault was noted in any of its parts. For each reader this says of
which values it is the result: the parts are read each without a fault, and nothing else is there.

Main definitions:

- `Json.Shows`, `Json.ShowsAll`, `Json.ShowsFields`: values that hold texts.

Main results:

- `Json.Reading.result_bind`: a reading after another one.
- `Json.result_readText`, `Json.result_readTexts`, `Json.result_readTextTable`: strings, arrays of
  strings, and objects whose values are strings.
- `Json.result_readField`, `Json.result_readFields`: a field that may be missing, and all fields of
  an object with free names.
- `Json.exists_rel_iff`: a field that has a usual value where it is missing.
- `Json.result_readRecord`: objects with given fields.
-/

namespace BuildLens.Json

variable {α β : Type}

namespace Reading

/-- A result is the value of a reading without faults. -/
theorem result_eq_ok_iff {r : Reading α} {a : α} :
    r.result = .ok a ↔ r.faults = [] ∧ r.value = a := by
  rw [result]
  cases r.faults <;> simp

@[simp]
theorem result_pure {a b : α} : (pure a : Reading α).result = .ok b ↔ a = b := by
  simp [result_eq_ok_iff, pure]

@[simp]
theorem result_fault {place : List Step} {kind : FaultKind} {instead a : α} :
    (fault place kind instead).result ≠ .ok a := by
  simp [result_eq_ok_iff, fault]

/-- A reading after another one gives a result if both do. -/
theorem result_bind {r : Reading α} {f : α → Reading β} {b : β} :
    (r >>= f).result = .ok b ↔ ∃ a, r.result = .ok a ∧ (f a).result = .ok b := by
  simp only [result_eq_ok_iff, bind, List.append_eq_nil_iff]
  constructor
  · rintro ⟨⟨hr, hf⟩, hb⟩
    exact ⟨r.value, ⟨hr, rfl⟩, hf, hb⟩
  · rintro ⟨a, ⟨hr, rfl⟩, hf, hb⟩
    exact ⟨⟨hr, hf⟩, hb⟩

end Reading

open Reading (result_bind)

variable {read : List Step → Json → Reading α} {place : List Step}

/-- The value is a string, and the text is what it shows. -/
inductive Shows : Json → String → Prop
  | string (s : String) : Shows (.string s) s
  | illFormed (rs : List Text.Rune) : Shows (.illFormed rs) (Text.rendered rs)

/-- A string shows itself, and nothing else. -/
@[simp]
theorem shows_string_iff {s s' : String} : Shows (.string s) s' ↔ s = s' := by
  constructor
  · rintro ⟨⟩
    rfl
  · rintro rfl
    exact .string s

@[simp]
theorem result_readText {j : Json} {s : String} :
    (readText place j).result = .ok s ↔ Shows j s := by
  constructor
  · intro h
    cases j with
    | string s' => exact Reading.result_pure.mp h ▸ .string s'
    | illFormed rs => exact Reading.result_pure.mp h ▸ .illFormed rs
    | _ => exact absurd h Reading.result_fault
  · rintro ⟨⟩ <;> exact Reading.result_pure.mpr rfl

theorem result_readItems {items : List Json} {index : Nat} {ss : List String} :
    (readItems place index items).result = .ok ss ↔ List.Forall₂ Shows items ss := by
  induction items generalizing index ss with
  | nil => cases ss <;> simp [readItems]
  | cons j items ih =>
    simp only [readItems, result_bind, result_readText, ih, Reading.result_pure,
      List.forall₂_cons_left_iff]
    constructor
    · rintro ⟨s, hs, more, hmore, rfl⟩
      exact ⟨s, more, hs, hmore, rfl⟩
    · rintro ⟨s, more, hs, hmore, rfl⟩
      exact ⟨s, hs, more, hmore, rfl⟩

/-- The value is an array of strings that show the texts. -/
def ShowsAll (j : Json) (ss : List String) : Prop :=
  ∃ items, j = .array items ∧ List.Forall₂ Shows items ss

@[simp]
theorem result_readTexts {j : Json} {ss : List String} :
    (readTexts place j).result = .ok ss ↔ ShowsAll j ss := by
  cases j <;> simp [readTexts, ShowsAll, result_readItems]

/-- Fields are read one by one, each under its own name. -/
theorem result_readFields {fields : List (String × Json)} {entries : List (String × α)} :
    (readFields read place fields).result = .ok entries ↔
      List.Forall₂ (fun f e => f.1 = e.1 ∧
        (read (place ++ [.field f.1]) f.2).result = .ok e.2) fields entries := by
  induction fields generalizing entries with
  | nil => cases entries <;> simp [readFields]
  | cons f fields ih =>
    obtain ⟨name, j⟩ := f
    simp only [readFields, result_bind, ih, Reading.result_pure]
    constructor
    · rintro ⟨v, hv, rest, hrest, rfl⟩
      exact .cons ⟨rfl, hv⟩ hrest
    · rintro (_ | @⟨_, ⟨_, v⟩, _, rest, ⟨rfl, hv⟩, hrest⟩)
      exact ⟨v, hv, rest, hrest, rfl⟩

theorem result_readTable {j : Json} {entries : List (String × α)} :
    (readTable read place j).result = .ok entries ↔
      ∃ fields, j = .object fields ∧ (readFields read place fields).result = .ok entries := by
  cases j <;> simp [readTable]

/-- The value is an object whose fields are strings that show the texts, each under its own name. -/
def ShowsFields (j : Json) (entries : List (String × String)) : Prop :=
  ∃ fields, j = .object fields ∧ List.Forall₂ (fun f e => f.1 = e.1 ∧ Shows f.2 e.2) fields entries

/-- A table of texts is read from the object with its entries. -/
theorem result_readTextTable {j : Json} {t : Table String} :
    (readTextTable place j).result = .ok t ↔
      ∃ entries, ShowsFields j entries ∧ Table.ofList entries = t := by
  simp only [readTextTable, result_bind, result_readTable, result_readFields, result_readText,
    Reading.result_pure, ShowsFields]

/-- A field that may be missing is read from its value, if there is one. -/
theorem result_readField {record : Json} {name : String} {v : Option α} :
    (readField read place record name).result = .ok v ↔
      Option.Rel (fun j a => (read (place ++ [.field name]) j).result = .ok a)
        (record.get? name) v := by
  rw [readField]
  cases record.get? name with
  | none => cases v <;> simp
  | some j =>
    cases v <;> simp [result_bind]

/-- Where a field that is missing has the same outcome as the usual value, it is as if that value
were there. -/
theorem exists_rel_iff {r : Json → α → Prop} {found : Option Json} {usual : Json} {f : Option α → β}
    {b : β} (husual : (∃ a, r usual a ∧ f (some a) = b) ↔ f none = b) :
    (∃ v, Option.Rel r found v ∧ f v = b) ↔ ∃ a, r (found.getD usual) a ∧ f (some a) = b := by
  cases found with
  | none => simp [Option.exists, husual]
  | some j => simp [Option.exists]

/-- An object with given fields is read field by field. -/
theorem result_readRecord {instead a : α} {readAll : Json → Reading α} {j : Json} :
    (readRecord instead readAll place j).result = .ok a ↔
      (∃ fields, j = .object fields) ∧ (readAll j).result = .ok a := by
  cases j <;> simp [readRecord]

end BuildLens.Json
