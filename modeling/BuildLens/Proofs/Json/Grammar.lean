import BuildLens.Json.Reader

/-!
# The grammar of JSON tokens

A text of JSON is a row of tokens that makes up one value. The grammar says which rows those are,
without a word on how they are read: each phrase stands at the front of a row and leaves the rest of
it. It counts how deep arrays and objects lie in one another. The machine that reads tokens agrees
with the grammar, in both directions: it takes a row if and only if the row is one value that is not
too deep, and then it gives that value.

Main definitions:

- `Json.Phrase`, `Json.Stands`: the phrases of the grammar, and the rows at whose front they stand.
- `Json.State.finish`: the machine on a row of tokens.

Main results:

- `Json.Stands.finish`: what the grammar derives, the machine takes.
- `Json.State.exists_stands`: what the machine takes, the grammar derives.
- `Json.State.finish_eq_ok_iff`: rows that are one value.
-/

namespace BuildLens.Json

open Text (Rune)

variable {limits : Limits}

/-- An object by its fields as they are written. Of fields with one name the last counts, in the
place of the first. -/
def putFields (known : List (String × Json)) (fields : List (List Rune × Json)) :
    List (String × Json) :=
  fields.foldl (fun known f => putField known f.1 f.2) known

/-- A phrase of the grammar: a value, or the items of an array or the fields of an object, one at
least, and its end. -/
inductive Phrase where
  | value (v : Json)
  | items (vs : List Json)
  | fields (fs : List (List Rune × Json))

/-- The phrase stands at the front of the first row of tokens, and the second row is the rest. At
most `n` arrays and objects lie in one another in it. -/
inductive Stands : (n : Nat) → List Token → Phrase → List Token → Prop
  | scalar (n : Nat) (v : Json) (rest : List Token) :
    Stands n (.scalar v :: rest) (.value v) rest
  | string (n : Nat) (cs : List Rune) (rest : List Token) :
    Stands n (.string cs :: rest) (.value (.ofRunes cs)) rest
  | emptyArray (n : Nat) (rest : List Token) :
    Stands (n + 1) (.openArray :: .closeArray :: rest) (.value (.array [])) rest
  | array {n : Nat} {ts rest : List Token} {vs : List Json} (h : Stands n ts (.items vs) rest) :
    Stands (n + 1) (.openArray :: ts) (.value (.array vs)) rest
  | emptyObject (n : Nat) (rest : List Token) :
    Stands (n + 1) (.openObject :: .closeObject :: rest) (.value (.object [])) rest
  | object {n : Nat} {ts rest : List Token} {fs : List (List Rune × Json)}
    (h : Stands n ts (.fields fs) rest) :
    Stands (n + 1) (.openObject :: ts) (.value (.object (putFields [] fs))) rest
  | lastItem {n : Nat} {ts rest : List Token} {v : Json}
    (h : Stands n ts (.value v) (.closeArray :: rest)) : Stands n ts (.items [v]) rest
  | item {n : Nat} {ts more rest : List Token} {v : Json} {vs : List Json}
    (h : Stands n ts (.value v) (.comma :: more)) (hmore : Stands n more (.items vs) rest) :
    Stands n ts (.items (v :: vs)) rest
  | lastField {n : Nat} {ts rest : List Token} {name : List Rune} {v : Json}
    (h : Stands n ts (.value v) (.closeObject :: rest)) :
    Stands n (.string name :: .colon :: ts) (.fields [(name, v)]) rest
  | field {n : Nat} {ts more rest : List Token} {name : List Rune} {v : Json}
    {fs : List (List Rune × Json)} (h : Stands n ts (.value v) (.comma :: more))
    (hmore : Stands n more (.fields fs) rest) :
    Stands n (.string name :: .colon :: ts) (.fields ((name, v) :: fs)) rest

namespace State

variable {s s' : State} {t : Token} {ts : List Token} {j : Json}

/-- The machine takes a row of tokens, and then the text ends. -/
def finish (limits : Limits) (s : State) : List Token → Except ReadError Json
  | [] => s.result
  | t :: ts =>
    match s.take limits t with
    | .error e => .error e
    | .ok s => s.finish limits ts

/-- A token that is taken leads on to the rest. -/
theorem finish_cons_of_ok (h : s.take limits t = .ok s') :
    s.finish limits (t :: ts) = s'.finish limits ts := by
  rw [finish, h]

/-- A value is read if the first token is taken and then the rest is read. -/
theorem finish_cons_eq_ok_iff :
    s.finish limits (t :: ts) = .ok j ↔
      ∃ s', s.take limits t = .ok s' ∧ s'.finish limits ts = .ok j := by
  rw [finish]
  cases h : s.take limits t <;> simp

/-- What the machine does with a phrase at the front of a row. -/
def Takes (limits : Limits) (n : Nat) (ts : List Token) : Phrase → List Token → Prop
  | .value v, rest => ∀ d stack, d + n ≤ limits.nesting →
    finish limits ⟨d, stack, .value⟩ ts = finish limits ⟨d, stack, .after v⟩ rest
  | .items vs, rest => ∀ d stack items, d + n ≤ limits.nesting →
    finish limits ⟨d, .array items :: stack, .value⟩ ts =
      finish limits ⟨d - 1, stack, .after (.array (items.reverse ++ vs))⟩ rest
  | .fields fs, rest => ∀ d stack known, d + n ≤ limits.nesting →
    finish limits ⟨d, stack, .name known⟩ ts =
      finish limits ⟨d - 1, stack, .after (.object (putFields known fs))⟩ rest

end State

/-- An array does not end where a value or an item has to stand. -/
theorem Stands.head_ne_closeArray {n : Nat} {ts rest : List Token} {p : Phrase}
    (h : Stands n ts p rest) : ts.head? ≠ some .closeArray := by
  induction h with
  | lastItem h ih => exact ih
  | item h hmore ih _ => exact ih
  | _ => nofun

/-- Without the end of the array its first item is a value. -/
theorem State.finish_firstItem {d : Nat} {stack : List Pending} {ts : List Token}
    (h : ts.head? ≠ some .closeArray) :
    finish limits ⟨d, stack, .firstItem⟩ ts = finish limits ⟨d, stack, .value⟩ ts := by
  cases ts with
  | nil => cases stack <;> rfl
  | cons t ts => cases t <;> first | rfl | exact absurd rfl h

/-- Without the end of the object its first name is a name. -/
theorem State.finish_firstName {d : Nat} {stack : List Pending} {ts : List Token}
    (h : ts.head? ≠ some .closeObject) :
    finish limits ⟨d, stack, .firstName⟩ ts = finish limits ⟨d, stack, .name []⟩ ts := by
  cases ts with
  | nil => cases stack <;> rfl
  | cons t ts => cases t <;> first | rfl | exact absurd rfl h

/-- Fields do not begin with the end of an object. -/
theorem Stands.head_ne_closeObject {n : Nat} {ts rest : List Token}
    {fs : List (List Rune × Json)} (h : Stands n ts (.fields fs) rest) :
    ts.head? ≠ some .closeObject := by
  cases h <;> nofun

/-- An array is entered if so much may be open. -/
theorem State.take_openArray {d : Nat} {stack : List Pending} (h : d < limits.nesting) :
    take limits ⟨d, stack, .value⟩ .openArray = .ok ⟨d + 1, .array [] :: stack, .firstItem⟩ :=
  if_pos h

/-- An object is entered if so much may be open. -/
theorem State.take_openObject {d : Nat} {stack : List Pending} (h : d < limits.nesting) :
    take limits ⟨d, stack, .value⟩ .openObject = .ok ⟨d + 1, stack, .firstName⟩ :=
  if_pos h

/-- What the grammar derives, the machine takes. -/
theorem Stands.takes {n : Nat} {ts rest : List Token} {p : Phrase} (h : Stands n ts p rest) :
    State.Takes limits n ts p rest := by
  induction h with
  | scalar n v rest => exact fun d stack _ => rfl
  | string n cs rest => exact fun d stack _ => rfl
  | emptyArray n rest =>
    intro d stack hd
    rw [State.finish_cons_of_ok (State.take_openArray (by omega))]
    exact State.finish_cons_of_ok rfl
  | array h ih =>
    intro d stack hd
    rw [State.finish_cons_of_ok (State.take_openArray (by omega)),
      State.finish_firstItem h.head_ne_closeArray]
    exact ih (d + 1) stack [] (by omega)
  | emptyObject n rest =>
    intro d stack hd
    rw [State.finish_cons_of_ok (State.take_openObject (by omega))]
    exact State.finish_cons_of_ok rfl
  | object h ih =>
    intro d stack hd
    rw [State.finish_cons_of_ok (State.take_openObject (by omega)),
      State.finish_firstName h.head_ne_closeObject]
    exact ih (d + 1) stack [] (by omega)
  | lastItem h ih =>
    intro d stack items hd
    rw [ih d _ hd, State.finish_cons_of_ok rfl]
    simp [State.leave]
  | item h hmore ih ihmore =>
    intro d stack items hd
    rw [ih d _ hd, State.finish_cons_of_ok rfl]
    exact (ihmore d stack (_ :: items) hd).trans (by simp)
  | lastField h ih =>
    intro d stack known hd
    rw [State.finish_cons_of_ok rfl, State.finish_cons_of_ok rfl, ih d _ hd,
      State.finish_cons_of_ok rfl]
    rfl
  | field h hmore ih ihmore =>
    intro d stack known hd
    rw [State.finish_cons_of_ok rfl, State.finish_cons_of_ok rfl, ih d _ hd,
      State.finish_cons_of_ok rfl]
    exact ihmore d stack _ hd

/-! ## What the machine takes -/

namespace State

variable {ts : List Token}

/-- Where a value has to stand in a row that the machine takes, one stands. -/
def GivesValue (limits : Limits) (ts : List Token) : Prop :=
  ∀ d stack j, d ≤ limits.nesting → finish limits ⟨d, stack, .value⟩ ts = .ok j →
    ∃ v rest, Stands (limits.nesting - d) ts (.value v) rest ∧ rest.length < ts.length ∧
      finish limits ⟨d, stack, .after v⟩ rest = .ok j

/-- Where items have to stand in a row that the machine takes, they stand. -/
def GivesItems (limits : Limits) (ts : List Token) : Prop :=
  ∀ d stack items j, d ≤ limits.nesting →
    finish limits ⟨d, .array items :: stack, .value⟩ ts = .ok j →
    ∃ vs rest, Stands (limits.nesting - d) ts (.items vs) rest ∧ rest.length < ts.length ∧
      finish limits ⟨d - 1, stack, .after (.array (items.reverse ++ vs))⟩ rest = .ok j

/-- Where fields have to stand in a row that the machine takes, they stand. -/
def GivesFields (limits : Limits) (ts : List Token) : Prop :=
  ∀ d stack known j, d ≤ limits.nesting → finish limits ⟨d, stack, .name known⟩ ts = .ok j →
    ∃ fs rest, Stands (limits.nesting - d) ts (.fields fs) rest ∧ rest.length < ts.length ∧
      finish limits ⟨d - 1, stack, .after (.object (putFields known fs))⟩ rest = .ok j

/-- Without a value the text may not end. -/
theorem finish_nil_ne_ok {d : Nat} {stack : List Pending} {place : Place} {j : Json}
    (h : ∀ v, place ≠ .after v) : finish limits ⟨d, stack, place⟩ [] ≠ .ok j := by
  intro hj
  cases place with
  | after v => exact h v rfl
  | _ => cases stack <;> cases hj

/-- What may follow an item. -/
theorem finish_after_item {d : Nat} {stack : List Pending} {items : List Json} {v j : Json}
    (h : finish limits ⟨d, .array items :: stack, .after v⟩ ts = .ok j) :
    (∃ rest, ts = .closeArray :: rest ∧
        finish limits ⟨d - 1, stack, .after (.array (v :: items).reverse)⟩ rest = .ok j) ∨
      ∃ more, ts = .comma :: more ∧
        finish limits ⟨d, .array (v :: items) :: stack, .value⟩ more = .ok j := by
  cases ts with
  | nil => cases h
  | cons t ts =>
    obtain ⟨s', hs', h⟩ := finish_cons_eq_ok_iff.mp h
    cases t with
    | closeArray =>
      cases hs'
      exact .inl ⟨ts, rfl, h⟩
    | comma =>
      cases hs'
      exact .inr ⟨ts, rfl, h⟩
    | _ => cases hs'

/-- What may follow the value of a field. -/
theorem finish_after_field {d : Nat} {stack : List Pending} {known : List (String × Json)}
    {name : List Rune} {v j : Json}
    (h : finish limits ⟨d, .object known name :: stack, .after v⟩ ts = .ok j) :
    (∃ rest, ts = .closeObject :: rest ∧
        finish limits ⟨d - 1, stack, .after (.object (putField known name v))⟩ rest = .ok j) ∨
      ∃ more, ts = .comma :: more ∧
        finish limits ⟨d, stack, .name (putField known name v)⟩ more = .ok j := by
  cases ts with
  | nil => cases h
  | cons t ts =>
    obtain ⟨s', hs', h⟩ := finish_cons_eq_ok_iff.mp h
    cases t with
    | closeObject =>
      cases hs'
      exact .inl ⟨ts, rfl, h⟩
    | comma =>
      cases hs'
      exact .inr ⟨ts, rfl, h⟩
    | _ => cases hs'

/-- Fields begin with a name and a colon. -/
theorem finish_name {d : Nat} {stack : List Pending} {known : List (String × Json)} {j : Json}
    (h : finish limits ⟨d, stack, .name known⟩ ts = .ok j) :
    ∃ name more, ts = .string name :: .colon :: more ∧
      finish limits ⟨d, .object known name :: stack, .value⟩ more = .ok j := by
  cases ts with
  | nil => exact absurd h (finish_nil_ne_ok nofun)
  | cons t ts =>
    obtain ⟨s', hs', h⟩ := finish_cons_eq_ok_iff.mp h
    cases t with
    | string name =>
      cases hs'
      cases ts with
      | nil => exact absurd h (finish_nil_ne_ok nofun)
      | cons t ts =>
        obtain ⟨s', hs', h⟩ := finish_cons_eq_ok_iff.mp h
        cases t with
        | colon =>
          cases hs'
          exact ⟨name, ts, rfl, h⟩
        | _ => cases hs'
    | _ => cases hs'

/-- What is entered goes one deeper. -/
theorem lt_of_enter {s s' : State} {c : Container} {stack : List Pending} {place : Place}
    (h : s.enter limits c stack place = .ok s') :
    s.depth < limits.nesting ∧ s' = ⟨s.depth + 1, stack, place⟩ := by
  rw [enter] at h
  split at h
  · next hlt => exact ⟨hlt, (Except.ok.inj h).symm⟩
  · cases h

/-- Items are read as they stand if values are. -/
theorem givesItems_of_value (hvalue : GivesValue limits ts)
    (ih : ∀ ts' : List Token, ts'.length < ts.length → GivesItems limits ts') :
    GivesItems limits ts := by
  intro d stack items j hd h
  obtain ⟨v, rest, hstands, hlt, h⟩ := hvalue d _ j hd h
  rcases finish_after_item h with ⟨behind, rfl, h⟩ | ⟨more, rfl, h⟩
  · rw [List.length_cons] at hlt
    refine ⟨[v], behind, .lastItem hstands, by omega, ?_⟩
    rw [← List.reverse_cons]
    exact h
  · rw [List.length_cons] at hlt
    obtain ⟨vs, behind, hmore, hshort, h⟩ := ih more (by omega) d stack (v :: items) j hd h
    refine ⟨v :: vs, behind, .item hstands hmore, by omega, ?_⟩
    rw [List.reverse_cons, List.append_assoc] at h
    exact h

/-- Fields are read as they stand if values of shorter texts are. -/
theorem givesFields_of_lt
    (hvalue : ∀ ts' : List Token, ts'.length < ts.length → GivesValue limits ts')
    (ih : ∀ ts' : List Token, ts'.length < ts.length → GivesFields limits ts') :
    GivesFields limits ts := by
  intro d stack known j hd h
  obtain ⟨name, ts, rfl, h⟩ := finish_name h
  simp only [List.length_cons] at hvalue ih ⊢
  obtain ⟨v, rest, hstands, hlt, h⟩ := hvalue ts (by omega) d _ j hd h
  rcases finish_after_field h with ⟨behind, rfl, h⟩ | ⟨more, rfl, h⟩
  · rw [List.length_cons] at hlt
    exact ⟨[(name, v)], behind, .lastField hstands, by omega, h⟩
  · rw [List.length_cons] at hlt
    obtain ⟨fs, behind, hmore, hshort, h⟩ := ih more (by omega) d stack _ j hd h
    exact ⟨(name, v) :: fs, behind, .field hstands hmore, by omega, h⟩

/-- A value is read as it stands if items and fields of shorter texts are. -/
theorem givesValue_of_lt
    (hitems : ∀ ts' : List Token, ts'.length < ts.length → GivesItems limits ts')
    (hfields : ∀ ts' : List Token, ts'.length < ts.length → GivesFields limits ts') :
    GivesValue limits ts := by
  intro d stack j hd h
  cases ts with
  | nil => exact absurd h (finish_nil_ne_ok nofun)
  | cons t ts =>
    have hshort : ts.length < (t :: ts).length := Nat.lt_succ_self _
    obtain ⟨s', hs', h⟩ := finish_cons_eq_ok_iff.mp h
    have hdepth (hlt : d < limits.nesting) :
        limits.nesting - d = limits.nesting - (d + 1) + 1 := by omega
    cases t with
    | scalar v =>
      cases hs'
      exact ⟨v, ts, .scalar _ v ts, hshort, h⟩
    | string cs =>
      cases hs'
      exact ⟨.ofRunes cs, ts, .string _ cs ts, hshort, h⟩
    | openArray =>
      obtain ⟨hlt, rfl⟩ := lt_of_enter hs'
      change d < limits.nesting at hlt
      rw [hdepth hlt]
      by_cases hclose : ts.head? = some .closeArray
      · obtain ⟨rest, rfl⟩ := List.head?_eq_some_iff.mp hclose
        rw [List.length_cons] at hshort
        exact ⟨.array [], rest, .emptyArray _ rest, by omega, h⟩
      · rw [finish_firstItem hclose] at h
        obtain ⟨vs, rest, hstands, hrest, h⟩ := hitems ts hshort (d + 1) stack [] j hlt h
        exact ⟨.array vs, rest, .array hstands, Nat.lt_trans hrest hshort, h⟩
    | openObject =>
      obtain ⟨hlt, rfl⟩ := lt_of_enter hs'
      change d < limits.nesting at hlt
      rw [hdepth hlt]
      by_cases hclose : ts.head? = some .closeObject
      · obtain ⟨rest, rfl⟩ := List.head?_eq_some_iff.mp hclose
        rw [List.length_cons] at hshort
        exact ⟨.object [], rest, .emptyObject _ rest, by omega, h⟩
      · rw [finish_firstName hclose] at h
        obtain ⟨fs, rest, hstands, hrest, h⟩ := hfields ts hshort (d + 1) stack [] j hlt h
        exact ⟨.object (putFields [] fs), rest, .object hstands, Nat.lt_trans hrest hshort, h⟩
    | _ => cases hs'

/-- What the machine takes, the grammar derives. The induction is on the length of the row: a value
has its parts behind its first token, and what follows a part is behind the part. -/
theorem exists_stands (limits : Limits) (ts : List Token) :
    GivesValue limits ts ∧ GivesItems limits ts ∧ GivesFields limits ts := by
  induction hn : ts.length using Nat.strongRecOn generalizing ts with
  | ind n ih =>
    have hless (ts' : List Token) (h : ts'.length < ts.length) := ih _ (hn ▸ h) ts' rfl
    have hvalue : GivesValue limits ts :=
      givesValue_of_lt (fun ts' h => (hless ts' h).2.1) fun ts' h => (hless ts' h).2.2
    exact ⟨hvalue, givesItems_of_value hvalue fun ts' h => (hless ts' h).2.1,
      givesFields_of_lt (fun ts' h => (hless ts' h).1) fun ts' h => (hless ts' h).2.2⟩

/-- The machine takes a row from the start if and only if it is one value that is not too deep. -/
theorem finish_eq_ok_iff {j : Json} :
    finish limits {} ts = .ok j ↔ Stands limits.nesting ts (.value j) [] := by
  constructor
  · intro h
    obtain ⟨v, rest, hstands, -, h⟩ := (exists_stands limits ts).1 0 [] j (Nat.zero_le _) h
    cases rest with
    | nil =>
      cases h
      exact hstands
    | cons t rest =>
      obtain ⟨s', hs', -⟩ := finish_cons_eq_ok_iff.mp h
      cases hs'
  · intro h
    exact h.takes 0 [] (by omega)

end State

end BuildLens.Json
