import BuildLens.Proofs.Json.Grammar
import BuildLens.Proofs.Json.Lexeme

/-!
# Documents of JSON

A document of JSON is a text of tokens, with blanks before, between and after them, and the tokens
make up one value. A text is read if and only if it is a document, and then as the value that it is.
That a reader takes as many characters for a number as it can makes no difference: no number stands
next to another one in a document.

Main definitions:

- `Json.Spells`: a text and the tokens in it.
- `Json.Document`: a text and the value that it is.

Main results:

- `Json.exists_spells`, `Json.Spells.run`: the tokens that a reader finds in a text.
- `Json.parse_eq_ok_iff`: a text is read if and only if it is a document.
-/

namespace BuildLens.Json

variable {limits : Limits} {cs rest : List Char} {ts : List Token} {t : Token}

/-- The text is made of the tokens, with blanks before, between and after them. -/
inductive Spells (limits : Limits) : List Char → List Token → Prop
  | blanks {b : List Char} (hb : ∀ c ∈ b, isSpace c = true) : Spells limits b []
  | token {b w rest : List Char} {t : Token} {ts : List Token} (hb : ∀ c ∈ b, isSpace c = true)
    (hw : Lexeme limits w t) (h : Spells limits rest ts) :
    Spells limits (b ++ (w ++ rest)) (t :: ts)

/-- The text is a document that is the value: tokens that make it up. No more arrays and objects lie
in one another than may be open at a time. -/
def Document (limits : Limits) (cs : List Char) (v : Json) : Prop :=
  ∃ ts, Spells limits cs ts ∧ Stands limits.nesting ts (.value v) []

/-! ## Tokens in front of others -/

/-- A token begins with a character that is no blank. -/
theorem Lexeme.exists_head {w : List Char} (h : Lexeme limits w t) :
    ∃ c more, w = c :: more ∧ isSpace c = false := by
  cases h with
  | @mark c t h =>
    refine ⟨c, [], rfl, ?_⟩
    fin_cases h <;> rfl
  | string h => exact ⟨'"', _, rfl, rfl⟩
  | word h =>
    fin_cases h <;> exact ⟨_, _, rfl, rfl⟩
  | number hsign h =>
    rcases hsign with rfl | rfl
    · obtain ⟨c, more, rfl, hc⟩ := h.isWhole.exists_digit
      refine ⟨c, _, rfl, ?_⟩
      rw [← Bool.not_eq_true, isSpace_iff]
      rintro (rfl | rfl | rfl | rfl) <;> cases hc
    · exact ⟨'-', _, rfl, rfl⟩

/-- A mark that may stand behind a value. -/
def Token.follows : Token → Bool
  | .comma | .closeArray | .closeObject => true
  | _ => false

theorem Lexeme.ended {w : List Char} (h : Lexeme limits w t) (ht : t.follows = true)
    (rest : List Char) : Ended (w ++ rest) := by
  cases h with
  | mark h =>
    fin_cases h <;> first | exact lacks_cons.mpr rfl | cases ht
  | _ => cases ht

theorem ended_of_blank {c : Char} (hc : isSpace c = true) (cs : List Char) : Ended (c :: cs) :=
  lacks_cons.mpr (by simp [hc])

/-- Behind a text of tokens that begins with a mark that may stand behind a value, or is blank, a
token ends. -/
theorem Spells.ended (h : Spells limits cs ts) (hfollows : ∀ t ∈ ts.head?, t.follows = true) :
    Ended cs := by
  cases h with
  | blanks hb =>
    cases cs with
    | nil => exact fun c hc => nomatch hc
    | cons c b => exact ended_of_blank (hb c List.mem_cons_self) b
  | @token b w rest t ts hb hw h =>
    cases b with
    | nil => exact hw.ended (hfollows t rfl) rest
    | cons c b => exact ended_of_blank (hb c List.mem_cons_self) _

/-! ## Reading a text of tokens -/

namespace State

variable {s s' : State} {v j : Json}

theorem take_longNumber_ne_ok (n : Nat) : s.take limits (.longNumber n) ≠ .ok s' := by
  obtain ⟨d, stack, place⟩ := s
  cases place with
  | after v =>
    intro h
    rcases stack with _ | ⟨_ | _, stack⟩ <;> cases h
  | _ => nofun

theorem place_of_take_scalar (h : s.take limits (.scalar v) = .ok s') : s'.place = .after v := by
  obtain ⟨d, stack, place⟩ := s
  cases place with
  | value =>
    cases h
    rfl
  | firstItem =>
    cases h
    rfl
  | after v =>
    rcases stack with _ | ⟨_ | _, stack⟩ <;> cases h
  | _ => cases h

/-- What the machine takes behind a value is a mark that may stand there. -/
theorem follows_of_finish (hs : s.place = .after v) (h : s.finish limits ts = .ok j) :
    ∀ t ∈ ts.head?, t.follows = true := by
  intro t ht
  obtain ⟨more, rfl⟩ := List.head?_eq_some_iff.mp ht
  obtain ⟨s', hs', -⟩ := finish_cons_eq_ok_iff.mp h
  obtain ⟨d, stack, place⟩ := s
  obtain rfl : place = .after v := hs
  rcases stack with _ | ⟨_ | _, stack⟩ <;> cases t <;> first | rfl | cases hs'

/-- The tokens that a reader finds in a text. -/
theorem exists_spells {fuel : Nat} (h : run limits fuel s cs = .ok j) :
    ∃ ts, Spells limits cs ts ∧ s.finish limits ts = .ok j := by
  induction fuel generalizing s cs with
  | zero => cases h
  | succ fuel ih =>
    have hblank : ∀ c ∈ cs.takeWhile isSpace, isSpace c = true := fun c hc =>
      List.mem_takeWhile_imp hc
    have hsplit : cs = cs.takeWhile isSpace ++ cs.dropWhile isSpace :=
      List.takeWhile_append_dropWhile.symm
    rw [run] at h
    split at h
    · next hnil =>
      rw [hnil, List.append_nil] at hsplit
      exact ⟨[], hsplit ▸ .blanks hblank, h⟩
    · split at h
      · cases h
      · next t rest htoken =>
        split at h
        · cases h
        · next s' hs' =>
          have hlong (n : Nat) : t ≠ .longNumber n := by
            rintro rfl
            exact take_longNumber_ne_ok n hs'
          obtain ⟨w, hcs, hw⟩ := exists_lexeme htoken hlong
          obtain ⟨ts, hspells, hfinish⟩ := ih h
          refine ⟨t :: ts, ?_, finish_cons_eq_ok_iff.mpr ⟨s', hs', hfinish⟩⟩
          rw [hsplit, hcs]
          exact .token hblank hw hspells

end State

/-- A reader finds the tokens of which a text is made, if the machine takes them. -/
theorem Spells.run (h : Spells limits cs ts) {s : State} {j : Json} {fuel : Nat}
    (hfuel : cs.length < fuel) (hfinish : s.finish limits ts = .ok j) :
    State.run limits fuel s cs = .ok j := by
  induction h generalizing s fuel with
  | @blanks b hb =>
    obtain ⟨fuel, rfl⟩ := Nat.exists_eq_add_of_lt hfuel
    rw [State.run, List.dropWhile_eq_nil_iff.mpr hb]
    exact hfinish
  | @token b w rest t ts hb hw h ih =>
    obtain ⟨fuel, rfl⟩ := Nat.exists_eq_add_of_lt hfuel
    obtain ⟨s', hs', hbehind⟩ := State.finish_cons_eq_ok_iff.mp hfinish
    -- What follows a value is a mark, so that the reader stops behind the value.
    have hended : (∃ v, t = .scalar v) → Ended rest := by
      rintro ⟨v, rfl⟩
      exact h.ended (State.follows_of_finish (State.place_of_take_scalar hs') hbehind)
    have htoken := hw.token?_append hended
    obtain ⟨c, more, rfl, hc⟩ := hw.exists_head
    have hdrop : (b ++ (c :: more ++ rest)).dropWhile isSpace = c :: (more ++ rest) := by
      rw [List.dropWhile_append_of_pos hb, List.cons_append, List.dropWhile_cons, hc]
      rfl
    rw [List.cons_append] at htoken
    rw [State.run, hdrop]
    dsimp only
    rw [htoken]
    dsimp only
    rw [hs']
    refine ih ?_ hbehind
    simp only [List.length_append, List.length_cons]
    omega

/-- A text is read if and only if it is a document, and as the value that it is. -/
theorem parse_eq_ok_iff {v : Json} :
    parse limits (String.ofList cs) = .ok v ↔ Document limits cs v := by
  rw [parse, String.toList_ofList, String.length_ofList]
  constructor
  · intro h
    obtain ⟨ts, hspells, hfinish⟩ := State.exists_spells h
    exact ⟨ts, hspells, State.finish_eq_ok_iff.mp hfinish⟩
  · rintro ⟨ts, hspells, hstands⟩
    exact hspells.run (Nat.lt_succ_self _) (State.finish_eq_ok_iff.mpr hstands)

/-- A document is one value. -/
theorem Document.unique {v v' : Json} (h : Document limits cs v)
    (h' : Document limits cs v') : v = v' :=
  Except.ok.inj ((parse_eq_ok_iff.mpr h).symm.trans (parse_eq_ok_iff.mpr h'))

end BuildLens.Json
