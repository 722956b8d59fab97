import BuildLens.Inquiry.World
import Mathlib

/-!
# How inquiries end

Whoever answers the requests of an inquiry decides how it ends. Given which replies are possible,
the possible endings follow from the inquiry alone: those of a sequence of inquiries from those of
its parts. Fragments that are kept in memory may hold anything.

Main definitions:

- `Replies`: the replies that are possible.
- `Inquiry.MayEnd`: the endings that are possible.

Main results:

- `Inquiry.mayEnd_bind`: the endings of one inquiry after another.
- `Inquiry.mayEnd_conduct`: when requests are answered as they come, the inquiry ends in one of its
  endings.
- `Inquiry.settle_cases`, `Inquiry.mayEnd_of_settle`: going on with what is kept in memory adds no
  endings.
-/

namespace BuildLens

@[simp]
theorem Except.mapError_eq_ok {ε ε' α : Type} {f : ε → ε'} {x : Except ε α} {a : α} :
    x.mapError f = .ok a ↔ x = .ok a := by
  cases x <;> simp [Except.mapError]

@[simp]
theorem Except.ok_eq_mapError {ε ε' α : Type} {f : ε → ε'} {x : Except ε α} {a : α} :
    .ok a = x.mapError f ↔ x = .ok a := by
  rw [eq_comm, mapError_eq_ok]

/-- The replies that are possible. -/
abbrev Replies := (q : Request) → q.Reply → Prop

/-- Every reply is possible. -/
def Replies.all : Replies := fun _ _ => True

namespace Inquiry

variable {α β ε : Type} {R : Replies}

/-- The inquiry can end so if its requests get possible replies. Any fragments may be kept. -/
inductive MayEnd (R : Replies) : Inquiry α → Except Failure α → Prop where
  | answer (a : α) : MayEnd R (.answer a) (.ok a)
  | failed (e : Failure) : MayEnd R (.failed e) (.error e)
  | ask {q : Request} {next : q.Reply → Inquiry α} {r : q.Reply} {o : Except Failure α} :
    R q r → MayEnd R (next r) o → MayEnd R (.ask q next) o
  | recall {path : FilePath} {next : Option CachedFragment → Inquiry α} {o : Except Failure α}
    (kept : Option CachedFragment) : MayEnd R (next kept) o → MayEnd R (.recall path next) o
  | store {path : FilePath} {fragment : Option (Int × Variables)} {next : Inquiry α}
    {o : Except Failure α} : MayEnd R next o → MayEnd R (.store path fragment next) o

/-! ## The endings of each kind of inquiry -/

/-- An answer ends in itself only. -/
@[simp]
theorem mayEnd_answer {a : α} {o : Except Failure α} :
    (answer a).MayEnd R o ↔ o = .ok a := by
  constructor
  · rintro ⟨⟩
    rfl
  · rintro rfl
    exact .answer a

/-- A failure ends in itself only. -/
@[simp]
theorem mayEnd_failed {e : Failure} {o : Except Failure α} :
    (failed e).MayEnd R o ↔ o = .error e := by
  constructor
  · rintro ⟨⟩
    rfl
  · rintro rfl
    exact .failed e

/-- A request goes on with a possible reply. -/
@[simp]
theorem mayEnd_ask {q : Request} {next : q.Reply → Inquiry α} {o : Except Failure α} :
    (ask q next).MayEnd R o ↔ ∃ r, R q r ∧ (next r).MayEnd R o := by
  constructor
  · rintro ⟨⟩
    exact ⟨_, ‹_›, ‹_›⟩
  · rintro ⟨r, hr, h⟩
    exact .ask hr h

/-- A look at what is kept goes on with anything that may be kept. -/
@[simp]
theorem mayEnd_recall {path : FilePath} {next : Option CachedFragment → Inquiry α}
    {o : Except Failure α} :
    (Inquiry.recall path next).MayEnd R o ↔ ∃ kept, (next kept).MayEnd R o := by
  constructor
  · rintro ⟨⟩
    exact ⟨_, ‹_›⟩
  · rintro ⟨kept, h⟩
    exact .recall kept h

/-- To keep something does not change the end. -/
@[simp]
theorem mayEnd_store {path : FilePath} {fragment : Option (Int × Variables)} {next : Inquiry α}
    {o : Except Failure α} : (store path fragment next).MayEnd R o ↔ next.MayEnd R o := by
  constructor
  · rintro ⟨⟩
    assumption
  · exact .store

@[simp]
theorem mayEnd_pure {a : α} {o : Except Failure α} :
    (pure a : Inquiry α).MayEnd R o ↔ o = .ok a :=
  mayEnd_answer

/-- A single request ends in a possible reply. -/
@[simp]
theorem mayEnd_request {q : Request} {o : Except Failure q.Reply} :
    (request q).MayEnd R o ↔ ∃ r, R q r ∧ o = .ok r := by
  simp [request]

/-- What is known already ends in itself only. -/
@[simp]
theorem mayEnd_ofExcept {failure : ε → Failure} {x : Except ε α} {o : Except Failure α} :
    (ofExcept failure x).MayEnd R o ↔ o = x.mapError failure := by
  cases x <;> simp [ofExcept, Except.mapError]

@[simp]
theorem mayEnd_ofPath {x : Except PathError α} {o : Except Failure α} :
    (ofPath x).MayEnd R o ↔ o = x.mapError .path :=
  mayEnd_ofExcept

/-- The first inquiry ends in an answer and the next one ends, or the first one fails. -/
theorem mayEnd_bind {i : Inquiry α} {f : α → Inquiry β} {o : Except Failure β} :
    (i >>= f).MayEnd R o ↔
      (∃ a, i.MayEnd R (.ok a) ∧ (f a).MayEnd R o) ∨ ∃ e, i.MayEnd R (.error e) ∧ o = .error e := by
  change (i.bind f).MayEnd R o ↔ _
  induction i with
  | answer a => simp [bind]
  | failed e => simp [bind]
  | ask q next ih =>
    simp only [bind, mayEnd_ask, ih]
    grind
  | «recall» path next ih =>
    simp only [bind, mayEnd_recall, ih]
    grind
  | store path fragment next ih => simpa only [bind, mayEnd_store] using ih

/-- Two inquiries, one after the other, end well if both do. -/
@[simp]
theorem mayEnd_bind_ok {i : Inquiry α} {f : α → Inquiry β} {b : β} :
    (i >>= f).MayEnd R (.ok b) ↔ ∃ a, i.MayEnd R (.ok a) ∧ (f a).MayEnd R (.ok b) := by
  simp [mayEnd_bind]

/-- With more replies that are possible more ends are. -/
theorem MayEnd.mono {R' : Replies} {i : Inquiry α} {o : Except Failure α}
    (hR : ∀ q r, R q r → R' q r) (h : i.MayEnd R o) : i.MayEnd R' o := by
  induction h with
  | answer a => exact .answer a
  | failed e => exact .failed e
  | ask hr _ ih => exact .ask (hR _ _ hr) ih
  | «recall» kept _ ih => exact .recall kept ih
  | store _ ih => exact .store ih

/-! ## Inquiries that are carried out -/

/-- What an answerer that keeps a property of its state replies in states that have it. -/
def repliesOf {σ : Type} (answerer : Answerer (StateM σ)) (I : σ → Prop) : Replies :=
  fun q r => ∃ w, I w ∧ ((answerer q).run w).1 = r

/-- An inquiry that is conducted ends in a way that is possible. -/
theorem mayEnd_conduct {σ : Type} {answerer : Answerer (StateM σ)} {I : σ → Prop}
    (hI : ∀ q w, I w → I ((answerer q).run w).2) (i : Inquiry α) (cache : FragmentCache) {w : σ}
    (hw : I w) :
    i.MayEnd (repliesOf answerer I) ((i.conduct answerer cache).run w).1.1 ∧
      I ((i.conduct answerer cache).run w).2 := by
  induction i generalizing cache w with
  | answer a => exact ⟨.answer a, hw⟩
  | failed e => exact ⟨.failed e, hw⟩
  | ask q next ih =>
    have hnext := ih ((answerer q).run w).1 cache (hI q w hw)
    exact ⟨.ask ⟨w, hw, rfl⟩ hnext.1, hnext.2⟩
  | «recall» path next ih =>
    have hnext := ih (cache.find? path) cache hw
    exact ⟨.recall _ hnext.1, hnext.2⟩
  | store path fragment next ih =>
    have hnext := ih (cache.store path fragment) hw
    exact ⟨.store hnext.1, hnext.2⟩

/-- Going on with what is kept in memory leads to an end or to a request. -/
theorem settle_cases (i : Inquiry α) (cache : FragmentCache) :
    (∃ a, (i.settle cache).1 = .answer a) ∨ (∃ e, (i.settle cache).1 = .failed e) ∨
      ∃ q next, (i.settle cache).1 = .ask q next := by
  induction i generalizing cache with
  | answer a => exact .inl ⟨a, rfl⟩
  | failed e => exact .inr (.inl ⟨e, rfl⟩)
  | ask q next => exact .inr (.inr ⟨q, next, rfl⟩)
  | «recall» path next ih => exact ih (cache.find? path) cache
  | store path fragment next ih => exact ih (cache.store path fragment)

/-- What is kept in memory leads to no other end. -/
theorem mayEnd_of_settle {i : Inquiry α} {cache : FragmentCache} {o : Except Failure α}
    (h : (i.settle cache).1.MayEnd R o) : i.MayEnd R o := by
  induction i generalizing cache with
  | answer a => exact h
  | failed e => exact h
  | ask q next => exact h
  | «recall» path next ih => exact .recall _ (ih _ h)
  | store path fragment next ih => exact .store (ih h)

end Inquiry

end BuildLens
