import BuildLens.Proofs.Inquiry.Direct

/-!
# Inquiries that are answered the same throughout

While nothing changes in the world, every request has one reply, and an inquiry has one outcome.
What is kept in memory is carried along.

Main definitions:

- `Inquiry.answered`: the outcome of an inquiry, and what is kept afterwards.

Main results:

- `Inquiry.answered_bind_ok`, `Inquiry.answered_bind_error`: one inquiry after another.
- `Inquiry.Direct.answered_eq`: an inquiry that only asks leaves what is kept as it is.
-/

namespace BuildLens

namespace Inquiry

variable {α β ε : Type} {reply : (q : Request) → q.Reply} {cache cache' : FragmentCache}

/-- The outcome of an inquiry where every request has one reply, and what is kept afterwards. -/
def answered (reply : (q : Request) → q.Reply) (i : Inquiry α) (cache : FragmentCache) :
    Except Failure α × FragmentCache :=
  i.conduct (m := Id) reply cache

theorem answered_request (q : Request) :
    (request q).answered reply cache = (.ok (reply q), cache) := rfl

theorem answered_recall {path : FilePath} {next : Option CachedFragment → Inquiry α} :
    (Inquiry.recall path next).answered reply cache =
      (next (cache.find? path)).answered reply cache := rfl

theorem answered_ofPath_ok {x : Except PathError α} {a : α} (h : x = .ok a) :
    (ofPath x).answered reply cache = (.ok a, cache) := by
  rw [h]
  rfl

/-- The first inquiry ends in an answer, with which the second one goes on. -/
theorem answered_bind_ok {i : Inquiry α} {f : α → Inquiry β} {a : α}
    (h : i.answered reply cache = (.ok a, cache')) :
    (i >>= f).answered reply cache = (f a).answered reply cache' := by
  change (i.bind f).answered reply cache = _
  induction i generalizing cache with
  | answer b =>
    cases h
    rfl
  | failed e => cases h
  | ask q next ih => exact ih (reply q) h
  | «recall» path next ih => exact ih (cache.find? path) h
  | store path fragment next ih => exact ih h

/-- The first inquiry fails, and so do both. -/
theorem answered_bind_error {i : Inquiry α} {f : α → Inquiry β} {e : Failure}
    (h : i.answered reply cache = (.error e, cache')) :
    (i >>= f).answered reply cache = (.error e, cache') := by
  change (i.bind f).answered reply cache = _
  induction i generalizing cache with
  | answer b => cases h
  | failed e' =>
    cases h
    rfl
  | ask q next ih => exact ih (reply q) h
  | «recall» path next ih => exact ih (cache.find? path) h
  | store path fragment next ih => exact ih h

/-- If the second inquiry has the same outcome whatever is kept, so have both. -/
theorem answered_bind_fst {i : Inquiry α} {f : α → Inquiry β} {g : α → Except Failure β}
    (hf : ∀ a cache', ((f a).answered reply cache').1 = g a) :
    ((i >>= f).answered reply cache).1 = (i.answered reply cache).1.bind g := by
  generalize h : i.answered reply cache = ending
  obtain ⟨o, cache'⟩ := ending
  cases o with
  | ok a => rw [answered_bind_ok h, hf]; rfl
  | error e => rw [answered_bind_error h]; rfl

/-- An inquiry that only asks leaves what is kept as it is. -/
theorem Direct.answered_eq {i : Inquiry α} (h : i.Direct) :
    i.answered reply cache = (i.eval reply, cache) := by
  induction h with
  | answer a => rfl
  | failed e => rfl
  | ask _ ih => exact ih (reply _)

end Inquiry

end BuildLens
