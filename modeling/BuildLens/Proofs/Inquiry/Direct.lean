import BuildLens.Proofs.Inquiry.Endings

/-!
# Inquiries that only ask

An inquiry that looks nothing up in memory depends on nothing but the replies to its requests. If
the same request always gets the same reply, the inquiry has one ending, and one number of requests
until then.

Main definitions:

- `Inquiry.Direct`: the inquiry only asks.
- `Inquiry.eval`, `Inquiry.cost`: its ending and its number of requests, given one reply to each
  request.

Main results:

- `Inquiry.Direct.bind`: one such inquiry after another.
- `Inquiry.Direct.mayEnd_always_iff`: the ending is the only one.
-/

namespace BuildLens

/-- The replies of whoever always replies the same to the same request. -/
def Replies.always (reply : (q : Request) → q.Reply) : Replies := fun q r => r = reply q

namespace Inquiry

variable {α β ε : Type} {R : Replies} {reply : (q : Request) → q.Reply}

/-- The inquiry looks nothing up in memory and keeps nothing there. -/
inductive Direct : Inquiry α → Prop where
  | answer (a : α) : Direct (.answer a)
  | failed (e : Failure) : Direct (.failed e)
  | ask {q : Request} {next : q.Reply → Inquiry α} (h : ∀ r, Direct (next r)) :
      Direct (.ask q next)

/-- The ending of an inquiry where every request has one reply and nothing is in memory. -/
def eval (reply : (q : Request) → q.Reply) : Inquiry α → Except Failure α
  | .answer a => .ok a
  | .failed e => .error e
  | .ask q next => (next (reply q)).eval reply
  | .recall _ next => (next none).eval reply
  | .store _ _ next => next.eval reply

/-- The number of requests up to the ending where every request has one reply and nothing is in
memory. -/
def cost (reply : (q : Request) → q.Reply) : Inquiry α → Nat
  | .answer _ => 0
  | .failed _ => 0
  | .ask q next => (next (reply q)).cost reply + 1
  | .recall _ next => (next none).cost reply
  | .store _ _ next => next.cost reply

namespace Direct

theorem pure (a : α) : (Pure.pure a : Inquiry α).Direct := .answer a

theorem request (q : Request) : (Inquiry.request q).Direct := .ask .answer

theorem ofExcept (failure : ε → Failure) (x : Except ε α) : (Inquiry.ofExcept failure x).Direct := by
  cases x with
  | ok a => exact .answer a
  | error e => exact .failed _

theorem ofPath (x : Except PathError α) : (Inquiry.ofPath x).Direct := ofExcept .path x

theorem bind {i : Inquiry α} {f : α → Inquiry β} (hi : i.Direct) (hf : ∀ a, (f a).Direct) :
    (i >>= f).Direct := by
  change (i.bind f).Direct
  induction hi with
  | answer a => exact hf a
  | failed e => exact .failed e
  | ask _ ih => exact .ask ih

theorem next {q : Request} {next : q.Reply → Inquiry α} (h : (Inquiry.ask q next).Direct)
    (r : q.Reply) : (next r).Direct := by
  cases h with
  | ask h => exact h r

/-- Nothing is looked up in memory, so that the inquiry waits at once. -/
theorem settle_eq {i : Inquiry α} (h : i.Direct) (cache : FragmentCache) :
    i.settle cache = (i, cache) := by
  cases h <;> rfl

theorem mayEnd_always_iff {i : Inquiry α} (h : i.Direct) {o : Except Failure α} :
    i.MayEnd (.always reply) o ↔ o = i.eval reply := by
  induction h with
  | answer a => exact mayEnd_answer
  | failed e => exact mayEnd_failed
  | ask _ ih => simp [Replies.always, eval, ih]

end Direct

end Inquiry

end BuildLens
