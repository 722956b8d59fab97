import BuildLens.Build.FragmentCache
import BuildLens.Inquiry.Failure

/-!
# Inquiries

What is computed about a source tree depends on answers from outside: files and commands. An inquiry
is such a computation as a tree of requests. It says what it asks and how it goes on with each
answer, and leaves to others when and by whom it is answered. Between requests it may look up make
fragments that are kept in memory.

Main definitions:

- `Request`, `Request.Reply`: what may be asked.
- `Inquiry`: a computation that asks.
- `Inquiry.conduct`: the outcome when every request is answered as it comes.
- `Inquiry.settle`: the inquiry up to its next request.
-/

namespace BuildLens

/-- Something asked of the world: whether a path leads to a regular file, when a file was changed
last, what it holds, a path without symbolic links, or what a command leaves. -/
inductive Request where
  | isFile (path : FilePath)
  | mtime (path : FilePath)
  | read (path : FilePath)
  | realPath (path : FilePath)
  | run (args : List Argument) (cwd : Option FilePath) (environment : Option (Table String))
deriving DecidableEq, Repr

/-- The answers to a request. -/
@[reducible]
def Request.Reply : Request → Type
  | .isFile _ => Bool
  | .mtime _ => Except Errno Int
  | .read _ => Except Errno (List UInt8)
  | .realPath _ => String
  | .run .. => Except Failure ProcessResult

/-- A computation that asks requests and ends in an answer or a failure. On its way it may look at
the fragment kept for a path, and change that to another one or to none. -/
inductive Inquiry (α : Type) where
  | answer (a : α)
  | failed (e : Failure)
  | ask (q : Request) (next : q.Reply → Inquiry α)
  | recall (path : FilePath) (next : Option CachedFragment → Inquiry α)
  | store (path : FilePath) (fragment : Option (Int × Variables)) (next : Inquiry α)

namespace Inquiry

variable {α β : Type}

/-- Goes on with the answer of an inquiry. -/
def bind (i : Inquiry α) (f : α → Inquiry β) : Inquiry β :=
  match i with
  | .answer a => f a
  | .failed e => .failed e
  | .ask q next => .ask q fun r => (next r).bind f
  | .recall path next => .recall path fun c => (next c).bind f
  | .store path fragment next => .store path fragment (next.bind f)

instance : Monad Inquiry where
  pure := .answer
  bind := bind

/-- The reply to one request. -/
def request (q : Request) : Inquiry q.Reply := .ask q .answer

/-- The inquiry without requests that ends as given. -/
def ofExcept {ε : Type} (failure : ε → Failure) : Except ε α → Inquiry α
  | .ok a => .answer a
  | .error e => .failed (failure e)

/-- The path, or the failure to build it. -/
def ofPath : Except PathError α → Inquiry α := ofExcept .path

/-- The result of a command. -/
def run (args : List Argument) (cwd : Option FilePath := none)
    (environment : Option (Table String) := none) : Inquiry ProcessResult := do
  ofExcept id (← request (.run args cwd environment))

end Inquiry

/-- Keeps a fragment, or forgets the one that is kept. -/
def FragmentCache.store (c : FragmentCache) (path : FilePath) :
    Option (Int × Variables) → FragmentCache
  | some (mtime, values) => c.keep path mtime values
  | none => c.forget path

/-- Whoever answers requests. -/
abbrev Answerer (m : Type → Type) := (q : Request) → m q.Reply

namespace Inquiry

variable {α : Type}

/-- The outcome when each request is answered as it comes, with the fragments kept afterwards. -/
def conduct {m : Type → Type} [Monad m] (answerer : Answerer m) : Inquiry α → FragmentCache →
    m (Except Failure α × FragmentCache)
  | .answer a, cache => return (.ok a, cache)
  | .failed e, cache => return (.error e, cache)
  | .ask q next, cache => do conduct answerer (next (← answerer q)) cache
  | .recall path next, cache => conduct answerer (next (cache.find? path)) cache
  | .store path fragment next, cache => conduct answerer next (cache.store path fragment)

/-- Goes on until a request has to be answered or the inquiry ends, looking up the fragments that
are kept. -/
def settle : Inquiry α → FragmentCache → Inquiry α × FragmentCache
  | .recall path next, cache => settle (next (cache.find? path)) cache
  | .store path fragment next, cache => settle next (cache.store path fragment)
  | i, cache => (i, cache)

end Inquiry

end BuildLens
