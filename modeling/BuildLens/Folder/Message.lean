import BuildLens.Inquiry.Failure

/-!
# Messages to the user

The user is told of a problem once: a message whose key was used before is not shown again. Keys are
texts that name the folder and the kind of the failure.

Main definitions:

- `MessageKey`, `Message`: a message and the problem that it is about.
- `MessageKey.text`: the text by which a problem is known.
- `Messages`, `Messages.tell`: the messages shown so far.
-/

namespace BuildLens

/-- The problem that a message is about: the tree with the given root has not been built, looking at
the folder with that root failed, or another one. -/
inductive MessageKey where
  | notBuilt (root : String)
  | failed (root : String) (kind : FailureKind)
  | other (name : String)
deriving DecidableEq, Repr

/-- The text by which the problem is known. -/
def MessageKey.text : MessageKey → String
  | .notBuilt root => "not-built:" ++ root
  | .failed root kind => "probe-failed:" ++ root ++ ":" ++ kind.name
  | .other name => name

/-- A message to the user. -/
structure Message where
  text : String
  isError : Bool := true
deriving DecidableEq, Repr

/-- The messages shown so far, in order, and the texts of the problems that the user knows of. -/
structure Messages where
  known : List String := []
  shown : List Message := []
deriving DecidableEq, Repr, Inhabited

namespace Messages

/-- Whether the user knows of the problem. -/
def knows (ms : Messages) (key : MessageKey) : Bool := ms.known.contains key.text

/-- Shows a message, unless the user knows of the problem. -/
def tell (ms : Messages) (key : MessageKey) (m : Message) : Messages :=
  if ms.knows key then ms else { known := ms.known ++ [key.text], shown := ms.shown ++ [m] }

/-- The texts of the messages that tell of errors. -/
def errors (ms : Messages) : List String := (ms.shown.filter (·.isError)).map Message.text

/-- The texts of the other messages. -/
def infos (ms : Messages) : List String := (ms.shown.filter (!·.isError)).map Message.text

end Messages

end BuildLens
