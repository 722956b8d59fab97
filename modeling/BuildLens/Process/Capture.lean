import BuildLens.Process.Result
import BuildLens.Text.Utf8

/-!
# Capturing output

The bytes of a process arrive in pieces on two streams. Each stream is decoded on its own while the
pieces arrive: bytes that do not yet make up a character wait for the next piece of their stream. At
the end of a stream, waiting bytes are a fault. The streams may end in any order, and one of them
may go on after the other has ended.

Main definitions:

- `StreamEvent`: what can happen on a stream.
- `Capture`, `Capture.read`, `Capture.close`, `Capture.run`: the decoders and what they have given.
- `Arrival`, `capture`: the output of a process whose streams end together.
-/

namespace BuildLens

open Text (Utf8.State)

/-- Something that happens on a stream: some bytes are read, or the stream ends. -/
inductive StreamEvent where
  | read (stream : Stream) (bytes : List UInt8)
  | close (stream : Stream)
deriving DecidableEq, Repr

/-- The stream on which something happens. -/
def StreamEvent.stream : StreamEvent → Stream
  | .read s _ => s
  | .close s => s

/-- The decoders of both streams, and the pieces of text they have given. -/
structure Capture where
  stdout : Utf8.State := .start
  stderr : Utf8.State := .start
  chunks : List OutputChunk := []

namespace Capture

/-- The decoder of a stream. -/
def decoder (c : Capture) : Stream → Utf8.State
  | .stdout => c.stdout
  | .stderr => c.stderr

/-- Puts the decoder of a stream into a state. -/
def setDecoder (c : Capture) (s : Stream) (state : Utf8.State) : Capture :=
  match s with
  | .stdout => { c with stdout := state }
  | .stderr => { c with stderr := state }

/-- Adds a piece of text unless it is empty. -/
def emit (c : Capture) (s : Stream) (found : List Text.Utf8.Found) : Capture :=
  if found.isEmpty then c
  else { c with chunks := c.chunks ++ [⟨s, String.ofList (Text.Utf8.replaceFaults found)⟩] }

/-- Decodes bytes that are read at once. -/
def read (c : Capture) (s : Stream) (bytes : List UInt8) : Capture :=
  let (found, state) := Text.Utf8.run (c.decoder s) bytes
  (c.setDecoder s state).emit s found

/-- Ends a stream. -/
def close (c : Capture) (s : Stream) : Capture :=
  (c.setDecoder s .start).emit s (Text.Utf8.finish (c.decoder s))

/-- Takes in what happens on a stream. -/
def step (c : Capture) : StreamEvent → Capture
  | .read s bytes => c.read s bytes
  | .close s => c.close s

/-- Takes in what happens on the streams. -/
def run (c : Capture) (events : List StreamEvent) : Capture := events.foldl step c

end Capture

/-- A piece of output that arrives on a stream. -/
structure Arrival where
  stream : Stream
  bytes : List UInt8
deriving DecidableEq, Repr

/-- The greatest number of bytes read at once. -/
def readSize : Nat := 65536

/-- The bytes in pieces of at most `readSize`, none of them empty. -/
def readPieces : List UInt8 → List (List UInt8)
  | [] => []
  | b :: bytes =>
    (b :: bytes).take readSize :: readPieces (bytes.drop (readSize - 1))
termination_by bytes => bytes.length
decreasing_by rw [List.length_drop, List.length_cons]; omega

/-- How a piece of output is read. -/
def Arrival.events (a : Arrival) : List StreamEvent := (readPieces a.bytes).map (.read a.stream)

/-- The output of a process whose bytes arrive in the given pieces, and whose streams end after the
last of them. -/
def capture (arrivals : List Arrival) : List OutputChunk :=
  (Capture.run {} (arrivals.flatMap Arrival.events ++ [.close .stdout, .close .stderr])).chunks

end BuildLens
