/-!
# Reading UTF-8

A byte-by-byte reader that never gives up: bytes that begin no character, and sequences that are
broken off, are each reported as one fault. A fault spans as many bytes as still could have begun a
character, and the byte that broke the sequence is read again. Reading a text in pieces therefore
gives what reading it at once gives: only the state has to be carried over.

The two bytes that begin a surrogate are two faults, but they are not reported before the next byte
has been seen, since some readers accept surrogates.

Main definitions:

- `Utf8.State`, `Utf8.step`, `Utf8.run`, `Utf8.finish`: the reader.
- `Utf8.decode`: the whole text, each fault replaced by U+FFFD.
- `Utf8.decodeStrict?`: the whole text, or nothing if there is a fault.
-/

namespace BuildLens.Text.Utf8

/-- The state of the reader between two bytes. -/
inductive State where
  | start
  /-- A character is begun: `missing` more bytes are wanted, the next of them between `low` and
  `high`, and `bits` is what the bytes so far stand for. -/
  | within (missing low high bits : Nat)
  /-- The two bytes that begin a surrogate were read. -/
  | surrogate
deriving DecidableEq, Repr

/-- What the reader finds: a character, or `none` for a fault. -/
abbrev Found := Option Char

/-- Reads a byte when no character is begun. -/
def first (b : UInt8) : List Found × State :=
  let n := b.toNat
  if n < 0x80 then ([some (Char.ofNat n)], .start)
  else if n < 0xC2 then ([none], .start)
  else if n < 0xE0 then ([], .within 0 0x80 0xBF (n - 0xC0))
  else if n == 0xE0 then ([], .within 1 0xA0 0xBF 0)
  else if n == 0xED then ([], .within 1 0x80 0x9F 0xD)
  else if n < 0xF0 then ([], .within 1 0x80 0xBF (n - 0xE0))
  else if n == 0xF0 then ([], .within 2 0x90 0xBF 0)
  else if n < 0xF4 then ([], .within 2 0x80 0xBF (n - 0xF0))
  else if n == 0xF4 then ([], .within 2 0x80 0x8F 4)
  else ([none], .start)

/-- Reads one byte. In `within`, `missing` counts the bytes wanted after the next one, and only the
byte `ED`, with which surrogates begin, is followed by a byte of at most `9F`. -/
def step : State → UInt8 → List Found × State
  | .start, b => first b
  | .within missing low high bits, b =>
    if low ≤ b.toNat ∧ b.toNat ≤ high then
      let bits := bits * 64 + (b.toNat - 0x80)
      match missing with
      | 0 => ([some (Char.ofNat bits)], .start)
      | missing + 1 => ([], .within missing 0x80 0xBF bits)
    else if high = 0x9F ∧ 0xA0 ≤ b.toNat ∧ b.toNat ≤ 0xBF then ([], .surrogate)
    else
      let (found, next) := first b
      (none :: found, next)
  | .surrogate, b =>
    let (found, next) := first b
    (none :: none :: found, next)

/-- Reads some bytes: what is found in them, and the state after them. -/
def run : State → List UInt8 → List Found × State
  | s, [] => ([], s)
  | s, b :: bs =>
    let (found, s) := step s b
    let (rest, s) := run s bs
    (found ++ rest, s)

/-- What is found at the end of the text: a begun character is a fault. -/
def finish : State → List Found
  | .start => []
  | .within .. => [none]
  | .surrogate => [none, none]

/-- What is found in a whole text. -/
def read (bytes : List UInt8) : List Found :=
  let (found, s) := run .start bytes
  found ++ finish s

/-- The character that stands for a fault. -/
def replacement : Char := '\uFFFD'

/-- The characters of what was found, each fault as the replacement character. -/
def replaceFaults (found : List Found) : List Char := found.map fun f => f.getD replacement

/-- The text written by the bytes, each fault as the replacement character. -/
def decode (bytes : List UInt8) : List Char := replaceFaults (read bytes)

/-- The text written by the bytes, if there is no fault. -/
def decodeStrict? (bytes : List UInt8) : Option (List Char) := (read bytes).mapM id

/-- The bytes that write a text. -/
def encode (cs : List Char) : List UInt8 := cs.flatMap String.utf8EncodeChar

/-- Reading may be cut anywhere. -/
theorem run_append (s : State) (xs ys : List UInt8) :
    run s (xs ++ ys) =
      ((run s xs).1 ++ (run (run s xs).2 ys).1, (run (run s xs).2 ys).2) := by
  induction xs generalizing s with
  | nil => simp [run]
  | cons b bs ih => simp [run, ih, List.append_assoc]

end BuildLens.Text.Utf8
