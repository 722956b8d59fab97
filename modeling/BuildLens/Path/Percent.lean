import BuildLens.Text.Utf8

/-!
# Percent encoding

In a URI a byte may be written as a percent sign and two hexadecimal digits. Writing escapes every
byte of the UTF-8 text but the unreserved ones. Reading takes escapes within runs of ASCII
characters; a run is read as UTF-8 as a whole, and an escape that is none stays as it is.

Main definitions:

- `Percent.encode`, `Percent.decode`.
-/

namespace BuildLens.Percent

/-- Characters that are written as themselves. -/
def isUnreserved (c : Char) : Bool :=
  c.isAlphanum || c == '_' || c == '.' || c == '-' || c == '~' || c == '/'

/-- The hexadecimal digit of a number below sixteen, in upper case. -/
def hexDigit (n : Nat) : Char := Char.ofNat (if n < 10 then 48 + n else 55 + n)

/-- The value of a hexadecimal digit of either case. -/
def hexValue? (c : Char) : Option Nat :=
  if c.isDigit then some (c.toNat - 48)
  else if 'a' ≤ c ∧ c ≤ 'f' then some (c.toNat - 87)
  else if 'A' ≤ c ∧ c ≤ 'F' then some (c.toNat - 55)
  else none

/-- How one character is written. -/
def encodeChar (c : Char) : List Char :=
  if isUnreserved c then [c]
  else (String.utf8EncodeChar c).flatMap fun b =>
    ['%', hexDigit (b.toNat / 16), hexDigit (b.toNat % 16)]

/-- The percent encoding of a text. -/
def encode (cs : List Char) : List Char := cs.flatMap encodeChar

/-- The byte that an escape stands for, its digits being `a` and `b`. -/
def escaped? (c a b : Char) : Option UInt8 :=
  if c = '%' then do
    let high ← hexValue? a
    let low ← hexValue? b
    return UInt8.ofNat (16 * high + low)
  else none

/-- The bytes that a run of ASCII characters stands for. -/
def bytes : List Char → List UInt8
  | c :: a :: b :: cs =>
    match escaped? c a b with
    | some byte => byte :: bytes cs
    | none => UInt8.ofNat c.toNat :: bytes (a :: b :: cs)
  | cs => cs.map fun c => UInt8.ofNat c.toNat

/-- Whether the character is ASCII. -/
def isAscii (c : Char) : Bool := c.toNat < 0x80

/-- The text that a percent-encoded text stands for. -/
def decode (cs : List Char) : List Char :=
  (cs.splitBy fun a b => isAscii a == isAscii b).flatMap fun run =>
    if run.head?.any isAscii then Text.Utf8.decode (bytes run) else run

end BuildLens.Percent
