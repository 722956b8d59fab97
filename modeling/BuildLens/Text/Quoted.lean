import BuildLens.Text.Printable
import BuildLens.Text.Rune

/-!
# Quoted text in messages

Messages show a text between quotes, so that its ends and its unusual characters can be seen. The
quotes are single, or double when the text holds a single quote and no double one. A backslash and
the quote in use are escaped by a backslash, and what is not printable is written by its code point.

Main definitions:

- `quotedText`, `quoted`: the quoted form of a text.
-/

namespace BuildLens.Text

/-- The `width` last hexadecimal digits of a number, in lower case. -/
def hexDigits (width n : Nat) : List Char :=
  let ds := Nat.toDigits 16 n
  List.replicate (width - ds.length) '0' ++ ds

/-- How one character is written between quotes of the kind `quote`. -/
def escapeChar (quote c : Char) : List Char :=
  if c = quote ∨ c = '\\' then ['\\', c]
  else if c = '\t' then ['\\', 't']
  else if c = '\n' then ['\\', 'n']
  else if c = '\r' then ['\\', 'r']
  else if isPrintable c then [c]
  else if c.toNat ≤ 0xFF then '\\' :: 'x' :: hexDigits 2 c.toNat
  else if c.toNat ≤ 0xFFFF then '\\' :: 'u' :: hexDigits 4 c.toNat
  else '\\' :: 'U' :: hexDigits 8 c.toNat

/-- The quote to use: a double one only where it saves escaping. -/
def quoteFor (cs : List Char) : Char :=
  if cs.contains '\'' && !cs.contains '"' then '"' else '\''

/-- The text between quotes, its unusual characters escaped, and whatever is no character too. -/
def quotedText {α : Type} [Alphabet α] (text : List α) : String :=
  let q := quoteFor (text.filterMap Alphabet.char?)
  String.ofList (q :: text.flatMap (fun a =>
    match Alphabet.char? a with
    | some c => escapeChar q c
    | none => '\\' :: 'u' :: hexDigits 4 (Alphabet.code a)) ++ [q])

/-- The quoted form of a string. -/
def quoted (s : String) : String := quotedText s.toList

end BuildLens.Text
