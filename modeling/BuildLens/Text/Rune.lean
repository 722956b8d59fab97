/-!
# Texts that need not be well-formed

A text from outside may hold half of a surrogate pair without the other half: an escape may write
it, and it stands for a byte of a file name that is not UTF-8. Such a half is no character, and
UTF-8 has no bytes for it. What is read in a text, or looked up in it, does not depend on whether
there may be halves in it.

Main definitions:

- `Alphabet`: what texts are made of.
- `Rune`: what texts are made of that need not be well-formed.
- `charsOf?`: the characters of a text without halves.
- `rendered`: a text to show in the place of any.

Main results:

- `charsOf?_eq_some_iff`: a text of characters, and only such a one, has characters.
- `Rune.charsOf?_eq_none_iff`: all others hold a half.
-/

namespace BuildLens.Text

/-- What texts are made of: characters, and perhaps more, each with its code point. -/
class Alphabet (α : Type) where
  ofChar : Char → α
  char? : α → Option Char
  code : α → Nat
  char?_eq_some_iff {a : α} {c : Char} : char? a = some c ↔ a = ofChar c

instance : Alphabet Char where
  ofChar c := c
  char? := some
  code := Char.toNat
  char?_eq_some_iff := Option.some_inj

/-- A character, or half of a surrogate pair by its number among the halves. -/
inductive Rune where
  | char (c : Char)
  | half (n : Fin 0x800)
deriving DecidableEq, Repr

namespace Rune

/-- The rune with a code point, or with a number from the range of the halves. -/
def ofNat (n : Nat) : Rune :=
  if h : 0xD800 ≤ n ∧ n < 0xE000 then .half ⟨n - 0xD800, by omega⟩ else .char (Char.ofNat n)

/-- The code point of a character, or the number that stands for a half. -/
def toNat : Rune → Nat
  | .char c => c.toNat
  | .half n => 0xD800 + n

instance : Alphabet Rune where
  ofChar := .char
  char?
    | .char c => some c
    | .half _ => none
  code := toNat
  char?_eq_some_iff {a c} := by cases a <;> simp

end Rune

namespace Alphabet

variable {α : Type} [Alphabet α]

/-- The slash of a text. -/
abbrev slash : α := ofChar '/'

/-- The dot of a text. -/
abbrev dot : α := ofChar '.'

@[simp]
theorem ofChar_char (c : Char) : (ofChar c : Char) = c := rfl

theorem ofChar_injective : Function.Injective (ofChar : Char → α) := by
  intro c d h
  have hd := char?_eq_some_iff.mpr h
  rw [char?_eq_some_iff.mpr rfl] at hd
  exact Option.some.inj hd

theorem dot_ne_slash : (dot : α) ≠ slash := ofChar_injective.ne (by decide)

end Alphabet

/-- The characters of a text, if there is nothing else in it. -/
def charsOf? {α : Type} [Alphabet α] (text : List α) : Option (List Char) :=
  text.mapM Alphabet.char?

/-- A text to show in the place of another. Three bytes would encode a half, and a replacement
character stands for each of them. -/
def rendered {α : Type} [Alphabet α] (text : List α) : String :=
  String.ofList (text.flatMap fun a =>
    match Alphabet.char? a with
    | some c => [c]
    | none => ['\uFFFD', '\uFFFD', '\uFFFD'])

section

variable {α : Type} [Alphabet α]

theorem charsOf?_cons (a : α) (text : List α) : charsOf? (a :: text) =
    (Alphabet.char? a).bind fun c => (charsOf? text).map (c :: ·) := by
  rw [charsOf?, List.mapM_cons]
  cases Alphabet.char? a with
  | none => rfl
  | some c => cases htext : charsOf? text <;> rw [charsOf?] at htext <;> simp [htext]

/-- A text has characters if it is made of them. -/
theorem charsOf?_eq_some_iff {text : List α} {cs : List Char} :
    charsOf? text = some cs ↔ text = cs.map Alphabet.ofChar := by
  induction text generalizing cs with
  | nil => cases cs <;> simp [charsOf?]
  | cons a text ih =>
    rw [charsOf?_cons]
    cases cs with
    | nil => simp [Option.bind_eq_some_iff]
    | cons c cs => simp [Option.bind_eq_some_iff, Alphabet.char?_eq_some_iff, ih]

end

/-- A text that is not made of characters holds half of a surrogate pair. -/
theorem Rune.charsOf?_eq_none_iff {rs : List Rune} : charsOf? rs = none ↔ ∃ n, half n ∈ rs := by
  induction rs with
  | nil => simp [charsOf?]
  | cons r rs ih =>
    rw [charsOf?_cons]
    cases r with
    | char c => simpa [Alphabet.char?] using ih
    | half n => simp [Alphabet.char?]

end BuildLens.Text
