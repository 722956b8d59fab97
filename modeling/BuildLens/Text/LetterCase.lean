import BuildLens.Text.LetterCase.Tables
import BuildLens.Text.Printable

/-!
# Letter case

Lower and upper case of texts by the full case mappings of Unicode 14, and the comparison of
letters that disregards case among the ASCII letters.

Main definitions:

- `lower`: the lower case of a text. A capital sigma that ends a word becomes a final sigma.
- `upperChar`: the upper case of one character, which may be several.
- `sameLetter`: equality up to case with an ASCII letter.
-/

namespace BuildLens.Text

/-- The code point after the shift whose run holds it, if any. -/
def shiftCase (shifts : List CaseShift) (n : Nat) : Nat :=
  match shifts.find? fun s =>
      decide (s.first ≤ n) && decide (n ≤ s.last) && (n - s.first) % s.stride == 0 with
  | some s => (Int.ofNat n + s.shift).toNat
  | none => n

/-- The lower case of one character on its own. -/
def lowerChar (c : Char) : List Char :=
  if c.toNat < 0x80 then [c.toLower]
  else if c = '\u0130' then ['i', '\u0307']
  else [Char.ofNat (shiftCase lowerShifts c.toNat)]

/-- The upper case of one character. -/
def upperChar (c : Char) : List Char :=
  if c.toNat < 0x80 then [c.toUpper]
  else match upperExpansions.lookup c.toNat with
    | some ns => ns.map Char.ofNat
    | none => [Char.ofNat (shiftCase upperShifts c.toNat)]

/-- Whether the nearest character that counts is a letter with case. -/
def meetsCased (cs : List Char) : Bool :=
  match cs.dropWhile fun c => inRanges caseIgnorableRanges c.toNat with
  | c :: _ => inRanges casedRanges c.toNat
  | [] => false

/-- The lower case of a text, `before` being the characters in front of it, nearest first. -/
def lowerAfter (before : List Char) : List Char → List Char
  | [] => []
  | c :: cs =>
    (if c = '\u03A3' then
      if meetsCased before && !meetsCased cs then ['\u03C2'] else ['\u03C3']
    else lowerChar c) ++ lowerAfter (c :: before) cs

/-- The lower case of a text. -/
def lower (s : String) : String := String.ofList (lowerAfter [] s.toList)

/-- Whether a character is the given small ASCII letter up to case. The long s, the Kelvin sign and
the dotted and dotless i count as `s`, `k` and `i`; what is no letter is only itself. -/
def sameLetter (letter c : Char) : Bool :=
  c.toLower == letter ||
    (letter == 's' && c == '\u017F') || (letter == 'k' && c == '\u212A') ||
    (letter == 'i' && (c == '\u0130' || c == '\u0131'))

end BuildLens.Text
