import BuildLens.Text.Utf8
import Mathlib

/-!
# What the reader of UTF-8 accepts

The bytes that write a character are given as a grammar: how many they are is seen in the first of
them, and the second one is bounded where there would be a shorter way or where the character would
be half of a surrogate pair. The reader finds no fault in a text exactly if it is a list of such
characters, and then it finds these characters.

Main definitions:

- `Utf8.CharBytes`: the bytes that write a character.
- `Utf8.readFrom`: what is found in the rest of a text.

Main results:

- `Utf8.charBytes_iff`: the grammar is the encoding of characters.
- `Utf8.readFrom_charBytes`, `Utf8.exists_charBytes`: one character.
- `Utf8.decodeStrict?_eq_some_iff`: a text is read if and only if it is written in UTF-8.
- `Utf8.encode_injective`: a text is written in one way.
-/

namespace BuildLens.Text.Utf8

variable {a b c e : UInt8} {bytes rest : List UInt8} {s : State} {n : Nat}

/-! ## The bytes of a character -/

/-- Whether a byte can stand behind the first one of a character. -/
def IsTail (b : UInt8) : Prop := 0x80 ≤ b.toNat ∧ b.toNat ≤ 0xBF

/-- The bytes that write a character, and the number of the character. -/
inductive CharBytes : List UInt8 → Nat → Prop where
  | one {a : UInt8} (ha : a.toNat < 0x80) : CharBytes [a] a.toNat
  | two {a b : UInt8} (hlow : 0xC2 ≤ a.toNat) (hhigh : a.toNat < 0xE0) (hb : IsTail b) :
      CharBytes [a, b] ((a.toNat - 0xC0) * 64 + (b.toNat - 0x80))
  /-- The second byte is bounded where two bytes would do, and for surrogates. -/
  | three {a b c : UInt8} (hlow : 0xE0 ≤ a.toNat) (hhigh : a.toNat < 0xF0) (hb : IsTail b)
      (hshort : a.toNat = 0xE0 → 0xA0 ≤ b.toNat) (hhalf : a.toNat = 0xED → b.toNat ≤ 0x9F)
      (hc : IsTail c) :
      CharBytes [a, b, c] (((a.toNat - 0xE0) * 64 + (b.toNat - 0x80)) * 64 + (c.toNat - 0x80))
  /-- The second byte is bounded where three bytes would do, and behind the last character. -/
  | four {a b c e : UInt8} (hlow : 0xF0 ≤ a.toNat) (hhigh : a.toNat ≤ 0xF4) (hb : IsTail b)
      (hshort : a.toNat = 0xF0 → 0x90 ≤ b.toNat) (hlast : a.toNat = 0xF4 → b.toNat ≤ 0x8F)
      (hc : IsTail c) (he : IsTail e) :
      CharBytes [a, b, c, e]
        ((((a.toNat - 0xF0) * 64 + (b.toNat - 0x80)) * 64 + (c.toNat - 0x80)) * 64 +
          (e.toNat - 0x80))

/-- The number of a character that bytes write is that of one. -/
theorem CharBytes.isValidChar (h : CharBytes bytes n) : n.isValidChar := by
  cases h <;> simp only [IsTail, Nat.isValidChar] at * <;> omega

/-- The bytes that write a character are those that encode it. -/
theorem CharBytes.encode_eq (h : CharBytes bytes n) :
    String.utf8EncodeChar (Char.ofNat n) = bytes := by
  have hn : (Char.ofNat n).val.toNat = n := by
    rw [← Char.toNat, Char.toNat_ofNat, if_pos h.isValidChar]
  simp only [String.utf8EncodeChar, hn]
  cases h with
  | one ha => rw [if_pos (by omega), UInt8.ofNat_toNat]
  | two hlow hhigh hb =>
    rw [IsTail] at hb
    rw [if_neg (by omega), if_pos (by omega)]
    simp only [List.cons.injEq, ← UInt8.toNat_inj, UInt8.toNat_ofNat', and_true]
    omega
  | three hlow hhigh hb hshort hhalf hc =>
    rw [IsTail] at hb hc
    rw [if_neg (by omega), if_neg (by omega), if_pos (by omega)]
    simp only [List.cons.injEq, ← UInt8.toNat_inj, UInt8.toNat_ofNat', and_true]
    omega
  | four hlow hhigh hb hshort hlast hc he =>
    rw [IsTail] at hb hc he
    rw [if_neg (by omega), if_neg (by omega), if_neg (by omega)]
    simp only [List.cons.injEq, ← UInt8.toNat_inj, UInt8.toNat_ofNat', and_true]
    omega

/-- The bytes that encode a character write it. -/
theorem charBytes_encode (c : Char) : CharBytes (String.utf8EncodeChar c) c.toNat := by
  have hvalid : c.toNat.isValidChar := c.valid
  rw [Nat.isValidChar] at hvalid
  simp only [String.utf8EncodeChar, ← Char.toNat.eq_def]
  generalize c.toNat = n at hvalid
  split
  · convert CharBytes.one (a := UInt8.ofNat n) ?_ using 1 <;>
      simp only [UInt8.toNat_ofNat'] <;> omega
  split
  · convert CharBytes.two (a := UInt8.ofNat (n / 64 % 32 + 192)) (b := UInt8.ofNat (n % 64 + 128))
      ?_ ?_ ?_ using 1 <;> simp only [IsTail, UInt8.toNat_ofNat'] <;> omega
  split
  · convert CharBytes.three (a := UInt8.ofNat (n / 4096 % 16 + 224))
      (b := UInt8.ofNat (n / 64 % 64 + 128)) (c := UInt8.ofNat (n % 64 + 128))
      ?_ ?_ ?_ ?_ ?_ ?_ using 1 <;> simp only [IsTail, UInt8.toNat_ofNat'] <;> omega
  · convert CharBytes.four (a := UInt8.ofNat (n / 262144 % 8 + 240))
      (b := UInt8.ofNat (n / 4096 % 64 + 128)) (c := UInt8.ofNat (n / 64 % 64 + 128))
      (e := UInt8.ofNat (n % 64 + 128))
      ?_ ?_ ?_ ?_ ?_ ?_ ?_ using 1 <;> simp only [IsTail, UInt8.toNat_ofNat'] <;> omega

/-! ## One step of the reader -/

/-- What is found in the rest of a text. -/
def readFrom (s : State) (bytes : List UInt8) : List Found :=
  (run s bytes).1 ++ finish (run s bytes).2

@[simp]
theorem readFrom_nil (s : State) : readFrom s [] = finish s :=
  rfl

/-- Bytes are read one after the other. -/
theorem readFrom_cons (s : State) (a : UInt8) (rest : List UInt8) :
    readFrom s (a :: rest) = (step s a).1 ++ readFrom (step s a).2 rest := by
  simp [readFrom, run, List.append_assoc]

/-- Reading may be cut anywhere. -/
theorem readFrom_append (s : State) (xs ys : List UInt8) :
    readFrom s (xs ++ ys) = (run s xs).1 ++ readFrom (run s xs).2 ys := by
  simp [readFrom, run_append, List.append_assoc]

/-- A byte below 128 is a character. -/
theorem first_one (ha : a.toNat < 0x80) : first a = ([some (Char.ofNat a.toNat)], .start) := by
  simp [first, ha]

/-- A byte that begins a character of two bytes. -/
theorem first_two (hlow : 0xC2 ≤ a.toNat) (hhigh : a.toNat < 0xE0) :
    first a = ([], .within 0 0x80 0xBF (a.toNat - 0xC0)) := by
  grind [first]

/-- A byte that begins a character of three bytes. -/
theorem first_three (hlow : 0xE0 ≤ a.toNat) (hhigh : a.toNat < 0xF0) :
    first a = ([], .within 1 (if a.toNat = 0xE0 then 0xA0 else 0x80)
      (if a.toNat = 0xED then 0x9F else 0xBF) (a.toNat - 0xE0)) := by
  grind [first]

/-- A byte that begins a character of four bytes. -/
theorem first_four (hlow : 0xF0 ≤ a.toNat) (hhigh : a.toNat ≤ 0xF4) :
    first a = ([], .within 2 (if a.toNat = 0xF0 then 0x90 else 0x80)
      (if a.toNat = 0xF4 then 0x8F else 0xBF) (a.toNat - 0xF0)) := by
  grind [first]

/-- Other bytes begin no character. -/
theorem first_none (h : 0x80 ≤ a.toNat ∧ a.toNat < 0xC2 ∨ 0xF4 < a.toNat) :
    first a = ([none], .start) := by
  grind [first]

variable {missing low high bits : Nat}

/-- The last byte that is wanted ends the character. -/
theorem readFrom_last (hlow : low ≤ b.toNat) (hhigh : b.toNat ≤ high) :
    readFrom (.within 0 low high bits) (b :: rest) =
      some (Char.ofNat (bits * 64 + (b.toNat - 0x80))) :: readFrom .start rest := by
  rw [readFrom_cons, step, if_pos ⟨hlow, hhigh⟩]
  rfl

/-- Any other byte that is wanted leaves one less to be wanted. -/
theorem readFrom_tail (hlow : low ≤ b.toNat) (hhigh : b.toNat ≤ high) :
    readFrom (.within (missing + 1) low high bits) (b :: rest) =
      readFrom (.within missing 0x80 0xBF (bits * 64 + (b.toNat - 0x80))) rest := by
  rw [readFrom_cons, step, if_pos ⟨hlow, hhigh⟩]
  rfl

/-- The bytes of a surrogate are a fault. -/
theorem none_mem_readFrom_surrogate (bytes : List UInt8) : none ∈ readFrom .surrogate bytes := by
  cases bytes with
  | nil => simp [finish]
  | cons a rest => simp [readFrom_cons, step]

/-- A character that is begun goes on with a byte that is wanted, or there is a fault. -/
theorem exists_tail (h : none ∉ readFrom (.within missing low high bits) bytes) :
    ∃ b rest, bytes = b :: rest ∧ low ≤ b.toNat ∧ b.toNat ≤ high := by
  cases bytes with
  | nil => simp [finish] at h
  | cons b rest =>
    rw [readFrom_cons, step] at h
    split at h
    · next hb => exact ⟨b, rest, rfl, hb⟩
    split at h
    · exact absurd (List.mem_append_right _ (none_mem_readFrom_surrogate rest)) h
    · simp at h

/-! ## Characters -/

/-- The bytes of a character are read as the character. -/
theorem readFrom_charBytes (h : CharBytes bytes n) (rest : List UInt8) :
    readFrom .start (bytes ++ rest) = some (Char.ofNat n) :: readFrom .start rest := by
  cases h with
  | one ha => simp [readFrom_cons, step, first_one ha]
  | two hlow hhigh hb =>
    simp only [List.cons_append, List.nil_append, readFrom_cons .start, step, first_two hlow hhigh]
    exact readFrom_last hb.1 hb.2
  | three hlow hhigh hb hshort hhalf hc =>
    simp only [List.cons_append, List.nil_append, readFrom_cons .start, step,
      first_three hlow hhigh]
    rw [IsTail] at hb
    rw [readFrom_tail (by split <;> omega) (by split <;> omega), readFrom_last hc.1 hc.2]
  | four hlow hhigh hb hshort hlast hc he =>
    simp only [List.cons_append, List.nil_append, readFrom_cons .start, step,
      first_four hlow hhigh]
    rw [IsTail] at hb
    rw [readFrom_tail (by split <;> omega) (by split <;> omega), readFrom_tail hc.1 hc.2,
      readFrom_last he.1 he.2]

/-- A text without faults is empty or begins with the bytes of a character. -/
theorem exists_charBytes (h : none ∉ readFrom .start (a :: bytes)) :
    ∃ seq n rest, a :: bytes = seq ++ rest ∧ CharBytes seq n := by
  rw [readFrom_cons, step] at h
  rcases Nat.lt_or_ge a.toNat 0x80 with hone | hone
  · exact ⟨[a], _, bytes, rfl, .one hone⟩
  rcases Nat.lt_or_ge a.toNat 0xC2 with hnone | htwo
  · simp [first_none (.inl ⟨hone, hnone⟩)] at h
  rcases Nat.lt_or_ge a.toNat 0xE0 with htwo' | hthree
  · rw [first_two htwo htwo', List.nil_append] at h
    obtain ⟨b, rest, rfl, hb⟩ := exists_tail h
    exact ⟨[a, b], _, rest, rfl, .two htwo htwo' hb⟩
  rcases Nat.lt_or_ge a.toNat 0xF0 with hthree' | hfour
  · rw [first_three hthree hthree', List.nil_append] at h
    obtain ⟨b, rest, rfl, hlow, hhigh⟩ := exists_tail h
    rw [readFrom_tail hlow hhigh] at h
    obtain ⟨c, rest, rfl, hc⟩ := exists_tail h
    obtain ⟨hb, hshort, hhalf⟩ : IsTail b ∧ (a.toNat = 0xE0 → 0xA0 ≤ b.toNat) ∧
        (a.toNat = 0xED → b.toNat ≤ 0x9F) := by
      rw [IsTail]
      split at hlow <;> split at hhigh <;> omega
    exact ⟨[a, b, c], _, rest, rfl, .three hthree hthree' hb hshort hhalf hc⟩
  rcases Nat.lt_or_ge 0xF4 a.toNat with hnone | hfour'
  · simp [first_none (.inr hnone)] at h
  · rw [first_four hfour hfour', List.nil_append] at h
    obtain ⟨b, rest, rfl, hlow, hhigh⟩ := exists_tail h
    rw [readFrom_tail hlow hhigh] at h
    obtain ⟨c, rest, rfl, hc⟩ := exists_tail h
    rw [readFrom_tail hc.1 hc.2] at h
    obtain ⟨e, rest, rfl, he⟩ := exists_tail h
    obtain ⟨hb, hshort, hlast⟩ : IsTail b ∧ (a.toNat = 0xF0 → 0x90 ≤ b.toNat) ∧
        (a.toNat = 0xF4 → b.toNat ≤ 0x8F) := by
      rw [IsTail]
      split at hlow <;> split at hhigh <;> omega
    exact ⟨[a, b, c, e], _, rest, rfl, .four hfour hfour' hb hshort hlast hc he⟩

/-! ## Texts -/

/-- The bytes that encode characters are read as them, without a fault. -/
theorem readFrom_encode (cs : List Char) : readFrom .start (encode cs) = cs.map some := by
  induction cs with
  | nil => rfl
  | cons c cs ih =>
    rw [encode, List.flatMap_cons, readFrom_charBytes (charBytes_encode c), Char.ofNat_toNat,
      ← encode, ih, List.map_cons]

/-- Bytes that are read without a fault encode what is read. -/
theorem eq_encode_of_readFrom {cs : List Char} (h : readFrom .start bytes = cs.map some) :
    bytes = encode cs := by
  have hnone : none ∉ readFrom .start bytes := by simp [h]
  induction cs generalizing bytes with
  | nil =>
    cases bytes with
    | nil => rfl
    | cons a bytes =>
      obtain ⟨seq, n, rest, hseq, hchar⟩ := exists_charBytes hnone
      rw [hseq, readFrom_charBytes hchar] at h
      cases h
  | cons c cs ih =>
    cases bytes with
    | nil => cases h
    | cons a bytes =>
      obtain ⟨seq, n, rest, hseq, hchar⟩ := exists_charBytes hnone
      rw [hseq, readFrom_charBytes hchar, List.map_cons, List.cons.injEq, Option.some.injEq] at h
      rw [hseq, encode, List.flatMap_cons, ← h.1, hchar.encode_eq, ← encode,
        ih h.2 (by simp [h.2])]

/-- There is no fault if everything that was found is a character. -/
theorem mapM_id_eq_some_iff {found : List Found} {cs : List Char} :
    found.mapM id = some cs ↔ found = cs.map some := by
  induction found generalizing cs with
  | nil => cases cs <;> simp
  | cons f found ih =>
    rw [List.mapM_cons]
    cases f with
    | none => cases cs <;> simp
    | some c =>
      cases cs with
      | nil => simp [Option.bind_eq_some_iff]
      | cons c' cs => simp [← ih, Option.bind_eq_some_iff, and_comm]

/-- A text is read if and only if it is written in UTF-8. -/
theorem decodeStrict?_eq_some_iff {cs : List Char} :
    decodeStrict? bytes = some cs ↔ bytes = encode cs := by
  rw [decodeStrict?, mapM_id_eq_some_iff]
  constructor
  · exact eq_encode_of_readFrom
  · rintro rfl
    exact readFrom_encode cs

/-- A text is written in one way. -/
theorem encode_injective : Function.Injective encode := by
  intro cs cs' h
  have hread : decodeStrict? (encode cs) = some cs' := decodeStrict?_eq_some_iff.mpr h
  rw [decodeStrict?_eq_some_iff.mpr rfl] at hread
  exact Option.some.inj hread

end BuildLens.Text.Utf8
