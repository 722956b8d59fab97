import BuildLens.Path.Percent
import BuildLens.Proofs.Text.Utf8

/-!
# Percent encoding and back

What is written for a text holds nothing but unreserved characters and escapes, and the text is read
from it, also where characters stand around it that are read as themselves.

Main definitions:

- `Percent.Writes`: a text from which another one is read, whatever follows it.

Main results:

- `Percent.isUnreserved_of_mem_encode`: what may occur in the encoding of a text.
- `Percent.writes_encode`: a text is read from its encoding.
- `Percent.Writes.decode_eq`: the whole of a text is read so.
- `Percent.decode_encode`: a text is read back from its encoding.
-/

namespace BuildLens

/-- A text is read from the bytes that write it. -/
theorem Text.Utf8.decode_encode (cs : List Char) : decode (encode cs) = cs := by
  have hread : read (encode cs) = cs.map some := readFrom_encode cs
  rw [decode, hread, replaceFaults, List.map_map]
  exact List.map_id' cs

namespace Percent

open Text (Utf8.encode)

variable {c : Char} {cs ds text more : List Char}

/-! ## Digits of escapes -/

/-- A digit is worth the number that it was written for. -/
theorem hexValue?_hexDigit : ∀ n < 16, hexValue? (hexDigit n) = some n := by
  decide

theorem isUnreserved_hexDigit : ∀ n < 16, isUnreserved (hexDigit n) = true := by
  decide

/-- The byte of an escape that was written. -/
theorem escaped?_hexDigit (b : UInt8) :
    escaped? '%' (hexDigit (b.toNat / 16)) (hexDigit (b.toNat % 16)) = some b := by
  have hb : b.toNat < 256 := b.toNat_lt
  rw [escaped?, if_pos rfl, hexValue?_hexDigit _ (by omega), hexValue?_hexDigit _ (by omega)]
  change some (UInt8.ofNat (16 * (b.toNat / 16) + b.toNat % 16)) = some b
  rw [Nat.div_add_mod, UInt8.ofNat_toNat]

/-! ## Characters of an encoding -/

/-- A character that is not reserved is ASCII. -/
theorem isAscii_of_isUnreserved (h : isUnreserved c = true) : isAscii c = true := by
  simp only [isUnreserved, Char.isAlphanum, Char.isAlpha, Char.isUpper, Char.isLower, Char.isDigit,
    Bool.or_eq_true, Bool.and_eq_true, decide_eq_true_eq, beq_iff_eq, UInt32.le_iff_toNat_le,
    ge_iff_le] at h
  change (((((((65 ≤ c.toNat ∧ c.toNat ≤ 90) ∨ 97 ≤ c.toNat ∧ c.toNat ≤ 122) ∨
    48 ≤ c.toNat ∧ c.toNat ≤ 57) ∨ c = '_') ∨ c = '.') ∨ c = '-') ∨ c = '~') ∨ c = '/' at h
  rw [isAscii, decide_eq_true_eq]
  rcases h with (((((((h | h) | h) | rfl) | rfl) | rfl) | rfl) | rfl)
  · omega
  · omega
  · omega
  all_goals decide

/-- What may occur in the encoding of a text. -/
theorem isUnreserved_of_mem_encode (h : c ∈ encode cs) : isUnreserved c = true ∨ c = '%' := by
  obtain ⟨x, -, hx⟩ := List.mem_flatMap.mp h
  rw [encodeChar] at hx
  split at hx
  · next hplain =>
    rw [List.mem_singleton] at hx
    exact .inl (hx ▸ hplain)
  · obtain ⟨b, -, hb⟩ := List.mem_flatMap.mp hx
    have hlt : b.toNat < 256 := b.toNat_lt
    simp only [List.mem_cons, List.not_mem_nil, or_false] at hb
    rcases hb with rfl | rfl | rfl
    · exact .inr rfl
    · exact .inl (isUnreserved_hexDigit _ (by omega))
    · exact .inl (isUnreserved_hexDigit _ (by omega))

/-! ## Reading what was written -/

/-- The text is ASCII, and `cs` is read from it, whatever follows it. -/
structure Writes (text cs : List Char) : Prop where
  ascii : ∀ c ∈ text, isAscii c = true
  bytes : ∀ rest, bytes (text ++ rest) = Utf8.encode cs ++ Percent.bytes rest

theorem Writes.nil : Writes [] [] where
  ascii := by simp
  bytes _ := rfl

/-- Texts that are written side by side write their characters side by side. -/
theorem Writes.append (h : Writes text cs) (h' : Writes more ds) :
    Writes (text ++ more) (cs ++ ds) where
  ascii c hc := (List.mem_append.mp hc).elim (h.ascii c) (h'.ascii c)
  bytes rest := by
    rw [List.append_assoc, h.bytes, h'.bytes, Utf8.encode, Utf8.encode, Utf8.encode,
      List.flatMap_append, List.append_assoc]

/-- A character other than a percent sign stands for its own byte. -/
theorem bytes_cons_of_ne (hc : c ≠ '%') (rest : List Char) :
    Percent.bytes (c :: rest) = UInt8.ofNat c.toNat :: Percent.bytes rest := by
  match rest with
  | [] => rfl
  | [_] => rfl
  | a :: b :: rest => rw [Percent.bytes, escaped?, if_neg hc]

/-- An ASCII character is one byte. -/
theorem utf8EncodeChar_of_isAscii (h : isAscii c = true) :
    String.utf8EncodeChar c = [UInt8.ofNat c.toNat] := by
  have hlt : c.val.toNat ≤ 127 := by
    have hc : c.toNat < 128 := by simpa [isAscii] using h
    exact Nat.le_of_lt_succ hc
  simp only [String.utf8EncodeChar, if_pos hlt]
  rfl

/-- An ASCII character that begins no escape is read as itself. -/
theorem writes_char (h : isAscii c = true) (hc : c ≠ '%') : Writes [c] [c] where
  ascii := by simpa using h
  bytes rest := by
    rw [List.singleton_append, bytes_cons_of_ne hc, Utf8.encode, List.flatMap_singleton,
      utf8EncodeChar_of_isAscii h, List.singleton_append]

/-- A slash writes itself. -/
theorem Writes.slash (h : Writes text cs) : Writes ('/' :: text) ('/' :: cs) :=
  (writes_char rfl (by decide)).append h

/-- Escapes are read as the bytes for which they were written. -/
theorem bytes_escapes (bs : List UInt8) (rest : List Char) :
    Percent.bytes ((bs.flatMap fun b =>
      ['%', hexDigit (b.toNat / 16), hexDigit (b.toNat % 16)]) ++ rest) =
      bs ++ Percent.bytes rest := by
  induction bs with
  | nil => rfl
  | cons b bs ih =>
    simp only [List.flatMap_cons, List.cons_append, List.nil_append]
    rw [Percent.bytes, escaped?_hexDigit]
    simp only [ih]

/-- An encoded text is ASCII. -/
theorem isAscii_of_mem_encode (h : c ∈ encode cs) : isAscii c = true := by
  rcases isUnreserved_of_mem_encode h with hc | rfl
  · exact isAscii_of_isUnreserved hc
  · rfl

/-- An encoded character writes it. -/
theorem writes_encodeChar (c : Char) : Writes (encodeChar c) [c] := by
  by_cases hc : isUnreserved c = true
  · rw [encodeChar, if_pos hc]
    refine writes_char (isAscii_of_isUnreserved hc) ?_
    rintro rfl
    cases hc
  · refine ⟨fun x hx => ?_, fun rest => ?_⟩
    · have hmem : x ∈ encode [c] := by simpa [encode] using hx
      exact isAscii_of_mem_encode hmem
    · rw [encodeChar, if_neg hc, bytes_escapes, Utf8.encode, List.flatMap_singleton]

/-- A text is read from its encoding. -/
theorem writes_encode (cs : List Char) : Writes (encode cs) cs := by
  induction cs with
  | nil => exact .nil
  | cons c cs ih => exact (writes_encodeChar c).append ih

/-- The whole of an ASCII text is read at once. -/
theorem Writes.decode_eq (h : Writes text cs) : decode text = cs := by
  have hbytes : Percent.bytes text = Utf8.encode cs := by
    simpa [Percent.bytes] using h.bytes []
  by_cases hne : text = []
  · subst hne
    have hdecode := congrArg Text.Utf8.decode hbytes
    rw [Text.Utf8.decode_encode] at hdecode
    exact hdecode
  · have hrun : text.splitBy (fun a b => isAscii a == isAscii b) = [text] := by
      refine List.splitBy_of_isChain hne (List.Pairwise.isChain ?_)
      rw [List.pairwise_iff_forall_sublist]
      intro a b hab
      rw [h.ascii a (hab.subset (by simp)), h.ascii b (hab.subset (by simp))]
      rfl
    obtain ⟨c, rest, rfl⟩ := List.exists_cons_of_ne_nil hne
    rw [decode, hrun, List.flatMap_singleton, List.head?_cons, Option.any_some,
      if_pos (h.ascii c List.mem_cons_self), hbytes, Text.Utf8.decode_encode]

/-- A text is read back from its encoding. -/
theorem decode_encode (cs : List Char) : decode (encode cs) = cs :=
  (writes_encode cs).decode_eq

end Percent

end BuildLens
