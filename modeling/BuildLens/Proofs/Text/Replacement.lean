import BuildLens.Proofs.Text.Utf8

/-!
# Faults in UTF-8

Where no character stands in a text, the bytes that still could have begun one are a single fault;
if not even the first byte could have, it is a fault on its own. This is said here without the
reader: a text is a row of characters and of such faults, each fault as long as possible. Every text
is such a row in exactly one way, and the reader gives the characters of that row, with U+FFFD for
every fault.

Main definitions:

- `Utf8.Begins`, `Utf8.FaultAt`: the beginnings of characters, and the bytes of one fault.
- `Utf8.Decoding`: the text that bytes write, faults replaced.
- `Utf8.Begun`: the state in which the beginning of a character leaves the reader.

Main results:

- `Utf8.FaultAt.readFrom`: the bytes of a fault are read as one fault.
- `Utf8.exists_decoding`: every row of bytes has characters and faults.
- `Utf8.decoding_iff`: these are what the reader finds.
-/

namespace BuildLens.Text.Utf8

variable {a b : UInt8} {bytes rest part seq : List UInt8} {missing low high bits n : Nat}
  {cs : List Char}

/-! ## Rows of characters and faults -/

/-- Whether the bytes are a beginning of the bytes of a character, or all of them. -/
def Begins (bytes : List UInt8) : Prop := ∃ seq n, CharBytes seq n ∧ bytes <+: seq

/-- Whether the bytes `bad` before `rest` are one fault: no character stands there, and of the bytes
that stand there they are as many as can begin a character, but at least one. -/
structure FaultAt (bad rest : List UInt8) : Prop where
  no_char : ∀ seq n, CharBytes seq n → ¬ seq <+: bad ++ rest
  length_pos : 0 < bad.length
  begins : bad.length = 1 ∨ Begins bad
  /-- More bytes do not. -/
  longest : ∀ longer, longer <+: bad ++ rest → Begins longer → longer.length ≤ bad.length

/-- The text that bytes write, each fault replaced. -/
inductive Decoding : List UInt8 → List Char → Prop where
  | nil : Decoding [] []
  | char {seq rest : List UInt8} {n : Nat} {cs : List Char} (h : CharBytes seq n)
      (hrest : Decoding rest cs) : Decoding (seq ++ rest) (Char.ofNat n :: cs)
  | fault {bad rest : List UInt8} {cs : List Char} (h : FaultAt bad rest)
      (hrest : Decoding rest cs) : Decoding (bad ++ rest) (replacement :: cs)

/-! ## Characters that are begun -/

/-- The bytes that begin a character and do not make it up: how many more are wanted after the next
one, between which bounds the next one lies, and what the bytes stand for. -/
inductive Begun : List UInt8 → (missing low high bits : Nat) → Prop where
  | two {a : UInt8} (hlow : 0xC2 ≤ a.toNat) (hhigh : a.toNat < 0xE0) :
      Begun [a] 0 0x80 0xBF (a.toNat - 0xC0)
  | three {a : UInt8} (hlow : 0xE0 ≤ a.toNat) (hhigh : a.toNat < 0xF0) :
      Begun [a] 1 (if a.toNat = 0xE0 then 0xA0 else 0x80) (if a.toNat = 0xED then 0x9F else 0xBF)
        (a.toNat - 0xE0)
  | four {a : UInt8} (hlow : 0xF0 ≤ a.toNat) (hhigh : a.toNat ≤ 0xF4) :
      Begun [a] 2 (if a.toNat = 0xF0 then 0x90 else 0x80) (if a.toNat = 0xF4 then 0x8F else 0xBF)
        (a.toNat - 0xF0)
  | more {part : List UInt8} {b : UInt8} {missing low high bits : Nat}
      (h : Begun part (missing + 1) low high bits) (hlow : low ≤ b.toNat) (hhigh : b.toNat ≤ high) :
      Begun (part ++ [b]) missing 0x80 0xBF (bits * 64 + (b.toNat - 0x80))

namespace Begun

theorem ne_nil (h : Begun part missing low high bits) : part ≠ [] := by
  cases h <;> simp

theorem missing_le (h : Begun part missing low high bits) : missing ≤ 2 := by
  induction h <;> omega

theorem bounds (h : Begun part missing low high bits) : 0x80 ≤ low ∧ low ≤ high ∧ high ≤ 0xBF := by
  cases h with
  | two => omega
  | three => split <;> split <;> omega
  | four => split <;> split <;> omega
  | more => omega

/-- The reader waits for the bytes that are missing. -/
theorem readFrom_append (h : Begun part missing low high bits) (rest : List UInt8) :
    readFrom .start (part ++ rest) = readFrom (.within missing low high bits) rest := by
  induction h generalizing rest with
  | two hlow hhigh => simp [readFrom_cons, step, first_two hlow hhigh]
  | three hlow hhigh => simp [readFrom_cons, step, first_three hlow hhigh]
  | four hlow hhigh => simp [readFrom_cons, step, first_four hlow hhigh]
  | more _ hlow hhigh ih =>
    rw [List.append_assoc, List.singleton_append, ih, readFrom_tail hlow hhigh]

/-- The last byte makes up the character. -/
theorem charBytes (h : Begun part 0 low high bits) (hlow : low ≤ b.toNat) (hhigh : b.toNat ≤ high) :
    CharBytes (part ++ [b]) (bits * 64 + (b.toNat - 0x80)) := by
  cases h with
  | two hlow' hhigh' => exact .two hlow' hhigh' ⟨hlow, hhigh⟩
  | more h hlow' hhigh' =>
    cases h with
    | three hlow'' hhigh'' =>
      exact .three hlow'' hhigh'' ⟨by split at hlow' <;> omega, by split at hhigh' <;> omega⟩
        (by intro h; simpa [h] using hlow') (by intro h; simpa [h] using hhigh') ⟨hlow, hhigh⟩
    | more h hlow'' hhigh'' =>
      cases h with
      | four hlow''' hhigh''' =>
        exact .four hlow''' hhigh''' ⟨by split at hlow'' <;> omega, by split at hhigh'' <;> omega⟩
          (by intro h; simpa [h] using hlow'') (by intro h; simpa [h] using hhigh'')
          ⟨hlow', hhigh'⟩ ⟨hlow, hhigh⟩
      | more h => exact absurd h.missing_le (by omega)

/-- What is begun can be made up. -/
theorem begins (h : Begun part missing low high bits) : Begins part := by
  have hbounds := h.bounds
  have hnext : low ≤ (UInt8.ofNat low).toNat ∧ (UInt8.ofNat low).toNat ≤ high := by
    rw [UInt8.toNat_ofNat']
    omega
  induction missing generalizing part low high bits with
  | zero => exact ⟨_, _, h.charBytes hnext.1 hnext.2, List.prefix_append part _⟩
  | succ missing ih =>
    have hmore := h.more hnext.1 hnext.2
    obtain ⟨seq, n, hseq, hprefix⟩ := ih hmore hmore.bounds (by decide)
    exact ⟨seq, n, hseq, (List.prefix_append part _).trans hprefix⟩

/-- A beginning of what is begun is begun. -/
theorem of_prefix {whole : List UInt8} (h : Begun whole missing low high bits)
    (hpart : part <+: whole) (hne : part ≠ []) :
    ∃ missing low high bits, Begun part missing low high bits := by
  have hsingle {a : UInt8} (hpart : part <+: [a]) : part = [a] := by
    rcases List.prefix_cons_iff.mp hpart with h | ⟨_, rfl, htail⟩
    · exact absurd h hne
    · rw [List.prefix_nil.mp htail]
  induction h with
  | two hlow hhigh => exact hsingle hpart ▸ ⟨_, _, _, _, .two hlow hhigh⟩
  | three hlow hhigh => exact hsingle hpart ▸ ⟨_, _, _, _, .three hlow hhigh⟩
  | four hlow hhigh => exact hsingle hpart ▸ ⟨_, _, _, _, .four hlow hhigh⟩
  | more h hlow hhigh ih =>
    rcases List.prefix_concat_iff.mp hpart with rfl | hpart
    · exact ⟨_, _, _, _, h.more hlow hhigh⟩
    · exact ih hpart

end Begun

/-- A character of more than one byte is begun by all of them but the last. -/
theorem CharBytes.exists_begun (h : CharBytes seq n) :
    (∃ a : UInt8, a.toNat < 0x80 ∧ seq = [a]) ∨
      ∃ part b low high bits, Begun part 0 low high bits ∧ seq = part ++ [b] := by
  cases h with
  | one ha => exact .inl ⟨_, ha, rfl⟩
  | @two a b hlow hhigh hb => exact .inr ⟨[a], b, _, _, _, .two hlow hhigh, rfl⟩
  | @three a b c hlow hhigh hb hshort hhalf hc =>
    rw [IsTail] at hb
    have hthree := Begun.three hlow hhigh
    exact .inr ⟨[a] ++ [b], c, _, _, _,
      hthree.more (by split <;> omega) (by split <;> omega), rfl⟩
  | @four a b c e hlow hhigh hb hshort hlast hc he =>
    rw [IsTail] at hb
    have hfour := Begun.four hlow hhigh
    have hmore := hfour.more (b := b) (by split <;> omega) (by split <;> omega)
    exact .inr ⟨[a] ++ [b] ++ [c], e, _, _, _, hmore.more hc.1 hc.2, rfl⟩

/-- A beginning of a character is all of it, or the character is begun. -/
theorem CharBytes.begun_of_prefix (h : CharBytes seq n) (hpart : part <+: seq) (hne : part ≠ []) :
    part = seq ∨ ∃ missing low high bits, Begun part missing low high bits := by
  rcases h.exists_begun with ⟨a, -, rfl⟩ | ⟨before, b, low, high, bits, hbegun, rfl⟩
  · rcases List.prefix_cons_iff.mp hpart with h | ⟨_, rfl, htail⟩
    · exact absurd h hne
    · exact .inl (by rw [List.prefix_nil.mp htail])
  · rcases List.prefix_concat_iff.mp hpart with h | hbefore
    · exact .inl h
    · exact .inr (hbegun.of_prefix hbefore hne)

/-! ## Faults -/

/-- A character that is begun and does not go on is one fault, and what follows is read anew. -/
theorem readFrom_broken
    (h : ∀ b rest', rest = b :: rest' → ¬ (low ≤ b.toNat ∧ b.toNat ≤ high)) :
    readFrom (.within missing low high bits) rest = none :: readFrom .start rest := by
  cases rest with
  | nil => rfl
  | cons b rest =>
    rw [readFrom_cons (.within missing low high bits), step, if_neg (h b rest rfl)]
    split
    · next hhalf =>
      -- The reader has taken the second byte of a surrogate as well, which is a fault of its own.
      have hb : first b = ([none], .start) := first_none (.inl ⟨by omega, by omega⟩)
      cases rest <;> simp [readFrom_cons, step, hb, finish]
    · rw [readFrom_cons]
      rfl

/-- A fault is a byte that begins no character, or a character that is begun. -/
theorem FaultAt.begun (h : FaultAt part rest) :
    (∃ a : UInt8, part = [a] ∧ (0x80 ≤ a.toNat ∧ a.toNat < 0xC2 ∨ 0xF4 < a.toNat)) ∨
      ∃ missing low high bits, Begun part missing low high bits := by
  have hne : part ≠ [] := List.length_pos_iff.mp h.length_pos
  rcases h.begins with hone | ⟨seq, n, hseq, hprefix⟩
  · obtain ⟨a, rfl⟩ := List.length_eq_one_iff.mp hone
    have hone : 0x80 ≤ a.toNat := by
      by_contra hlt
      exact h.no_char [a] _ (.one (by omega)) (List.prefix_append [a] rest)
    by_cases hnone : a.toNat < 0xC2 ∨ 0xF4 < a.toNat
    · exact .inl ⟨a, rfl, by omega⟩
    by_cases htwo : a.toNat < 0xE0
    · exact .inr ⟨_, _, _, _, .two (by omega) htwo⟩
    by_cases hthree : a.toNat < 0xF0
    · exact .inr ⟨_, _, _, _, .three (by omega) hthree⟩
    · exact .inr ⟨_, _, _, _, .four (by omega) (by omega)⟩
  · rcases hseq.begun_of_prefix hprefix hne with rfl | hbegun
    · exact absurd (List.prefix_append part rest) (h.no_char part n hseq)
    · exact .inr hbegun

/-- The bytes of a fault are read as one fault. -/
theorem FaultAt.readFrom (h : FaultAt part rest) :
    readFrom .start (part ++ rest) = none :: readFrom .start rest := by
  rcases h.begun with ⟨a, rfl, ha⟩ | ⟨missing, low, high, bits, hbegun⟩
  · simp [readFrom_cons, step, first_none ha]
  · rw [hbegun.readFrom_append, readFrom_broken]
    rintro b rest rfl ⟨hlow, hhigh⟩
    have hprefix : part ++ [b] <+: part ++ b :: rest := by simp
    cases missing with
    | zero => exact h.no_char _ _ (hbegun.charBytes hlow hhigh) hprefix
    | succ missing =>
      have hlonger := h.longest _ hprefix (hbegun.more hlow hhigh).begins
      simp at hlonger

/-! ## Every row of bytes -/

theorem begins_nil : Begins [] :=
  ⟨[0], _, .one (by decide), List.nil_prefix⟩

/-- Where no character stands, there is a fault. -/
theorem exists_fault (hne : bytes ≠ []) (h : ∀ seq n, CharBytes seq n → ¬ seq <+: bytes) :
    ∃ bad rest, bytes = bad ++ rest ∧ FaultAt bad rest := by
  classical
  let longest := Nat.findGreatest (fun k => Begins (bytes.take k)) bytes.length
  have hlength : (bytes.take (max 1 longest)).length = max 1 longest := by
    have hpos : 0 < bytes.length := List.length_pos_iff.mpr hne
    have hle : longest ≤ bytes.length := Nat.findGreatest_le bytes.length
    rw [List.length_take]
    omega
  have hwhole : bytes.take (max 1 longest) ++ bytes.drop (max 1 longest) = bytes :=
    List.take_append_drop _ bytes
  refine ⟨bytes.take (max 1 longest), bytes.drop (max 1 longest), hwhole.symm, ?_⟩
  refine ⟨by rwa [hwhole], by omega, ?begins, ?longest⟩
  case begins =>
    have hbegins : Begins (bytes.take longest) :=
      Nat.findGreatest_spec (P := fun k => Begins (bytes.take k)) (Nat.zero_le _)
        (by simpa using begins_nil)
    by_cases hone : longest ≤ 1
    · exact .inl (by omega)
    · exact .inr (by rwa [Nat.max_eq_right (by omega)])
  case longest =>
    intro longer hprefix hbegins
    rw [hwhole] at hprefix
    have hle : longer.length ≤ longest :=
      Nat.le_findGreatest hprefix.length_le (by rwa [← List.prefix_iff_eq_take.mp hprefix])
    omega

/-- Every row of bytes writes a text. -/
theorem exists_decoding (bytes : List UInt8) : ∃ cs, Decoding bytes cs := by
  induction hlength : bytes.length using Nat.strong_induction_on generalizing bytes with
  | _ length ih =>
    subst hlength
    by_cases hne : bytes = []
    · exact ⟨[], hne ▸ .nil⟩
    by_cases hchar : ∃ seq n, CharBytes seq n ∧ seq <+: bytes
    · obtain ⟨seq, n, hseq, rest, rfl⟩ := hchar
      have hpos : 0 < seq.length := by cases hseq <;> simp
      obtain ⟨cs, hcs⟩ := ih rest.length (by simp; omega) rest rfl
      exact ⟨_, .char hseq hcs⟩
    · obtain ⟨bad, rest, rfl, hfault⟩ :=
        exists_fault hne fun seq n hseq hprefix => hchar ⟨seq, n, hseq, hprefix⟩
      have hpos := hfault.length_pos
      obtain ⟨cs, hcs⟩ := ih rest.length (by simp; omega) rest rfl
      exact ⟨_, .fault hfault hcs⟩

theorem decode_eq_readFrom (bytes : List UInt8) :
    decode bytes = replaceFaults (readFrom .start bytes) :=
  rfl

theorem Decoding.decode_eq (h : Decoding bytes cs) : decode bytes = cs := by
  rw [decode_eq_readFrom]
  induction h with
  | nil => rfl
  | char h _ ih =>
    rw [readFrom_charBytes h, ← ih]
    rfl
  | fault h _ ih =>
    rw [h.readFrom, ← ih]
    rfl

/-- The characters and faults of a row of bytes are what the reader finds. -/
theorem decoding_iff : Decoding bytes cs ↔ decode bytes = cs := by
  constructor
  · exact Decoding.decode_eq
  · rintro rfl
    obtain ⟨cs, hcs⟩ := exists_decoding bytes
    rwa [hcs.decode_eq]

end BuildLens.Text.Utf8
