import BuildLens.Folder.Basic
import BuildLens.Proofs.Path.Lifting
import BuildLens.Proofs.Path.Percent
import BuildLens.Proofs.Path.Reading

/-!
# Paths as URIs

A URI of a file holds the path behind its slashes, with escapes for all characters that mean
something else there. A path of a POSIX system is read back from its URI, whatever characters its
names are made of. A path with half of a surrogate pair in it has no URI, since the escapes stand
for the bytes of UTF-8.

Main definitions:

- `Uri.isKept`: characters that stand in the path of a URI as they are.
- `Uri.taken`: the text that is taken for a path.

Main results:

- `Uri.ofText?_file`: the parts of a URI of a file.
- `FilePath.ofUri_file`: what is read from it.
- `FilePath.ofUri_toUri_posix`: which paths, and folders that are named by them, are read back.
-/

namespace BuildLens

open Text (Rune)

variable {platform : Platform} {path cs : List Char}

/-! ## The URI of a file -/

/-- Whether a character may stand in the path of a URI as it is: it is not dropped, and it does not
end the path. -/
def Uri.isKept (c : Char) : Bool := decide (0x20 < c.toNat) && c != '?' && c != '#'

theorem Uri.not_dropped {c : Char} (h : isKept c = true) :
    (c != '\t' && c != '\r' && c != '\n') = true := by
  have htab : c ≠ '\t' := by
    rintro rfl
    cases h
  have hreturn : c ≠ '\r' := by
    rintro rfl
    cases h
  have hfeed : c ≠ '\n' := by
    rintro rfl
    cases h
  simp [htab, hreturn, hfeed]

/-- A URI of a file without a host has the path that stands behind its slashes. -/
theorem Uri.ofText?_file (hroot : path.head? = some '/') (hkept : ∀ c ∈ path, isKept c = true) :
    ofText? ("file://" ++ String.ofList path) = some ⟨some "file", path⟩ := by
  have hlist : ("file://" ++ String.ofList path).toList =
      ['f', 'i', 'l', 'e'] ++ ':' :: '/' :: '/' :: path := by simp
  have hall : ∀ c ∈ ['f', 'i', 'l', 'e'] ++ ':' :: '/' :: '/' :: path, isKept c = true := by
    simp only [List.cons_append, List.nil_append, List.forall_mem_cons]
    exact ⟨rfl, rfl, rfl, rfl, rfl, rfl, rfl, hkept⟩
  have hscheme : splitScheme (['f', 'i', 'l', 'e'] ++ ':' :: '/' :: '/' :: path) =
      (some "file", '/' :: '/' :: path) := by
    rw [splitScheme, Text.cutAt_append (by decide)]
    rfl
  have hhash : '#' ∉ path := fun h => by cases hkept _ h
  have hquery : '?' ∉ path := fun h => by cases hkept _ h
  obtain ⟨rest, rfl⟩ := List.head?_eq_some_iff.mp hroot
  have hpath : pathOf? ('/' :: '/' :: '/' :: rest) = some ('/' :: rest) := by
    have hempty : ('/' :: rest).takeWhile (!endsAuthority ·) = [] := by simp [endsAuthority]
    have hwhole : ('/' :: rest).dropWhile (!endsAuthority ·) = '/' :: rest := by
      simp [endsAuthority]
    have hvalid : Host.isValidAuthority [] = true := by decide
    simp only [pathOf?, hempty, hwhole, hvalid, if_true, Option.map_some,
      Text.cutAt_of_not_mem hhash, Text.cutAt_of_not_mem hquery]
  rw [ofText?, hlist]
  dsimp only
  rw [List.cons_append, List.dropWhile_cons, if_neg (by decide), ← List.cons_append,
    List.filter_eq_self.mpr fun c hc => not_dropped (hall c hc), hscheme]
  simp only [hpath, Option.map_some]

/-- The text that is taken for a path. On Windows the slash in front of a drive does not belong to
it. -/
def Uri.taken (platform : Platform) (cs : List Char) : List Char :=
  match platform, cs with
  | .windows, '/' :: d :: ':' :: rest => if d.isAlpha then d :: ':' :: rest else cs
  | _, _ => cs

/-- What is written for a text stays in a URI as it is, and holds no colon. -/
theorem Percent.isKept_of_mem_encode {c : Char} (h : c ∈ encode cs) :
    Uri.isKept c = true ∧ c ≠ ':' := by
  have hascii : ∀ n < 128, isUnreserved (Char.ofNat n) = true ∨ Char.ofNat n = '%' →
      Uri.isKept (Char.ofNat n) = true ∧ Char.ofNat n ≠ ':' := by decide
  have hlt : c.toNat < 128 := by simpa [isAscii] using isAscii_of_mem_encode h
  have hkept := hascii c.toNat hlt
  rw [Char.ofNat_toNat] at hkept
  exact hkept (isUnreserved_of_mem_encode h)

namespace FilePath

/-- The path of a URI of a file is what is read from the text behind its slashes. -/
theorem ofUri_file (hroot : path.head? = some '/') (hkept : ∀ c ∈ path, Uri.isKept c = true)
    (hread : Percent.Writes path cs) :
    ofUri platform ("file://" ++ String.ofList path) =
      ofText platform (String.ofList (Uri.taken platform cs)) := by
  rw [ofUri, Uri.ofText?_file hroot hkept]
  simp only [hread.decode_eq, if_true]
  rfl

/-- A path whose text is made of characters is read back from its URI, and a folder that is named by
the path has it for its path. -/
theorem ofUri_toUri_of_charsOf? {α : Type} [Text.Alphabet α] [DecidableEq α]
    (hp : platform ≠ .windows) {p : Posix.Path α} (h : Text.charsOf? p.chars = some cs)
    (name : Option String) :
    ∃ uri q, (posix p).toUri = .ok uri ∧ ofUri platform uri = .ok (posix q) ∧ q.lift = p ∧
      ∃ f, EditorFolder.ofPath (posix p) name = .ok f ∧ f.path platform = .ok (posix q) := by
  obtain ⟨q, hq, hlift⟩ := Posix.Path.exists_lift_eq h
  have hslash : cs.head? = some '/' :=
    Posix.Path.isSome_rootOf?.mp (Posix.Path.isSome_rootOf?_of_ofChars? hq)
  have hroot : (Percent.encode cs).head? = some '/' := by
    obtain ⟨rest, rfl⟩ := List.head?_eq_some_iff.mp hslash
    rfl
  have htaken : Uri.taken platform cs = cs := by
    cases platform with
    | windows => exact absurd rfl hp
    | linux | darwin => rfl
  have hread : ofUri platform ("file://" ++ String.ofList (Percent.encode cs)) = .ok (posix q) := by
    rw [ofUri_file hroot (fun c hc => (Percent.isKept_of_mem_encode hc).1)
      (Percent.writes_encode cs), htaken, ofText, ofText?_posix hp, Posix.Path.ofText?,
      String.toList_ofList, hq, Option.map_some]
  have huri : (posix p).toUri = .ok ("file://" ++ String.ofList (Percent.encode cs)) := by
    rw [toUri, h]
  have hfolder : EditorFolder.ofPath (posix p) name =
      .ok ⟨"file://" ++ String.ofList (Percent.encode cs), name.getD (posix p).shownName⟩ := by
    rw [EditorFolder.ofPath, huri]
    rfl
  exact ⟨_, q, huri, hread, hlift, _, hfolder, hread⟩

/-- A path of a POSIX system is read back from its URI, and a folder that is named by the path has
it for its path, if there is no half of a surrogate pair in the path. Otherwise the path has no URI,
and no folder can be named by it. -/
theorem ofUri_toUri_posix (hp : platform ≠ .windows) (p : Posix.Path Rune) (name : Option String) :
    ((∀ n, .half n ∉ p.chars) → ∃ uri q, (posix p).toUri = .ok uri ∧
      ofUri platform uri = .ok (posix q) ∧ q.lift = p ∧
      ∃ f, EditorFolder.ofPath (posix p) name = .ok f ∧ f.path platform = .ok (posix q)) ∧
    ((∃ n, .half n ∈ p.chars) → (posix p).toUri = .error .unencodable ∧
      EditorFolder.ofPath (posix p) name = .error .unencodable) := by
  cases h : Text.charsOf? p.chars with
  | some cs =>
    refine ⟨fun _ => ofUri_toUri_of_charsOf? hp h name, fun hhalf => ?_⟩
    rw [Rune.charsOf?_eq_none_iff.mpr hhalf] at h
    cases h
  | none =>
    have herror : (posix p).toUri = .error .unencodable := by rw [toUri, h]
    refine ⟨fun hnone => ?_, fun _ => ⟨herror, by rw [EditorFolder.ofPath, herror]; rfl⟩⟩
    obtain ⟨n, hn⟩ := Rune.charsOf?_eq_none_iff.mp h
    exact absurd hn (hnone n)

/-- A name below the root `//` that holds every character that means something in a URI, and a name
that is the byte 255, which stands in a path as a half. -/
theorem ofUri_toUri_posix_marks :
    Platform.linux ≠ .windows ∧
      (∃ p : Posix.Path Rune, Posix.Path.ofChars? ("//%41?#; \t\né".toList.map .char) = some p ∧
        (∀ n, .half n ∉ p.chars) ∧ ∃ uri q, (posix p).toUri = .ok uri ∧
          ofUri .linux uri = .ok (posix q) ∧ q.lift = p) ∧
      ∃ p : Posix.Path Rune, Posix.Path.ofChars? [.char '/', .half 0x4FF] = some p ∧
        (∃ n, .half n ∈ p.chars) ∧ (posix p).toUri = .error .unencodable := by
  have hlinux : Platform.linux ≠ .windows := by decide
  have hmarks : ∀ n, .half n ∉ (⟨.double, [⟨"%41?#; \t\né".toList.map .char, by decide⟩]⟩ :
      Posix.Path Rune).chars := by
    intro n hn
    have hnone := Rune.charsOf?_eq_none_iff.mpr ⟨n, hn⟩
    cases hnone
  have hbyte : ∃ n, .half n ∈ (⟨.single, [⟨[.half 0x4FF], by decide⟩]⟩ : Posix.Path Rune).chars :=
    ⟨0x4FF, by decide⟩
  obtain ⟨uri, q, huri, hread, hlift, -⟩ := (ofUri_toUri_posix hlinux _ none).1 hmarks
  exact ⟨hlinux, ⟨_, by rfl, hmarks, uri, q, huri, hread, hlift⟩, _, by rfl, hbyte,
    ((ofUri_toUri_posix hlinux _ none).2 hbyte).1⟩

/-- The file of `/src` whose name is the byte 255 has no URI from which it could be read back. -/
theorem toUri_undecodedName :
    ∃ p : Posix.Path Rune,
      Posix.Path.ofChars? ("/src/".toList.map .char ++ [.half 0x4FF]) = some p ∧
      ¬∃ uri q, (posix p).toUri = .ok uri ∧ ofUri .linux uri = .ok (posix q) ∧ q.lift = p := by
  refine ⟨⟨.single, [⟨"src".toList.map .char, by decide⟩, ⟨[.half 0x4FF], by decide⟩]⟩, by rfl, ?_⟩
  rintro ⟨uri, q, huri, -⟩
  cases huri

end FilePath

end BuildLens
