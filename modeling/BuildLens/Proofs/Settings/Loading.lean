import BuildLens.CommandLine.Program
import BuildLens.Proofs.Json.Limits
import BuildLens.Proofs.Text.Utf8

/-!
# Settings files that cannot be loaded

A settings file can be wrong in several ways, and for most of them the program has a message: the
file cannot be opened, it is not JSON, it holds another value than an object, or values in it are of
the wrong kind. It has none for a file that is not written in UTF-8, for a text that goes beyond a
limit of the reader, nor where the system does not say what the path leads to. These are all the
exceptions.

Main definitions:

- `SettingsError.IsReported`: errors of which the program tells.
- `Settings.LoadsInOrder`: files that give settings or a message.

Main results:

- `Settings.load_eq_barred_iff`, `Settings.load_eq_undecodable_iff`, `Settings.load_eq_beyond_iff`:
  the exceptions.
- `Settings.load_reported_iff`: which files give settings or a message.
- `Settings.load_unreported`: a file that gives neither.
-/

namespace BuildLens

/-- Whether the program tells of the error in a message and ends in order. -/
def SettingsError.IsReported (e : SettingsError) : Prop :=
  Program.withoutSettings e = .done (Program.failing e.message)

/-- The program has a message for all errors but three. -/
theorem SettingsError.isReported_iff {e : SettingsError} :
    e.IsReported ↔ (∀ error, e ≠ .barred error) ∧ e ≠ .undecodable ∧ ∀ limit, e ≠ .beyond limit := by
  cases e <;> simp [IsReported, Program.withoutSettings]

namespace Settings

open Text

variable {limits : Json.Limits} {path : String} {look : FileLook} {environment : Table String}
  {bytes : List UInt8} {limit : Json.Limit}

/-! ## The fields of a file -/

/-- The fields that a text holds, or what is wrong with it. -/
def fieldsOfText (limits : Json.Limits) (path : String) (text : List Char) :
    Except SettingsError (List (String × Json)) :=
  match Json.parse limits (String.ofList text) with
  | .error .malformed => .error (.notJson path)
  | .error (.beyond limit) => .error (.beyond limit)
  | .ok (.object fields) => .ok fields
  | .ok _ => .error (.notObject path)

/-- A file in UTF-8 holds what its text holds. -/
theorem fieldsOfFile_encode (limits : Json.Limits) (path : String) (text : List Char) :
    fieldsOfFile limits path (Utf8.encode text) = fieldsOfText limits path text := by
  rw [fieldsOfFile, Utf8.decodeStrict?_eq_some_iff.mpr rfl]
  rfl

/-- Bytes that no text is encoded by cannot be decoded. -/
theorem fieldsOfFile_of_ne (h : ∀ text, bytes ≠ Utf8.encode text) :
    fieldsOfFile limits path bytes = .error .undecodable := by
  cases hread : Utf8.decodeStrict? bytes with
  | none => rw [fieldsOfFile, hread]
  | some text => exact absurd (Utf8.decodeStrict?_eq_some_iff.mp hread) (h text)

/-- Of a text that is there the system and the decoder have nothing to say any more. -/
theorem fieldsOfText_ne {e : SettingsError} (he : e = .undecodable ∨ ∃ error, e = .barred error)
    (limits : Json.Limits) (path : String) (text : List Char) :
    fieldsOfText limits path text ≠ .error e := by
  rw [fieldsOfText]
  rcases he with rfl | ⟨error, rfl⟩ <;> split <;> simp

theorem fieldsOfText_eq_beyond_iff {text : List Char} :
    fieldsOfText limits path text = .error (.beyond limit) ↔
      Json.parse limits (String.ofList text) = .error (.beyond limit) := by
  rw [fieldsOfText]
  split
  · next h => simp [h]
  · next h => simp [h]
  · next h => simp [h]
  · next h => simp [h]

/-! ## The errors of a file -/

/-- Errors that are not about the kinds of values come from the file alone. -/
theorem load_eq_error_iff {e : SettingsError} (h : ∀ faults, e ≠ .invalid faults) :
    load limits path look environment = .error e ↔ fieldsOf limits path look = .error e := by
  rw [load]
  cases hfields : fieldsOf limits path look with
  | error e' =>
    change (.error e' : Except SettingsError Settings) = .error e ↔ _
    simp
  | ok fields =>
    change (ofJson (.object (withEnvironment fields environment))).mapError
      SettingsError.invalid = _ ↔ _
    cases ofJson (.object (withEnvironment fields environment)) with
    | error faults => simpa [Except.mapError] using (h faults).symm
    | ok settings => simp [Except.mapError]

/-- What can be wrong with the fields of a file, by what the system tells of it: an error without
regard to the text, or one of the text that the file holds. -/
theorem fieldsOf_eq_error_iff {e : SettingsError} :
    fieldsOf limits path look = .error e ↔
      (∃ error, look = .refused error ∧ error.errno.isNowhere = false ∧ e = .barred error) ∨
      (∃ error, look = .file (.error error) ∧ e = .unreadable path error) ∨
      (∃ bytes, look = .file (.ok bytes) ∧ (∀ text, bytes ≠ Utf8.encode text) ∧
        e = .undecodable) ∨
      ∃ text, look = .file (.ok (Utf8.encode text)) ∧ fieldsOfText limits path text = .error e := by
  rcases look with error | - | error | bytes
  · rw [fieldsOf]
    cases h : error.errno.isNowhere
    · simp [h, @eq_comm _ e]
    · simp [h]
  · simp [fieldsOf]
  · simp [fieldsOf, @eq_comm _ e]
  · rw [fieldsOf]
    by_cases hbytes : ∃ text, bytes = Utf8.encode text
    · obtain ⟨text, rfl⟩ := hbytes
      simp [fieldsOfFile_encode, Utf8.encode_injective.eq_iff]
    · rw [not_exists] at hbytes
      simp [fieldsOfFile_of_ne hbytes, hbytes, @eq_comm _ e]

/-- The system does not say what the path leads to, and not because it leads nowhere. -/
theorem load_eq_barred_iff {error : SystemError} :
    load limits path look environment = .error (.barred error) ↔
      look = .refused error ∧ error.errno.isNowhere = false := by
  rw [load_eq_error_iff (by simp), fieldsOf_eq_error_iff]
  simp [fieldsOfText_ne (.inr ⟨error, rfl⟩)]

/-- The file is not written in UTF-8. -/
theorem load_eq_undecodable_iff :
    load limits path look environment = .error .undecodable ↔
      ∃ bytes, look = .file (.ok bytes) ∧ ∀ text, bytes ≠ Utf8.encode text := by
  rw [load_eq_error_iff (by simp), fieldsOf_eq_error_iff]
  simp [fieldsOfText_ne (.inl rfl)]

/-- The text in the file goes beyond a limit. -/
theorem load_eq_beyond_iff :
    load limits path look environment = .error (.beyond limit) ↔
      ∃ text, look = .file (.ok (Utf8.encode text)) ∧
        Json.parse limits (String.ofList text) = .error (.beyond limit) := by
  rw [load_eq_error_iff (by simp), fieldsOf_eq_error_iff]
  simp [fieldsOfText_eq_beyond_iff]

/-! ## Which files are reported -/

/-- Whether loading gives settings or an error of which the program tells. -/
def LoadsInOrder (limits : Json.Limits) (path : String) (look : FileLook)
    (environment : Table String) : Prop :=
  (∃ settings, load limits path look environment = .ok settings) ∨
    ∃ e, load limits path look environment = .error e ∧ e.IsReported

theorem loadsInOrder_iff :
    LoadsInOrder limits path look environment ↔
      (∀ error, load limits path look environment ≠ .error (.barred error)) ∧
        load limits path look environment ≠ .error .undecodable ∧
          ∀ limit, load limits path look environment ≠ .error (.beyond limit) := by
  rw [LoadsInOrder]
  cases load limits path look environment with
  | ok settings => simp
  | error e => simp [SettingsError.isReported_iff]

/-- The bytes are a text in UTF-8 that a reader takes without going beyond its limits. -/
def IsWithin (limits : Json.Limits) (bytes : List UInt8) : Prop :=
  ∃ text, bytes = Utf8.encode text ∧
    ∀ limit, Json.parse limits (String.ofList text) ≠ .error (.beyond limit)

/-- A settings file gives settings or a message exactly if the system says what its path leads to,
or that it leads nowhere, and if what can be read of a regular file is a text in UTF-8 that is
within the limits of the reader. A text is within them if not too much is opened in it and no row of
digits is too long. The environment plays no part in that. -/
theorem load_reported_iff (limits : Json.Limits) (path : String) (look : FileLook)
    (environment : Table String) :
    (LoadsInOrder limits path look environment ↔
      (∀ error, look = .refused error → error.errno.isNowhere = true) ∧
        ∀ bytes, look = .file (.ok bytes) → IsWithin limits bytes) ∧
    ∀ text, Json.Moderate limits text → IsWithin limits (Utf8.encode text) := by
  refine ⟨?_, fun text hmoderate => ⟨text, rfl, hmoderate.parse_ne_beyond⟩⟩
  rw [loadsInOrder_iff, Ne, load_eq_undecodable_iff]
  constructor
  · rintro ⟨hseen, hdecodable, hwithin⟩
    constructor
    · rintro error rfl
      by_contra hbarred
      exact hseen error (load_eq_barred_iff.mpr ⟨rfl, Bool.not_eq_true _ ▸ hbarred⟩)
    · rintro bytes rfl
      obtain ⟨text, rfl⟩ : ∃ text, bytes = Utf8.encode text := by
        by_contra hnone
        exact hdecodable ⟨bytes, rfl, not_exists.mp hnone⟩
      exact ⟨text, rfl, fun limit h => hwithin limit (load_eq_beyond_iff.mpr ⟨text, rfl, h⟩)⟩
  · rintro ⟨hseen, hwithin⟩
    refine ⟨fun error hload => ?_, ?_, fun limit hload => ?_⟩
    · obtain ⟨hlook, hbarred⟩ := load_eq_barred_iff.mp hload
      exact Bool.false_ne_true (hbarred.symm.trans (hseen error hlook))
    · rintro ⟨bytes, hlook, hbytes⟩
      obtain ⟨text, htext, -⟩ := hwithin bytes hlook
      exact hbytes text htext
    · obtain ⟨text, hlook, hparse⟩ := load_eq_beyond_iff.mp hload
      obtain ⟨text', htext, hread⟩ := hwithin _ hlook
      obtain rfl := Utf8.encode_injective htext
      exact hread limit hparse

/-- A file that holds an empty object loads in order. -/
theorem load_reported_iff_emptyObject :
    LoadsInOrder {} "/settings.json" (.file (.ok (Utf8.encode ['\x7b', '\x7d']))) ∅ := by
  have hmoderate : Json.Moderate {} ['\x7b', '\x7d'] := by
    refine ⟨by decide, fun ds hds _ => ?_⟩
    exact hds.length_le.trans (by decide)
  obtain ⟨hiff, hwithin⟩ := load_reported_iff {} "/settings.json"
    (.file (.ok (Utf8.encode ['\x7b', '\x7d']))) ∅
  refine hiff.mpr ⟨nofun, ?_⟩
  rintro bytes ⟨⟩
  exact hwithin _ hmoderate

/-- A file with a byte that is none of UTF-8 gives neither settings nor a message, and nor does a
file in a directory that may not be searched. -/
theorem load_unreported :
    ¬ LoadsInOrder {} "/settings.json" (.file (.ok [0xFF])) ∅ ∧
      ¬ LoadsInOrder {} "/settings.json" (.refused ⟨.permission, "/settings.json"⟩) ∅ := by
  have hbyte : load {} "/settings.json" (.file (.ok [0xFF])) ∅ = .error .undecodable := by
    rfl
  have hbarred : load {} "/settings.json" (.refused ⟨.permission, "/settings.json"⟩) ∅ =
      .error (.barred ⟨.permission, "/settings.json"⟩) := by
    rfl
  exact ⟨fun h => (loadsInOrder_iff.mp h).2.1 hbyte,
    fun h => (loadsInOrder_iff.mp h).1 _ hbarred⟩

end Settings

end BuildLens
