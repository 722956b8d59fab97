import BuildLens.Proofs.Json.Schema
import BuildLens.Proofs.Path.Reading
import BuildLens.Proofs.Table
import BuildLens.Settings.Basic
import Mathlib.Data.List.DropRight

/-!
# Which settings hold for a folder

Settings can be given for all folders and for single ones, and a folder can be named by several
spellings of its path. Each setting is decided by itself: the last entry that names the folder and
gives the setting decides. To give it as null or as a blank text is to give it; to leave it out is
not.

Main definitions:

- `FolderField`: the settings of a folder, each with the type of its values.
- `InForce`: the value that the last of the entries decides.
- `FolderOverrides.WrittenIn`, `Settings.WrittenIn`: the settings that a JSON value holds.
- `Settings.mergedFor`: the settings for a folder as an object, which is then read in its turn.

Main results:

- `Settings.ofJson_eq_ok_iff`: settings are read just as they are written.
- `Settings.value_forFolder_iff`: the last entry decides.
- `Settings.exists_read_mergedFor`: reading what was merged changes nothing.
- `Settings.forFolder_decided`: all of this together.
-/

namespace BuildLens

/-! ## Texts without blanks at their ends -/

namespace Text

/-- A text without blanks at its ends has none at its beginning. -/
theorem trimLeft_trim (cs : List Char) : trimLeft (trim cs) = trim cs := by
  have hfront : trim cs <+: trimLeft cs := List.rdropWhile_prefix isBlank (trimLeft cs)
  rw [trimLeft, List.dropWhile_eq_self_iff]
  intro hpos
  rw [hfront.getElem hpos]
  exact List.dropWhile_get_zero_not isBlank cs (hpos.trans_le hfront.length_le)

/-- A text loses all blanks at its ends at once. -/
theorem trim_trim (cs : List Char) : trim (trim cs) = trim cs := by
  rw [trim, trimLeft_trim]
  exact List.rdropWhile_idempotent isBlank (trimLeft cs)

/-- A string loses all blanks at its ends at once. -/
@[simp]
theorem strip_strip (s : String) : strip (strip s) = strip s := by
  rw [strip, strip, String.toList_ofList, trim_trim]

end Text

/-! ## The last entry decides -/

section

variable {γ α : Type} {counts : γ → Prop} {given : γ → Option α} {usual v : α} {e : γ} {es : List γ}

/-- The value in force: the last entry that counts and gives a value decides, and without one the
usual value holds. -/
inductive InForce (counts : γ → Prop) (given : γ → Option α) (usual : α) : List γ → α → Prop where
  | given {before after : List γ} {e : γ} {v : α} (hcounts : counts e) (hgiven : given e = some v)
      (hlast : ∀ e' ∈ after, counts e' → given e' = none) :
      InForce counts given usual (before ++ e :: after) v
  | usual {es : List γ} (hnone : ∀ e ∈ es, counts e → given e = none) :
      InForce counts given usual es usual

/-- Without entries the usual value holds. -/
@[simp]
theorem inForce_nil : InForce counts given usual [] v ↔ usual = v := by
  constructor
  · intro h
    generalize hes : ([] : List γ) = es at h
    cases h with
    | given => simp at hes
    | usual => rfl
  · rintro rfl
    exact .usual (by simp)

/-- The last entry decides, or it is as if it were not there. -/
theorem inForce_concat :
    InForce counts given usual (es ++ [e]) v ↔
      counts e ∧ given e = some v ∨
        (counts e → given e = none) ∧ InForce counts given usual es v := by
  constructor
  · intro hv
    generalize hes : es ++ [e] = all at hv
    cases hv with
    | @given before after e' v hcounts hgiven hlast =>
      rcases List.eq_nil_or_concat after with rfl | ⟨after, last, rfl⟩
      · obtain ⟨rfl, he⟩ := List.append_inj' hes rfl
        cases he
        exact .inl ⟨hcounts, hgiven⟩
      · rw [List.concat_eq_append, ← List.cons_append, ← List.append_assoc] at hes
        obtain ⟨rfl, he⟩ := List.append_inj' hes rfl
        cases he
        simp only [List.concat_eq_append, List.forall_mem_append, List.forall_mem_singleton] at hlast
        exact .inr ⟨hlast.2, .given hcounts hgiven hlast.1⟩
    | usual hnone =>
      subst hes
      simp only [List.forall_mem_append, List.forall_mem_singleton] at hnone
      exact .inr ⟨hnone.2, .usual hnone.1⟩
  · rintro (⟨hcounts, hgiven⟩ | ⟨he, hv⟩)
    · exact .given hcounts hgiven (by simp)
    · cases hv with
      | given hcounts hgiven hlast =>
        rw [List.append_assoc, List.cons_append]
        apply InForce.given hcounts hgiven
        simpa only [List.forall_mem_append, List.forall_mem_singleton] using ⟨hlast, he⟩
      | usual hnone =>
        apply InForce.usual
        simpa only [List.forall_mem_append, List.forall_mem_singleton] using ⟨hnone, he⟩

/-- What the usual value and all given ones satisfy, the value in force satisfies. -/
theorem InForce.satisfies {P : α → Prop} (h : InForce counts given usual es v) (husual : P usual)
    (hgiven : ∀ e ∈ es, ∀ v, given e = some v → P v) : P v := by
  cases h with
  | @given before after e v _ he _ =>
    exact hgiven e (List.mem_append_right before List.mem_cons_self) v he
  | usual => exact husual

end

/-! ## The settings of a folder one by one -/

/-- A setting of a folder, with the type of its values. -/
inductive FolderField : Type → Type where
  | compiler (language : Language) : FolderField (Option String)
  | machPath : FolderField (Option String)
  | machEnvironment : FolderField (Table String)
  | flagsSource : FolderField FlagsSource

/-- Whether a value says that a text is none, or which text it is. Null and a blank text say none,
and another text says itself, without the blanks at its ends. -/
inductive Chooses : Json → Option String → Prop where
  | null : Chooses .null none
  | blank {j : Json} {s : String} (hs : j.Shows s) (h : Text.strip s = "") : Chooses j none
  | text {j : Json} {s : String} (hs : j.Shows s) (h : Text.strip s ≠ "") :
    Chooses j (some (Text.strip s))

namespace FolderField

variable {α : Type}

/-- The name of the setting. -/
def name : FolderField α → String
  | .compiler .c => "c.compiler"
  | .compiler .cpp => "cpp.compiler"
  | .machPath => "mach.path"
  | .machEnvironment => "mach.environment"
  | .flagsSource => "flags.source"

/-- The other name of the setting, which counts where the first one is not used. -/
def plainName : FolderField α → String
  | .compiler .c => "c_compiler"
  | .compiler .cpp => "cpp_compiler"
  | .machPath => "mach_path"
  | .machEnvironment => "mach_environment"
  | .flagsSource => "flags_source"

/-- The value that holds. -/
def value : FolderField α → FolderSettings → α
  | .compiler language, s => s.compilerFor language
  | .machPath, s => s.machPath
  | .machEnvironment, s => s.machEnvironment
  | .flagsSource, s => s.flagsSource

/-- The value that is given, if one is. -/
def given : FolderField α → FolderOverrides → Option α
  | .compiler .c, o => o.cCompiler
  | .compiler .cpp, o => o.cppCompiler
  | .machPath, o => o.machPath
  | .machEnvironment, o => o.machEnvironment
  | .flagsSource, o => o.flagsSource

/-- Whether a JSON value says that the setting has a value. -/
def Says : FolderField α → Json → α → Prop
  | .compiler _, j, v => Chooses j v
  | .machPath, j, v => Chooses j v
  | .machEnvironment, j, t => ∃ entries, j.ShowsFields entries ∧ Table.ofList entries = t
  | .flagsSource, j, source => j = .string source.name

/-- The value as JSON. -/
def write : FolderField α → α → Json
  | .compiler _, v => .ofText? v
  | .machPath, v => .ofText? v
  | .machEnvironment, t => .ofTextTable t
  | .flagsSource, source => .string source.name

/-- Settings that are given override those that hold, and the others stay. -/
@[simp]
theorem value_applyTo (field : FolderField α) (o : FolderOverrides) (s : FolderSettings) :
    field.value (o.applyTo s) = (field.given o).getD (field.value s) := by
  rcases field with ⟨⟨⟩⟩ | _ | _ | _ <;> rfl

end FolderField

/-- Settings are the same if all their values are. -/
theorem FolderSettings.ext_value {s t : FolderSettings}
    (h : ∀ {α : Type} (field : FolderField α), field.value s = field.value t) : s = t := by
  cases s
  cases t
  congr
  · exact h (.compiler .c)
  · exact h (.compiler .cpp)
  · exact h .machPath
  · exact h .machEnvironment
  · exact h .flagsSource

/-! ## Reading settings -/

open Json (Reading Step)

/-- A source is told by its own name, and by no other text. -/
theorem FlagsSource.ofName?_eq_some_iff {s : String} {source : FlagsSource} :
    FlagsSource.ofName? s = some source ↔ s = source.name := by
  constructor
  · rw [FlagsSource.ofName?.eq_def]
    split <;> rintro ⟨⟩ <;> rfl
  · rintro rfl
    cases source <;> rfl

namespace FolderOverrides

/-- A text that may be null is read as what the value says of it. -/
theorem result_readChoiceOfText {place : List Step} {j : Json} {v : Option String} :
    (readChoiceOfText place j).result = .ok v ↔ Chooses j v := by
  by_cases hnull : j = .null
  · subst hnull
    rw [readChoiceOfText, Reading.result_pure]
    constructor
    · rintro rfl
      exact .null
    · rintro (_ | ⟨⟨⟩, -⟩ | ⟨⟨⟩, -⟩)
      rfl
  · rw [readChoiceOfText.eq_def]
    simp only [Reading.result_bind, Json.result_readText, Reading.result_pure, String.isEmpty_iff]
    constructor
    · rintro ⟨s, hs, rfl⟩
      split
      · next h => exact .blank hs h
      · next h => exact .text hs h
    · intro h
      cases h with
      | null => exact absurd rfl hnull
      | blank hs h => exact ⟨_, hs, if_pos h⟩
      | text hs h => exact ⟨_, hs, if_neg h⟩

/-- A source is read from its name, and from nothing else. -/
theorem result_readFlagsSource {place : List Step} {j : Json} {source : FlagsSource} :
    (readFlagsSource place j).result = .ok source ↔ j = .string source.name := by
  cases j with
  | string s =>
    rw [readFlagsSource]
    cases hs : FlagsSource.ofName? s with
    | none =>
      have hne : s ≠ source.name := fun h => by
        rw [FlagsSource.ofName?_eq_some_iff.mpr h] at hs
        cases hs
      simpa using hne
    | some found =>
      have hiff : found = source ↔ s = source.name := by
        rw [← FlagsSource.ofName?_eq_some_iff, hs, Option.some_inj]
      simpa using hiff
  | _ => simp [readFlagsSource]

/-- A field with two names is read from the value under the first name, or else under the second. -/
theorem result_readEither {α : Type} {read : List Step → Json → Reading α}
    {meaning : Json → α → Prop}
    (hread : ∀ place j a, (read place j).result = .ok a ↔ meaning j a) {place : List Step}
    {record : Json} {name second : String} {v : Option α} :
    (readEither read place record name second).result = .ok v ↔
      Option.Rel meaning ((record.get? name).or (record.get? second)) v := by
  rw [readEither, Json.result_readField]
  cases hname : record.get? name with
  | none => simp [hread]
  | some j => simp [hread, hname]

/-- Whether an object gives just these settings. Each is given by its name, or else by its other
name, and a setting that has neither is not given. -/
def WrittenIn (record : Json) (o : FolderOverrides) : Prop :=
  (∃ fields, record = .object fields) ∧ ∀ {α : Type} (field : FolderField α),
    Option.Rel field.Says ((record.get? field.name).or (record.get? field.plainName))
      (field.given o)

/-- What is read from an object is what it gives. -/
theorem result_read {place : List Step} {record : Json} {o : FolderOverrides} :
    (read place record).result = .ok o ↔ o.WrittenIn record := by
  have hchoice := @result_readEither _ readChoiceOfText Chooses
    (fun _ _ _ => result_readChoiceOfText) place record
  have henv := @result_readEither _ Json.readTextTable FolderField.machEnvironment.Says
    (fun _ _ _ => Json.result_readTextTable) place record
  have hsource := @result_readEither _ readFlagsSource FolderField.flagsSource.Says
    (fun _ _ _ => result_readFlagsSource) place record
  simp only [read, Json.result_readRecord, Reading.result_bind, hchoice, henv, hsource,
    Reading.result_pure, WrittenIn]
  apply and_congr_right'
  constructor
  · rintro ⟨c, hc, cpp, hcpp, path, hpath, env, henv, source, hsource, rfl⟩ α field
    rcases field with ⟨⟨⟩⟩ | _ | _ | _
    · exact hc
    · exact hcpp
    · exact hpath
    · exact henv
    · exact hsource
  · intro h
    exact ⟨_, h (.compiler .c), _, h (.compiler .cpp), _, h .machPath, _, h .machEnvironment, _,
      h .flagsSource, rfl⟩

/-- An object without fields gives no settings, and only these. -/
theorem writtenIn_empty {o : FolderOverrides} : o.WrittenIn (.object []) ↔ o = {} := by
  have hrel {α : Type} (field : FolderField α) :
      Option.Rel field.Says none (field.given o) ↔ field.given o = none := by
    cases field.given o <;> simp
  have hget (name : String) : (Json.object []).get? name = none := rfl
  simp only [WrittenIn, hget, Option.or_none, hrel]
  constructor
  · rintro ⟨-, h⟩
    cases o
    congr
    · exact h (.compiler .c)
    · exact h (.compiler .cpp)
    · exact h .machPath
    · exact h .machEnvironment
    · exact h .flagsSource
  · rintro rfl
    refine ⟨⟨_, rfl⟩, fun field => ?_⟩
    rcases field with ⟨⟨⟩⟩ | _ | _ | _ <;> rfl

end FolderOverrides

namespace Settings

/-- Whether an object holds just these settings. What is missing in it has its usual value, and an
entry for a folder stands under the path of the folder. The entries for single folders are kept in
order. -/
structure WrittenIn (j : Json) (s : Settings) : Prop where
  record : ∃ fields, j = .object fields
  mozillaBuild : ((j.get? "mozillabuild").getD (.string ({} : Settings).mozillaBuild)).Shows
    s.mozillaBuild
  defaults : ∃ o : FolderOverrides, o.WrittenIn ((j.get? "defaults").getD (.object [])) ∧
    o.complete = s.defaults
  folders : ∃ fields, (j.get? "folders").getD (.object []) = .object fields ∧
    List.Forall₂ (fun f e => f.1 = e.1 ∧ e.2.WrittenIn f.2) fields s.folders

/-- Settings are read just as they are written. -/
theorem ofJson_eq_ok_iff {j : Json} {s : Settings} : ofJson j = .ok s ↔ s.WrittenIn j := by
  have hmozilla := @Json.exists_rel_iff _ _ Json.Shows
    (j.get? "mozillabuild") (.string ({} : Settings).mozillaBuild) (·.getD ({} : Settings).mozillaBuild)
    s.mozillaBuild (by simp)
  have hdefaults := @Json.exists_rel_iff _ _ (fun j (o : FolderOverrides) => o.WrittenIn j)
    (j.get? "defaults") (.object []) (fun o => (o.map FolderOverrides.complete).getD {}) s.defaults
    (by simp [FolderOverrides.writtenIn_empty]; rfl)
  have hfolders := @Json.exists_rel_iff _ _ (fun j (entries : List (String × FolderOverrides)) =>
      ∃ fields, j = .object fields ∧
        List.Forall₂ (fun f e => f.1 = e.1 ∧ e.2.WrittenIn f.2) fields entries)
    (j.get? "folders") (.object []) (·.getD []) s.folders (by simp [eq_comm])
  simp only [ofJson, read, Json.result_readRecord, Reading.result_bind, Json.result_readField,
    Json.result_readText, Json.result_readTable, Json.result_readFields,
    FolderOverrides.result_read, Reading.result_pure]
  simp only [Option.getD_some, Option.map_some, exists_eq_right] at hmozilla hdefaults hfolders
  constructor
  · rintro ⟨hrecord, mozillaBuild, hm, defaults, hd, folders, hf, rfl⟩
    exact ⟨hrecord, hmozilla.mp ⟨_, hm, rfl⟩, hdefaults.mp ⟨_, hd, rfl⟩, hfolders.mp ⟨_, hf, rfl⟩⟩
  · intro h
    obtain ⟨mozillaBuild, hm, hmozillaBuild⟩ := hmozilla.mpr h.mozillaBuild
    obtain ⟨o, hd, hcomplete⟩ := hdefaults.mpr h.defaults
    obtain ⟨folders, hf, hentries⟩ := hfolders.mpr h.folders
    refine ⟨h.record, mozillaBuild, hm, o, hd, folders, hf, ?_⟩
    rw [hmozillaBuild, hcomplete, hentries]

end Settings

/-! ## The settings for a folder -/

/-- Whether a text is an absolute path to a folder, in whatever spelling. -/
def FilePath.LeadsTo (platform : Platform) (key : String) (root : FilePath) : Prop :=
  isAbsoluteText platform key = true ∧
    ∃ p, ofText? platform key = some p ∧ p.same root = true

namespace Settings

variable {platform : Platform} {root : FilePath} {s : Settings}

/-- A key names a folder if it is an absolute path that leads there, and only then. -/
theorem names_iff {key : String} :
    names platform key root = true ↔ FilePath.LeadsTo platform key root := by
  rw [names, FilePath.LeadsTo, ← FilePath.isSome_ofText?]
  cases FilePath.ofText? platform key <;> simp

/-- The last entry that names the folder and gives the setting decides. -/
theorem value_forFolder_iff {α : Type} (field : FolderField α) {v : α} :
    field.value (s.forFolder platform root) = v ↔
      InForce (fun e => FilePath.LeadsTo platform e.1 root) (fun e => field.given e.2)
        (field.value s.defaults) s.folders v := by
  rw [forFolder]
  induction s.folders using List.reverseRecOn generalizing v with
  | nil => simp
  | append_singleton es e ih =>
    rw [List.foldl_concat, inForce_concat, ← ih, ← names_iff]
    cases names platform e.1 root with
    | false => simp
    | true => cases h : field.given e.2 <;> simp [h]

/-- Entries that do not name the folder have no effect. -/
theorem forFolder_congr {t : Settings} (hdefaults : s.defaults = t.defaults)
    (hfolders : s.folders.filter (fun e => names platform e.1 root) =
      t.folders.filter fun e => names platform e.1 root) :
    s.forFolder platform root = t.forFolder platform root := by
  have hfilter (s : Settings) : s.forFolder platform root =
      (s.folders.filter fun e => names platform e.1 root).foldl
        (fun merged e => e.2.applyTo merged) s.defaults := by
    rw [forFolder, List.foldl_filter]
  rw [hfilter s, hfilter t, hdefaults, hfolders]

end Settings

/-! ## Merging objects and reading the outcome -/

namespace FolderField

variable {α : Type}

/-- The field of an object under the plain name, if the setting is given. -/
def fieldOf (field : FolderField α) (o : FolderOverrides) : List (String × Json) :=
  ((field.given o).map fun v => (field.plainName, field.write v)).toList

/-- Of the fields of a setting only the one under its plain name has a value. -/
@[simp]
theorem lookup_reverse_fieldOf (field : FolderField α) (o : FolderOverrides) (name : String) :
    (field.fieldOf o).reverse.lookup name =
      if name = field.plainName then (field.given o).map field.write else none := by
  rw [fieldOf]
  cases field.given o with
  | none => simp
  | some v =>
    by_cases h : name = field.plainName
    · simp [h]
    · simp [List.lookup_cons, beq_eq_false_iff_ne.mpr h, h]

/-- Whether a value can be read back: a text is not blank and has no blanks at its ends. -/
def Tidy : FolderField α → α → Prop
  | .compiler _, v => ∀ s ∈ v, Text.strip s = s ∧ s ≠ ""
  | .machPath, v => ∀ s ∈ v, Text.strip s = s ∧ s ≠ ""
  | .machEnvironment, _ => True
  | .flagsSource, _ => True

end FolderField

/-- A text that is chosen has no blanks at its ends and is not empty. -/
theorem Chooses.tidy {j : Json} {v : Option String} (h : Chooses j v) :
    ∀ s ∈ v, Text.strip s = s ∧ s ≠ "" := by
  cases h with
  | null => simp
  | blank => simp
  | text hs h => simpa using h

/-- A text without blanks at its ends chooses itself. -/
theorem chooses_ofText? {v : Option String} (h : ∀ s ∈ v, Text.strip s = s ∧ s ≠ "") :
    Chooses (.ofText? v) v := by
  cases v with
  | none => exact .null
  | some s =>
    obtain ⟨hstrip, hne⟩ := h s rfl
    have hs : Chooses (.string s) (some (Text.strip s)) := .text (.string s) (by rwa [hstrip])
    rwa [hstrip] at hs

namespace FolderField

variable {α : Type}

/-- A value that JSON says can be read back. -/
theorem Says.tidy {field : FolderField α} {j : Json} {v : α} (h : field.Says j v) :
    field.Tidy v := by
  cases field with
  | compiler => exact Chooses.tidy h
  | machPath => exact Chooses.tidy h
  | machEnvironment => trivial
  | flagsSource => trivial

/-- A value that can be read back is said by what is written for it. -/
theorem says_write {field : FolderField α} {v : α} (h : field.Tidy v) :
    field.Says (field.write v) v := by
  cases field with
  | compiler => exact chooses_ofText? h
  | machPath => exact chooses_ofText? h
  | machEnvironment =>
    refine ⟨v.entries, ⟨_, rfl, ?_⟩, Table.ofList_entries v⟩
    exact List.forall₂_map_left_iff.mpr (List.forall₂_same.mpr fun e _ => ⟨rfl, .string e.2⟩)
  | flagsSource => rfl

/-- The usual values can be read back. -/
theorem tidy_usual (field : FolderField α) : field.Tidy (field.value {}) := by
  rcases field with ⟨⟨⟩⟩ | _ | _ | _ <;> simp [Tidy, value, FolderSettings.compilerFor]

end FolderField

namespace FolderOverrides

variable {α : Type}

/-- The settings that are given as the fields of an object. -/
def fields (o : FolderOverrides) : List (String × Json) :=
  (FolderField.compiler .c).fieldOf o ++ (FolderField.compiler .cpp).fieldOf o ++
    FolderField.machPath.fieldOf o ++ FolderField.machEnvironment.fieldOf o ++
    FolderField.flagsSource.fieldOf o

/-- The values that an object gives can be read back. -/
theorem WrittenIn.tidy {o : FolderOverrides} {record : Json} (h : o.WrittenIn record)
    (field : FolderField α) : ∀ v, field.given o = some v → field.Tidy v := by
  intro v hv
  have hrel := h.2 field
  rw [hv] at hrel
  generalize (record.get? field.name).or (record.get? field.plainName) = found at hrel
  cases hrel with
  | some hsays => exact hsays.tidy

/-- All settings that are given stand under their plain names only. -/
theorem lookup_reverse_fields (o : FolderOverrides) (field : FolderField α) :
    o.fields.reverse.lookup field.name = none ∧
      o.fields.reverse.lookup field.plainName = (field.given o).map field.write := by
  rcases field with ⟨⟨⟩⟩ | _ | _ | _ <;>
    simp [fields, List.lookup_append, FolderField.name, FolderField.plainName]

end FolderOverrides

/-- All settings that hold, as given ones. -/
def FolderSettings.asGiven (s : FolderSettings) : FolderOverrides where
  cCompiler := some s.cCompiler
  cppCompiler := some s.cppCompiler
  machPath := some s.machPath
  machEnvironment := some s.machEnvironment
  flagsSource := some s.flagsSource

/-- Every setting that holds is given as it is. -/
@[simp]
theorem FolderField.given_asGiven {α : Type} (field : FolderField α) (s : FolderSettings) :
    field.given s.asGiven = some (field.value s) := by
  rcases field with ⟨⟨⟩⟩ | _ | _ | _ <;> rfl

/-- Whether an object holds the settings under their plain names, and nothing under the others. -/
def FolderSettings.ShownIn (s : FolderSettings) (fields : Table Json) : Prop :=
  ∀ {α : Type} (field : FolderField α), fields.find? field.name = none ∧
    fields.find? field.plainName = some (field.write (field.value s))

/-- An object that shows the settings shows the overridden ones once the fields of what overrides
them are set. -/
theorem FolderSettings.ShownIn.insertMany {s : FolderSettings} {fields : Table Json}
    (h : s.ShownIn fields) (o : FolderOverrides) :
    (o.applyTo s).ShownIn (fields.insertMany o.fields) := by
  intro α field
  obtain ⟨hname, hplain⟩ := h field
  obtain ⟨hnone, hgiven⟩ := o.lookup_reverse_fields field
  rw [Table.find?_insertMany_eq_or, Table.find?_insertMany_eq_or, hnone, hgiven, hname, hplain,
    FolderField.value_applyTo]
  cases field.given o <;> simp

/-- The fields of settings that are given show them. -/
theorem FolderSettings.shownIn_ofList (s : FolderSettings) :
    s.ShownIn (Table.ofList s.asGiven.fields) := by
  intro α field
  obtain ⟨hnone, hgiven⟩ := s.asGiven.lookup_reverse_fields field
  rw [Table.ofList, Table.find?_insertMany_eq_or, Table.find?_insertMany_eq_or, hnone, hgiven]
  simp

namespace Settings

variable {platform : Platform} {root : FilePath} {s : Settings} {j : Json}

/-- What is set for all folders as the fields of an object, and over them, one after the other, the
fields of the entries that name the folder. -/
def mergedFor (s : Settings) (platform : Platform) (root : FilePath) : Table Json :=
  s.folders.foldl
    (fun merged e => if names platform e.1 root then merged.insertMany e.2.fields else merged)
    (Table.ofList s.defaults.asGiven.fields)

/-- The merged fields show the settings of the folder. -/
theorem shownIn_mergedFor : (s.forFolder platform root).ShownIn (s.mergedFor platform root) := by
  rw [forFolder, mergedFor]
  induction s.folders using List.reverseRecOn with
  | nil => exact s.defaults.shownIn_ofList
  | append_singleton es e ih =>
    rw [List.foldl_concat, List.foldl_concat]
    split
    · exact ih.insertMany e.2
    · exact ih

/-- The settings of any folder can be read back. -/
theorem WrittenIn.tidy {α : Type} (h : s.WrittenIn j) (field : FolderField α) :
    field.Tidy (field.value (s.forFolder platform root)) := by
  apply ((value_forFolder_iff field).mp rfl).satisfies
  · obtain ⟨o, hdefaults, hcomplete⟩ := h.defaults
    rw [← hcomplete, FolderOverrides.complete, FolderField.value_applyTo]
    cases hgiven : field.given o with
    | none => exact field.tidy_usual
    | some v => exact hdefaults.tidy field v hgiven
  · obtain ⟨fields, -, hfolders⟩ := h.folders
    have hall : List.Forall₂ (fun e f => (∀ v, field.given e.2 = some v → field.Tidy v) ∧
        f.1 = e.1) s.folders fields :=
      hfolders.flip.imp fun _ _ h => ⟨h.2.tidy field, h.1⟩
    exact ((List.forall₂_and_left _ _).mp hall).1

/-- Reading the merged object gives just the settings that hold for the folder. -/
theorem exists_read_mergedFor (h : s.WrittenIn j) :
    ∃ o, (FolderOverrides.read [] (.object (s.mergedFor platform root).entries)).result = .ok o ∧
      o.complete = s.forFolder platform root := by
  refine ⟨(s.forFolder platform root).asGiven, FolderOverrides.result_read.mpr ⟨⟨_, rfl⟩, ?_⟩, ?_⟩
  · intro α field
    obtain ⟨hname, hplain⟩ := @shownIn_mergedFor platform root s α field
    change Option.Rel _ (((s.mergedFor platform root).find? field.name).or
      ((s.mergedFor platform root).find? field.plainName)) _
    rw [hname, hplain, FolderField.given_asGiven]
    exact .some (FolderField.says_write (h.tidy field))
  · apply FolderSettings.ext_value
    intro α field
    simp [FolderOverrides.complete]

/-- Each setting that holds for a folder is the one of the last entry whose key is an absolute path
to the folder and which gives the setting, and without such an entry the one for all folders; the
variables of the build tool are one setting. An entry with another key might as well not be there.
Settings are read just as they are written, and reading what was merged for the folder changes
nothing. -/
theorem forFolder_decided (platform : Platform) (s : Settings) (root : FilePath) :
    (∀ {α : Type} (field : FolderField α) (v : α),
      field.value (s.forFolder platform root) = v ↔
        InForce (fun e => FilePath.LeadsTo platform e.1 root) (fun e => field.given e.2)
          (field.value s.defaults) s.folders v) ∧
    (∀ before after key o, ¬ FilePath.LeadsTo platform key root →
      ({ s with folders := before ++ (key, o) :: after } : Settings).forFolder platform root =
        ({ s with folders := before ++ after } : Settings).forFolder platform root) ∧
    ∀ j, (ofJson j = .ok s ↔ s.WrittenIn j) ∧
      (ofJson j = .ok s → ∃ o,
        (FolderOverrides.read [] (.object (s.mergedFor platform root).entries)).result = .ok o ∧
          o.complete = s.forFolder platform root) := by
  refine ⟨fun field v => value_forFolder_iff field, ?_, fun j => ⟨ofJson_eq_ok_iff, ?_⟩⟩
  · intro before after key o hkey
    refine forFolder_congr rfl ?_
    rw [← names_iff, Bool.not_eq_true] at hkey
    simp [hkey]
  · intro hread
    exact exists_read_mergedFor (ofJson_eq_ok_iff.mp hread)

/-- Settings that name one folder in two ways, and another key that names none. -/
def respelled : Json := .object [
  ("defaults", .object [("c.compiler", .string "gcc"), ("flags.source", .string "mach")]),
  ("folders", .object [
    ("/src", .object [("c.compiler", .string "clang"), ("mach_path", .string " m ")]),
    ("src", .object [("mach.path", .string "n")]),
    ("/a/../src/", .object [("c.compiler", .string " ")])])]

/-- What these settings are. -/
def ofRespelled : Settings where
  defaults := { cCompiler := some "gcc", flagsSource := .mach }
  folders := [
    ("/src", { cCompiler := some (some "clang"), machPath := some (some "m") }),
    ("src", { machPath := some (some "n") }),
    ("/a/../src/", { cCompiler := some none })]

/-- The later entry takes the compiler back, the earlier one still gives the build tool, the one
that is not absolute might be missing, and what was merged can be read again. -/
theorem forFolder_decided_respelled :
    let root : FilePath := .posix ⟨.single, [⟨"src".toList, by decide⟩]⟩
    let settings := ofRespelled.forFolder .linux root
    ofJson respelled = .ok ofRespelled ∧ settings.cCompiler = none ∧
      settings.machPath = some "m" ∧
      settings = ({ ofRespelled with
        folders := ofRespelled.folders.eraseIdx 1 } : Settings).forFolder .linux root ∧
      ∃ o, (FolderOverrides.read [] (.object (ofRespelled.mergedFor .linux root).entries)).result =
        .ok o ∧ o.complete = settings := by
  intro root settings
  have hread : ofJson respelled = .ok ofRespelled := by rfl
  have hfirst : FilePath.LeadsTo .linux "/src" root := names_iff.mp (by decide)
  have hlast : FilePath.LeadsTo .linux "/a/../src/" root := names_iff.mp (by decide)
  have hother : ¬ FilePath.LeadsTo .linux "src" root := fun h => absurd h.1 (by decide)
  obtain ⟨hdecided, hdropped, hagain⟩ := forFolder_decided .linux ofRespelled root
  refine ⟨hread, (hdecided (.compiler .c) none).mpr ?_, (hdecided .machPath (some "m")).mpr ?_,
    hdropped [_] [_] "src" _ hother, (hagain respelled).2 hread⟩
  · change InForce _ _ _ (ofRespelled.folders.take 2 ++ _ :: []) _
    exact .given hlast rfl (by simp)
  · change InForce _ _ _ ([] ++ _ :: ofRespelled.folders.drop 1) _
    refine .given hfirst rfl ?_
    simp [ofRespelled, hother, FolderField.given]

end Settings

end BuildLens
