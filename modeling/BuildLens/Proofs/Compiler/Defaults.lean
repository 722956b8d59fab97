import BuildLens.Compiler.Defaults
import BuildLens.Proofs.Path.PathSet
import BuildLens.Proofs.Path.Reading
import BuildLens.Proofs.Path.Windows
import BuildLens.Proofs.Table
import BuildLens.Proofs.Text.Line

/-!
# What the output of a compiler says

The output is read line by line, with the open search list as the state between two lines. What it
says can be told of each line by itself and the lines above it: an indented line is an entry if the
nearest line above it that is not indented is a banner, and no other line is one. What is added to
the directories and the macros is then a matter of the order of the lines alone, so that reading an
output again adds nothing.

Main definitions:

- `Searched`: the kinds of directories.
- `CompilerDefaults.IsEntry`, `CompilerDefaults.Adds`, `CompilerDefaults.Defines`: what one line
  says.
- `CompilerDefaults.Reading`: what a text says, compared with what was known before.

Main results:

- `CompilerDefaults.read_eq_adding`: reading adds what the lines say.
- `CompilerDefaults.read_eq_iff_reading`: what is read is what the text says, for every text.
- `CompilerDefaults.read_read`: reading an output twice is reading it once.
-/

namespace BuildLens

open Text (trim trimLeft isBlank lines Lined dropPrefix? dropSuffix? dropPrefix?_eq_some_iff
  dropSuffix?_eq_some_iff dropSuffix?_eq_none_iff)

/-- The kinds of directories that are searched: those of a search list, and those of frameworks,
whichever list names them. -/
inductive Searched where
  | listed (block : SearchBlock)
  | framework
deriving DecidableEq, Repr

namespace CompilerDefaults

variable {platform : Platform} {found d : CompilerDefaults} {ls above : List (List Char)}
  {line text : List Char} {i : Nat} {block : SearchBlock} {kind : Searched} {p : FilePath}

/-- The directories of a kind. -/
def directories (d : CompilerDefaults) : Searched → PathSet
  | .listed .user => d.userIncludes
  | .listed .system => d.includes
  | .framework => d.frameworks

/-- Defaults are the same if their directories of each kind and their macros are. -/
theorem ext_of_directories {d e : CompilerDefaults}
    (h : ∀ kind, d.directories kind = e.directories kind) (hm : d.macros = e.macros) : d = e := by
  have huser : d.userIncludes = e.userIncludes := h (.listed .user)
  have hsystem : d.includes = e.includes := h (.listed .system)
  have hframework : d.frameworks = e.frameworks := h .framework
  cases d
  cases e
  simp_all

/-! ## What one line says -/

/-- Line `i` is an entry of a search list: it is indented, and the nearest line above it that is
not indented is a banner. The list is that for files between quotes if the first character of the
banner that is no blank is a quotation mark. -/
structure IsEntry (ls : List (List Char)) (i : Nat) (block : SearchBlock) (text : List Char) :
    Prop where
  line : ∃ line, ls[i]? = some line ∧ isIndented line = true ∧ trim line = text
  banner : ∃ j banner, j < i ∧ ls[j]? = some ("#include ".toList ++ banner) ∧
    (∀ k line, j < k → k < i → ls[k]? = some line → isIndented line = true) ∧
    (block = .user ↔ banner.find? (fun c => !isBlank c) = some '"')

/-- Line `i` adds a directory: a framework if the text of the entry ends with the mark of one, which
does not belong to the path, and otherwise one of the list in which the entry stands. -/
inductive Adds (platform : Platform) (ls : List (List Char)) (i : Nat) :
    Searched → FilePath → Prop
  | framework {block : SearchBlock} {text : List Char} {p : FilePath}
      (hentry : IsEntry ls i block (text ++ frameworkMark))
      (hpath : entryPath? platform text = some p) : Adds platform ls i .framework p
  | listed {block : SearchBlock} {text : List Char} {p : FilePath}
      (hentry : IsEntry ls i block text) (hmark : ¬frameworkMark <:+ text)
      (hpath : entryPath? platform text = some p) : Adds platform ls i (.listed block) p

/-- The line defines the macro. The name ends at the first space; without a space there is no
value, and the macro has the value `1`. -/
inductive Defines : List Char → Macro → Prop
  | valued {text name value : List Char} (htext : trim text = name ++ ' ' :: value)
      (hname : ' ' ∉ name) :
      Defines ("#define ".toList ++ text) ⟨String.ofList name, String.ofList value⟩
  | plain {text : List Char} (htext : ' ' ∉ trim text) :
      Defines ("#define ".toList ++ text) ⟨String.ofList (trim text), "1"⟩

/-- What a text says, compared with what was found before: each kind of directories is what it was
and then the new ones, in the order in which they come first, and each macro has the value that the
last line gives it that names it. -/
structure Reading (platform : Platform) (ls : List (List Char)) (found d : CompilerDefaults) :
    Prop where
  /-- An entry adds a directory if its path is absolute, and only then. -/
  absolute : ∀ i block text, IsEntry ls i block text →
    ((∃ kind p, Adds platform ls i kind p) ↔ FilePath.isAbsoluteText platform
      (String.ofList ((dropSuffix? frameworkMark text).getD text)) = true)
  directories : ∀ kind, ∃ paths, InOrder (fun i p => Adds platform ls i kind p) paths ∧
    (d.directories kind).toList = (found.directories kind).toList ++
      firstNew FilePath.same (found.directories kind).toList paths
  macros : ∃ macros : List Macro,
    InOrder (fun i m => ∃ line, ls[i]? = some line ∧ Defines line m) macros ∧
    d.macros.names = found.macros.names ++
      firstNew (· == ·) found.macros.names (macros.map Macro.name) ∧
    ∀ name, d.macros.find? name =
      ((macros.reverse.find? fun m => m.name == name).map Macro.value).or (found.macros.find? name)

/-! ## Paths and banners -/

/-- An entry has a path if it is absolute, and only then. -/
theorem isSome_entryPath? (platform : Platform) (h : '\n' ∉ text) :
    (entryPath? platform text).isSome = FilePath.isAbsoluteText platform (String.ofList text) := by
  rw [entryPath?]
  by_cases hslash : text.head? = some '/'
  · rw [if_pos hslash]
    by_cases hp : platform = .windows
    · subst hp
      have habs : Windows.isAbsolute text = true := by
        rw [Windows.isAbsolute_iff]
        obtain ⟨rest, rfl⟩ := List.head?_eq_some_iff.mp hslash
        exact .inl ⟨'/', rest, rfl, rfl⟩
      rw [FilePath.ofUnixText, FilePath.isSome_toOption_ofText, FilePath.isAbsoluteText,
        FilePath.isAbsoluteText, String.toList_ofList, String.toList_ofList, habs,
        Windows.isAbsolute_ofUnixChars hslash h]
    · rw [FilePath.ofUnixText_eq_ofText hp, FilePath.isSome_toOption_ofText]
  · rw [if_neg hslash, FilePath.isSome_ofText?]

/-- A banner opens the list for files between quotes if its first character that is no blank is a
quotation mark. -/
theorem blockOf_eq_user_iff {banner : List Char} :
    blockOf banner = .user ↔ banner.find? (fun c => !isBlank c) = some '"' := by
  have hfirst : (trimLeft banner).head? = banner.find? fun c => !isBlank c := by
    rw [trimLeft]
    induction banner with
    | nil => rfl
    | cons c cs ih =>
      rw [List.dropWhile_cons, List.find?_cons]
      cases isBlank c with
      | true => exact ih
      | false => rfl
  rw [blockOf, hfirst]
  split <;> simp_all

/-- The search list that is open below some lines. -/
def openAfter (above : List (List Char)) : Option SearchBlock :=
  (above.reverse.find? fun line => !isIndented line).bind fun line =>
    (dropPrefix? "#include ".toList line).map blockOf

/-- A line that is indented leaves open what is, and another one opens a list if it is a banner. -/
theorem openAfter_append_singleton (above : List (List Char)) (line : List Char) :
    openAfter (above ++ [line]) = if isIndented line then openAfter above
      else (dropPrefix? "#include ".toList line).map blockOf := by
  rw [openAfter, List.reverse_append, List.reverse_singleton, List.singleton_append,
    List.find?_cons]
  cases isIndented line <;> rfl

/-- A banner is not indented. -/
theorem isIndented_banner (banner : List Char) :
    isIndented ("#include ".toList ++ banner) = false :=
  rfl

/-- The list that is open above line `i` is that of the nearest banner. -/
theorem openAfter_take_eq_some_iff (hi : i ≤ ls.length) :
    openAfter (ls.take i) = some block ↔
      ∃ j banner, j < i ∧ ls[j]? = some ("#include ".toList ++ banner) ∧
        (∀ k line, j < k → k < i → ls[k]? = some line → isIndented line = true) ∧
        blockOf banner = block := by
  induction i with
  | zero => simp [openAfter]
  | succ i ih =>
    have hlt : i < ls.length := hi
    have hline : ls[i]? = some ls[i] := List.getElem?_eq_getElem hlt
    rw [List.take_succ_eq_append_getElem hlt, openAfter_append_singleton]
    split
    · next hind =>
      rw [ih hlt.le]
      constructor
      · intro ⟨j, banner, hj, hbanner, hbetween, hblock⟩
        refine ⟨j, banner, by omega, hbanner, ?_, hblock⟩
        intro k line hjk hki hk
        rcases Nat.lt_succ_iff_lt_or_eq.mp hki with hki | rfl
        · exact hbetween k line hjk hki hk
        · rw [hline] at hk
          cases hk
          exact hind
      · intro ⟨j, banner, hj, hbanner, hbetween, hblock⟩
        have hne : j ≠ i := by
          rintro rfl
          rw [hline] at hbanner
          rw [Option.some_inj.mp hbanner, isIndented_banner] at hind
          cases hind
        exact ⟨j, banner, by omega, hbanner, fun k line hjk hki => hbetween k line hjk (by omega),
          hblock⟩
    · next hind =>
      constructor
      · intro h
        obtain ⟨banner, hbanner, hblock⟩ := Option.map_eq_some_iff.mp h
        rw [dropPrefix?_eq_some_iff] at hbanner
        exact ⟨i, banner, by omega, hline.trans (congrArg some hbanner), by omega, hblock⟩
      · intro ⟨j, banner, hj, hbanner, hbetween, hblock⟩
        rcases Nat.lt_succ_iff_lt_or_eq.mp hj with hj | rfl
        · exact absurd (hbetween i _ hj (by omega) hline) hind
        · rw [hline] at hbanner
          rw [Option.map_eq_some_iff]
          exact ⟨banner, dropPrefix?_eq_some_iff.mpr (Option.some_inj.mp hbanner), hblock⟩

/-- A line is an entry if it is indented below lines that leave a list open. -/
theorem isEntry_iff : IsEntry ls i block text ↔
    ∃ line, ls[i]? = some line ∧ isIndented line = true ∧ trim line = text ∧
      openAfter (ls.take i) = some block := by
  have hblock (banner : List Char) : blockOf banner = block ↔
      (block = .user ↔ banner.find? (fun c => !isBlank c) = some '"') := by
    rw [← blockOf_eq_user_iff]
    cases blockOf banner <;> cases block <;> simp
  constructor
  · intro ⟨⟨line, hline, hind, htext⟩, j, banner, hj, hbanner, hbetween, hb⟩
    have hi : i ≤ ls.length := (List.getElem?_eq_some_iff.mp hline).1.le
    refine ⟨line, hline, hind, htext, (openAfter_take_eq_some_iff hi).mpr ?_⟩
    exact ⟨j, banner, hj, hbanner, hbetween, (hblock banner).mpr hb⟩
  · intro ⟨line, hline, hind, htext, hopen⟩
    have hi : i ≤ ls.length := (List.getElem?_eq_some_iff.mp hline).1.le
    obtain ⟨j, banner, hj, hbanner, hbetween, hb⟩ := (openAfter_take_eq_some_iff hi).mp hopen
    exact ⟨⟨line, hline, hind, htext⟩, j, banner, hj, hbanner, hbetween, (hblock banner).mp hb⟩

/-! ## The same, computed -/

/-- The directory that an entry adds, with its kind. -/
def addition? (platform : Platform) (block : SearchBlock) (entry : List Char) :
    Option (Searched × FilePath) :=
  match dropSuffix? frameworkMark entry with
  | some entry => (entryPath? platform entry).map (.framework, ·)
  | none => (entryPath? platform entry).map (.listed block, ·)

/-- The directory of a kind that a line adds below some lines. -/
def directory? (platform : Platform) (kind : Searched) (above : List (List Char))
    (line : List Char) : Option FilePath :=
  if isIndented line then
    (openAfter above).bind fun block =>
      ((addition? platform block (trim line)).filter fun a => a.1 = kind).map Prod.snd
  else none

/-- The macro that a line defines. -/
def definition? (line : List Char) : Option Macro :=
  (dropPrefix? "#define ".toList line).map fun text => Macro.parse ' ' (trim text)

/-- An entry adds a framework if it ends with the mark of one, and otherwise a directory of its
list. -/
theorem addition?_eq_some_iff : addition? platform block text = some (kind, p) ↔
    (kind = .framework ∧ ∃ rest, text = rest ++ frameworkMark ∧
      entryPath? platform rest = some p) ∨
    kind = .listed block ∧ ¬frameworkMark <:+ text ∧ entryPath? platform text = some p := by
  rw [addition?]
  cases hmark : dropSuffix? frameworkMark text with
  | some rest =>
    have htext : text = rest ++ frameworkMark := dropSuffix?_eq_some_iff.mp hmark
    have hends : frameworkMark <:+ text := ⟨rest, htext.symm⟩
    simp only [Option.map_eq_some_iff, Prod.mk.injEq]
    constructor
    · intro ⟨q, hq, hkind, hp⟩
      exact .inl ⟨hkind.symm, rest, htext, hp ▸ hq⟩
    · rintro (⟨hkind, rest', htext', hp⟩ | ⟨-, hnot, -⟩)
      · have hrest : rest' = rest := List.append_cancel_right (htext'.symm.trans htext)
        exact ⟨p, hrest ▸ hp, hkind.symm, rfl⟩
      · exact absurd hends hnot
  | none =>
    have hnot : ¬frameworkMark <:+ text := dropSuffix?_eq_none_iff.mp hmark
    simp only [Option.map_eq_some_iff, Prod.mk.injEq]
    constructor
    · intro ⟨q, hq, hkind, hp⟩
      exact .inr ⟨hkind.symm, hnot, hp ▸ hq⟩
    · rintro (⟨-, rest, htext, -⟩ | ⟨hkind, -, hp⟩)
      · exact absurd ⟨rest, htext.symm⟩ hnot
      · exact ⟨p, hp, hkind.symm, rfl⟩

/-- A line adds a directory if it is indented below an open list. -/
theorem directory?_eq_some_iff : directory? platform kind above line = some p ↔
    isIndented line = true ∧ ∃ block, openAfter above = some block ∧
      addition? platform block (trim line) = some (kind, p) := by
  rw [directory?]
  split
  · next hind =>
    simp only [Option.bind_eq_some_iff, Option.map_eq_some_iff, Option.filter_eq_some_iff,
      decide_eq_true_eq, hind, true_and]
    constructor
    · rintro ⟨block, hopen, ⟨k, q⟩, ⟨hadd, rfl⟩, rfl⟩
      exact ⟨block, hopen, hadd⟩
    · intro ⟨block, hopen, hadd⟩
      exact ⟨block, hopen, (kind, p), ⟨hadd, rfl⟩, rfl⟩
  · next hind =>
    constructor
    · intro h
      cases h
    · intro h
      exact absurd h.1 hind

/-- Which directories a line adds is told by itself and the lines above it. -/
theorem adds_iff : Adds platform ls i kind p ↔
    ∃ line, ls[i]? = some line ∧ directory? platform kind (ls.take i) line = some p := by
  simp only [directory?_eq_some_iff, addition?_eq_some_iff]
  constructor
  · intro h
    cases h with
    | framework hentry hpath =>
      obtain ⟨line, hline, hind, htext, hopen⟩ := isEntry_iff.mp hentry
      exact ⟨line, hline, hind, _, hopen, .inl ⟨rfl, _, htext, hpath⟩⟩
    | listed hentry hmark hpath =>
      obtain ⟨line, hline, hind, htext, hopen⟩ := isEntry_iff.mp hentry
      subst htext
      exact ⟨line, hline, hind, _, hopen, .inr ⟨rfl, hmark, hpath⟩⟩
  · rintro ⟨line, hline, hind, block, hopen, ⟨rfl, rest, htext, hpath⟩ | ⟨rfl, hmark, hpath⟩⟩
    · exact .framework (isEntry_iff.mpr ⟨line, hline, hind, htext, hopen⟩) hpath
    · exact .listed (isEntry_iff.mpr ⟨line, hline, hind, rfl, hopen⟩) hmark hpath

/-- Which macro a line defines is told by itself. -/
theorem defines_iff {m : Macro} : Defines line m ↔ definition? line = some m := by
  rw [definition?, Option.map_eq_some_iff]
  constructor
  · intro h
    cases h with
    | valued htext hname =>
      refine ⟨_, dropPrefix?_eq_some_iff.mpr rfl, ?_⟩
      rw [htext, Macro.parse, Text.cutAt_append hname]
    | plain htext =>
      refine ⟨_, dropPrefix?_eq_some_iff.mpr rfl, ?_⟩
      rw [Macro.parse, Text.cutAt_of_not_mem htext]
  · intro ⟨text, htext, hm⟩
    rw [dropPrefix?_eq_some_iff] at htext
    subst htext
    by_cases hspace : ' ' ∈ trim text
    · obtain ⟨name, value, hsplit, hname⟩ := List.eq_append_cons_of_mem hspace
      rw [hsplit, Macro.parse, Text.cutAt_append hname] at hm
      exact hm ▸ .valued hsplit hname
    · rw [Macro.parse, Text.cutAt_of_not_mem hspace] at hm
      exact hm ▸ .plain hspace

/-! ## Reading adds what the lines say -/

/-- What is known when directories and macros are added. -/
def adding (d : CompilerDefaults) (paths : Searched → List FilePath) (macros : List Macro) :
    CompilerDefaults where
  includes := d.includes.insertMany (paths (.listed .system))
  userIncludes := d.userIncludes.insertMany (paths (.listed .user))
  frameworks := d.frameworks.insertMany (paths .framework)
  macros := d.macros.insertMany (macros.map fun m => (m.name, m.value))

/-- The directories of each kind are added behind those that are known. -/
@[simp]
theorem directories_adding (d : CompilerDefaults) (paths : Searched → List FilePath)
    (macros : List Macro) (kind : Searched) :
    (d.adding paths macros).directories kind = (d.directories kind).insertMany (paths kind) := by
  rcases kind with (_ | _) | _ <;> rfl

/-- To add at once and one after the other is the same. -/
theorem adding_append (d : CompilerDefaults) (paths paths' : Searched → List FilePath)
    (macros macros' : List Macro) :
    d.adding (fun kind => paths kind ++ paths' kind) (macros ++ macros') =
      (d.adding paths macros).adding paths' macros' := by
  apply ext_of_directories
  · intro kind
    simp only [directories_adding, PathSet.insertMany_append]
  · simp only [adding, List.map_append, Table.insertMany, List.foldl_append]

/-- An entry adds its directory and nothing else. -/
theorem addEntry_eq (d : CompilerDefaults) (block : SearchBlock) (text : List Char) :
    addEntry platform d block text = d.adding
      (fun kind => (((addition? platform block text).filter fun a => a.1 = kind).map
        Prod.snd).toList) [] := by
  rw [addEntry.eq_def, addition?]
  cases dropSuffix? frameworkMark text with
  | some rest =>
    dsimp only
    cases entryPath? platform rest <;> rfl
  | none =>
    dsimp only
    generalize entryPath? platform text = path?
    cases path? with
    | none => rfl
    | some p => cases block <;> rfl

/-- A line that is indented defines no macro. -/
theorem definition?_of_isIndented (h : isIndented line = true) : definition? line = none := by
  rw [definition?, Option.map_eq_none_iff, Option.eq_none_iff_forall_ne_some]
  intro text htext
  rw [dropPrefix?_eq_some_iff] at htext
  rw [htext] at h
  cases h

/-- A line that is not indented opens or closes a list, and may define a macro. -/
theorem readBanner_eq (d : CompilerDefaults) (h : isIndented line = false) :
    readBanner d line = (openAfter (above ++ [line]), d.adding
      (fun kind => (directory? platform kind above line).toList) (definition? line).toList) := by
  have hdir (kind : Searched) : directory? platform kind above line = none := by
    rw [directory?, h]
    rfl
  rw [readBanner, openAfter_append_singleton, h, definition?]
  simp only [hdir, Option.toList_none, Bool.false_eq_true, if_false]
  cases hbanner : dropPrefix? "#include ".toList line with
  | some banner =>
    rw [dropPrefix?_eq_some_iff] at hbanner
    subst hbanner
    rfl
  | none => cases dropPrefix? "#define ".toList line <;> rfl

/-- One line moves on to the list that is open below it, and adds what it says. -/
theorem readLine_eq (d : CompilerDefaults) (above : List (List Char)) (line : List Char) :
    readLine platform (openAfter above, d) line =
      (openAfter (above ++ [line]), d.adding
        (fun kind => (directory? platform kind above line).toList) (definition? line).toList) := by
  cases hind : isIndented line with
  | false =>
    rw [← readBanner_eq d hind]
    cases openAfter above with
    | none => rfl
    | some block => rw [readLine, hind, if_neg Bool.false_ne_true]
  | true =>
    rw [openAfter_append_singleton, hind, if_pos rfl, definition?_of_isIndented hind]
    simp only [directory?, hind, if_true]
    cases openAfter above with
    | none =>
      -- No list is open, and a line that is indented is neither a banner nor a definition.
      have hprefix (start : List Char)
          (hstart : isIndented (start ++ line.drop start.length) = false) :
          dropPrefix? start line = none := by
        rw [Option.eq_none_iff_forall_ne_some]
        intro rest hrest
        rw [dropPrefix?_eq_some_iff] at hrest
        rw [hrest, List.drop_left, ← hrest, hind] at hstart
        cases hstart
      rw [readLine, readBanner, hprefix _ rfl, hprefix _ rfl]
      rfl
    | some block =>
      rw [readLine, hind, if_pos rfl, addEntry_eq]
      rfl

/-- Reading some lines adds what they say. -/
theorem foldl_readLine (platform : Platform) (found : CompilerDefaults) (ls : List (List Char)) :
    ls.foldl (readLine platform) (none, found) =
      (openAfter ls, found.adding (fun kind => collect (directory? platform kind) ls)
        (collect (fun _ => definition?) ls)) := by
  induction ls using List.reverseRecOn with
  | nil => rfl
  | append_singleton above line ih =>
    rw [List.foldl_append, ih, List.foldl_cons, List.foldl_nil, readLine_eq, ← adding_append]
    simp only [collect_append_singleton]

/-- A text adds what each of its lines adds, given those above it. -/
theorem read_eq_adding (platform : Platform) (found : CompilerDefaults) (output : String) :
    read platform found output = found.adding
      (fun kind => collect (directory? platform kind) (lines output.toList))
      (collect (fun _ => definition?) (lines output.toList)) := by
  rw [read, foldl_readLine]

/-! ## What is read -/

/-- A text says one thing only. -/
theorem Reading.unique {e : CompilerDefaults} (hd : Reading platform ls found d)
    (he : Reading platform ls found e) : d = e := by
  apply ext_of_directories
  · intro kind
    obtain ⟨paths, hpaths, hlist⟩ := hd.directories kind
    obtain ⟨paths', hpaths', hlist'⟩ := he.directories kind
    have hsame : paths = paths' := hpaths.unique hpaths'
    subst hsame
    exact PathSet.ext (hlist.trans hlist'.symm)
  · obtain ⟨macros, hmacros, hnames, hfind⟩ := hd.macros
    obtain ⟨macros', hmacros', hnames', hfind'⟩ := he.macros
    have hsame : macros = macros' := hmacros.unique hmacros'
    subst hsame
    exact Table.ext_of_names (hnames.trans hnames'.symm) fun name =>
      (hfind name).trans (hfind' name).symm

/-- The last of the macros of a name decides on its value. -/
theorem find?_insertMany_macros (t : MacroTable) (macros : List Macro) (name : String) :
    (t.insertMany (macros.map fun m => (m.name, m.value))).find? name =
      ((macros.reverse.find? fun m => m.name == name).map Macro.value).or (t.find? name) := by
  rw [Table.find?_insertMany_eq_or, ← List.map_reverse]
  congr 1
  induction macros.reverse with
  | nil => rfl
  | cons m rest ih =>
    rw [List.map_cons, List.lookup_cons, List.find?_cons, ih, Bool.beq_comm (a := name)]
    cases m.name == name <;> rfl

/-- An entry adds a directory if its path is absolute. -/
theorem exists_adds_iff (hls : ∀ line ∈ ls, '\n' ∉ line) (h : IsEntry ls i block text) :
    (∃ kind p, Adds platform ls i kind p) ↔ FilePath.isAbsoluteText platform
      (String.ofList ((dropSuffix? frameworkMark text).getD text)) = true := by
  obtain ⟨line, hline, hind, htext, hopen⟩ := isEntry_iff.mp h
  have hclean : '\n' ∉ (dropSuffix? frameworkMark text).getD text := by
    intro hmem
    apply hls line (List.mem_of_getElem? hline)
    exact Text.mem_of_mem_trim (htext ▸ Text.mem_of_mem_dropSuffix? hmem)
  rw [← isSome_entryPath? platform hclean, Option.isSome_iff_exists]
  simp only [adds_iff, hline, Option.some_inj, exists_eq_left', directory?_eq_some_iff, hind,
    true_and, hopen, htext, addition?]
  cases dropSuffix? frameworkMark text with
  | some rest => simp
  | none => simp

/-- What the lines of a text add is what the text says. -/
theorem reading_adding (platform : Platform) (found : CompilerDefaults)
    (hls : ∀ line ∈ ls, '\n' ∉ line) :
    Reading platform ls found (found.adding (fun kind => collect (directory? platform kind) ls)
      (collect (fun _ => definition?) ls)) where
  absolute i block text := exists_adds_iff hls
  directories kind := by
    refine ⟨collect (directory? platform kind) ls, ?_, ?_⟩
    · exact (inOrder_collect _ ls).congr fun i p => adds_iff.symm
    · rw [directories_adding, PathSet.toList_insertMany_eq_append]
  macros := by
    refine ⟨collect (fun _ => definition?) ls, ?_, ?_, ?_⟩
    · exact (inOrder_collect _ ls).congr fun i m => by simp only [defines_iff]
    · rw [adding, Table.names_insertMany, List.map_map]
      rfl
    · exact find?_insertMany_macros found.macros _

/-- What is read is what the text says, whichever way banners, entries, definitions and other lines
are mixed in it. -/
theorem read_eq_iff_reading (platform : Platform) (found d : CompilerDefaults) (output : String) :
    read platform found output = d ↔ ∃ ls, Lined output.toList ls ∧ Reading platform ls found d := by
  have hclean : ∀ line ∈ lines output.toList, '\n' ∉ line := by
    intro line hline hmem
    have hbreak := (Text.lined_lines output.toList).isBreak_eq_false hline hmem
    cases hbreak
  have hread : Reading platform (lines output.toList) found (read platform found output) := by
    rw [read_eq_adding]
    exact reading_adding platform found hclean
  constructor
  · intro h
    subst h
    exact ⟨_, Text.lined_lines _, hread⟩
  · intro ⟨ls, hlines, hreading⟩
    rw [← hlines.lines_eq] at hreading
    exact hread.unique hreading

/-! ## Reading again -/

/-- To add the same once more changes nothing. -/
theorem adding_adding_self (d : CompilerDefaults) (paths : Searched → List FilePath)
    (macros : List Macro) :
    (d.adding paths macros).adding paths macros = d.adding paths macros := by
  apply ext_of_directories
  · intro kind
    simp only [directories_adding, PathSet.insertMany_insertMany_self]
  · exact Table.insertMany_insertMany_self _ _

/-- Reading an output twice is reading it once, on every platform and whatever was known before. -/
theorem read_read (platform : Platform) (found : CompilerDefaults) (output : String) :
    read platform (read platform found output) output = read platform found output := by
  rw [read_eq_adding platform found, read_eq_adding, adding_adding_self]

end CompilerDefaults

end BuildLens
