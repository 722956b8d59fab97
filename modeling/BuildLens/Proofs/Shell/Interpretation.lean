import BuildLens.Process.Runner
import BuildLens.Proofs.Path.Windows
import BuildLens.Proofs.Shell.Quoting
import Mathlib

/-!
# Quoted words as a shell reads them

A reader for the part of a POSIX shell's syntax in which a text is nothing but words. It gives up at
every character that might mean more: outside quotes at all but spaces, letters, digits and a few
signs, in double quotes at a dollar sign, a backquote and a backslash. A quoted command line stays
within that part, whatever the words hold, and means exactly those words.

Main definitions:

- `Shell.interpretFrom`, `Shell.interpret`: the reader.

Main results:

- `Shell.interpret_quote`: a quoted command line means the words that were quoted.
- `Shell.interpret_quoteWith_and_wrap`: so do the command line of any arguments and the one that is
  given to the login shell.
-/

namespace BuildLens

namespace Shell

variable {word text rest cs : List Char} {c : Char}

/-! ## The reader -/

/-- The quotes that stand around a character: none, single ones, or double ones. -/
inductive Quotes where
  | bare
  | single
  | double
deriving DecidableEq, Repr

/-- Whether the character stands for itself outside quotes: a letter or a digit of the Latin
alphabet, or one of a few signs. -/
def isOrdinary (c : Char) : Bool :=
  decide ('a' ≤ c ∧ c ≤ 'z') || decide ('A' ≤ c ∧ c ≤ 'Z') || decide ('0' ≤ c ∧ c ≤ '9') ||
    "_@%+=:,./-".toList.contains c

/-- Whether the character stands for itself in double quotes. -/
def isLiteral (c : Char) : Bool := !"$`\\\"".toList.contains c

/-- The words of a text, `word` being the word begun before it, last character first. A word is
begun by a character and by a quote, so that there are words without characters. There are no words
where the text might mean more, or where a quote is not closed. -/
def interpretFrom : Quotes → (word : Option (List Char)) → List Char → Option (List (List Char))
  | .bare, word, [] => some (word.toList.map List.reverse)
  | .bare, word, c :: rest =>
    if c = ' ' then (interpretFrom .bare none rest).map (word.toList.map List.reverse ++ ·)
    else if c = '\'' then interpretFrom .single (some (word.getD [])) rest
    else if c = '"' then interpretFrom .double (some (word.getD [])) rest
    else if isOrdinary c then interpretFrom .bare (some (c :: word.getD [])) rest
    else none
  | .single, _, [] => none
  | .single, word, c :: rest =>
    if c = '\'' then interpretFrom .bare word rest
    else interpretFrom .single (some (c :: word.getD [])) rest
  | .double, _, [] => none
  | .double, word, c :: rest =>
    if c = '"' then interpretFrom .bare word rest
    else if isLiteral c then interpretFrom .double (some (c :: word.getD [])) rest
    else none

/-- The words that a command line means to a shell, if it means nothing but words. -/
def interpret (commandLine : String) : Option (List String) :=
  (interpretFrom .bare none commandLine.toList).map (·.map String.ofList)

/-! ## Words as they are quoted -/

theorem isOrdinary_of_isHarmless (h : isHarmless c = true) : isOrdinary c = true := by
  rw [isHarmless_iff] at h
  simp only [isOrdinary, Bool.or_eq_true, decide_eq_true_eq, List.contains_iff_mem, Char.le_def,
    UInt32.le_iff_toNat_le, or_assoc]
  change (97 ≤ c.toNat ∧ c.toNat ≤ 122) ∨ (65 ≤ c.toNat ∧ c.toNat ≤ 90) ∨
    (48 ≤ c.toNat ∧ c.toNat ≤ 57) ∨ c ∈ "_@%+=:,./-".toList
  exact or_left_comm.mp h

theorem interpretFrom_bare_of_isHarmless (h : isHarmless c = true) (word : Option (List Char)) :
    interpretFrom .bare word (c :: rest) = interpretFrom .bare (some (c :: word.getD [])) rest := by
  have hspace : c ≠ ' ' := by
    rintro rfl
    exact absurd h (by decide)
  have hne := not_escapable_of_isHarmless h
  simp only [Escapable, not_or] at hne
  rw [interpretFrom, if_neg hspace, if_neg hne.2.2.1, if_neg hne.2.1,
    if_pos (isOrdinary_of_isHarmless h)]

theorem interpretFrom_harmless (h : ∀ c ∈ cs, isHarmless c = true) :
    interpretFrom .bare (some word) (cs ++ rest) =
      interpretFrom .bare (some (cs.reverse ++ word)) rest := by
  induction cs generalizing word with
  | nil => rfl
  | cons c cs ih =>
    rw [List.forall_mem_cons] at h
    rw [List.cons_append, interpretFrom_bare_of_isHarmless h.1, Option.getD_some, ih h.2]
    simp

/-- Every character written between single quotes is read as itself. -/
theorem interpretFrom_quoteChar (c : Char) (word rest : List Char) :
    interpretFrom .single (some word) (quoteChar c ++ rest) =
      interpretFrom .single (some (c :: word)) rest := by
  by_cases hc : c = '\''
  · subst hc
    -- The text leaves the single quotes, has a quote between double quotes, and comes back.
    rfl
  · rw [quoteChar_of_ne hc, List.singleton_append, interpretFrom, if_neg hc, Option.getD_some]

theorem interpretFrom_quoted (cs word rest : List Char) :
    interpretFrom .single (some word) (cs.flatMap quoteChar ++ '\'' :: rest) =
      interpretFrom .bare (some (cs.reverse ++ word)) rest := by
  induction cs generalizing word with
  | nil => rw [List.flatMap_nil, List.nil_append, interpretFrom, if_pos rfl]; rfl
  | cons c cs ih =>
    rw [List.flatMap_cons, List.append_assoc, interpretFrom_quoteChar, ih]
    simp

/-- A quoted word begins a word and adds its own characters to it. -/
theorem interpretFrom_quoteWord (cs rest : List Char) :
    interpretFrom .bare none (quoteWord cs ++ rest) =
      interpretFrom .bare (some cs.reverse) rest := by
  obtain ⟨rfl, heq⟩ | ⟨hne, hall, heq⟩ | ⟨-, heq⟩ := quoteWord_cases cs
  all_goals rw [heq]
  · rfl
  · obtain ⟨c, cs, rfl⟩ := List.exists_cons_of_ne_nil hne
    rw [List.forall_mem_cons] at hall
    rw [List.cons_append, interpretFrom_bare_of_isHarmless hall.1, interpretFrom_harmless hall.2]
    simp
  · have hquoted := interpretFrom_quoted cs [] rest
    rw [List.append_nil] at hquoted
    rw [List.cons_append, List.cons_append, List.append_assoc, List.singleton_append, ← hquoted]
    rfl

/-! ## Command lines -/

/-- A quoted command line means the words that were quoted. -/
theorem interpret_quote (ws : List String) : interpret (quote ws) = some ws := by
  have hread : interpretFrom .bare none (quote ws).toList = some (ws.map String.toList) := by
    induction ws with
    | nil => rfl
    | cons w ws ih =>
      rw [toList_quote_cons, interpretFrom_quoteWord, quoteRest]
      split
      · next hnil => simp [hnil, interpretFrom]
      · simp [interpretFrom, ih]
  rw [interpret, hread]
  simp [Function.comp_def]

example : interpret "echo '$HOME' ''" = some ["echo", "$HOME", ""] := by decide +kernel

example : interpret "echo $HOME" = none := by decide +kernel

/-- The text of the argument for the login shell of MozillaBuild. -/
def renderUnix : Argument → String
  | .text s => s
  | .path p => p.unixText

/-- The text of a path for the login shell of MozillaBuild. -/
def writeUnix (p : FilePath) : Except PathError String := .ok p.unixText

/-- A shell reads the command line of any arguments, whoever writes the paths among them, as the
texts of the arguments, one word for each. The login shell of MozillaBuild is given that command
line as one argument, the paths being written with forward slashes. -/
theorem interpret_quoteWith_and_wrap :
    (∀ (ε : Type) (write : FilePath → Except ε String) (args : List Argument),
      (quoteWith write args).map interpret = (args.mapM (Argument.renderWith write)).map some) ∧
    ∀ (root : FilePath) (args : List Argument), root.Absolute →
      ∃ bash command rendered,
        Runner.shell root = .ok bash ∧
        Runner.wrap root args = .ok [bash.text, "--login", "-i", "-c", command] ∧
        quoteWith writeUnix args = .ok command ∧
        args.mapM (Argument.renderWith writeUnix) = .ok rendered ∧
        interpret command = some rendered := by
  constructor
  · intro ε write args
    rw [quoteWith]
    cases args.mapM (Argument.renderWith write) with
    | error e => rfl
    | ok rendered => exact congrArg Except.ok (interpret_quote rendered)
  · intro root args hroot
    have hnames : ∀ name ∈ ["msys", "bin", "bash.exe"], Windows.PlainName name.toList := by decide
    obtain ⟨bash, hbash, -⟩ := hroot.exists_join_eq_ok hnames
    have hrender : Argument.renderWith writeUnix = fun a => pure (renderUnix a) := by
      funext a
      cases a <;> rfl
    have hrendered : args.mapM (Argument.renderWith writeUnix) = .ok (args.map renderUnix) := by
      rw [hrender]
      exact List.mapM_pure
    refine ⟨bash, _, _, hbash, ?_, ?_, hrendered, interpret_quote _⟩
    · rw [Runner.wrap, Runner.shell, hbash]
      rfl
    · rw [quoteWith, hrendered]
      rfl

/-- What the login shell of a MozillaBuild on a drive is told, with a path, a text full of signs
that mean something to a shell, and a text without characters. -/
theorem wrap_on_drive :
    (FilePath.windows ⟨"C:\\mozilla-build".toList⟩).Absolute ∧
      ∃ bash command,
        Runner.shell (.windows ⟨"C:\\mozilla-build".toList⟩) = .ok bash ∧
        Runner.wrap (.windows ⟨"C:\\mozilla-build".toList⟩)
          [.path (.windows ⟨"C:\\my tree\\mach".toList⟩), .text "it's; $(rm)", .text ""] =
            .ok [bash.text, "--login", "-i", "-c", command] ∧
        interpret command = some ["/c/my tree/mach", "it's; $(rm)", ""] := by
  have hroot : (FilePath.windows ⟨"C:\\mozilla-build".toList⟩).Absolute := rfl
  refine ⟨hroot, ?_⟩
  obtain ⟨bash, command, rendered, hbash, hwrap, -, hrendered, hread⟩ :=
    interpret_quoteWith_and_wrap.2 _
      [.path (.windows ⟨"C:\\my tree\\mach".toList⟩), .text "it's; $(rm)", .text ""] hroot
  refine ⟨bash, command, hbash, hwrap, ?_⟩
  rw [hread]
  exact congrArg some (Except.ok.inj hrendered).symm

end Shell

end BuildLens
