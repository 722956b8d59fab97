import BuildLens.Process.Runner
import BuildLens.Proofs.Occurrence

/-!
# Output without its banner

The pieces in which output arrives say nothing of their own: what counts is the row of characters,
each with the stream on which it arrived. On that row the removal of a banner is a matter of single
characters. One of the standard output goes if no line feed of the standard output stands before it,
wherever the pieces are cut and whatever arrives between them on the other stream.

Main definitions:

- `OutputChunk.characters`, `ProcessResult.characters`: the characters of the output with their
  streams.
- `withoutFirstLine`: the output without the first line of the standard output.
- `WithoutBanner`, `CleanedResult`: a result, good or bad, from which a banner was removed.

Main results:

- `characters_dropOutput`: dropping characters does not depend on the pieces.
- `dropStdout_firstLineLength`: as many characters as the first line has are the first line.
- `banner_removed`: what the removal of a banner leaves.
-/

namespace BuildLens

/-! ## Output character by character -/

namespace OutputChunk

/-- The characters of a piece of output, each with its stream. -/
def characters (c : OutputChunk) : List (Stream × Char) := c.text.toList.map (c.stream, ·)

@[simp]
theorem map_snd_characters (c : OutputChunk) : c.characters.map Prod.snd = c.text.toList := by
  simp [characters, Function.comp_def]

/-- The characters of a piece are all on its stream. -/
theorem filter_characters (c : OutputChunk) (s : Stream) :
    c.characters.filter (·.1 = s) = if c.stream = s then c.characters else [] := by
  by_cases h : c.stream = s <;> simp [characters, List.filter_map, Function.comp_def, h]

end OutputChunk

namespace ProcessResult

/-- The characters of the output in the order of arrival, each with its stream. -/
def characters (r : ProcessResult) : List (Stream × Char) := r.chunks.flatMap OutputChunk.characters

/-- The text of pieces is that of their characters. -/
theorem toList_joined (chunks : List OutputChunk) :
    (joined chunks).toList = (chunks.flatMap OutputChunk.characters).map Prod.snd := by
  simp [joined, List.map_flatMap, List.flatMap_map]

/-- The texts of pieces are joined in their order. -/
theorem joined_append (xs ys : List OutputChunk) : joined (xs ++ ys) = joined xs ++ joined ys := by
  simp [joined]

/-- The text of a result is that of its characters. -/
theorem toList_text (r : ProcessResult) : r.text.toList = r.characters.map Prod.snd :=
  toList_joined r.chunks

/-- The characters of the pieces on a stream are those on that stream. -/
theorem flatMap_characters_filter (chunks : List OutputChunk) (s : Stream) :
    (chunks.filter (·.stream = s)).flatMap OutputChunk.characters =
      (chunks.flatMap OutputChunk.characters).filter (·.1 = s) := by
  induction chunks with
  | nil => rfl
  | cons c chunks ih =>
    rw [List.flatMap_cons, List.filter_append, OutputChunk.filter_characters, ← ih]
    by_cases h : c.stream = s <;> simp [h]

/-- The text of a result on a stream is that of its characters there. -/
theorem toList_textOn (r : ProcessResult) (s : Stream) :
    (r.textOn s).toList = (r.characters.filter (·.1 = s)).map Prod.snd := by
  rw [textOn, toList_joined, flatMap_characters_filter, characters]

end ProcessResult

/-! ## Dropping characters -/

/-- The output without the first characters of the standard output. -/
def dropStdout : Nat → List (Stream × Char) → List (Stream × Char)
  | 0, output => output
  | _ + 1, [] => []
  | n + 1, (.stderr, a) :: output => (.stderr, a) :: dropStdout (n + 1) output
  | n + 1, (.stdout, _) :: output => dropStdout n output

variable {output : List (Stream × Char)}

@[simp]
theorem dropStdout_zero (output : List (Stream × Char)) : dropStdout 0 output = output := by
  cases output <;> rfl

/-- Of the standard error output nothing is dropped. -/
theorem dropStdout_stderr (n : Nat) (cs : List Char) (output : List (Stream × Char)) :
    dropStdout n (cs.map (.stderr, ·) ++ output) = cs.map (.stderr, ·) ++ dropStdout n output := by
  induction cs with
  | nil => rfl
  | cons a cs ih =>
    cases n with
    | zero => simp
    | succ n => simp [dropStdout, ih]

/-- Of the standard output so much is dropped as there is, and the rest behind it. -/
theorem dropStdout_stdout (n : Nat) (cs : List Char) (output : List (Stream × Char)) :
    dropStdout n (cs.map (.stdout, ·) ++ output) =
      (cs.map (.stdout, ·)).drop n ++ dropStdout (n - cs.length) output := by
  induction cs generalizing n with
  | nil => simp
  | cons a cs ih =>
    cases n with
    | zero => simp
    | succ n => simp [dropStdout, ih]

/-- Dropping characters of pieces of output does not depend on the pieces. -/
theorem characters_dropOutput (n : Nat) (chunks : List OutputChunk) :
    (dropOutput n chunks).flatMap OutputChunk.characters =
      dropStdout n (chunks.flatMap OutputChunk.characters) := by
  induction chunks generalizing n with
  | nil => cases n <;> rfl
  | cons c chunks ih =>
    cases n with
    | zero => simp [dropOutput]
    | succ n =>
      obtain ⟨stream, text⟩ := c
      cases stream with
      | stderr => simp [dropOutput, ih, OutputChunk.characters, dropStdout_stderr]
      | stdout =>
        rw [List.flatMap_cons, OutputChunk.characters, dropStdout_stdout, String.length_toList]
        by_cases hlength : text.length ≤ n + 1
        · simp [dropOutput, hlength, ih, String.length_toList]
        · have hrest : n + 1 - text.length = 0 := by omega
          simp [dropOutput, hlength, hrest, OutputChunk.characters]

/-! ## The first line -/

/-- The output without the first line of the standard output: a character of the standard output is
left out if no line feed of the standard output stands before it. -/
def withoutFirstLine (output : List (Stream × Char)) : List (Stream × Char) :=
  collect (fun before a => if a.1 = .stdout ∧ (.stdout, '\n') ∉ before then none else some a) output

/-- A text behind its first line feed, which is nothing if there is none. -/
def afterFirstLine (cs : List Char) : List Char := (cs.dropWhile (· ≠ '\n')).tail

/-- A character of the standard error output stays. -/
theorem withoutFirstLine_stderr (a : Char) (output : List (Stream × Char)) :
    withoutFirstLine ((.stderr, a) :: output) = (.stderr, a) :: withoutFirstLine output := by
  simp [withoutFirstLine, collect_cons]

/-- A character of the standard output goes, and with a line feed the first line ends. -/
theorem withoutFirstLine_stdout (a : Char) (output : List (Stream × Char)) :
    withoutFirstLine ((.stdout, a) :: output) =
      if a = '\n' then output else withoutFirstLine output := by
  by_cases h : a = '\n'
  · simp [withoutFirstLine, collect_cons, h]
  · simp [withoutFirstLine, collect_cons, h, Ne.symm h]

/-- The first line goes on up to a line feed. -/
theorem firstLineLength_cons (a : Char) (cs : List Char) :
    firstLineLength (a :: cs) = if a = '\n' then 1 else firstLineLength cs + 1 := by
  rw [firstLineLength, List.findIdx?_cons, firstLineLength]
  by_cases h : a = '\n'
  · simp [h]
  · cases cs.findIdx? (· == '\n') <;> simp [h]

/-- As many characters of the standard output as its first line has are its first line. -/
theorem dropStdout_firstLineLength (output : List (Stream × Char)) :
    dropStdout (firstLineLength ((output.filter (·.1 = .stdout)).map Prod.snd)) output =
      withoutFirstLine output := by
  induction output with
  | nil => rfl
  | cons a output ih =>
    obtain ⟨stream, a⟩ := a
    cases stream with
    | stderr =>
      rw [withoutFirstLine_stderr, ← ih]
      exact dropStdout_stderr _ [a] output
    | stdout =>
      rw [withoutFirstLine_stdout, List.filter_cons_of_pos (by simp), List.map_cons,
        firstLineLength_cons]
      by_cases h : a = '\n' <;> simp [h, dropStdout, ih]

/-- The standard error output stays as it is. -/
theorem filter_stderr_withoutFirstLine (output : List (Stream × Char)) :
    (withoutFirstLine output).filter (·.1 = .stderr) = output.filter (·.1 = .stderr) := by
  induction output with
  | nil => rfl
  | cons a output ih =>
    obtain ⟨stream, a⟩ := a
    cases stream with
    | stderr => simp [withoutFirstLine_stderr, ih]
    | stdout => by_cases h : a = '\n' <;> simp [withoutFirstLine_stdout, h, ih]

/-- The standard output is left from behind its first line feed. -/
theorem filter_stdout_withoutFirstLine (output : List (Stream × Char)) :
    ((withoutFirstLine output).filter (·.1 = .stdout)).map Prod.snd =
      afterFirstLine ((output.filter (·.1 = .stdout)).map Prod.snd) := by
  induction output with
  | nil => rfl
  | cons a output ih =>
    obtain ⟨stream, a⟩ := a
    cases stream with
    | stderr => simp [withoutFirstLine_stderr, ih]
    | stdout =>
      by_cases h : a = '\n' <;> simp [withoutFirstLine_stdout, afterFirstLine, h] at ih ⊢
      exact ih

/-! ## Banners -/

/-- Whether `new` is what the removal of a banner leaves of `old`: a result of the same command,
which has ended in the same way. The first line of the standard output is gone if the banner stood
there, and from the whole output just the characters of that line are gone. -/
structure WithoutBanner (banner : String) (old new : ProcessResult) : Prop where
  args : new.args = old.args
  exitCode : new.exitCode = old.exitCode
  stderr : new.textOn .stderr = old.textOn .stderr
  stdout : (new.textOn .stdout).toList =
    if banner.toList <+: (old.textOn .stdout).toList then
      afterFirstLine (old.textOn .stdout).toList
    else (old.textOn .stdout).toList
  characters : new.characters =
    if banner.toList <+: (old.textOn .stdout).toList then withoutFirstLine old.characters
    else old.characters
  /-- The same of the text of the whole output. -/
  text : new.text.toList =
    (if banner.toList <+: (old.textOn .stdout).toList then withoutFirstLine old.characters
    else old.characters).map Prod.snd

/-- Whether a result, good or bad, is what the removal of a banner leaves of another one. The error
is told in the same words. -/
def CleanedResult (banner : String) :
    Except ProcessError ProcessResult → Except ProcessError ProcessResult → Prop
  | .ok old, .ok new => WithoutBanner banner old new
  | .error old, .error new =>
    new.message = old.message ∧ new.command = old.command ∧
      WithoutBanner banner old.result new.result
  | _, _ => False

/-- A banner takes the characters of its line with it, and nothing else. -/
theorem ProcessResult.characters_stripBanner (r : ProcessResult) (banner : String) :
    (r.stripBanner banner).characters =
      if banner.toList <+: (r.textOn .stdout).toList then withoutFirstLine r.characters
      else r.characters := by
  rw [stripBanner]
  simp only [List.isPrefixOf_iff_prefix]
  split
  · rw [characters, characters_dropOutput, ← characters, toList_textOn,
      dropStdout_firstLineLength]
  · rfl

/-- The removal of a banner does what it says. -/
theorem ProcessResult.withoutBanner (r : ProcessResult) (banner : String) :
    WithoutBanner banner r (r.stripBanner banner) := by
  have hcharacters := r.characters_stripBanner banner
  refine ⟨?args, ?exitCode, ?stderr, ?stdout, hcharacters, ?text⟩
  case args => rw [stripBanner]; split <;> rfl
  case exitCode => rw [stripBanner]; split <;> rfl
  case stderr =>
    rw [← String.toList_inj, toList_textOn, toList_textOn, hcharacters]
    split
    · rw [filter_stderr_withoutFirstLine]
    · rfl
  case stdout =>
    rw [toList_textOn, hcharacters]
    split
    · rw [filter_stdout_withoutFirstLine, ← toList_textOn]
    · rw [← toList_textOn]
  case text => rw [toList_text, hcharacters]

/-- The removal of a banner leaves the standard error output alone and takes the first line from the
standard output exactly if the banner stands there; from the whole output it takes the same
characters and no others. The results of commands that are run by the login shell, good or bad, are
handed on after its banner was removed. -/
theorem banner_removed :
    (∀ (r : ProcessResult) (banner : String), WithoutBanner banner r (r.stripBanner banner)) ∧
    ∀ (root : FilePath) (l : Launch) (event : ProcessEvent),
      CleanedResult mozillaBuildBanner (l.outcome event)
        ((Runner.mozillaBuild root).outcome l event) := by
  refine ⟨ProcessResult.withoutBanner, fun root l event => ?_⟩
  rw [Runner.outcome]
  cases l.outcome event with
  | ok r => exact r.withoutBanner mozillaBuildBanner
  | error e =>
    have hresult := e.result.withoutBanner mozillaBuildBanner
    refine ⟨?_, ?_, hresult⟩
    · simp [ProcessError.message, ProcessError.program, ProcessResult.printable, hresult.args,
        hresult.exitCode]
    · simp [ProcessError.command, ProcessError.program, ProcessResult.printable, hresult.args]

end BuildLens
