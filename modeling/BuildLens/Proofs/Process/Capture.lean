import BuildLens.Process.Capture
import BuildLens.Proofs.Process.Output
import BuildLens.Proofs.Text.Replacement

/-!
# Output however it is read

A process writes bytes to two streams. Into which reads they are cut, and how the reads of the two
streams follow each other, is up to the system, and so is which stream ends first. The text captured
of a stream is the same in all cases: it is what the bytes of the stream write as a whole.

Main definitions:

- `Delivers`: a stream gives some bytes in reads of any sizes and ends.
- `StreamEvent.found`: what the decoder of a stream finds at an event.

Main results:

- `Capture.chunks_step`, `Capture.decoder_step`: an event adds to the pieces of its own stream.
- `Capture.filter_chunks_run`: the pieces of a stream do not depend on the other stream.
- `Capture.joined_run_reads`: a stream that is read alone.
- `capture_decodes`: the captured text of each stream.
-/

namespace BuildLens

open Text (Utf8.State Utf8.Found Utf8.replaceFaults Utf8.readFrom)

/-- Whether a stream gives some bytes, in reads of any sizes, and then ends. What happens meanwhile
on the other stream does not matter. -/
def Delivers (events : List StreamEvent) (s : Stream) (bytes : List UInt8) : Prop :=
  ∃ reads : List (List UInt8), reads.flatten = bytes ∧
    events.filter (·.stream = s) = reads.map (.read s) ++ [.close s]

/-- What the decoder of a stream finds at an event, and its state afterwards. -/
def StreamEvent.found (state : Utf8.State) : StreamEvent → List Utf8.Found × Utf8.State
  | .read _ bytes => Text.Utf8.run state bytes
  | .close _ => (Text.Utf8.finish state, .start)

/-- The piece of text that is made of what was found, if that is anything. -/
def OutputChunk.ofFound (s : Stream) (found : List Utf8.Found) : List OutputChunk :=
  if found.isEmpty then [] else [⟨s, String.ofList (Utf8.replaceFaults found)⟩]

/-! ## Pieces of text -/

namespace OutputChunk

variable {s : Stream} {found : List Utf8.Found} {c : OutputChunk}

/-- The text of what was found is that of its characters, faults being replaced. -/
theorem toList_joined_ofFound (s : Stream) (found : List Utf8.Found) :
    (ProcessResult.joined (ofFound s found)).toList = Utf8.replaceFaults found := by
  cases found <;> simp [ofFound, ProcessResult.joined, Utf8.replaceFaults]

/-- No piece of output is empty. -/
theorem text_ne_of_mem_ofFound (h : c ∈ ofFound s found) : c.text ≠ "" := by
  cases found with
  | nil => simp [ofFound] at h
  | cons f found => simp_all [ofFound, Utf8.replaceFaults]

/-- A piece is on the stream on which it was found. -/
theorem filter_ofFound (s t : Stream) (found : List Utf8.Found) :
    (ofFound s found).filter (·.stream = t) = if s = t then ofFound s found else [] := by
  by_cases h : s = t <;> cases found <;> simp [ofFound, h]

end OutputChunk

/-! ## One event -/

namespace Capture

variable {s t : Stream} {c c' : Capture} {events : List StreamEvent}

/-- The decoders of two streams do not disturb each other. -/
theorem decoder_setDecoder (c : Capture) (s t : Stream) (state : Utf8.State) :
    (c.setDecoder s state).decoder t = if t = s then state else c.decoder t := by
  cases s <;> cases t <;> rfl

theorem chunks_setDecoder (c : Capture) (s : Stream) (state : Utf8.State) :
    (c.setDecoder s state).chunks = c.chunks := by
  cases s <;> rfl

/-- To give out a piece leaves the decoders. -/
theorem decoder_emit (c : Capture) (s t : Stream) (found : List Utf8.Found) :
    (c.emit s found).decoder t = c.decoder t := by
  rw [emit]
  split <;> cases t <;> rfl

/-- A piece is given out behind the others. -/
theorem chunks_emit (c : Capture) (s : Stream) (found : List Utf8.Found) :
    (c.emit s found).chunks = c.chunks ++ OutputChunk.ofFound s found := by
  rw [emit, OutputChunk.ofFound]
  split <;> simp

/-- At an event a decoder goes on and a piece is given out. -/
theorem step_eq (c : Capture) (e : StreamEvent) :
    c.step e = (c.setDecoder e.stream (e.found (c.decoder e.stream)).2).emit e.stream
      (e.found (c.decoder e.stream)).1 := by
  cases e <;> rfl

/-- An event adds a piece of text at the end, which is one of its own stream. -/
theorem chunks_step (c : Capture) (e : StreamEvent) :
    (c.step e).chunks =
      c.chunks ++ OutputChunk.ofFound e.stream (e.found (c.decoder e.stream)).1 := by
  rw [step_eq, chunks_emit, chunks_setDecoder]

/-- An event changes the decoder of its own stream only. -/
theorem decoder_step (c : Capture) (e : StreamEvent) (s : Stream) :
    (c.step e).decoder s = if s = e.stream then (e.found (c.decoder s)).2 else c.decoder s := by
  rw [step_eq, decoder_emit, decoder_setDecoder]
  split
  · next h => rw [h]
  · rfl

/-! ## All events -/

theorem run_cons (c : Capture) (e : StreamEvent) (events : List StreamEvent) :
    c.run (e :: events) = (c.step e).run events :=
  rfl

/-- A capture goes on from where its beginning ends. -/
theorem run_append (c : Capture) (before after : List StreamEvent) :
    c.run (before ++ after) = (c.run before).run after :=
  List.foldl_append

/-- Pieces of text stay where they are. -/
theorem chunks_prefix_run (c : Capture) (events : List StreamEvent) :
    c.chunks <+: (c.run events).chunks := by
  induction events generalizing c with
  | nil => exact List.prefix_rfl
  | cons e events ih =>
    rw [run_cons]
    apply List.IsPrefix.trans _ (ih (c.step e))
    rw [chunks_step]
    exact List.prefix_append _ _

/-- No piece of a capture is empty. -/
theorem text_ne_of_mem_run (hc : ∀ chunk ∈ c.chunks, chunk.text ≠ "") :
    ∀ chunk ∈ (c.run events).chunks, chunk.text ≠ "" := by
  induction events generalizing c with
  | nil => exact hc
  | cons e events ih =>
    rw [run_cons]
    apply ih
    intro chunk hchunk
    rw [chunks_step] at hchunk
    rcases List.mem_append.mp hchunk with hold | hnew
    · exact hc chunk hold
    · exact OutputChunk.text_ne_of_mem_ofFound hnew

/-- The pieces of a stream are those that it gives when nothing happens on the other one. -/
theorem filter_chunks_run (hdecoder : c'.decoder s = c.decoder s)
    (hchunks : c'.chunks = c.chunks.filter (·.stream = s)) :
    (c.run events).chunks.filter (·.stream = s) =
      (c'.run (events.filter (·.stream = s))).chunks := by
  induction events generalizing c c' with
  | nil => exact hchunks.symm
  | cons e events ih =>
    rw [run_cons]
    by_cases he : e.stream = s
    · subst he
      rw [List.filter_cons_of_pos (by simp), run_cons]
      apply ih
      · simp [decoder_step, hdecoder]
      · simp [chunks_step, hchunks, hdecoder, OutputChunk.filter_ofFound]
    · rw [List.filter_cons_of_neg (by simpa using he)]
      apply ih
      · rw [decoder_step, if_neg (Ne.symm he), hdecoder]
      · simp [chunks_step, hchunks, OutputChunk.filter_ofFound, he]

/-- A stream that is read alone gives the text of all its bytes. -/
theorem joined_run_reads (c : Capture) (s : Stream) (reads : List (List UInt8)) :
    (ProcessResult.joined (c.run (reads.map (.read s) ++ [.close s])).chunks).toList =
      (ProcessResult.joined c.chunks).toList ++
        Utf8.replaceFaults (Utf8.readFrom (c.decoder s) reads.flatten) := by
  induction reads generalizing c with
  | nil =>
    simp [run, chunks_step, ProcessResult.joined_append, StreamEvent.stream,
      StreamEvent.found, OutputChunk.toList_joined_ofFound]
  | cons bytes reads ih =>
    rw [List.map_cons, List.cons_append, run_cons, ih, chunks_step, decoder_step,
      List.flatten_cons, Text.Utf8.readFrom_append]
    simp [ProcessResult.joined_append, StreamEvent.stream, StreamEvent.found,
      OutputChunk.toList_joined_ofFound, Utf8.replaceFaults]

end Capture

/-! ## Pieces that arrive -/

/-- The reads make up what arrives. -/
theorem flatten_readPieces (bytes : List UInt8) : (readPieces bytes).flatten = bytes := by
  induction bytes using readPieces.induct with
  | case1 => simp [readPieces]
  | case2 b bytes ih =>
    rw [readPieces, List.flatten_cons, ih]
    exact List.take_append_drop readSize (b :: bytes)

/-- The bytes that arrive on a stream. -/
def Arrival.bytesOn (s : Stream) (arrivals : List Arrival) : List UInt8 :=
  (arrivals.filter (·.stream = s)).flatMap Arrival.bytes

/-- What arrives is read on its own stream only. -/
theorem Arrival.filter_events (a : Arrival) (s : Stream) :
    a.events.filter (·.stream = s) =
      if a.stream = s then (readPieces a.bytes).map (.read s) else [] := by
  by_cases h : a.stream = s <;>
    simp [events, List.filter_map, Function.comp_def, StreamEvent.stream, h]

/-- The reads of a stream are those of the pieces that arrive on it. -/
theorem filter_flatMap_events (arrivals : List Arrival) (s : Stream) :
    (arrivals.flatMap Arrival.events).filter (·.stream = s) =
      ((arrivals.filter (·.stream = s)).flatMap (readPieces ·.bytes)).map (.read s) := by
  induction arrivals with
  | nil => rfl
  | cons a arrivals ih =>
    rw [List.flatMap_cons, List.filter_append, ih, Arrival.filter_events]
    by_cases h : a.stream = s <;> simp [h]

/-- The streams of a process give the bytes that arrive on them. -/
theorem delivers_arrivals (arrivals : List Arrival) (s : Stream) :
    Delivers (arrivals.flatMap Arrival.events ++ [.close .stdout, .close .stderr]) s
      (Arrival.bytesOn s arrivals) := by
  refine ⟨(arrivals.filter (·.stream = s)).flatMap (readPieces ·.bytes), ?_, ?_⟩
  · rw [Arrival.bytesOn, List.flatMap_def, List.flatten_flatten, List.map_map, List.flatMap_def]
    simp [Function.comp_def, flatten_readPieces]
  · have hclose : [StreamEvent.close .stdout, .close .stderr].filter (·.stream = s) =
        [.close s] := by
      cases s <;> rfl
    rw [List.filter_append, filter_flatMap_events, hclose]

/-! ## The captured text -/

/-- The texts to which bytes decode are just the text of the pieces. -/
theorem Capture.decoding_iff {events : List StreamEvent} {s : Stream} {bytes : List UInt8}
    (h : Delivers events s bytes) (cs : List Char) :
    Text.Utf8.Decoding bytes cs ↔
      (ProcessResult.joined ((run {} events).chunks.filter (·.stream = s))).toList = cs := by
  obtain ⟨reads, rfl, hreads⟩ := h
  have halone : (run {} events).chunks.filter (·.stream = s) =
      (run {} (reads.map (.read s) ++ [.close s])).chunks := by
    rw [filter_chunks_run rfl rfl, hreads]
  have hstart : decoder {} s = .start := by
    cases s <;> rfl
  rw [halone, joined_run_reads, hstart, Text.Utf8.decoding_iff, Text.Utf8.decode_eq_readFrom]
  simp [ProcessResult.joined]

/-- Whatever the bytes are that a process writes to its streams, and however they are read, the text
captured of each stream is what its bytes write as a whole, each fault replaced. No piece of text is
empty. The pieces of one stream come in the order of its reads, as if the other stream were silent,
and what has been captured stays in front of what comes later. The output of a process whose bytes
arrive in pieces is captured in this way. -/
theorem capture_decodes :
    (∀ (written : Stream → List UInt8) (events : List StreamEvent),
      (∀ s, Delivers events s (written s)) → ∀ (args : List String) (exitCode : Int),
        let r : ProcessResult := { args, exitCode, chunks := (Capture.run {} events).chunks }
        (∀ s cs, Text.Utf8.Decoding (written s) cs ↔ (r.textOn s).toList = cs) ∧
        (∀ c ∈ r.chunks, c.text ≠ "") ∧
        (∀ s, r.chunks.filter (·.stream = s) =
          (Capture.run {} (events.filter (·.stream = s))).chunks) ∧
        ∀ before after, events = before ++ after → (Capture.run {} before).chunks <+: r.chunks) ∧
    ∀ arrivals, ∃ events, capture arrivals = (Capture.run {} events).chunks ∧
      ∀ s, Delivers events s (Arrival.bytesOn s arrivals) := by
  constructor
  · intro written events h args exitCode
    refine ⟨fun s => Capture.decoding_iff (h s), Capture.text_ne_of_mem_run (by simp),
      fun s => Capture.filter_chunks_run rfl rfl, ?_⟩
    rintro before after rfl
    rw [Capture.run_append]
    exact Capture.chunks_prefix_run _ after
  · exact fun arrivals => ⟨_, rfl, delivers_arrivals arrivals⟩

/-- Two streams that are cut within characters, one of them with a byte that begins none and with a
character that is broken off at its end. -/
def cutReads : List StreamEvent := [
  .read .stdout [0x41, 0xC3], .read .stderr [0xE2, 0x82], .read .stdout [0xA9, 0xFF],
  .close .stdout, .read .stderr [0xAC, 0xF0, 0x9F], .close .stderr]

/-- The bytes of the two streams. -/
def cutBytes : Stream → List UInt8
  | .stdout => [0x41, 0xC3, 0xA9, 0xFF]
  | .stderr => [0xE2, 0x82, 0xAC, 0xF0, 0x9F]

theorem capture_decodes_cutReads :
    (∀ s, Delivers cutReads s (cutBytes s)) ∧
      let r : ProcessResult := { args := ["cc"], chunks := (Capture.run {} cutReads).chunks }
      (r.textOn .stdout).toList = ['A', 'é', '\uFFFD'] ∧
        (r.textOn .stderr).toList = ['€', '\uFFFD'] := by
  have hdelivers : ∀ s, Delivers cutReads s (cutBytes s)
    | .stdout => ⟨[[0x41, 0xC3], [0xA9, 0xFF]], rfl, rfl⟩
    | .stderr => ⟨[[0xE2, 0x82], [0xAC, 0xF0, 0x9F]], rfl, rfl⟩
  have hcapture := (capture_decodes.1 cutBytes cutReads hdelivers ["cc"] 0).1
  exact ⟨hdelivers, (hcapture .stdout _).mp (Text.Utf8.decoding_iff.mpr (by decide)),
    (hcapture .stderr _).mp (Text.Utf8.decoding_iff.mpr (by decide))⟩

end BuildLens
