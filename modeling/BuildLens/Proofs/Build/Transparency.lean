import BuildLens.Proofs.Build.Backend
import BuildLens.Proofs.Table

/-!
# Fragments kept while files change

Files are written, replaced and removed while fragments are fetched. A fragment is kept with the
time of its file, and the file is read again only when the time is another one. So a change shows if
it gives the file a time that it never had before. Then what is kept is what some earlier state of
the files said, and a time that the file has again belongs to the content that it had then.

Main definitions:

- `Snapshot`: a state of the files.
- `CacheEvent`, `CacheRun`, `CacheRun.step`: changes and fetches, one after the other.
- `CacheRun.Renews`, `CacheRun.Renewing`: changes that show in the times of files.
- `CacheRun.Faithful`: what is kept was said by the files, and the times of files tell their
  content.

Main results:

- `fetchFragment_cases`: what a fetch can do.
- `CacheRun.Faithful.step`: each event keeps the run faithful.
- `CacheRun.fetch_transparent`: fetching is like reading the files each time.
-/

namespace BuildLens

variable {reply : (q : Request) → q.Reply} {cache cache' : FragmentCache} {path other : FilePath}

/-! ## One fetch -/

/-- A fragment is there if the file has a time and can be read. -/
theorem fragmentAt_eq_ok_some_iff {values : Variables} :
    fragmentAt reply path = .ok (some values) ↔
      ∃ mtime bytes, reply (.mtime path) = .ok mtime ∧ reply (.read path) = .ok bytes ∧
        values = Variables.read ∅ (Text.ofBytes bytes) := by
  rw [fragmentAt]
  cases hmtime : reply (.mtime path) with
  | error errno => cases errno <;> simp
  | ok mtime =>
    cases hread : reply (.read path) with
    | error errno => simp
    | ok bytes => simp [eq_comm]

/-- A fetch in full. -/
theorem fetchFragment_answered_eq (reply : (q : Request) → q.Reply) (cache : FragmentCache)
    (path : FilePath) :
    (fetchFragment path).answered reply cache =
      match reply (.mtime path) with
      | .error .noEntry => (.ok none, cache.forget path)
      | .error errno => (.error (.system ⟨errno, path.text⟩), cache)
      | .ok mtime =>
        match (cache.find? path).filter (·.mtime = mtime) with
        | some kept => (.ok (some kept.values), cache)
        | none =>
          match reply (.read path) with
          | .error errno => (.error (.system ⟨errno, path.text⟩), cache)
          | .ok bytes =>
            (.ok (some (Variables.read ∅ (Text.ofBytes bytes))),
              cache.keep path mtime (Variables.read ∅ (Text.ofBytes bytes))) := by
  rw [fetchFragment, Inquiry.answered_bind_ok (Inquiry.answered_request _)]
  cases reply (.mtime path) with
  | error errno => cases errno <;> rfl
  | ok mtime =>
    dsimp only
    rw [Inquiry.answered_recall]
    cases (cache.find? path).filter (·.mtime = mtime) with
    | some kept => rfl
    | none =>
      dsimp only
      cases hread : reply (.read path) with
      | ok bytes =>
        rw [Inquiry.answered_bind_ok (readFragment_answered_ok hread)]
        rfl
      | error errno =>
        rw [Inquiry.answered_bind_ok (readFragment_answered_error hread)]
        rfl

/-- What a fetch can do. A fragment is forgotten if its file does not exist, and kept if it had to
be read. Otherwise what is kept stays as it is. -/
theorem fetchFragment_cases (reply : (q : Request) → q.Reply) (cache : FragmentCache)
    (path : FilePath) :
    (fetchFragment path).answered reply cache = (.ok none, cache.forget path) ∨
    (∃ failure, (fetchFragment path).answered reply cache = (.error failure, cache)) ∨
    (∃ kept, cache.find? path = some kept ∧ reply (.mtime path) = .ok kept.mtime ∧
      (fetchFragment path).answered reply cache = (.ok (some kept.values), cache)) ∨
    (∃ mtime values, reply (.mtime path) = .ok mtime ∧
      fragmentAt reply path = .ok (some values) ∧
      (fetchFragment path).answered reply cache =
        (.ok (some values), cache.keep path mtime values)) := by
  rw [fetchFragment_answered_eq]
  split
  · exact .inl rfl
  · exact .inr (.inl ⟨_, rfl⟩)
  next mtime hmtime =>
  split
  · next kept hkept =>
    obtain ⟨hfind, htime⟩ := Option.filter_eq_some_iff.mp hkept
    have htime : kept.mtime = mtime := of_decide_eq_true htime
    exact .inr (.inr (.inl ⟨kept, hfind, by rw [hmtime, htime], rfl⟩))
  split
  · exact .inr (.inl ⟨_, rfl⟩)
  · next bytes hread =>
    have hfragment := fragmentAt_eq_ok_some_iff.mpr ⟨mtime, bytes, hmtime, hread, rfl⟩
    exact .inr (.inr (.inr ⟨mtime, _, hmtime, hfragment, rfl⟩))

/-- The answer of a fetch depends on the fragment kept for the path alone. -/
theorem fetchFragment_answered_congr (h : cache.find? path = cache'.find? path) :
    ((fetchFragment path).answered reply cache).1 =
      ((fetchFragment path).answered reply cache').1 := by
  rw [fetchFragment_answered_eq, fetchFragment_answered_eq, h]
  split
  · rfl
  · rfl
  split
  · rfl
  split <;> rfl

/-- A fetch that fails leaves everything that is kept as it is. -/
theorem fetchFragment_answered_of_error {failure : Failure}
    (h : ((fetchFragment path).answered reply cache).1 = .error failure) :
    ((fetchFragment path).answered reply cache).2 = cache := by
  rcases fetchFragment_cases reply cache path with
    hfetch | ⟨_, hfetch⟩ | ⟨_, _, _, hfetch⟩ | ⟨_, _, _, _, hfetch⟩
  · rw [hfetch] at h
    cases h
  · rw [hfetch]
  · rw [hfetch]
  · rw [hfetch] at h
    cases h

theorem FragmentCache.find?_keep (cache : FragmentCache) (path other : FilePath) (mtime : Int)
    (values : Variables) :
    (cache.keep path mtime values).find? other =
      if path.same other then some ⟨mtime, values, cache.count⟩ else cache.find? other := by
  simp only [keep, find?, Table.find?_insert, FilePath.same, beq_iff_eq, eq_comm (a := path.key)]

theorem FragmentCache.find?_forget (cache : FragmentCache) (path other : FilePath) :
    (cache.forget path).find? other = if path.same other then none else cache.find? other := by
  simp only [forget, find?, Table.find?_erase, FilePath.same, beq_iff_eq, eq_comm (a := path.key)]

/-- A fetch leaves the fragments of other paths as they are. -/
theorem find?_fetchFragment (hother : path.same other = false) :
    ((fetchFragment path).answered reply cache).2.find? other = cache.find? other := by
  rcases fetchFragment_cases reply cache path with
    hfetch | ⟨_, hfetch⟩ | ⟨_, _, _, hfetch⟩ | ⟨_, _, _, _, hfetch⟩
  · simp [hfetch, FragmentCache.find?_forget, hother]
  · rw [hfetch]
  · rw [hfetch]
  · simp [hfetch, FragmentCache.find?_keep, hother]

/-! ## Files that change -/

/-- A state of the files: what requests are replied while nothing changes. The spellings of a path
lead to one file, which has one time and one content. -/
structure Snapshot where
  reply : (q : Request) → q.Reply
  mtime_congr : ∀ p q : FilePath, p.same q = true → reply (.mtime p) = reply (.mtime q)
  read_congr : ∀ p q : FilePath, p.same q = true → reply (.read p) = reply (.read q)

/-- The files if there is only one, whose path has the given key. -/
def Snapshot.single (key : String) (mtime : Int) (bytes : List UInt8) : Snapshot where
  reply
    | .isFile p => p.key == key
    | .mtime p => if p.key = key then .ok mtime else .error .noEntry
    | .read p => if p.key = key then .ok bytes else .error .noEntry
    | .realPath p => p.text
    | .run .. => .error .noCommand
  mtime_congr p q h := by
    dsimp only
    rw [beq_iff_eq.mp h]
  read_congr p q h := by
    dsimp only
    rw [beq_iff_eq.mp h]

theorem Snapshot.mtime_single_eq_ok {key : String} {mtime t : Int} {bytes : List UInt8} :
    (single key mtime bytes).reply (.mtime path) = .ok t ↔ path.key = key ∧ mtime = t := by
  by_cases h : path.key = key <;> simp [single, h]

/-- A change of the files, a fetch, or a request to forget what is kept. -/
inductive CacheEvent where
  | change (files : Snapshot)
  | fetch (path : FilePath)
  | clear

/-- The files now and before, the last state first, and what is kept. -/
structure CacheRun where
  now : Snapshot
  past : List Snapshot := []
  cache : FragmentCache := {}

namespace CacheRun

variable {s : CacheRun} {files : Snapshot} {events : List CacheEvent}

/-- The answer to a fetch, and what is kept afterwards. -/
def fetch (s : CacheRun) (path : FilePath) : Except Failure (Option Variables) × FragmentCache :=
  (fetchFragment path).answered s.now.reply s.cache

/-- The effect of an event. -/
def step (s : CacheRun) : CacheEvent → CacheRun
  | .change files => { s with now := files, past := s.now :: s.past }
  | .fetch path => { s with cache := (s.fetch path).2 }
  | .clear => { s with cache := s.cache.clear }

/-- A path whose file has another time or another content has a time later than all before, unless
it has none. -/
def Renews (s : CacheRun) (files : Snapshot) : Prop :=
  ∀ path mtime, files.reply (.mtime path) = .ok mtime →
    ¬ (files.reply (.mtime path) = s.now.reply (.mtime path) ∧
      files.reply (.read path) = s.now.reply (.read path)) →
    ∀ old ∈ s.now :: s.past, ∀ before, old.reply (.mtime path) = .ok before → before < mtime

/-- All changes among the events show in the times of files. -/
def Renewing (s : CacheRun) : List CacheEvent → Prop
  | [] => True
  | e :: events => (∀ files, e = .change files → s.Renews files) ∧ (s.step e).Renewing events

/-- What holds throughout a run: where a file has the time that it had before, it has the content
that it had then, and what is kept was said by the file when it had the time that is kept with
it. -/
structure Faithful (s : CacheRun) : Prop where
  content : ∀ path mtime, ∀ old ∈ s.past, old.reply (.mtime path) = .ok mtime →
    s.now.reply (.mtime path) = .ok mtime → old.reply (.read path) = s.now.reply (.read path)
  kept : ∀ path kept, s.cache.find? path = some kept → ∃ old ∈ s.now :: s.past,
    old.reply (.mtime path) = .ok kept.mtime ∧ fragmentAt old.reply path = .ok (some kept.values)

theorem faithful_start (files : Snapshot) : Faithful { now := files } where
  content path mtime old hold := by simp at hold
  kept path kept hfind := by simp [FragmentCache.find?] at hfind

/-- What is kept with the time that a file has now is what the file says now. -/
theorem Faithful.agrees (h : s.Faithful) : s.cache.Agrees s.now.reply := by
  intro path kept hfind hnow
  obtain ⟨old, hold, hmtime, hfragment⟩ := h.kept path kept hfind
  rcases List.mem_cons.mp hold with rfl | hold
  · exact hfragment
  · obtain ⟨_, bytes, _, hread, hvalues⟩ := fragmentAt_eq_ok_some_iff.mp hfragment
    have hsame := h.content path kept.mtime old hold hmtime hnow
    exact fragmentAt_eq_ok_some_iff.mpr ⟨kept.mtime, bytes, hnow, hsame ▸ hread, hvalues⟩

theorem Faithful.change (h : s.Faithful) (hrenews : s.Renews files) :
    (s.step (.change files)).Faithful where
  content path mtime old hold hbefore hnow := by
    by_cases hsame : files.reply (.mtime path) = s.now.reply (.mtime path) ∧
        files.reply (.read path) = s.now.reply (.read path)
    · -- The file is as it was, so what held of its earlier states still holds.
      change old.reply (.read path) = files.reply (.read path)
      rw [hsame.2]
      rcases List.mem_cons.mp hold with rfl | hold
      · rfl
      · exact h.content path mtime old hold hbefore (hsame.1 ▸ hnow)
    · exact absurd (hrenews path mtime hnow hsame old hold mtime hbefore) (lt_irrefl mtime)
  kept path kept hfind := by
    obtain ⟨old, hold, hkept⟩ := h.kept path kept hfind
    exact ⟨old, List.mem_cons_of_mem files hold, hkept⟩

theorem Faithful.fetch (h : s.Faithful) (path : FilePath) : (s.step (.fetch path)).Faithful where
  content := h.content
  kept path' kept hfind := by
    change (s.fetch path).2.find? path' = some kept at hfind
    rcases fetchFragment_cases s.now.reply s.cache path with
      hfetch | ⟨_, hfetch⟩ | ⟨_, _, _, hfetch⟩ | ⟨mtime, values, hmtime, hfragment, hfetch⟩
    · rw [CacheRun.fetch, hfetch, FragmentCache.find?_forget] at hfind
      split at hfind
      · cases hfind
      · exact h.kept path' kept hfind
    · rw [CacheRun.fetch, hfetch] at hfind
      exact h.kept path' kept hfind
    · rw [CacheRun.fetch, hfetch] at hfind
      exact h.kept path' kept hfind
    · rw [CacheRun.fetch, hfetch, FragmentCache.find?_keep] at hfind
      split at hfind
      · next hsame =>
        cases hfind
        obtain ⟨_, bytes, _, hread, hvalues⟩ := fragmentAt_eq_ok_some_iff.mp hfragment
        rw [s.now.mtime_congr path path' hsame] at hmtime
        rw [s.now.read_congr path path' hsame] at hread
        exact ⟨s.now, List.mem_cons_self, hmtime,
          fragmentAt_eq_ok_some_iff.mpr ⟨mtime, bytes, hmtime, hread, hvalues⟩⟩
      · exact h.kept path' kept hfind

theorem Faithful.clear (h : s.Faithful) : (s.step .clear).Faithful where
  content := h.content
  kept path kept hfind := by simp [CacheRun.step, FragmentCache.clear, FragmentCache.find?] at hfind

theorem Faithful.step (h : s.Faithful) {e : CacheEvent}
    (hrenews : ∀ files, e = .change files → s.Renews files) : (s.step e).Faithful := by
  cases e with
  | change files => exact h.change (hrenews files rfl)
  | fetch path => exact h.fetch path
  | clear => exact h.clear

theorem Faithful.run (h : s.Faithful) (hrenewing : s.Renewing events) :
    (events.foldl CacheRun.step s).Faithful := by
  induction events generalizing s with
  | nil => exact h
  | cons e events ih => exact ih (h.step hrenewing.1) hrenewing.2

/-- If all changes show in the times of files, a fetch is like reading the file each time: there is
no fragment if the file does not exist, a failure if it cannot be read, and else what the file says
now. A fetch that fails leaves everything that is kept as it is, and a fetch of one path makes no
difference to the answers for others, whatever the files are then. -/
theorem fetch_transparent (start : Snapshot) (events : List CacheEvent)
    (h : Renewing { now := start } events) (path : FilePath) :
    let s := events.foldl step { now := start }
    (s.fetch path).1 = fragmentAt s.now.reply path ∧
    (s.fetch path).1 = ((fetchFragment path).answered s.now.reply {}).1 ∧
    (∀ failure, (s.fetch path).1 = .error failure → (s.fetch path).2 = s.cache) ∧
    ∀ other, path.same other = false → ∀ files : Snapshot,
      ((fetchFragment other).answered files.reply (s.fetch path).2).1 =
        ((fetchFragment other).answered files.reply s.cache).1 := by
  intro s
  have hagrees : s.cache.Agrees s.now.reply := ((faithful_start start).run h).agrees
  have hempty : FragmentCache.Agrees {} s.now.reply := (faithful_start s.now).agrees
  refine ⟨fetchFragment_answered hagrees path, ?_, fun failure => fetchFragment_answered_of_error,
    fun other hother files => fetchFragment_answered_congr (find?_fetchFragment hother)⟩
  rw [fetchFragment_answered hempty]
  exact fetchFragment_answered hagrees path

/-- A file is fetched and removed, and fetched once more after it is back with another content. -/
theorem fetch_transparent_replaced :
    let path := FilePath.posix ⟨.single, []⟩
    let start := Snapshot.single "/" 1 [65]
    let events := [.fetch path, .change (.single "/a" 2 [65]), .fetch path,
      .change (.single "/" 3 [66])]
    Renewing { now := start } events ∧
      ((events.foldl step { now := start }).fetch path).1 =
        .ok (some (Variables.read ∅ (Text.ofBytes [66]))) := by
  intro path start events
  have hrenewing : Renewing { now := start } events := by
    refine ⟨by simp, ?_, by simp, ?_, trivial⟩
    · rintro files ⟨⟩ path' mtime hmtime - old hold before hbefore
      obtain rfl : old = start := List.mem_singleton.mp hold
      obtain ⟨hkey, -⟩ := Snapshot.mtime_single_eq_ok.mp hmtime
      obtain ⟨hkey', -⟩ := Snapshot.mtime_single_eq_ok.mp hbefore
      exact absurd (hkey'.symm.trans hkey) (by decide)
    · rintro files ⟨⟩ path' mtime hmtime - old hold before hbefore
      obtain ⟨hkey, rfl⟩ := Snapshot.mtime_single_eq_ok.mp hmtime
      obtain rfl | rfl : old = .single "/a" 2 [65] ∨ old = start :=
        (List.mem_cons.mp hold).imp_right List.mem_singleton.mp
      · obtain ⟨-, rfl⟩ := Snapshot.mtime_single_eq_ok.mp hbefore
        decide
      · obtain ⟨-, rfl⟩ := Snapshot.mtime_single_eq_ok.mp hbefore
        decide
  refine ⟨hrenewing, ?_⟩
  rw [(fetch_transparent start events hrenewing path).1]
  rfl

end CacheRun

end BuildLens
