import BuildLens.Proofs.Workspace.Files

/-!
# Files that are provided side by side

Several files are provided by one task, which lets a task begin for each and waits for all of them.
None of these fails, and so neither does the one that waits: it ends with the items of the files, in
the order in which they were asked for.

Main definitions:

- `Engine.Serves`: the task that waits, and those of the files.
- `Fair`: a task goes on again and again.

Main results:

- `Engine.Serves.step`: this stays so in every turn of any task.
- `Engine.Serves.items_of_result?`: what the task that waits ends with.
- `Engine.Serves.exists_result?`: it ends, if it and the tasks of the files go on again and again.
-/

namespace BuildLens

/-! ## The tasks of the files -/

/-- The numbers of the tasks that begin after a task, one for each file. -/
def fileIds (p : TaskId) (n : Nat) : List TaskId := (List.range n).map (p + 1 + ·)

/-- The tasks of files have the numbers that follow. -/
theorem mem_fileIds {p : TaskId} {n : Nat} {id : TaskId} :
    id ∈ fileIds p n ↔ ∃ k < n, p + 1 + k = id := by
  simp [fileIds]

namespace Engine

variable {p : TaskId} {uris : List String} {e : Engine}

/-- The items that tasks have ended with. -/
def Yields (e : Engine) (ids : List TaskId) (slots : List (Option ProvidedItem)) : Prop :=
  List.Forall₂ (fun id x => e.result? id = some (.ok (.item x))) ids slots

/-- What the task that waits for the files is doing: none of them fails, and it ends with what they
end with. -/
def Collects (e : Engine) (ids : List TaskId) : Activity → Prop
  | .gathering children noted after => children = ids ∧ noted = none ∧ after = .items
  | .done r => ∃ slots, e.Yields ids slots ∧ r = .ok (.items (slots.filterMap id))
  | _ => False

/-- A task provides files: a task of its own configures each of them. -/
structure Serves (p : TaskId) (uris : List String) (e : Engine) : Prop where
  files : ∀ n uri, uris[n]? = some uri →
    ∃ a, e.task? (p + 1 + n) = some ⟨some p, a⟩ ∧ a.IsFile uri
  collects : ∃ a, e.task? p = some ⟨none, a⟩ ∧ e.Collects (fileIds p uris.length) a

/-- The operation lets the tasks of the files begin. -/
theorem start_provide (e : Engine) (uris : List String) :
    ∃ eff : Effect, eff.children = uris.map .providing ∧
      e.start (.provide uris) = e.spawned.take e.tasks.length eff := by
  cases uris with
  | nil => exact ⟨.finish (.ok (.items [])), rfl, rfl⟩
  | cons uri rest => exact ⟨.gather ((uri :: rest).map .providing) .items, rfl, rfl⟩

/-- There is a task for each file, and one that waits for them. -/
theorem length_start_provide (e : Engine) (uris : List String) :
    (e.start (.provide uris)).tasks.length = e.tasks.length + 1 + uris.length := by
  obtain ⟨eff, hchildren, heq⟩ := start_provide e uris
  rw [heq, length_take, hchildren, length_spawned, List.length_map]

/-- To begin to provide files leaves the workspace. -/
theorem workspace_start_provide (e : Engine) (uris : List String) :
    (e.start (.provide uris)).workspace = e.workspace := by
  obtain ⟨eff, -, heq⟩ := start_provide e uris
  rw [heq, workspace_take]
  rfl

/-- Each file has its own task. -/
theorem task?_start_provide (e : Engine) (uris : List String) (n : Nat) :
    (e.start (.provide uris)).task? (e.tasks.length + 1 + n) =
      uris[n]?.map fun uri => ⟨some e.tasks.length, .providing uri⟩ := by
  obtain ⟨eff, hchildren, heq⟩ := start_provide e uris
  rw [heq, ← e.length_spawned, task?_take_new (lt_of_task? e.task?_spawned_new), hchildren,
    List.getElem?_map, Option.map_map]
  rfl

/-- The first task waits for those of the files. -/
theorem task?_start_collecting (e : Engine) {uris : List String} (h : uris ≠ []) :
    (e.start (.provide uris)).task? e.tasks.length =
      some ⟨none, .gathering (fileIds e.tasks.length uris.length) none .items⟩ := by
  obtain ⟨uri, rest, rfl⟩ := List.exists_cons_of_ne_nil h
  have hstart : e.start (.provide (uri :: rest)) =
      e.spawned.take e.tasks.length (.gather ((uri :: rest).map .providing) .items) :=
    rfl
  rw [hstart, task?_take_self e.task?_spawned_new, Effect.activity, List.length_map, length_spawned]
  rfl

/-- The tasks begin with the operation. -/
theorem serves_start (e : Engine) (uris : List String) :
    (e.start (.provide uris)).Serves e.tasks.length uris where
  files n uri hn := by
    rw [task?_start_provide, hn]
    exact ⟨_, rfl, rfl⟩
  collects := by
    by_cases huris : uris = []
    · subst huris
      have hself := task?_take_self e.task?_spawned_new (.finish (.ok (.items [])))
      exact ⟨.done (.ok (.items [])), hself, [], .nil, rfl⟩
    · exact ⟨_, task?_start_collecting e huris, rfl, rfl, rfl⟩

/-- What tasks have yielded they yield later too. -/
theorem Yields.mono {e' : Engine} {ids : List TaskId} {slots : List (Option ProvidedItem)}
    (h : e.Yields ids slots)
    (hmono : ∀ id ∈ ids, ∀ r, e.result? id = some r → e'.result? id = some r) :
    e'.Yields ids slots := by
  induction h with
  | nil => exact .nil
  | cons hx _ ih =>
    exact .cons (hmono _ List.mem_cons_self _ hx)
      (ih fun id hid => hmono id (List.mem_cons_of_mem _ hid))

/-- Tasks yield their items in one way only. -/
theorem Yields.unique {ids : List TaskId} {slots slots' : List (Option ProvidedItem)}
    (h : e.Yields ids slots) (h' : e.Yields ids slots') : slots = slots' := by
  refine List.right_unique_forall₂' (fun i x y hx hy => ?_) h h'
  rw [hx] at hy
  cases hy
  rfl

/-- The items of files, by the places of the files. -/
theorem yields_fileIds_iff {n : Nat} {slots : List (Option ProvidedItem)} :
    e.Yields (fileIds p n) slots ↔ slots.length = n ∧
      ∀ (k : Nat) x, slots[k]? = some x → e.result? (p + 1 + k) = some (.ok (.item x)) := by
  have hlength : (fileIds p n).length = n := by rw [fileIds, List.length_map, List.length_range]
  rw [Yields, List.forall₂_iff_get]
  constructor
  · rintro ⟨hn, h⟩
    refine ⟨hn.symm.trans hlength, fun k x hk => ?_⟩
    obtain ⟨hlt, rfl⟩ := List.getElem?_eq_some_iff.mp hk
    have hitem := h k (hn ▸ hlt) hlt
    simpa [fileIds] using hitem
  · rintro ⟨hn, h⟩
    refine ⟨hlength.trans hn.symm, fun k hk hlt => ?_⟩
    have hitem := h k slots[k] (List.getElem?_eq_getElem hlt)
    simpa [fileIds] using hitem

namespace Serves

/-- The task of a file, when it has ended. -/
theorem exists_item (h : e.Serves p uris) {id : TaskId} (hid : id ∈ fileIds p uris.length)
    {r : Except Failure Outcome} (hr : e.result? id = some r) : ∃ x, r = .ok (.item x) := by
  obtain ⟨k, hk, rfl⟩ := mem_fileIds.mp hid
  obtain ⟨a, ha, hfile⟩ := h.files k uris[k] (List.getElem?_eq_getElem hk)
  obtain ⟨t, ht, hdone⟩ := result?_eq_some_iff.mp hr
  rw [ha] at ht
  cases ht
  obtain rfl : a = .done r := hdone
  cases r with
  | error f => exact hfile.elim
  | ok o =>
    cases o with
    | item x => exact ⟨x, rfl⟩
    | _ => exact hfile.elim

/-- Tasks of files that have all ended well yield items, or none. -/
theorem exists_yields (h : e.Serves p uris) {ids : List TaskId}
    (hids : ∀ id ∈ ids, id ∈ fileIds p uris.length) {outcomes : List Outcome}
    (ho : List.Forall₂ (fun i o => e.result? i = some (.ok o)) ids outcomes) :
    ∃ slots, e.Yields ids slots ∧ outcomes = slots.map .item := by
  induction ho with
  | nil => exact ⟨[], .nil, rfl⟩
  | cons hx _ ih =>
    obtain ⟨x, hitem⟩ := h.exists_item (hids _ List.mem_cons_self) hx
    cases hitem
    obtain ⟨slots, hslots, rfl⟩ := ih fun id hid => hids id (List.mem_cons_of_mem _ hid)
    exact ⟨x :: slots, .cons hx hslots, rfl⟩

/-- The task of a file stays one in an event. -/
theorem files_step (h : e.Serves p uris) (event : Event) (n : Nat) (uri : String)
    (hn : uris[n]? = some uri) :
    ∃ a, (e.step event).task? (p + 1 + n) = some ⟨some p, a⟩ ∧ a.IsFile uri := by
  obtain ⟨a, ha, hfile⟩ := h.files n uri hn
  by_cases hown : ∃ answers, event = .resume (p + 1 + n) answers
  · obtain ⟨answers, rfl⟩ := hown
    exact ⟨_, task?_resume_file ha hfile answers, hfile.filed _⟩
  · exact ⟨a, task?_step_of_ne ha hfile.waits_eq_false (not_exists.mp hown), hfile⟩

/-- The turn of the task that waits: it ends when all files have. -/
theorem resume_collecting (h : e.Serves p uris)
    (ht : e.task? p = some ⟨none, .gathering (fileIds p uris.length) none .items⟩)
    (answers : Answers) :
    (e.outcomes? (fileIds p uris.length) = none ∧ e.resume p answers = e) ∨
      ∃ slots, e.Yields (fileIds p uris.length) slots ∧
        e.resume p answers = e.take p (.finish (.ok (.items (slots.filterMap id)))) := by
  rw [resume_eq_resumeAs ht]
  cases ho : e.outcomes? (fileIds p uris.length) with
  | none =>
    refine .inl ⟨rfl, ?_⟩
    simp only [resumeAs, awaited?, ho]
  | some outcomes =>
    obtain ⟨slots, hslots, rfl⟩ := h.exists_yields (fun _ h => h) (outcomes?_eq_some_iff.mp ho)
    refine .inr ⟨slots, hslots, ?_⟩
    simp only [resumeAs, awaited?, ho, afterGathering, List.filterMap_map]
    rfl

/-- The turns of other tasks leave the task that waits: those of the files never fail. -/
theorem collecting_step (h : e.Serves p uris)
    (ht : e.task? p = some ⟨none, .gathering (fileIds p uris.length) none .items⟩) {event : Event}
    (hne : ∀ answers, event ≠ .resume p answers) :
    (e.step event).task? p = some ⟨none, .gathering (fileIds p uris.length) none .items⟩ := by
  cases event with
  | call op => exact task?_start ht op
  | resume id answers =>
    have hid : id ≠ p := fun heq => hne answers (heq ▸ rfl)
    cases hu : e.task? id with
    | none =>
      rw [Engine.step, resume_of_task?_eq_none hu]
      exact ht
    | some u =>
      obtain ⟨w', eff, hturn, heq⟩ := exists_turn hu answers
      rw [Engine.step, heq, task?_take_of_ne (e := { e with workspace := w' }) hu eff ht hid,
        Task.after_gathering]
      split
      · next hchild =>
        obtain ⟨k, hk, rfl⟩ := mem_fileIds.mp hchild.2
        obtain ⟨a, ha, hfile⟩ := h.files k uris[k] (List.getElem?_eq_getElem hk)
        rw [hu] at ha
        cases ha
        have hfailure := (hturn.file (e := e) hfile rfl e.tasks.length).1.2.1
        rw [hfailure]
        rfl
      · rfl

/-- The tasks of the files stay so, and so does the one that waits for them. -/
theorem step (h : e.Serves p uris) (event : Event) : (e.step event).Serves p uris where
  files := h.files_step event
  collects := by
    obtain ⟨a, ha, hcollects⟩ := h.collects
    cases a with
    | done r =>
      obtain ⟨slots, hslots, rfl⟩ := hcollects
      exact ⟨_, task?_step_done ha event, slots,
        hslots.mono fun _ _ _ hr => result?_step hr event, rfl⟩
    | gathering children noted after =>
      obtain ⟨rfl, rfl, rfl⟩ := hcollects
      by_cases hown : ∃ answers, event = .resume p answers
      · obtain ⟨answers, rfl⟩ := hown
        rcases h.resume_collecting ha answers with ⟨-, heq⟩ | ⟨slots, hslots, heq⟩
        · rw [Engine.step, heq]
          exact ⟨_, ha, rfl, rfl, rfl⟩
        · rw [Engine.step, heq]
          refine ⟨_, task?_take_self ha _, slots, ?_, rfl⟩
          exact hslots.mono fun _ _ _ hr => result?_take ha (by simp) hr
      · exact ⟨_, h.collecting_step ha (not_exists.mp hown), rfl, rfl, rfl⟩
    | _ => exact hcollects.elim

/-- Files are served throughout a run. -/
theorem run (h : e.Serves p uris) (events : List Event) : (e.run events).Serves p uris :=
  run_keeps (I := Serves p uris) (fun _ event _ he => he.step event) h

/-- What the task that waits ends with: the items of the files, in order. -/
theorem items_of_result? (h : e.Serves p uris) {r : Except Failure Outcome}
    (hr : e.result? p = some r) :
    ∃ slots, e.Yields (fileIds p uris.length) slots ∧
      r = .ok (.items (slots.filterMap id)) := by
  obtain ⟨a, ha, hcollects⟩ := h.collects
  obtain ⟨t, ht, hdone⟩ := result?_eq_some_iff.mp hr
  rw [ha] at ht
  cases ht
  obtain rfl : a = .done r := hdone
  exact hcollects

end Serves

/-! ## The end of the task -/

/-- A task goes on again and again in a sequence of events. -/
def Fair (events : Nat → Event) (id : TaskId) : Prop :=
  ∀ n, ∃ k ≥ n, ∃ answers, events k = .resume id answers

/-- The engine after so many events of a sequence. -/
def reach (e : Engine) (events : Nat → Event) (n : Nat) : Engine :=
  e.run ((List.range n).map events)

section Reach

variable {events : Nat → Event} {id : TaskId} {parent : Option TaskId} {a : Activity} {uri : String}

/-- A run reaches one event further by that event. -/
theorem reach_succ (e : Engine) (events : Nat → Event) (n : Nat) :
    e.reach events (n + 1) = (e.reach events n).step (events n) := by
  rw [reach, List.range_succ, List.map_append, Engine.run, List.foldl_append]
  rfl

/-- A result that is reached stays. -/
theorem result?_reach {r : Except Failure Outcome} {n k : Nat} (hk : n ≤ k)
    (h : (e.reach events n).result? id = some r) : (e.reach events k).result? id = some r := by
  induction hk with
  | refl => exact h
  | step _ ih =>
    rw [reach_succ]
    exact result?_step ih _

/-- The next turn of the task of a file finds it as it is now. -/
theorem exists_turn_file (hfair : Fair events id) (ha : a.IsFile uri) {n : Nat}
    (hu : (e.reach events n).task? id = some ⟨parent, a⟩) :
    ∃ k ≥ n, ∃ turn : Occasion,
      (e.reach events (k + 1)).task? id = some ⟨parent, a.filed turn⟩ := by
  obtain ⟨k, hk, answers, hevent⟩ := hfair n
  obtain ⟨d, rfl⟩ := Nat.exists_eq_add_of_le hk
  induction d generalizing n with
  | zero =>
    rw [Nat.add_zero] at hevent
    refine ⟨n, Nat.le_refl n, ⟨e.reach events n, answers⟩, ?_⟩
    rw [reach_succ, hevent]
    exact task?_resume_file hu ha answers
  | succ d ih =>
    by_cases hown : ∃ answers, events n = .resume id answers
    · obtain ⟨answers, hown⟩ := hown
      refine ⟨n, Nat.le_refl n, ⟨e.reach events n, answers⟩, ?_⟩
      rw [reach_succ, hown]
      exact task?_resume_file hu ha answers
    · have hnext : (e.reach events (n + 1)).task? id = some ⟨parent, a⟩ := by
        rw [reach_succ]
        exact task?_step_of_ne hu ha.waits_eq_false (not_exists.mp hown)
      obtain ⟨k, hk, turn, hturn⟩ := ih hnext (by omega) (by
        rw [show n + 1 + d = n + (d + 1) by omega]
        exact hevent)
      exact ⟨k, by omega, turn, hturn⟩

/-- An inquiry into a file comes to an end: each turn of its task leaves less of it. -/
theorem exists_item_of_inquiry (hfair : Fair events id) {path : FilePath} {m : ModelId}
    (i : Inquiry (Option SourceConfiguration)) {w : Workspace} {cache : FragmentCache} {n : Nat}
    (hu : (e.reach events n).task? id =
      some ⟨parent, .filing w uri path m (i.settle cache).1⟩) :
    ∃ k x, (e.reach events k).result? id = some (.ok (.item x)) := by
  induction i generalizing w cache n with
  | answer c => exact ⟨n, _, result?_eq_some_iff.mpr ⟨_, hu, rfl⟩⟩
  | failed f => exact ⟨n, _, result?_eq_some_iff.mpr ⟨_, hu, rfl⟩⟩
  | ask q next ih =>
    have hfile : (Activity.resolving uri path m (.ask q next)).IsFile uri := ⟨rfl, rfl⟩
    obtain ⟨k, -, turn, hturn⟩ := exists_turn_file hfair hfile hu
    exact ih (turn.answers.reply q) hturn
  | «recall» p next ih => exact ih (cache.find? p) hu
  | store p fragment next ih => exact ih hu

/-- The task of a file ends. -/
theorem exists_item_of_isFile (hfair : Fair events id) (ha : a.IsFile uri) {n : Nat}
    (hu : (e.reach events n).task? id = some ⟨parent, a⟩) :
    ∃ k x, (e.reach events k).result? id = some (.ok (.item x)) := by
  cases a with
  | providing u =>
    obtain ⟨k, -, turn, hturn⟩ := exists_turn_file hfair ha hu
    rw [Activity.filed] at hturn
    cases hasked : turn.workspace.asked? u with
    | none =>
      rw [hasked] at hturn
      exact ⟨k + 1, none, result?_eq_some_iff.mpr ⟨_, hturn, rfl⟩⟩
    | some found =>
      rw [hasked] at hturn
      exact exists_item_of_inquiry hfair _ hturn
  | resolving u path m i =>
    obtain ⟨k, -, turn, hturn⟩ := exists_turn_file hfair ha hu
    exact exists_item_of_inquiry hfair _ hturn
  | done r =>
    cases r with
    | error f => exact ha.elim
    | ok o =>
      cases o with
      | item x => exact ⟨n, x, result?_eq_some_iff.mpr ⟨_, hu, rfl⟩⟩
      | _ => exact ha.elim
  | _ => exact ha.elim

namespace Serves

/-- Files are served as far as a run is followed. -/
theorem reach (h : e.Serves p uris) (events : Nat → Event) (n : Nat) :
    (e.reach events n).Serves p uris :=
  h.run _

/-- The tasks of the files end, if they go on again and again. -/
theorem exists_all_items (h : e.Serves p uris)
    (hfair : ∀ id ∈ fileIds p uris.length, Fair events id) :
    ∃ n, ∀ id ∈ fileIds p uris.length, ∃ o, (e.reach events n).result? id = some (.ok o) := by
  suffices hall : ∀ ids : List TaskId, (∀ id ∈ ids, id ∈ fileIds p uris.length) →
      ∃ n, ∀ id ∈ ids, ∃ o, (e.reach events n).result? id = some (.ok o) from
    hall _ fun _ h => h
  intro ids hids
  induction ids with
  | nil => exact ⟨0, fun _ h => absurd h List.not_mem_nil⟩
  | cons id rest ih =>
    obtain ⟨n, hn⟩ := ih fun j hj => hids j (List.mem_cons_of_mem _ hj)
    obtain ⟨k, hk, rfl⟩ := mem_fileIds.mp (hids id List.mem_cons_self)
    obtain ⟨a, ha, hfile⟩ := h.files k uris[k] (List.getElem?_eq_getElem hk)
    obtain ⟨n', x, hx⟩ := exists_item_of_isFile (n := 0) (hfair _ (hids _ List.mem_cons_self)) hfile ha
    refine ⟨max n n', fun j hj => ?_⟩
    rcases List.mem_cons.mp hj with rfl | hj
    · exact ⟨_, result?_reach (Nat.le_max_right n n') hx⟩
    · obtain ⟨o, ho⟩ := hn j hj
      exact ⟨o, result?_reach (Nat.le_max_left n n') ho⟩

/-- The task that waits ends, if it and the tasks of the files go on again and again. -/
theorem exists_result? (h : e.Serves p uris) (hfair : Fair events p)
    (hfiles : ∀ id ∈ fileIds p uris.length, Fair events id) :
    ∃ n items, (e.reach events n).result? p = some (.ok (.items items)) := by
  obtain ⟨n, hn⟩ := h.exists_all_items hfiles
  obtain ⟨k, hk, answers, hevent⟩ := hfair n
  have hserves := h.reach events k
  obtain ⟨a, ha, hcollects⟩ := hserves.collects
  cases a with
  | done r =>
    obtain ⟨slots, -, rfl⟩ := hcollects
    exact ⟨k, _, result?_eq_some_iff.mpr ⟨_, ha, rfl⟩⟩
  | gathering children noted after =>
    obtain ⟨rfl, rfl, rfl⟩ := hcollects
    rcases hserves.resume_collecting ha answers with ⟨hnone, -⟩ | ⟨slots, -, heq⟩
    · have hall : ∀ id ∈ fileIds p uris.length, ∃ o,
          (e.reach events k).result? id = some (.ok o) := by
        intro id hid
        obtain ⟨o, ho⟩ := hn id hid
        exact ⟨o, result?_reach hk ho⟩
      obtain ⟨outcomes, ho⟩ := exists_outcomes? hall
      rw [hnone] at ho
      cases ho
    · refine ⟨k + 1, slots.filterMap id, ?_⟩
      rw [reach_succ, hevent, Engine.step, heq]
      exact result?_eq_some_iff.mpr ⟨_, task?_take_self ha _, rfl⟩
  | _ => exact hcollects.elim

end Serves

end Reach

end Engine

end BuildLens
