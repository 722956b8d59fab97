import BuildLens.Proofs.Build.Tidiness
import BuildLens.Proofs.Workspace.Isolation
import BuildLens.Proofs.Workspace.Provider

/-!
# What is answered for files

Any number of files are asked for at once, while folders come and go and are looked at again. This
module puts together what the answer holds: it always comes, its items are in the order in which the
files were asked for, each was found by one folder that answered for the file from the beginning of
its resolution to the end, and a file that has no item concerns no other one.

Main definition:

- `Engine.Lost`: the path of a file cannot be told, or the inquiry into it fails.

Main results:

- `Engine.spares_of_error`, `Engine.spares_of_fails`: files that leave nothing in memory.
- `Engine.provide_stale_free_isolated`: the answer for files.
-/

namespace BuildLens

/-! ## Inquiries that fail -/

namespace Inquiry

variable {α : Type} {m : ModelId} {i : Inquiry α} {turns : List Occasion} {f : Failure}

theorem Safe.replied (h : i.Safe) (reply : (q : Request) → q.Reply) : (i.replied reply).Safe := by
  cases i with
  | ask q next => exact h.next (reply q)
  | _ => exact h

theorem Tidy.replied (h : i.Tidy) (reply : (q : Request) → q.Reply) : (i.replied reply).Tidy := by
  cases i with
  | ask q next => exact h.next (reply q)
  | _ => exact h

/-- An inquiry that cannot fail does not fail in any number of turns. -/
theorem Safe.foldl_advance_ne (h : i.Safe) : turns.foldl (advance m) i ≠ .failed f := by
  induction turns generalizing i with
  | nil =>
    rintro rfl
    exact h f (.failed f)
  | cons turn rest ih => exact ih ((h.replied turn.answers.reply).settle _)

/-- A tidy inquiry that fails in the end keeps nothing in any turn. -/
theorem Tidy.kept_eq_of_failed (h : i.Tidy) (hfailed : turns.foldl (advance m) i = .failed f)
    {k : Nat} {turn : Occasion} (hk : turns[k]? = some turn) :
    ((((turns.take k).foldl (advance m) i).replied turn.answers.reply).settle
      (turn.workspace.kept m)).2 = turn.workspace.kept m := by
  induction turns generalizing i k with
  | nil => cases hk
  | cons first rest ih =>
    rcases (h.replied first.answers.reply).settle (first.workspace.kept m) with
      ⟨hkept, htidy⟩ | hsafe
    · cases k with
      | zero =>
        cases hk
        exact hkept
      | succ k => exact ih htidy hfailed hk
    · exact absurd hfailed hsafe.foldl_advance_ne

end Inquiry

/-! ## Files that leave nothing in memory -/

theorem Workspace.settled_eq_self {α : Type} {w : Workspace} {m : ModelId} {i : Inquiry α}
    (h : (i.settle (w.kept m)).2 = w.kept m) : w.settled m i = w := by
  have hmodels : w.models.modify m (fun f => { f with fragments := w.kept m }) = w.models := by
    refine List.ext_getElem? fun j => ?_
    rw [List.getElem?_modify]
    split
    · next hj =>
      subst hj
      rw [kept, model?]
      cases w.models[m]? <;> rfl
    · cases w.models[j]? <;> rfl
  rw [settled, h, refreshed, modifyModel, hmodels]

/-- No build tree answers for a URI whose path cannot be told. -/
theorem Workspace.asked?_eq_none {w : Workspace} {uri : String} {err : PathError}
    (h : FilePath.ofUri w.platform uri = .error err) : w.asked? uri = none := by
  rw [asked?, h]
  rfl

namespace Engine

section Traces

variable {context : Context} {e : Engine} {id : TaskId} {parent : Option TaskId} {uri : String}
  {after : List Event}

/-- The file is lost: its path cannot be told, or the inquiry into it fails. -/
def Lost (context : Context) (uri : String) (turns : List Occasion) : Prop :=
  (∃ err, FilePath.ofUri context.surroundings.platform uri = .error err) ∨ Fails uri turns

/-- The workspace after a turn of the task of a file that has begun. -/
theorem spares_of_leaving (hu : e.task? id = some ⟨parent, .providing uri⟩)
    (h : ∀ (k : Nat) (turn : Occasion) (a : Activity), (turnsOf id e after)[k]? = some turn →
      Activity.Pending uri ((turnsOf id e after).take k) a → a.leaving turn = turn.workspace) :
    Spares id e after := by
  intro turn hturn
  obtain ⟨k, hk⟩ := List.getElem?_of_mem hturn
  have hbefore := task?_turnsOf_file hu rfl hk
  have hfile : (((turnsOf id e after).take k).foldl Activity.filed (.providing uri)).IsFile uri :=
    List.foldlRecOn _ _ (show (Activity.providing uri).IsFile uri from rfl)
      fun a ha turn _ => ha.filed turn
  rw [workspace_resume_file hbefore hfile]
  rcases Activity.pending_foldl uri ((turnsOf id e after).take k) with ⟨r, hr⟩ | hpending
  · rw [hr]
    rfl
  · exact h k turn _ hk hpending

theorem platform_run (context : Context) (events : List Event) :
    ((fresh context).run events).workspace.platform = context.surroundings.platform :=
  congrArg Surroundings.platform (context_run _ events).1

/-- A file whose path cannot be told leaves the workspace. -/
theorem spares_of_error {err : PathError} (he : ∃ before, e = (fresh context).run before)
    (hu : e.task? id = some ⟨parent, .providing uri⟩)
    (herr : FilePath.ofUri context.surroundings.platform uri = .error err) :
    Spares id e after := by
  have hnone {turn : Occasion} (hturn : turn ∈ turnsOf id e after) :
      turn.workspace.asked? uri = none := by
    obtain ⟨before, rfl⟩ := he
    obtain ⟨between, hbetween⟩ := exists_run_of_mem_turnsOf hturn
    have hpath : FilePath.ofUri turn.workspace.platform uri = .error err := by
      rw [Occasion.workspace, hbetween, ← run_append, platform_run]
      exact herr
    exact Workspace.asked?_eq_none hpath
  refine spares_of_leaving hu fun k turn a hk hpending => ?_
  cases hpending with
  | unbegun =>
    rw [Activity.leaving, hnone (List.mem_of_getElem? hk)]
  | begun hfirst hasked =>
    rw [hnone (List.mem_of_mem_take (List.mem_of_getElem? hfirst))] at hasked
    cases hasked

/-- A file into which the inquiry fails leaves the workspace, if the inquiry is a tidy one. -/
theorem spares_of_tidy (hu : e.task? id = some ⟨parent, .providing uri⟩)
    (hfails : Fails uri (turnsOf id e after))
    (htidy : ∀ (first : Occasion) path m f, (turnsOf id e after)[0]? = some first →
      first.workspace.asked? uri = some (path, m, f) → (first.workspace.inquiry f path).Tidy) :
    Spares id e after := by
  obtain ⟨first, path, m, f, failure, hfirst, hasked, hfailed⟩ := hfails
  have hinquiry := htidy first path m f hfirst hasked
  refine spares_of_leaving hu fun k turn a hk hpending => ?_
  generalize turnsOf id e after = turns at hfirst hfailed hk hpending
  cases turns with
  | nil => cases hfirst
  | cons turn₀ rest =>
    obtain rfl : turn₀ = first := Option.some.inj hfirst
    rcases hinquiry.settle (turn₀.workspace.kept m) with ⟨hkept, hsettled⟩ | hsafe
    · cases hpending with
      | unbegun hnil =>
        obtain rfl : k = 0 := (List.take_eq_nil_iff.mp hnil).resolve_right nofun
        cases hk
        rw [Activity.leaving, hasked]
        exact Workspace.settled_eq_self hkept
      | begun hfirst' hasked' =>
        cases k with
        | zero => cases hfirst'
        | succ k =>
          cases hfirst'
          rw [hasked] at hasked'
          cases hasked'
          exact Workspace.settled_eq_self (hsettled.kept_eq_of_failed hfailed hk)
    · exact absurd hfailed hsafe.foldl_advance_ne

/-- What is known of a build tree was found by a look at it. -/
theorem posix_objectDirectory (hp : context.surroundings.platform ≠ .windows)
    (he : ∃ before, e = (fresh context).run before) {m : ModelId} {b : Build}
    (hb : e.workspace.phaseOf m = .recognized b) : ∃ p, b.tree.objectDirectory = .posix p := by
  obtain ⟨before, rfl⟩ := he
  obtain ⟨f, hf, hphase⟩ := Workspace.exists_model?_of_recognized hb
  have hexplored := explored_run (R := .all) context before fun event _ => by
    cases event with
    | call op => trivial
    | resume id answers => exact fun _ => trivial
  rcases hexplored.folders m f hf with hprobing | ⟨o, ho, hfinding⟩
  · rw [hprobing] at hphase
    cases hphase
  · rw [(context_run _ before).1] at hfinding
    rw [hphase] at ho
    rcases o with e | _ | b' <;> cases ho
    exact (hfinding.posix_directories hp).1

/-- On systems other than Windows a file into which the inquiry fails leaves the workspace, if the
way of telling its language keeps nothing in memory. -/
theorem spares_of_fails (he : ∃ before, e = (fresh context).run before)
    (hu : e.task? id = some ⟨parent, .providing uri⟩)
    (hp : context.surroundings.platform ≠ .windows)
    (hclassifier : ∀ path, (context.classifier path).Direct)
    (hfails : Fails uri (turnsOf id e after)) : Spares id e after := by
  refine spares_of_tidy hu hfails fun first path m f hfirst hasked => ?_
  obtain ⟨-, b, hanswered, -, hb⟩ := Workspace.asked?_eq_some hasked
  have hreached : ∃ events, first.engine = (fresh context).run events := by
    obtain ⟨before, rfl⟩ := he
    obtain ⟨between, hbetween⟩ := exists_run_of_mem_turnsOf (List.mem_of_getElem? hfirst)
    exact ⟨before ++ between, by rw [hbetween, run_append]⟩
  rw [Occasion.workspace, inquiry_eq hreached hb]
  exact Build.configure_tidy hp (posix_objectDirectory hp hreached hanswered.recognized)
    (hclassifier path)

end Traces

/-! ## The answer -/

/-- Files are always answered for. There is one item at most for each, in the order of the files,
and it was found by one folder, which answered for the file from the first turn of its task to the
last. A file that is lost has no item. Without any of the files the others are answered for in the
same way, and a file that is lost before anything was kept in memory for it leaves no trace at
all. -/
theorem provide_stale_free_isolated (context : Context) (before : List Event)
    (uris : List String) :
    let e := (fresh context).run before
    let p := e.tasks.length
    let started := e.start (.provide uris)
    (∀ events : Nat → Event, (∀ id ∈ p :: fileIds p uris.length, Fair events id) →
      ∃ n items, (started.reach events n).result? p = some (.ok (.items items))) ∧
    ∀ after r, (started.run after).result? p = some r →
      ∃ slots : List (Option ProvidedItem),
        slots.length = uris.length ∧ r = .ok (.items (slots.filterMap id)) ∧
        ∀ (n : Nat) uri, uris[n]? = some uri →
          let turns := turnsOf (p + 1 + n) started after
          (∀ item, slots[n]? = some (some item) → Found context (p + 1 + n) uri turns item) ∧
          (Lost context uri turns → slots[n]? = some none) ∧
          ∃ happenings, LeftOut e uris n after slots happenings ∧
            (((∃ err, FilePath.ofUri context.surroundings.platform uri = .error err) ∨
                Fails uri turns ∧ context.surroundings.platform ≠ .windows ∧
                  ∀ path, (context.classifier path).Direct) →
              happenings = (after.filterMap (·.without (p + 1 + n))).map .event) := by
  intro e p started
  have hserves : started.Serves p uris := serves_start e uris
  refine ⟨fun events hfair => ?_, fun after r hr => ?_⟩
  · exact hserves.exists_result? (hfair p List.mem_cons_self) fun id hid =>
      hfair id (List.mem_cons_of_mem _ hid)
  obtain ⟨slots, hslots, rfl⟩ := (hserves.run after).items_of_result? hr
  obtain ⟨hlength, hitems⟩ := yields_fileIds_iff.mp hslots
  refine ⟨slots, hlength, rfl, fun n uri huri => ?_⟩
  have hn : n < uris.length := (List.getElem?_eq_some_iff.mp huri).1
  obtain ⟨x, hslot⟩ : ∃ x, slots[n]? = some x :=
    ⟨_, List.getElem?_eq_getElem (Nat.lt_of_lt_of_eq hn hlength.symm)⟩
  have hreached : ∃ before, started = (fresh context).run before :=
    ⟨before ++ [.call (.provide uris)], by rw [run_append]; rfl⟩
  have hu : started.task? (p + 1 + n) = some ⟨some p, .providing uri⟩ := by
    rw [task?_start_provide, huri]
    rfl
  obtain ⟨happenings, hleft⟩ := exists_leftOut (numbered_run context before) hn hslots hr
  refine ⟨fun item hitem => found_of_result? hreached hu (hitems n _ hitem), fun hlost => ?_,
    happenings, hleft, fun htraceless => ?_⟩
  · rw [hslot]
    rcases hlost with ⟨err, herr⟩ | hfails
    · rw [not_item_of_error hreached hu herr (hitems n _ hslot)]
    · have hresult := hitems n _ hslot
      rw [result?_of_fails hu hfails] at hresult
      cases hresult
      rfl
  · refine hleft.without.eq_of_spares ?_
    rcases htraceless with ⟨err, herr⟩ | ⟨hfails, hp, hclassifier⟩
    · exact spares_of_error hreached hu herr
    · exact spares_of_fails hreached hu hp hclassifier hfails

/-- Answers for the files of a build tree that have flags. -/
def flagsAnswered : Answers where
  hasApi := true
  reply
    | .isFile _ => true
    | .mtime _ => .ok 0
    | .read _ => .ok "COMPUTED_CXXFLAGS=-DX\n".toUTF8.toList
    | .realPath path => path.text
    | .run args _ _ => .ok { args := args.map Argument.render, chunks := [] }

/-- The turns of a task that waits for two files, of which only the first one has a path. -/
def filesProvided : List Event := [4, 4, 4, 5, 3].map fun id => .resume id flagsAnswered

/-- The URIs of the files that a task has configured. -/
def configuredUris : Except Failure Outcome → List String
  | .ok (.items items) => items.map (·.uri)
  | _ => []

theorem provide_stale_free_isolated_filesProvided :
    let e := (fresh {}).run buildTreeAdded
    let both := e.start (.provide ["file:///r/a.cpp", "untitled:1"])
    let one := e.start (.provide ["file:///r/a.cpp"])
    ∃ item, (both.run filesProvided).result? 3 = some (.ok (.items [item])) ∧
      Found {} 4 "file:///r/a.cpp" (turnsOf 4 both filesProvided) item ∧
      (one.run ([4, 4, 4, 3].map fun id => .resume id flagsAnswered)).result? 3 =
        some (.ok (.items [item])) := by
  intro e both one
  have hlength : e.tasks.length = 3 := by decide +kernel
  have hitems :
      ((both.run filesProvided).result? 3).map configuredUris = some ["file:///r/a.cpp"] := by
    decide +kernel
  have herr : FilePath.ofUri .linux "untitled:1" = .error (.unsupportedScheme "untitled:1") := by
    decide +kernel
  obtain ⟨r, hr, huris⟩ := Option.map_eq_some_iff.mp hitems
  have hanswer := (provide_stale_free_isolated {} buildTreeAdded ["file:///r/a.cpp", "untitled:1"]).2
  rw [hlength] at hanswer
  obtain ⟨slots, hslots, rfl, hfiles⟩ := hanswer filesProvided r hr
  obtain ⟨first, second, rfl⟩ := List.length_eq_two.mp hslots
  obtain ⟨-, hlost, happenings, hleft, hplain⟩ := hfiles 1 "untitled:1" rfl
  obtain rfl : second = none := Option.some.inj (hlost (.inl ⟨_, herr⟩))
  have hrest := hleft.answer
  rw [hlength, hplain (.inl ⟨_, herr⟩), undergo_map_event] at hrest
  cases first with
  | none => cases huris
  | some item => exact ⟨item, hr, (hfiles 0 _ rfl).1 item rfl, hrest⟩

end Engine

end BuildLens
