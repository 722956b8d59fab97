import BuildLens.Proofs.Workspace.Moves
import BuildLens.Proofs.Workspace.Turns

/-!
# Lines of work

What a task is going to do depends on what it is part of. A task that takes folders away lets others
add some, and a task that has to rebuild looks at a folder; but no turn leads from one of these
lines of work to another. So what is under way tells what cannot happen next.

Main definitions:

- `Line`, `Activity.line`: what a task is part of.
- `Line.leads`, `Line.spawns`: the lines of a task after its turn, and of those that begin in it.
- `Effect.Keeps`: an effect keeps to a line.
- `Effect.Opens`: the effect of an operation that begins.

Main results:

- `exists_keeping_turn`: the turn of a task keeps to its line.
- `exists_opening_turn`: only rebuilds and new settings let rebuilds begin.
- `line_resume`, `line_start`: the lines of all tasks after an event.
-/

namespace BuildLens

/-- What a task is part of: a rebuild or an addition, which may have begun to look or not, the
removal of folders, or anything else. -/
inductive Line where
  | scheduled
  | rebuild
  | entry
  | addition
  | removal
  | other
deriving DecidableEq, Repr

/-- The line of a look. -/
def Purpose.line : Purpose → Line
  | .add => .addition
  | .rebuild => .rebuild

/-- The line of a task that waits for the editor. -/
def AfterRegistration.line : AfterRegistration → Line
  | .added _ => .addition
  | .removed .. => .removal
  | .rebuilt => .rebuild

/-- The line of a task that waits for others. -/
def AfterGathering.line : AfterGathering → Line
  | .compilers p _ _ => p.line
  | _ => .other

/-- The line of a task. -/
def Activity.line : Activity → Line
  | .adding _ => .entry
  | .rebuilding _ => .scheduled
  | .surveying p _ _ => p.line
  | .telling p _ => p.line
  | .registering after => after.line
  | .gathering _ _ after => after.line
  | _ => .other

/-- Whether a turn of a task on the first line that does anything may put it on the second one. -/
def Line.leads : Line → Line → Bool
  | .scheduled, l => l == .rebuild || l == .other
  | .entry, l => l == .addition || l == .other
  | l, l' => l == l' || l' == .other

/-- Whether a task on the second line may begin in a turn on the first one. -/
def Line.spawns : Line → Line → Bool
  | .removal, l => l == .entry
  | _, l => l == .other

/-! ## Effects that keep to a line -/

/-- The line on which an effect puts a task, unless it leaves it alone. -/
def Effect.line? : Effect → Option Line
  | .stay => none
  | .become a => some a.line
  | .finish _ => some .other
  | .gather _ after => some after.line

/-- A task is on the line on which an effect puts it, or on that from before. -/
theorem Effect.line_activity (eff : Effect) (size : Nat) (a : Activity) :
    (eff.activity size a).line = eff.line?.getD a.line := by
  cases eff <;> rfl

/-- The effect of a turn keeps to a line: the task goes on as the line leads, and the tasks that
begin are those of the line. -/
structure Effect.Keeps (l : Line) (eff : Effect) : Prop where
  own : ∀ l', eff.line? = some l' → l.leads l' = true
  children : ∀ a ∈ eff.children, l.spawns a.line = true

namespace Effect.Keeps

variable {l : Line} {eff : Effect}

/-- A task that stays keeps to its line. -/
theorem stay (l : Line) : Effect.stay.Keeps l where
  own l' h := by cases h
  children a h := by cases h

/-- A task that ends keeps to any line. -/
theorem finish (l : Line) (r : Except Failure Outcome) : (Effect.finish r).Keeps l where
  own l' h := by
    cases h
    cases l <;> rfl
  children a h := by cases h

/-- A task keeps to its line if what it does next is on one to which that leads. -/
theorem become {l : Line} {a : Activity} (h : l.leads a.line = true) :
    (Effect.become a).Keeps l where
  own l' hl := by
    cases hl
    exact h
  children a h := by cases h

/-- A task that goes on with an inquiry into a file or a compiler keeps to its line. -/
theorem ofInquiry {α : Type} {outcome : α → Outcome} {waiting : Inquiry α → Activity}
    (h : ∀ i, (waiting i).line = .other) (i : Inquiry α) :
    (Effect.ofInquiry outcome waiting i).Keeps .other := by
  cases i with
  | answer a => exact finish _ _
  | failed f => exact finish _ _
  | _ => exact become (by rw [h]; rfl)

/-- A task stays as it is, or its line leads to the one on which it is then. -/
theorem leads_activity (h : eff.Keeps l) (size : Nat) (a : Activity) :
    eff.activity size a = a ∨ l.leads (eff.activity size a).line = true := by
  rw [eff.line_activity]
  cases eff with
  | stay => exact .inl rfl
  | _ => exact .inr (h.own _ rfl)

/-- A look that begins is on the line on which it was about to begin. -/
theorem of_begun (h : eff.Keeps .rebuild) : eff.Keeps .scheduled where
  own l' hl := by
    have hleads := h.own l' hl
    cases l' <;> first | rfl | cases hleads
  children := h.children

/-- An addition that begins in the turn of its task keeps to the line of one that does not yet. -/
theorem of_entered (h : eff.Keeps .addition) : eff.Keeps .entry where
  own l' hl := by
    have hleads := h.own l' hl
    cases l' <;> first | rfl | cases hleads
  children := h.children

end Effect.Keeps

/-! ## Turns -/

namespace Engine

variable {w w' : Workspace} {p : Purpose} {m : ModelId} {eff : Effect}

/-- A look that ends keeps to the line of its purpose. -/
theorem EndsLook.keeps (h : EndsLook m p eff) : eff.Keeps p.line := by
  cases h with
  | added phase => exact .finish _ _
  | counted => exact .become rfl
  | rebuilt => exact .finish _ _
  | recounted => exact .become rfl

/-- To take in the outcome of a look keeps to the line of its purpose. -/
theorem Concludes.keeps {o : Except Failure (Option Build)} (h : Concludes w p m o w' eff) :
    eff.Keeps p.line := by
  rcases h.effect with rfl | hend
  · apply Effect.Keeps.become
    cases p <;> rfl
  · exact hend.keeps

/-- An inquiry into a folder keeps to the line of its purpose. -/
theorem Surveys.keeps {i : Inquiry (Option SourceTree)} (h : Surveys w p m i w' eff) :
    eff.Keeps p.line := by
  cases h with
  | asks hi hw =>
    apply Effect.Keeps.become
    cases p <;> rfl
  | finds hi hw =>
    constructor
    · intro l' hl
      cases hl
      cases p <;> rfl
    · intro a ha
      simp only [Effect.children, List.mem_cons, List.not_mem_nil, or_false] at ha
      rcases ha with rfl | rfl <;> cases p <;> rfl
  | lacks hi hw h => exact h.keeps
  | fails hi hw h => exact h.keeps

/-- An addition that begins keeps to its line. -/
theorem Adds.keeps {folder : EditorFolder} (h : Adds w folder w' eff) : eff.Keeps .entry := by
  cases h with
  | refused hpath => exact .finish _ _
  | known hpath hm => exact .finish _ _
  | begins hpath hm h => exact h.keeps.of_entered

/-- A rebuild that begins keeps to its line. -/
theorem Rebuilds.keeps {old : ModelId} (h : Rebuilds w old w' eff) : eff.Keeps .scheduled := by
  cases h with
  | missing hm => exact .stay _
  | begins hm h => exact h.keeps.of_begun

/-- An inquiry into a compiler has to do with neither additions nor rebuilds. -/
theorem Discovers.keeps {i : Inquiry Compiler} (h : Discovers i eff) : eff.Keeps .other := by
  cases h with
  | asks hi => exact .become rfl
  | finds hi => exact .finish _ _
  | fails hi => exact .finish _ _

/-- An inquiry into a file has to do with neither additions nor rebuilds. -/
theorem Resolves.keeps {uri : String} {path : FilePath} {i : Inquiry (Option SourceConfiguration)}
    (h : Resolves w uri path m i eff) : eff.Keeps .other := by
  cases h with
  | asks hi => exact .become rfl
  | answers hi => exact .finish _ _
  | fails hi => exact .finish _ _

/-- To provide a file has to do with neither additions nor rebuilds. -/
theorem Provides.keeps {uri : String} (h : Provides w uri w' eff) : eff.Keeps .other := by
  cases h with
  | unanswered h => exact .finish _ _
  | begins hasked h => exact h.keeps

/-- What follows children that have ended well keeps to the line of their parent. -/
theorem Gathered.keeps {outcomes : List Outcome} {after : AfterGathering}
    (h : Gathered w outcomes after w' eff) : eff.Keeps after.line := by
  cases h with
  | compilers ho h => exact h.keeps
  | stuck ho => exact .stay _
  | ends hafter hw => exact .finish _ _

/-- What follows a child that has failed keeps to the line of its parent. -/
theorem Failed.keeps {f : Failure} {after : AfterGathering} (h : Failed w f after w' eff) :
    eff.Keeps after.line := by
  cases h with
  | compilers h => exact h.keeps
  | ends hafter => exact .finish _ _

/-- To take folders away keeps to the line of removals. -/
theorem Removes.keeps {added : List EditorFolder} (h : Removes w added w' eff) :
    eff.Keeps .removal := by
  cases h with
  | ends r hw => exact .finish _ _
  | asks rest hw => exact .become rfl
  | adds hw =>
    constructor
    · intro l' hl
      cases hl
      rfl
    · intro a ha
      obtain ⟨folder, -, rfl⟩ := List.mem_map.mp ha
      rfl

/-- What follows the editor's answer keeps to the line of the task that asked. -/
theorem Answered.keeps {after : AfterRegistration} (h : Answered w after w' eff) :
    eff.Keeps after.line := by
  cases h with
  | added phase hw => exact .finish _ _
  | removed h => exact h.keeps
  | rebuilt hw => exact .finish _ _

/-- A turn keeps to the line of what the task was doing. -/
theorem does_resumeAs_keeps (answers : Answers) (outcomes : Option (List Outcome))
    (a : Activity) :
    Does w (fun e id => e.resumeAs id answers outcomes a) fun _ eff => eff.Keeps a.line := by
  have hturn := does_resumeAs (w := w) answers outcomes a
  have hstay : Does w (fun e _ => e) fun _ eff => eff.Keeps a.line := does_take .stay (.stay _)
  cases a with
  | adding folder => exact hturn.mono fun w' eff (h : Adds w folder w' eff) => h.keeps
  | rebuilding old => exact hturn.mono fun w' eff (h : Rebuilds w old w' eff) => h.keeps
  | asking tree l => exact hturn.mono fun w' eff h => h.2.keeps
  | providing uri => exact hturn.mono fun w' eff (h : Provides w uri w' eff) => h.keeps
  | surveying p m i =>
    cases i with
    | ask q next => exact hturn.mono fun w' eff (h : Surveys w p m _ w' eff) => h.keeps
    | _ => exact hstay
  | discovering i =>
    cases i with
    | ask q next => exact hturn.mono fun w' eff h => h.2.keeps
    | _ => exact hstay
  | telling p m => exact hturn.mono fun w' eff h => h.2.keeps
  | registering after =>
    exact (does_afterRegistration answers.hasApi after).mono fun w' eff h => h.keeps
  | gathering children failure after =>
    cases failure with
    | some f => exact hturn.mono fun w' eff (h : Failed w f after w' eff) => h.keeps
    | none =>
      cases outcomes with
      | some outcomes =>
        exact hturn.mono fun w' eff (h : Gathered w outcomes after w' eff) => h.keeps
      | none => exact hstay
  | resolving uri path m i =>
    cases i with
    | ask q next => exact hturn.mono fun w' eff h => h.2.keeps
    | _ => exact hstay
  | configuring m i =>
    cases i with
    | ask q next =>
      refine (does_configure m (next (answers.reply q))).mono ?_
      rintro w' eff ⟨rfl, rfl⟩
      exact .ofInquiry (fun _ => rfl) _
    | _ => exact hstay
  | compiling m i =>
    cases i with
    | ask q next =>
      refine (does_testCompile m (next (answers.reply q))).mono ?_
      rintro w' eff ⟨rfl, rfl⟩
      exact .ofInquiry (fun _ => rfl) _
    | _ => exact hstay
  | done r => exact hstay

/-- The turn of a task keeps to its line. -/
theorem exists_keeping_turn {e : Engine} {id : TaskId} {t : Task} (ht : e.task? id = some t)
    (answers : Answers) :
    ∃ w' eff, eff.Keeps t.activity.line ∧
      e.resume id answers = { e with workspace := w' }.take id eff := by
  obtain ⟨w', eff, h, heq⟩ :=
    does_resumeAs_keeps (w := e.workspace) answers (e.awaited? t.activity) t.activity
  exact ⟨w', eff, h, (resume_eq_resumeAs ht answers).trans (heq e id rfl)⟩

end Engine

/-! ## Operations that begin -/

/-- The effect of an operation that begins: rebuilds are let begin side by side, or the task is on a
line that has nothing to do with any. -/
inductive Effect.Opens : Bool → Effect → Prop
  | idle : Opens true (.finish (.ok .nothing))
  | rebuilds (models : List ModelId) : Opens true (.gather (models.map .rebuilding) .rebuilt)
  | others {eff : Effect} (hown : ∀ l, eff.line? = some l → l ≠ .scheduled ∧ l ≠ .rebuild)
      (hchildren : ∀ a ∈ eff.children, a.line ≠ .scheduled ∧ a.line ≠ .rebuild) : Opens false eff

namespace Effect.Opens

variable {l : Line} {eff : Effect}

/-- An effect that keeps to any other line opens no rebuild. -/
theorem of_keeps (h : eff.Keeps l) (h₁ : l ≠ .scheduled) (h₂ : l ≠ .rebuild) :
    Opens false eff := by
  apply others
  · intro l' hl
    have hleads := h.own l' hl
    cases l <;> cases l' <;> simp_all [Line.leads]
  · intro a ha
    have hspawns := h.children a ha
    cases l <;> cases hline : a.line <;> simp_all [Line.spawns]

/-- An operation that ends at once opens no rebuild. -/
theorem finish (r : Except Failure Outcome) : Opens false (.finish r) :=
  of_keeps (.finish .other r) nofun nofun

/-- Tasks that have nothing to do with rebuilds open none. -/
theorem gather {children : List Activity} {after : AfterGathering}
    (hafter : after.line = .other) (h : ∀ a ∈ children, a.line = .other ∨ a.line = .entry) :
    Opens false (.gather children after) := by
  apply others
  · intro l hl
    cases hl
    rw [hafter]
    exact ⟨nofun, nofun⟩
  · intro a ha
    rcases h a ha with hline | hline <;> rw [hline] <;> exact ⟨nofun, nofun⟩

end Effect.Opens

namespace Engine

variable {w : Workspace}

/-- An operation opens rebuilds if it is one that does. -/
theorem Performs.opens {op : Operation} {w' : Workspace} {eff : Effect}
    (h : Performs w op w' eff) : eff.Opens op.rebuilds := by
  cases h with
  | adds h => exact .of_keeps h.keeps (by decide) (by decide)
  | addsMany folders =>
    apply Effect.Opens.gather rfl
    intro a ha
    obtain ⟨folder, -, rfl⟩ := List.mem_map.mp ha
    exact .inr rfl
  | removes h => exact .of_keeps h.keeps (by decide) (by decide)
  | changes h => exact .of_keeps h.keeps (by decide) (by decide)
  | rebuilds models hop hw =>
    rw [hop]
    exact .rebuilds models
  | configures source m i =>
    have hkeeps : (Effect.ofInquiry .configuration (.configuring m)
        (i.settle (w.kept m)).1).Keeps .other := .ofInquiry (fun _ => rfl) _
    exact .of_keeps hkeeps (by decide) (by decide)
  | checks source m i =>
    have hkeeps : (Effect.ofInquiry .report (.compiling m)
        (i.settle (w.kept m)).1).Keeps .other := .ofInquiry (fun _ => rfl) _
    exact .of_keeps hkeeps (by decide) (by decide)
  | provides uris =>
    apply Effect.Opens.gather rfl
    intro a ha
    obtain ⟨uri, -, rfl⟩ := List.mem_map.mp ha
    exact .inl rfl
  | ends o hadd ho hw =>
    cases hop : op.rebuilds with
    | false => exact .finish _
    | true =>
      rw [ho hop]
      exact .idle

/-- Only rebuilds and new settings let rebuilds begin. -/
theorem exists_opening_turn (e : Engine) (op : Operation) :
    ∃ w' eff, eff.Opens op.rebuilds ∧
      e.start op = { e.spawned with workspace := w' }.take e.tasks.length eff := by
  obtain ⟨w', eff, h, heq⟩ := does_perform (w := e.workspace) op
  exact ⟨w', eff, h.opens, heq e.spawned e.tasks.length rfl⟩

end Engine

/-! ## Lines after an event -/

/-- A task that notes a failure goes on waiting for the same. -/
theorem Task.line_after (parent : Option TaskId) (id child : TaskId) (failure : Option Failure)
    (t : Task) : (t.after parent id child failure).activity.line = t.activity.line := by
  obtain ⟨own, a⟩ := t
  cases a with
  | gathering children noted after => rw [after_gathering]; rfl
  | _ => rw [after_eq_self rfl]

/-- A failure that is noted does not change the role of a task. -/
theorem Task.role_after (parent : Option TaskId) (id child : TaskId) (failure : Option Failure)
    (t : Task) : (t.after parent id child failure).activity.role = t.activity.role := by
  obtain ⟨own, a⟩ := t
  cases a with
  | gathering children noted after => rw [after_gathering]; cases after <;> rfl
  | _ => rw [after_eq_self rfl]

namespace Engine

variable {e : Engine} {id j : TaskId} {u : Task}

/-- After a turn a task is where it was or where its line leads, or it began in the turn. -/
theorem line_resume (answers : Answers) (hu : (e.resume id answers).task? j = some u) :
    (∃ v, e.task? j = some v ∧
      (u.activity.role = v.activity.role ∧ u.activity.line = v.activity.line ∨
        v.activity.line.leads u.activity.line = true)) ∨
      ∃ t, e.task? id = some t ∧ t.activity.line.spawns u.activity.line = true := by
  cases ht : e.task? id with
  | none =>
    rw [resume_of_task?_eq_none ht] at hu
    exact .inl ⟨u, hu, .inl ⟨rfl, rfl⟩⟩
  | some t =>
    obtain ⟨w', eff, hkeeps, heq⟩ := exists_keeping_turn ht answers
    have ht' : Engine.task? { e with workspace := w' } id = some t := ht
    rw [heq] at hu
    rcases task?_take_cases ht' hu with ⟨rfl, rfl⟩ | ⟨-, v, hv, rfl⟩ | ⟨k, a, rfl, ha, rfl⟩
    · refine .inl ⟨t, ht, ?_⟩
      rcases hkeeps.leads_activity e.tasks.length t.activity with hsame | hleads
      · exact .inl ⟨congrArg Activity.role hsame, congrArg Activity.line hsame⟩
      · exact .inr hleads
    · exact .inl ⟨v, hv, .inl ⟨Task.role_after .., Task.line_after ..⟩⟩
    · exact .inr ⟨t, rfl, hkeeps.children a (List.mem_of_getElem? ha)⟩

/-- When an operation begins, the lines of the other tasks stay, and a rebuild is scheduled only by
an operation that rebuilds. -/
theorem line_start (op : Operation) (hu : (e.start op).task? j = some u) :
    (∃ v, e.task? j = some v ∧ v.activity.line = u.activity.line) ∨
      if op.rebuilds then u.activity.line = .other ∨ u.activity.line = .scheduled
      else u.activity.line ≠ .scheduled ∧ u.activity.line ≠ .rebuild := by
  obtain ⟨w', eff, hopens, heq⟩ := exists_opening_turn e op
  have ht : Engine.task? { e.spawned with workspace := w' } e.tasks.length =
      some ⟨none, .done (.ok .nothing)⟩ := task?_spawned_new e
  rw [heq] at hu
  generalize op.rebuilds = rebuilds at hopens ⊢
  rcases task?_take_cases ht hu with ⟨rfl, rfl⟩ | ⟨hne, v, hv, rfl⟩ | ⟨k, a, rfl, ha, rfl⟩
  · right
    rw [eff.line_activity]
    cases hopens with
    | idle => exact .inl rfl
    | rebuilds models => exact .inl rfl
    | others hown hchildren =>
      cases hl : eff.line? with
      | none => exact ⟨nofun, nofun⟩
      | some l => exact hown l hl
  · left
    rw [Task.line_after]
    exact ⟨v, task?_of_spawned hv hne, rfl⟩
  · right
    have hmem : a ∈ eff.children := List.mem_of_getElem? ha
    cases hopens with
    | idle => cases hmem
    | rebuilds models =>
      obtain ⟨m, -, rfl⟩ := List.mem_map.mp hmem
      exact .inr rfl
    | others hown hchildren => exact hchildren a hmem

end Engine

end BuildLens
