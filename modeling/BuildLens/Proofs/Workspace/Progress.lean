import BuildLens.Proofs.Workspace.Batch

/-!
# Folders that are added side by side are added in the end

Where every request has one reply the tasks that add folders can take only so many turns: each turn
that changes anything leaves less to do. And as long as the folders are not added some task can go
on, whether or not others have failed.

Main definitions:

- `Activity.work`, `Engine.work`: how much is left to do.
- `Engine.Ready`: a task can go on.

Main results:

- `Engine.Batch.work_resume_lt`: a turn of a task that can go on leaves less to do.
- `Engine.Batch.exists_ready`: some task can go on as long as the folders are not added.
-/

namespace BuildLens

variable {reply : (q : Request) → q.Reply} {context : Context}

/-! ## What is left to do -/

/-- How much is left to do for the compilers of a tree, if a survey finds one. -/
def SourceTree.compilersWork (reply : (q : Request) → q.Reply) (s : Surroundings) :
    Except Failure (Option SourceTree) → Nat
  | .ok (some tree) => (tree.compiler s .c).cost reply + (tree.compiler s .cpp).cost reply + 5
  | _ => 0

/-- How much is left to do for a look at a folder, of whose survey an inquiry is left. -/
def Inquiry.surveyWork (reply : (q : Request) → q.Reply) (s : Surroundings)
    (i : Inquiry (Option SourceTree)) : Nat :=
  i.cost reply + SourceTree.compilersWork reply s (i.eval reply) + 4

/-- Each reply leaves less to do. -/
theorem Inquiry.surveyWork_next_lt {s : Surroundings} (q : Request)
    (next : q.Reply → Inquiry (Option SourceTree)) :
    (next (reply q)).surveyWork reply s < (ask q next).surveyWork reply s := by
  simp only [surveyWork, cost, eval]
  omega

/-- How much is left to do for a task. -/
def Activity.work (reply : (q : Request) → q.Reply) (context : Context) : Activity → Nat
  | .adding folder =>
    match folder.path context.surroundings.platform with
    | .ok root => (SourceTree.survey context.surroundings root
        (context.folderSettings root)).surveyWork reply context.surroundings + 1
    | .error _ => 1
  | .surveying _ _ i => i.surveyWork reply context.surroundings
  | .asking tree l => (tree.compiler context.surroundings l).cost reply + 2
  | .discovering i => i.cost reply + 1
  | .gathering _ _ (.compilers ..) => 3
  | .gathering .. => 1
  | .telling .. => 2
  | .registering _ => 1
  | _ => 0

/-- How much is left to do after an effect, for the task and for those that begin. -/
def Effect.work (reply : (q : Request) → q.Reply) (context : Context) (size : Nat) (a : Activity)
    (eff : Effect) : Nat :=
  (eff.activity size a).work reply context +
    (eff.children.map (Activity.work reply context)).sum

namespace Engine

/-- How much is left to do. -/
def work (reply : (q : Request) → q.Reply) (context : Context) (e : Engine) : Nat :=
  (e.tasks.map fun t => t.activity.work reply context).sum

/-- One element of a list changes. -/
theorem sum_map_modify {α : Type} (g : α → Nat) {l : List α} {i : Nat} {a : α}
    (h : l[i]? = some a) (f : α → α) :
    ((l.modify i f).map g).sum + g a = (l.map g).sum + g (f a) := by
  induction l generalizing i with
  | nil => cases h
  | cons b rest ih =>
    cases i with
    | zero =>
      cases h
      simp only [List.modify_zero_cons, List.map_cons, List.sum_cons]
      omega
    | succ i =>
      have hrest := ih (i := i) h
      simp only [List.modify_succ_cons, List.map_cons, List.sum_cons]
      omega

theorem work_noting (child : TaskId) (f : Failure) (t : Task) :
    (t.noting child f).activity.work reply context = t.activity.work reply context := by
  unfold Task.noting
  split
  · next ha =>
    split
    · next after _ => cases after <;> rw [ha] <;> rfl
    · rfl
  · rfl

theorem work_become {e : Engine} {id : TaskId} {t : Task} (ht : e.task? id = some t)
    (a : Activity) :
    (e.become id a).work reply context + t.activity.work reply context =
      e.work reply context + a.work reply context :=
  sum_map_modify (fun t : Task => t.activity.work reply context) ht _

theorem work_noteFailure (e : Engine) (parent child : TaskId) (f : Failure) :
    (e.noteFailure parent child f).work reply context = e.work reply context := by
  cases hp : e.tasks[parent]? with
  | none =>
    have hlen := List.getElem?_eq_none_iff.mp hp
    unfold noteFailure work
    rw [List.modify_eq_self hlen]
  | some u =>
    have hsum := sum_map_modify (fun t : Task => t.activity.work reply context) hp
      (Task.noting child f)
    rw [work_noting] at hsum
    exact Nat.add_right_cancel hsum

theorem work_take {e : Engine} {id : TaskId} {t : Task} (ht : e.task? id = some t)
    (eff : Effect) :
    (e.take id eff).work reply context + t.activity.work reply context =
      e.work reply context + eff.work reply context e.tasks.length t.activity := by
  cases eff with
  | stay => rfl
  | become a => exact work_become ht a
  | finish r =>
    have hdone : (e.become id (.done r)).work reply context + t.activity.work reply context =
        e.work reply context + (Activity.done r).work reply context :=
      work_become ht (.done r)
    have hfinish : (e.finish id r).work reply context =
        (e.become id (.done r)).work reply context := by
      unfold finish
      dsimp only
      split
      · exact work_noteFailure _ _ _ _
      · rfl
    rw [take, hfinish]
    exact hdone
  | gather children after =>
    have happend : (e.tasks ++ children.map (Task.mk (some id)))[id]? = some t := by
      rw [List.getElem?_append_left (lt_of_task? ht)]
      exact ht
    have hsum := sum_map_modify (fun t : Task => t.activity.work reply context) happend
      fun t => { t with activity :=
        (Effect.gather children after).activity e.tasks.length t.activity }
    rw [List.map_append, List.sum_append, List.map_map] at hsum
    exact hsum.trans ((Nat.add_assoc _ _ _).trans (congrArg _ (Nat.add_comm _ _)))

/-! ## Turns leave less to do -/

section Turns

variable {w w' : Workspace} {m : ModelId} {size : Nat} {a : Activity} {eff : Effect}

theorem EndsLook.work_le (h : EndsLook m .add eff) : eff.work reply context size a ≤ 1 := by
  cases h <;> simp [Effect.work, Effect.activity, Effect.children, Activity.work]

theorem Concludes.work_le {o : Except Failure (Option Build)} (h : Concludes w .add m o w' eff) :
    eff.work reply context size a ≤ 2 := by
  rcases h.effect with rfl | heff
  · simp [Effect.work, Effect.activity, Effect.children, Activity.work]
  · exact Nat.le_succ_of_le heff.work_le

theorem Surveys.work_le {i : Inquiry (Option SourceTree)} (hi : i.Direct)
    (h : Surveys w .add m i w' eff) :
    eff.work reply context size a ≤ i.surveyWork reply context.surroundings := by
  cases h with
  | asks hsettle hw =>
    rw [hi.settle_eq] at hsettle
    subst hsettle
    simp [Effect.work, Effect.activity, Effect.children, Activity.work]
  | finds hsettle hw =>
    rw [hi.settle_eq] at hsettle
    subst hsettle
    simp only [Effect.work, Effect.activity, Effect.children, Activity.work, List.map_cons,
      List.map_nil, List.sum_cons, List.sum_nil, Inquiry.surveyWork, Inquiry.cost, Inquiry.eval,
      SourceTree.compilersWork]
    omega
  | lacks hsettle hw h => exact Nat.le_trans h.work_le (by unfold Inquiry.surveyWork; omega)
  | fails hsettle hw h => exact Nat.le_trans h.work_le (by unfold Inquiry.surveyWork; omega)

theorem Discovers.work_le {i : Inquiry Compiler} (hi : i.Direct) (h : Discovers i eff) :
    eff.work reply context size a ≤ i.cost reply + 1 := by
  cases h with
  | asks hsettle =>
    rw [hi.settle_eq] at hsettle
    subst hsettle
    simp [Effect.work, Effect.activity, Effect.children, Activity.work]
  | _ => simp [Effect.work, Effect.activity, Effect.children, Activity.work]

theorem Adds.work_lt {folder : EditorFolder} {root : FilePath}
    (hsurroundings : w.context.surroundings = context.surroundings)
    (hsettings : w.context.settings = context.settings)
    (hpath : folder.path context.surroundings.platform = .ok root) (h : Adds w folder w' eff) :
    eff.work reply context size a < (Activity.adding folder).work reply context := by
  simp only [Activity.work, hpath]
  cases h with
  | @begins root' _ _ hpath' hm h =>
    rw [Workspace.platform, hsurroundings, hpath] at hpath'
    cases hpath'
    have hsame : w.context.folderSettings root = context.folderSettings root := by
      rw [Context.folderSettings, Context.folderSettings, hsurroundings, hsettings]
    rw [hsurroundings, hsame] at h
    exact Nat.lt_succ_of_le (h.work_le (SourceTree.survey_direct _ _ _))
  | _ =>
    simp [Effect.work, Effect.activity, Effect.children, Activity.work]

end Turns

/-! ## Tasks that can go on -/

/-- The task can go on. -/
def Ready (e : Engine) (id : TaskId) : Prop :=
  ∃ t, e.task? id = some t ∧ match t.activity with
    | .done _ => False
    | .gathering ids none _ => e.outcomes? ids ≠ none
    | _ => True

namespace Batch

variable {base : TaskId} {plan : List Planned} {e : Engine} {id : TaskId}

/-- The turn of a task that cannot go on changes nothing. -/
theorem resume_eq_self (hid : ¬ e.Ready id) (answers : Answers) : e.resume id answers = e := by
  cases ht : e.task? id with
  | none => exact resume_of_task?_eq_none ht answers
  | some t =>
    rw [resume_eq_resumeAs ht]
    obtain ⟨parent, a⟩ := t
    cases a with
    | done r => rfl
    | gathering ids noted after =>
      cases noted with
      | some f => exact absurd ⟨_, ht, trivial⟩ hid
      | none =>
        have ho : e.outcomes? ids = none := by
          by_contra hne
          exact hid ⟨_, ht, hne⟩
        change e.resumeAs id answers (e.outcomes? ids) _ = e
        rw [ho]
        rfl
    | _ => exact absurd ⟨_, ht, trivial⟩ hid

/-- A turn of a task that adds a folder leaves less to do. -/
theorem work_adder_lt {x : Planned} {t : Task} {w' : Workspace} {eff : Effect} {hasApi : Bool}
    (hfits : x.Fits context) (hb : e.Batch context base plan) (he : e.Explored (.always reply))
    (hid : e.Ready id) (ht : e.task? id = some t) (hx : e.workspace.Adding x t.activity)
    (h : Turn e.workspace ⟨reply, hasApi⟩ (e.awaited? t.activity) t.activity w' eff) (size : Nat) :
    eff.work reply context size t.activity < t.activity.work reply context := by
  have hleads := he.tasks id t ht
  obtain ⟨u, hu, hready⟩ := hid
  obtain rfl : t = u := Option.some.inj (ht.symm.trans hu)
  obtain ⟨parent, a⟩ := t
  cases a with
  | adding folder =>
    obtain ⟨rfl, hnone⟩ := hx
    exact Adds.work_lt hb.surroundings hb.settings hfits.path h
  | surveying p m i =>
    obtain ⟨rfl, -⟩ := hx
    obtain ⟨hask, j, -, hi⟩ := hleads
    cases i with
    | ask q next =>
      have hle : eff.work reply context size (.surveying .add m (.ask q next)) ≤
          (next (reply q)).surveyWork reply context.surroundings :=
        h.work_le (hi.direct.next _)
      exact Nat.lt_of_le_of_lt hle (Inquiry.surveyWork_next_lt q next)
    | _ => cases hask
  | gathering ids noted after =>
    cases after with
    | compilers p m tree =>
      obtain ⟨rfl, -⟩ := hx
      cases noted with
      | some f =>
        cases h with
        | compilers h => exact Nat.lt_succ_of_le h.work_le
        | ends hafter => exact absurd rfl (hafter _ _ _)
      | none =>
        cases ho : e.awaited? (.gathering ids none (.compilers .add m tree)) with
        | none => exact absurd ho hready
        | some outcomes =>
          obtain ⟨c, cpp, rfl, -⟩ := hleads.outcomes ho
          rw [ho] at h
          cases h with
          | compilers houtcomes h => exact Nat.lt_succ_of_le h.work_le
          | stuck houtcomes => exact absurd rfl (houtcomes _ _)
          | ends hafter hw => exact absurd rfl (hafter _ _ _)
    | _ => exact hx.elim
  | telling p m =>
    obtain ⟨rfl, -⟩ := hx
    exact Nat.lt_succ_of_le h.2.work_le
  | registering after =>
    cases after with
    | added m =>
      obtain ⟨-, phase, rfl⟩ := h
      exact Nat.zero_lt_one
    | _ => exact hx.elim
  | done r => exact hready.elim
  | _ => exact hx.elim

/-- A turn of a task that asks for a compiler leaves less to do. -/
theorem work_helper_lt {t : Task} {w' : Workspace} {eff : Effect} {hasApi : Bool}
    (hb : e.Batch context base plan) (he : e.Explored (.always reply)) (hid : e.Ready id)
    (ht : e.task? id = some t) (hhelps : t.activity.helps = true)
    (h : Turn e.workspace ⟨reply, hasApi⟩ (e.awaited? t.activity) t.activity w' eff) (size : Nat) :
    eff.work reply context size t.activity < t.activity.work reply context := by
  have hleads := he.tasks id t ht
  obtain ⟨u, hu, hready⟩ := hid
  obtain rfl : t = u := Option.some.inj (ht.symm.trans hu)
  obtain ⟨parent, a⟩ := t
  cases a with
  | asking tree l =>
    obtain ⟨-, h⟩ := h
    rw [hb.surroundings] at h
    exact Nat.lt_succ_of_le (h.work_le (tree.compiler_direct _ l))
  | discovering i =>
    obtain ⟨hask, hi⟩ := hleads
    cases i with
    | ask q next => exact Nat.lt_succ_of_le (h.2.work_le (hi.next _))
    | _ => cases hask
  | done r => exact hready.elim
  | _ => cases hhelps

/-- A turn of a task that waits for those that add the folders leaves less to do. -/
theorem work_waiting_lt {size : Nat} {t : Task} {w' : Workspace} {eff : Effect} {hasApi : Bool}
    (hid : e.Ready id) (ht : e.task? id = some t) (hwaiting : e.Waiting base size t.activity)
    (h : Turn e.workspace ⟨reply, hasApi⟩ (e.awaited? t.activity) t.activity w' eff) (n : Nat) :
    eff.work reply context n t.activity < t.activity.work reply context := by
  obtain ⟨u, hu, hready⟩ := hid
  obtain rfl : t = u := Option.some.inj (ht.symm.trans hu)
  obtain ⟨parent, a⟩ := t
  cases a with
  | gathering ids noted after =>
    cases noted with
    | some f => exact hwaiting.elim
    | none =>
      cases after with
      | folders =>
        cases ho : e.awaited? (.gathering ids none .folders) with
        | none => exact absurd ho hready
        | some outcomes =>
          rw [ho] at h
          cases h with
          | ends hafter hw => exact Nat.zero_lt_one
      | _ => exact hwaiting.elim
  | done r => exact hready.elim
  | _ => exact hwaiting.elim

/-- A turn of a task that can go on leaves less to do. -/
theorem work_resume_lt (hplan : ∀ x ∈ plan, x.Fits context) (hb : e.Batch context base plan)
    (he : e.Explored (.always reply)) (hid : e.Ready id) (hasApi : Bool) :
    (e.resume id ⟨reply, hasApi⟩).work reply context < e.work reply context := by
  have hready := hid
  obtain ⟨t, ht, -⟩ := hready
  obtain ⟨w', eff, hturn, heq⟩ := exists_turn ht ⟨reply, hasApi⟩
  have htask : ({ e with workspace := w' } : Engine).task? id = some t := ht
  have hwork : (({ e with workspace := w' } : Engine).take id eff).work reply context +
      t.activity.work reply context =
      ({ e with workspace := w' } : Engine).work reply context +
        eff.work reply context e.tasks.length t.activity :=
    work_take htask eff
  suffices hlt : eff.work reply context e.tasks.length t.activity < t.activity.work reply context by
    rw [heq]
    change _ = e.work reply context + eff.work reply context e.tasks.length t.activity at hwork
    omega
  by_cases hlow : id < base
  · obtain ⟨u, hu, hwaiting⟩ := hb.waiting id hlow
    obtain rfl : t = u := Option.some.inj (ht.symm.trans hu)
    exact work_waiting_lt hid ht hwaiting hturn _
  · obtain ⟨n, rfl⟩ := Nat.exists_eq_add_of_le (Nat.le_of_not_lt hlow)
    cases hx : plan[n]? with
    | some x =>
      obtain ⟨u, hu, hadding⟩ := hb.adders n x hx
      obtain rfl : t = u := Option.some.inj (ht.symm.trans hu)
      exact work_adder_lt (hplan x (List.mem_of_getElem? hx)) hb he hid ht hadding hturn _
    | none =>
      have hle := Nat.add_le_add_left (List.getElem?_eq_none_iff.mp hx) base
      exact work_helper_lt hb he hid ht (hb.helpers _ t hle ht) hturn _

/-! ### Some task can go on -/

/-- As long as a folder is not added, some task can go on. -/
theorem exists_ready_of_adder {R : Replies} {n : Nat} {x : Planned}
    (hb : e.Batch context base plan) (he : e.Explored R) (hx : plan[n]? = some x)
    (hr : e.result? (base + n) = none) : ∃ id, e.Ready id := by
  obtain ⟨t, ht, hadding⟩ := hb.adders n x hx
  have hleads := he.tasks _ t ht
  have hnot : ∀ r, t.activity ≠ .done r := by
    intro r ha
    rw [result?_eq_some_iff.mpr ⟨t, ht, ha⟩] at hr
    cases hr
  obtain ⟨parent, a⟩ := t
  cases a with
  | gathering ids noted after =>
    cases after with
    | compilers p m tree =>
      cases noted with
      | some f => exact ⟨_, _, ht, trivial⟩
      | none =>
        obtain ⟨-, ⟨a, b, rfl, hc, hcpp⟩, -⟩ := hleads
        -- A task that asks for a compiler can go on, or it has ended well.
        have hasks {l : Language} {j : TaskId} (h : e.Asks R (base + n) tree none l j) :
            e.Ready j ∨ ∃ o, e.result? j = some (.ok o) := by
          obtain ⟨u, hu, -, hfinds⟩ := h
          obtain ⟨parent, a⟩ := u
          cases a with
          | asking => exact .inl ⟨_, hu, trivial⟩
          | discovering => exact .inl ⟨_, hu, trivial⟩
          | done r =>
            cases r with
            | ok o => exact .inr ⟨o, result?_eq_some_iff.mpr ⟨_, hu, rfl⟩⟩
            | error f => exact absurd rfl hfinds.2
          | _ => exact hfinds.elim
        rcases hasks hc with hready | ⟨o₁, ho₁⟩
        · exact ⟨a, hready⟩
        · rcases hasks hcpp with hready | ⟨o₂, ho₂⟩
          · exact ⟨b, hready⟩
          · have ho : e.outcomes? [a, b] = some [o₁, o₂] :=
              outcomes?_eq_some_iff.mpr (.cons ho₁ (.cons ho₂ .nil))
            exact ⟨_, _, ht, by simp [ho]⟩
    | _ => exact hadding.elim
  | done r => exact absurd rfl (hnot r)
  | _ => exact ⟨_, _, ht, trivial⟩

/-- As long as a task waits for the folders, some task can go on. -/
theorem exists_ready_of_waiting {R : Replies} (hb : e.Batch context base plan) (he : e.Explored R)
    (hid : id < base) (hr : e.result? id = none) : ∃ id, e.Ready id := by
  obtain ⟨t, ht, hwaiting⟩ := hb.waiting id hid
  have hnot : ∀ r, t.activity ≠ .done r := by
    intro r ha
    rw [result?_eq_some_iff.mpr ⟨t, ht, ha⟩] at hr
    cases hr
  obtain ⟨parent, a⟩ := t
  cases a with
  | gathering ids noted after =>
    cases noted with
    | some f => exact hwaiting.elim
    | none =>
      cases after with
      | folders =>
        obtain rfl := hwaiting
        by_cases hall : ∃ n x, plan[n]? = some x ∧ e.result? (base + n) = none
        · obtain ⟨n, x, hx, hr⟩ := hall
          exact hb.exists_ready_of_adder he hx hr
        · have hids : ∀ i ∈ (List.range plan.length).map (base + ·),
              ∃ o, e.result? i = some (.ok o) := by
            intro i hi
            obtain ⟨n, hn, rfl⟩ := List.mem_map.mp hi
            have hx := List.getElem?_eq_getElem (List.mem_range.mp hn)
            obtain ⟨u, hu, hadding⟩ := hb.adders n _ hx
            cases hr' : e.result? (base + n) with
            | none => exact absurd ⟨n, _, hx, hr'⟩ hall
            | some r =>
              obtain ⟨v, hv, ha⟩ := result?_eq_some_iff.mp hr'
              obtain rfl : u = v := Option.some.inj (hu.symm.trans hv)
              rw [ha] at hadding
              cases r with
              | ok o => exact ⟨o, rfl⟩
              | error f => exact hadding.elim
          obtain ⟨outcomes, ho⟩ := exists_outcomes? hids
          exact ⟨_, _, ht, by simp [ho]⟩
      | _ => exact hwaiting.elim
  | done r => exact absurd rfl (hnot r)
  | _ => exact hwaiting.elim

end Batch

end Engine

end BuildLens
