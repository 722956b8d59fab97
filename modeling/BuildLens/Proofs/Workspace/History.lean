import BuildLens.Proofs.Workspace.Looks

/-!
# What became of roots

Which models of a root are old depends on what happened before: when the root was last newly added,
and whether a look at it began at a time when it was not published. This module writes that down
beside a run. The records are taken by comparing the workspace before and after each turn, so they
tell nothing about how the tasks of a turn go on.

Main definitions:

- `History`: what became of roots so far.
- `Chronicle`: an engine with the history of its run.

Main results:

- `Move.knows_of_knows`, `Steady.knows`: which roots are known after a move.
- `after_quiet`, `after_begun`: the history after a turn is that of the look that begins.
-/

namespace BuildLens

/-- What became of roots in a run so far: the number of the model with which each was last newly
added, and the models that were begun while no folder was published under their root. Only a rebuild
that was scheduled before its root was taken away begins like those. -/
structure History where
  admitted : String → ModelId := fun _ => 0
  strays : List ModelId := []

/-- The history after a turn that leads from one workspace to another. -/
def History.after (h : History) (w w' : Workspace) : History where
  admitted key := if !w.knows key && w'.knows key then w.models.length else h.admitted key
  strays := h.strays ++ (List.range' w.models.length (w'.models.length - w.models.length)).filter
    fun m => !w'.knows (w'.keyOf m)

/-- An engine with the history of its run. -/
structure Chronicle where
  engine : Engine
  history : History := {}

namespace Chronicle

/-- The effect of an event. -/
def step (c : Chronicle) (event : Event) : Chronicle where
  engine := c.engine.step event
  history := c.history.after c.engine.workspace (c.engine.step event).workspace

/-- The effect of a run. -/
def run (c : Chronicle) (events : List Event) : Chronicle := events.foldl step c

/-- The history does not touch the engine. -/
@[simp]
theorem run_engine (c : Chronicle) (events : List Event) :
    (c.run events).engine = c.engine.run events := by
  induction events generalizing c with
  | nil => rfl
  | cons event rest ih => exact ih (c.step event)

theorem run_keeps {I : Chronicle → Prop} {events : List Event}
    (hI : ∀ c, ∀ event ∈ events, I c → I (c.step event)) {c : Chronicle} (hc : I c) :
    I (c.run events) :=
  List.foldlRecOn events step hc fun c hc event hevent => hI c event hevent hc

end Chronicle

/-! ## Which roots are known -/

section Knows

variable {input : Input} {v v' : View}

theorem Move.knows_of_knows (h : Move input v v') {key : String}
    (hk : v'.workspace.knows key = true) : v.workspace.knows key = true := by
  rcases h.key_cases key with ⟨hp, -⟩ | ⟨hp, -⟩ | ⟨m, hm⟩
  · rwa [Workspace.knows, ← hp]
  · rw [Workspace.knows, hp] at hk
    cases hk
  · exact hm.known

/-- In a turn in which a look begins no root is taken away. -/
theorem Steady.knows (h : Steady input v v') (key : String) :
    v'.workspace.knows key = v.workspace.knows key := by
  cases h with
  | follow w R h => rw [Workspace.retire_eq]; rfl
  | register w R id hid => rw [Workspace.registered_eq]; rfl
  | replace w R m current a hp hl ha =>
    by_cases hk : key = w.keyOf m
    · subst hk
      simp [Workspace.knows, Workspace.replaced, Table.find?_insert, hp]
    · simp [Workspace.knows, Workspace.replaced, Table.find?_insert, hk]
  | _ => rfl

theorem Moves.models_length (h : Moves input v v') :
    v'.workspace.models.length = v.workspace.models.length :=
  h.keeps (I := fun u => u.workspace.models.length = v.workspace.models.length)
    (fun _ _ h ih => h.models_length.trans ih) rfl

theorem Moves.keyOf (h : Moves input v v') (i : ModelId) :
    v'.workspace.keyOf i = v.workspace.keyOf i :=
  h.keeps (I := fun u => u.workspace.keyOf i = v.workspace.keyOf i)
    (fun _ _ h ih => (h.keyOf i).trans ih) rfl

theorem Moves.knows_of_knows (h : Moves input v v') {key : String}
    (hk : v'.workspace.knows key = true) : v.workspace.knows key = true :=
  h.keeps (I := fun u => u.workspace.knows key = true → v.workspace.knows key = true)
    (fun _ _ h ih hu => ih (h.knows_of_knows hu)) id hk

theorem Steadily.knows (h : Steadily input v v') (key : String) :
    v'.workspace.knows key = v.workspace.knows key :=
  Steadily.keeps (I := fun u => u.workspace.knows key = v.workspace.knows key)
    (fun _ _ h ih => (h.knows key).trans ih) h rfl

end Knows

/-! ## The history of a turn -/

namespace History

variable {input : Input} {v v' : View}

/-- Only what is known, how many models there are, and their keys matter. -/
theorem after_congr (h : History) {w₁ w₂ w₁' w₂' : Workspace}
    (hknows : ∀ key, w₁.knows key = w₂.knows key)
    (hknows' : ∀ key, w₁'.knows key = w₂'.knows key)
    (hlength : w₁.models.length = w₂.models.length)
    (hlength' : w₁'.models.length = w₂'.models.length)
    (hkey : ∀ i, w₁'.keyOf i = w₂'.keyOf i) : h.after w₁ w₁' = h.after w₂ w₂' := by
  simp only [after, hknows, hknows', hlength, hlength', hkey]

/-- Without a look that begins nothing is recorded. -/
theorem after_quiet (h : History) (hmoves : Moves input v v') :
    h.after v.workspace v'.workspace = h := by
  have hadmitted (key : String) :
      (!v.workspace.knows key && v'.workspace.knows key) = false := by
    cases hk : v'.workspace.knows key with
    | false => exact Bool.and_false _
    | true => rw [hmoves.knows_of_knows hk]; rfl
  unfold after
  simp [hadmitted, hmoves.models_length]

/-- What is recorded of a turn in which a look begins is what is recorded of the beginning. -/
theorem after_begun (h : History) {v₁ v₂ : View} (h₁ : Steadily input v v₁)
    (h₃ : Steadily input v₂ v') :
    h.after v.workspace v'.workspace = h.after v₁.workspace v₂.workspace :=
  h.after_congr (fun key => (h₁.knows key).symm) h₃.knows h₁.moves.models_length.symm
    h₃.moves.models_length h₃.moves.keyOf

/-- A folder that is new is recorded as newly added. -/
theorem after_admitted (h : History) {w : Workspace} (source : EditorFolder) {root : FilePath}
    (hk : w.published.find? root.key = none) :
    h.after w (w.admitted source root) =
      { h with admitted := Function.update h.admitted root.key w.models.length } := by
  have hlength : (w.admitted source root).models.length = w.models.length + 1 :=
    w.models_length_begun _
  have hkey : (w.admitted source root).keyOf w.models.length = root.key :=
    w.keyOf_begun_self (w.fresh source root)
  have hknows (key : String) :
      (w.admitted source root).knows key = if key = root.key then true else w.knows key := by
    simp only [Workspace.knows, Workspace.admitted, Table.find?_insert]
    split <;> rfl
  have hnew : w.knows root.key = false := Workspace.knows_eq_false_iff.mpr hk
  unfold after
  congr 1
  · funext key
    rw [hknows, Function.update_apply]
    split
    · next heq => rw [heq, hnew]; rfl
    · rw [Bool.not_and_self]; rfl
  · rw [hlength, Nat.add_sub_cancel_left]
    simp [List.range'_one, hkey, hknows]

/-- Another look at a folder is recorded as a stray if the folder is not published. -/
theorem after_retried (h : History) (w : Workspace) (source : EditorFolder) (root : FilePath) :
    h.after w (w.retried source root) =
      if w.knows root.key then h else { h with strays := h.strays ++ [w.models.length] } := by
  have hlength : (w.retried source root).models.length = w.models.length + 1 :=
    w.models_length_begun _
  have hkey : (w.retried source root).keyOf w.models.length = root.key :=
    w.keyOf_begun_self (w.fresh source root)
  have hknows (key : String) : (w.retried source root).knows key = w.knows key := rfl
  have hadmitted :
      (fun key => if !w.knows key && w.knows key then w.models.length else h.admitted key) =
        h.admitted := by
    funext key
    rw [Bool.not_and_self]
    rfl
  unfold after
  rw [hlength, Nat.add_sub_cancel_left, List.range'_one, List.filter_singleton, hkey]
  simp only [hknows, hadmitted]
  cases w.knows root.key with
  | false => rfl
  | true => simp

end History

end BuildLens
