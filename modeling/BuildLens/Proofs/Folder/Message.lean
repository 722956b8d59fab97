import BuildLens.Folder.Basic
import BuildLens.Proofs.Path.Parent

/-!
# Problems and their keys

Failures of one kind at one root are one problem. The texts by which problems are known tell them
apart: the name of a kind holds no colon, so that the last colon of a key is the one before it.

Main definitions:

- `Problem`, `Problem.key`: a kind of failure at a root, and what it is known by.
- `Folder.Fails`: a look at the folder has ended in a failure, and what the user is told of it.

Main results:

- `Problem.text_key_inj`: different problems have different keys.
- `Folder.Fails.isError_eq`: what is told of a tree that is not built is no error, and all else is
  one.
-/

namespace BuildLens

/-! ## Kinds of failures -/

theorem FailureKind.name_injective : Function.Injective FailureKind.name :=
  fun _ _ => FailureKind.ext

/-- Kinds that have a name here are none of a tree that is not built. -/
theorem FailureKind.ne_notBuilt {kind : FailureKind}
    (h : kind ∈ [process, discovery, environment, value, encoding, nesting]) :
    kind ≠ notBuilt := by
  have hall : ∀ kind ∈ [process, discovery, environment, value, encoding, nesting],
      kind ≠ notBuilt := by decide
  exact hall kind h

/-- No cause of the operating system says that a tree is not built. -/
theorem FailureKind.system_ne_notBuilt (number : Nat) : system number ≠ notBuilt := by
  unfold system
  split <;> decide

theorem PathError.kind_ne_notBuilt (error : PathError) : error.kind ≠ .notBuilt := by
  cases error with
  | noUri text => exact FailureKind.system_ne_notBuilt 0
  | _ => exact FailureKind.ne_notBuilt (by simp [kind])

/-- Only a tree that is not built is said not to be. -/
theorem Failure.kind_eq_notBuilt_iff {e : Failure} :
    e.kind = .notBuilt ↔ ∃ reason, e = .notBuilt reason := by
  constructor
  · intro h
    cases e with
    | notBuilt reason => exact ⟨reason, rfl⟩
    | system error => exact absurd h (FailureKind.system_ne_notBuilt _)
    | path error => exact absurd h (PathError.kind_ne_notBuilt _)
    | beyond limit => cases limit <;> exact absurd h (FailureKind.ne_notBuilt (by simp [kind]))
    | foreign error => exact absurd h error.isForeign
    | _ => exact absurd h (FailureKind.ne_notBuilt (by simp [kind]))
  · rintro ⟨reason, rfl⟩
    rfl

/-! ## Keys -/

/-- A kind of failure at a root, by the spelling of the root. -/
structure Problem where
  root : FilePath
  kind : FailureKind
deriving DecidableEq, Repr

namespace Problem

/-- What the problem is known by. -/
def key (p : Problem) : MessageKey :=
  if p.kind = .notBuilt then .notBuilt p.root.text else .failed p.root.text p.kind

theorem toList_text_failed (root : String) (kind : FailureKind) :
    (MessageKey.failed root kind).text.toList =
      "probe-failed:".toList ++ (root.toList ++ ':' :: kind.name.toList) := by
  rw [MessageKey.text]
  simp only [String.toList_append, List.append_assoc]
  rfl

/-- The two sorts of keys differ in their first letters. -/
theorem text_notBuilt_ne_text_failed (root root' : String) (kind : FailureKind) :
    (MessageKey.notBuilt root).text ≠ (MessageKey.failed root' kind).text := by
  intro h
  have htexts := congrArg String.toList h
  rw [toList_text_failed, MessageKey.text, String.toList_append] at htexts
  cases htexts

/-- What stands before and after the last colon. -/
theorem eq_of_append_colon {a b c d : List Char} (hb : ':' ∉ b) (hd : ':' ∉ d)
    (h : a ++ ':' :: b = c ++ ':' :: d) : a = c ∧ b = d := by
  rcases List.append_eq_append_iff.mp h with ⟨s, rfl, hs⟩ | ⟨s, rfl, hs⟩
  · cases s with
    | nil => exact ⟨(List.append_nil a).symm, (List.cons.inj hs).2⟩
    | cons x s =>
      rw [(List.cons.inj hs).2] at hb
      exact absurd (List.mem_append_right s List.mem_cons_self) hb
  · cases s with
    | nil => exact ⟨List.append_nil c, (List.cons.inj hs).2.symm⟩
    | cons x s =>
      rw [(List.cons.inj hs).2] at hd
      exact absurd (List.mem_append_right s List.mem_cons_self) hd

theorem text_failed_inj {root root' : String} {kind kind' : FailureKind}
    (h : (MessageKey.failed root kind).text = (MessageKey.failed root' kind').text) :
    root = root' ∧ kind = kind' := by
  have htexts := congrArg String.toList h
  rw [toList_text_failed, toList_text_failed] at htexts
  obtain ⟨hroot, hname⟩ := eq_of_append_colon kind.colon_notMem
    kind'.colon_notMem (List.append_cancel_left htexts)
  exact ⟨String.toList_injective hroot, FailureKind.name_injective (String.toList_injective hname)⟩

/-- Different problems on one system have different keys. -/
theorem text_key_inj {platform : Platform} {p q : Problem} (hp : p.root.Normal platform)
    (hq : q.root.Normal platform) : p.key.text = q.key.text ↔ p = q := by
  refine ⟨fun h => ?_, fun h => h ▸ rfl⟩
  have hroots (h : p.root.text = q.root.text) : p.root = q.root := (hp.text_inj hq).mp h
  obtain ⟨root, kind⟩ := p
  obtain ⟨root', kind'⟩ := q
  rw [mk.injEq]
  unfold key at h
  dsimp only at h hroots
  split at h
  · next hk =>
    split at h
    · next hk' => exact ⟨hroots ((String.append_right_inj _).mp h), hk.trans hk'.symm⟩
    · exact absurd h (text_notBuilt_ne_text_failed _ _ _)
  · split at h
    · exact absurd h.symm (text_notBuilt_ne_text_failed _ _ _)
    · exact (text_failed_inj h).imp_left hroots

/-- Away from Windows problems of one kind at one folder are one problem. -/
theorem eq_of_same {platform : Platform} {p q : Problem} (hp : p.root.Normal platform)
    (hq : q.root.Normal platform) (hplatform : platform ≠ .windows)
    (hroot : p.root.same q.root = true) (hkind : p.kind = q.kind) : p = q := by
  obtain ⟨root, kind⟩ := p
  obtain ⟨root', kind'⟩ := q
  obtain rfl : kind = kind' := hkind
  cases root with
  | windows root => exact absurd hp.1 hplatform
  | posix root =>
    cases root' with
    | windows root' => exact absurd hq.1 hplatform
    | posix root' =>
      obtain rfl := FilePath.same_posix.mp hroot
      rfl

end Problem

/-! ## What the user is told -/

namespace Folder

variable {f : Folder} {p : Problem} {msg : Message}

theorem failureMessage_fst (f : Folder) (e : Failure) :
    (f.failureMessage e).1 = (Problem.mk f.root e.kind).key := by
  rw [Problem.key]
  split
  · next h =>
    obtain ⟨reason, rfl⟩ := Failure.kind_eq_notBuilt_iff.mp h
    rfl
  · next h =>
    unfold failureMessage
    split
    · exact absurd rfl h
    · rfl

theorem isError_failureMessage (f : Folder) (e : Failure) :
    (f.failureMessage e).2.isError = (e.kind != .notBuilt) := by
  unfold failureMessage
  split
  · rfl
  · next h =>
    have hkind : e.kind ≠ .notBuilt := fun heq =>
      let ⟨reason, he⟩ := Failure.kind_eq_notBuilt_iff.mp heq
      h reason he
    exact (bne_iff_ne.mpr hkind).symm

/-- A look at the folder has ended in a failure that is the problem, and the message tells of it. -/
def Fails (f : Folder) (p : Problem) (msg : Message) : Prop :=
  ∃ e, f.error? = some e ∧ p = ⟨f.root, e.kind⟩ ∧ msg = (f.failureMessage e).2

/-- What is told of a tree that is not built is no error, and all else is one. -/
theorem Fails.isError_eq (h : f.Fails p msg) : msg.isError = (p.kind != .notBuilt) := by
  obtain ⟨e, -, rfl, rfl⟩ := h
  exact f.isError_failureMessage e

theorem Fails.root_eq (h : f.Fails p msg) : p.root = f.root := by
  obtain ⟨e, -, rfl, -⟩ := h
  rfl

/-- A look that has not ended has not failed. -/
theorem not_fails_of_probing (h : f.phase = .probing) : ¬ f.Fails p msg := by
  rintro ⟨e, he, -⟩
  rw [error?, h] at he
  cases he

/-- A look that has failed tells of one problem. -/
theorem fails_conclude_error (f : Folder) (e : Failure) :
    (f.conclude (.error e)).Fails p msg ↔ p = ⟨f.root, e.kind⟩ ∧ msg = (f.failureMessage e).2 := by
  constructor
  · rintro ⟨e', he', hp, hmsg⟩
    obtain rfl : e = e' := Option.some.inj he'
    exact ⟨hp, hmsg⟩
  · rintro ⟨hp, hmsg⟩
    exact ⟨e, rfl, hp, hmsg⟩

theorem not_fails_conclude_ok (f : Folder) (build : Option Build) :
    ¬ (f.conclude (.ok build)).Fails p msg := by
  rintro ⟨e, he, -⟩
  cases build <;> cases he

end Folder

end BuildLens
