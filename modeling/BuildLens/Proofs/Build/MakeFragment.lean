import BuildLens.Build.MakeFragment
import BuildLens.Proofs.Occurrence
import BuildLens.Proofs.Table
import BuildLens.Proofs.Text.Line

/-!
# What a make fragment says

A line is an assignment or says nothing. The assignments of a fragment are told in the order of its
lines, and what a variable is worth depends on its own assignments alone: the last one that replaces
its value makes all earlier ones irrelevant, and the values that count stand one after the other.
What was read before a fragment therefore acts as the values that a variable had at the start, and
two fragments may be read as one.

Main definitions:

- `Assignment.Says`: what a line says.
- `Variables.Settled`: what a variable is worth after its assignments.
- `Variables.Reading`: what a fragment says, compared with what was known before.

Main results:

- `Assignment.ofLine?_eq_some_iff`: the line is read as what it says.
- `Variables.read_append`: fragments that follow each other are read one after the other.
- `Variables.read_eq_iff_settled`: what is read is what the fragment says, for every text.
-/

namespace BuildLens

open Text (isBlank trim trimLeft lines Lined)

/-! ## What one line says -/

namespace Assignment

variable {line name tail : List Char} {a b : Assignment}

/-- The sign between the name and the value. -/
def operator (a : Assignment) : List Char := if a.appends then ['+', '='] else ['=']

/-- The line says the assignment: a name stands in it behind any blanks, then any blanks, the
operator, and the value with any blanks around it. The name is not empty, and all its characters may
stand in a name. -/
structure Says (line : List Char) (a : Assignment) : Prop where
  nonempty : a.name.toList ≠ []
  name : ∀ c ∈ a.name.toList, isNameChar c = true
  parts : ∃ before between value : List Char, (∀ c ∈ before, isBlank c = true) ∧
    (∀ c ∈ between, isBlank c = true) ∧
    line = before ++ (a.name.toList ++ (between ++ (a.operator ++ value))) ∧
    a.value.toList = trim value

/-- The characters of names are the letters and digits of the Latin alphabet and three signs. -/
theorem isNameChar_iff {c : Char} : isNameChar c = true ↔
    (65 ≤ c.toNat ∧ c.toNat ≤ 90) ∨ (97 ≤ c.toNat ∧ c.toNat ≤ 122) ∨
      (48 ≤ c.toNat ∧ c.toNat ≤ 57) ∨ c = '_' ∨ c = '.' ∨ c = '-' := by
  have hletter : c.isAlphanum = (decide (65 ≤ c.val ∧ c.val ≤ 90) ||
      (decide (97 ≤ c.val) && decide (c.val ≤ 122)) ||
        (decide (48 ≤ c.val) && decide (c.val ≤ 57))) := rfl
  simp only [isNameChar, hletter, Bool.or_eq_true, Bool.and_eq_true, decide_eq_true_eq,
    UInt32.le_iff_toNat_le, beq_iff_eq, or_assoc]
  rfl

/-- A character of a name is no blank. -/
theorem isBlank_of_isNameChar {c : Char} (h : isNameChar c = true) : isBlank c = false := by
  rw [← Bool.not_eq_true]
  intro hblank
  have hrange : (9 ≤ c.toNat ∧ c.toNat ≤ 32) ∨ 0x85 ≤ c.toNat := by
    simp only [isBlank, Bool.or_eq_true, Bool.and_eq_true, decide_eq_true_eq, beq_iff_eq] at hblank
    omega
  rw [isNameChar_iff] at h
  rcases h with h | h | h | rfl | rfl | rfl
  · omega
  · omega
  · omega
  all_goals exact absurd hblank (by decide)

/-- Where characters of a kind are followed by none, the two parts are told apart. -/
theorem span_append {p : Char → Bool} {xs rest : List Char} (hxs : ∀ c ∈ xs, p c = true)
    (hrest : ∀ c ∈ rest.head?, p c = false) :
    (xs ++ rest).takeWhile p = xs ∧ (xs ++ rest).dropWhile p = rest := by
  rw [List.takeWhile_append_of_pos hxs, List.dropWhile_append_of_pos hxs]
  cases rest with
  | nil => simp
  | cons c cs =>
    have hc : p c = false := hrest c rfl
    simp [hc]

/-- An operator begins with neither a blank nor a character of a name. -/
theorem head?_operator_append (a : Assignment) (value : List Char) :
    ∀ c ∈ (a.operator ++ value).head?, isBlank c = false ∧ isNameChar c = false := by
  rw [operator]
  cases a.appends <;> rintro c ⟨⟩ <;> decide

/-- The name ends before any blanks and the operator. -/
theorem head?_blanks_operator {between : List Char} (hbetween : ∀ c ∈ between, isBlank c = true)
    (a : Assignment) (value : List Char) :
    ∀ c ∈ (between ++ (a.operator ++ value)).head?, isNameChar c = false := by
  cases between with
  | nil => exact fun c hc => (head?_operator_append a value c hc).2
  | cons d between =>
    rintro c ⟨⟩
    by_contra hname
    have hblank := isBlank_of_isNameChar (Bool.not_eq_false _ ▸ hname)
    rw [hbetween d List.mem_cons_self] at hblank
    cases hblank

/-- What follows a name is blanks, an operator and a value. -/
theorem ofTail?_eq_some_iff : ofTail? name tail = some a ↔ a.name = String.ofList name ∧
    ∃ between value : List Char, (∀ c ∈ between, isBlank c = true) ∧
      tail = between ++ (a.operator ++ value) ∧ a.value = String.ofList (trim value) := by
  constructor
  · intro h
    have hblanks : ∀ c ∈ tail.takeWhile isBlank, isBlank c = true :=
      fun c hc => List.all_eq_true.mp List.all_takeWhile c hc
    have htail : tail = tail.takeWhile isBlank ++ trimLeft tail :=
      List.takeWhile_append_dropWhile.symm
    rw [ofTail?] at h
    split at h
    · next value heq =>
      cases h
      exact ⟨rfl, _, value, hblanks, htail.trans (congrArg _ heq), rfl⟩
    · next value heq =>
      cases h
      exact ⟨rfl, _, value, hblanks, htail.trans (congrArg _ heq), rfl⟩
    · cases h
  · rintro ⟨hname, between, value, hblanks, rfl, hvalue⟩
    have hrest : trimLeft (between ++ (a.operator ++ value)) = a.operator ++ value :=
      (span_append hblanks fun c hc => (head?_operator_append a value c hc).1).2
    rw [ofTail?, hrest]
    rcases a with ⟨_, _ | _, _⟩ <;> cases hname <;> cases hvalue <;> rfl

/-- The line is read as what it says. -/
theorem ofLine?_eq_some_iff : ofLine? line = some a ↔ Says line a := by
  rw [ofLine?]
  constructor
  · intro h
    split at h
    · cases h
    · next hne =>
      rw [ofTail?_eq_some_iff] at h
      obtain ⟨hname, between, value, hblanks, htail, hvalue⟩ := h
      have hchars : a.name.toList = (trimLeft line).takeWhile isNameChar := by
        rw [hname, String.toList_ofList]
      refine ⟨?_, ?_, line.takeWhile isBlank, between, value, ?_, hblanks, ?_, ?_⟩
      · rw [hchars]
        exact mt List.isEmpty_iff.mpr hne
      · rw [hchars]
        exact fun c hc => List.all_eq_true.mp List.all_takeWhile c hc
      · exact fun c hc => List.all_eq_true.mp List.all_takeWhile c hc
      · rw [← htail, hchars, List.takeWhile_append_dropWhile, trimLeft,
          List.takeWhile_append_dropWhile]
      · rw [hvalue, String.toList_ofList]
  · rintro ⟨hne, hname, before, between, value, hbefore, hblanks, rfl, hvalue⟩
    obtain ⟨c, name, hcons⟩ := List.exists_cons_of_ne_nil hne
    have hfirst : isBlank c = false :=
      isBlank_of_isNameChar (hname c (hcons ▸ List.mem_cons_self))
    have htrim : trimLeft (before ++ (a.name.toList ++ (between ++ (a.operator ++ value)))) =
        a.name.toList ++ (between ++ (a.operator ++ value)) := by
      refine (span_append hbefore ?_).2
      rw [hcons]
      rintro _ ⟨⟩
      exact hfirst
    obtain ⟨htake, hdrop⟩ := span_append hname (head?_blanks_operator hblanks a value)
    simp only [htrim, htake, hdrop]
    rw [if_neg (mt List.isEmpty_iff.mp hne), ofTail?_eq_some_iff]
    exact ⟨String.ofList_toList.symm, between, value, hblanks, rfl, by
      rw [← hvalue, String.ofList_toList]⟩

example : ["# A = b", "A := b", "A ?= b", "all: A = b"].map (fun l => ofLine? l.toList) =
    [none, none, none, none] := by
  decide

end Assignment

/-! ## What a variable is worth -/

namespace Variables

variable {initial : Option String} {as : List Assignment} {a : Assignment} {v : Option String}

/-- The values that are not empty, with single spaces between them. -/
def joined (values : List String) : String := " ".intercalate (values.filter (· ≠ ""))

/-- What a variable is worth after its assignments, given what it was worth before them. What counts
is the last assignment that replaces the value and those behind it; if all append, it is what was
there before and all of them. -/
inductive Settled (initial : Option String) : List Assignment → Option String → Prop
  | unassigned : Settled initial [] initial
  | replaced {before after : List Assignment} {a : Assignment} (ha : a.appends = false)
      (hafter : ∀ b ∈ after, b.appends = true) :
      Settled initial (before ++ a :: after) (some (joined ((a :: after).map Assignment.value)))
  | appended {as : List Assignment} (hne : as ≠ []) (has : ∀ b ∈ as, b.appends = true) :
      Settled initial as (some (joined (initial.toList ++ as.map Assignment.value)))

/-- A single value is joined as it is. -/
theorem joined_singleton (value : String) : joined [value] = value := by
  rw [joined]
  by_cases h : value = ""
  · simp [h]
  · simp [h]

/-- Joined values are empty if each of them is. -/
theorem joined_eq_empty_iff {values : List String} :
    joined values = "" ↔ values.filter (· ≠ "") = [] := by
  rw [joined]
  constructor
  · intro h
    cases hfilter : values.filter (· ≠ "") with
    | nil => rfl
    | cons value rest =>
      have hne : value ≠ "" := by
        have hmem : value ∈ values.filter (· ≠ "") := hfilter ▸ List.mem_cons_self
        simpa using (List.mem_filter.mp hmem).2
      rw [hfilter] at h
      cases rest with
      | nil => exact absurd (String.intercalate_singleton.symm.trans h) hne
      | cons => simp at h
  · intro h
    rw [h, String.intercalate_nil]

/-- The operation on values is that of adding one to those that stand one after the other. -/
theorem joined_append_singleton (values : List String) (value : String) :
    joined (values ++ [value]) = append (joined values) value := by
  have hvalue : joined [value] = value := joined_singleton value
  rw [append]
  by_cases hempty : joined values = ""
  · have hfilter := joined_eq_empty_iff.mp hempty
    rw [hempty, joined, List.filter_append, hfilter, List.nil_append, ← joined, hvalue]
    rfl
  · have hfilter := mt joined_eq_empty_iff.mpr hempty
    rw [if_neg (by simpa using hempty)]
    by_cases hv : value = ""
    · subst hv
      simp [joined]
    · rw [if_neg (by simpa using hv), joined, List.filter_append,
        String.intercalate_append_of_ne_nil hfilter (by simp [hv]), ← joined, ← joined, hvalue]

/-- What a variable is worth after one more assignment. -/
def next (v : Option String) (a : Assignment) : Option String :=
  some (if a.appends then append (v.getD "") a.value else a.value)

/-- One more assignment: a value that is replaced counts alone, and one that is appended follows
those that counted before it. -/
theorem Settled.append_singleton (h : Settled initial as v) (a : Assignment) :
    Settled initial (as ++ [a]) (next v a) := by
  rw [next]
  cases happends : a.appends with
  | false =>
    have hlast : Settled initial (as ++ [a]) (some (joined [a.value])) := .replaced happends nofun
    rw [joined_singleton] at hlast
    exact hlast
  | true =>
    rw [if_pos rfl]
    cases h with
    | unassigned =>
      have hfirst : Settled initial [a] (some (joined (initial.toList ++ [a.value]))) :=
        .appended (by simp) (by simpa using happends)
      rw [joined_append_singleton] at hfirst
      cases initial with
      | none => exact hfirst
      | some value =>
        rw [Option.toList_some, joined_singleton] at hfirst
        exact hfirst
    | @replaced before after b hb hafter =>
      have hlonger : Settled initial (before ++ b :: (after ++ [a]))
          (some (joined ((b :: (after ++ [a])).map Assignment.value))) :=
        .replaced hb (by simpa [or_imp, forall_and] using ⟨hafter, happends⟩)
      rw [← List.cons_append, List.map_append, List.map_singleton, joined_append_singleton]
        at hlonger
      rw [List.append_assoc]
      exact hlonger
    | appended hne has =>
      have hlonger : Settled initial (as ++ [a])
          (some (joined (initial.toList ++ (as ++ [a]).map Assignment.value))) :=
        .appended (by simp) (by simpa [or_imp, forall_and] using ⟨has, happends⟩)
      rw [List.map_append, List.map_singleton, ← List.append_assoc, joined_append_singleton]
        at hlonger
      exact hlonger

/-- Assignments that all append put their values behind what was there. -/
theorem foldl_next_of_appends (h : ∀ b ∈ as, b.appends = true) (values : List String) :
    as.foldl next (some (joined values)) = some (joined (values ++ as.map Assignment.value)) := by
  induction as generalizing values with
  | nil => simp
  | cons a as ih =>
    rw [List.forall_mem_cons] at h
    rw [List.foldl_cons, next, h.1, if_pos rfl, Option.getD_some, ← joined_append_singleton,
      ih h.2, List.append_assoc]
    rfl

/-- A variable is worth what its assignments make of it, one after the other. -/
theorem settled_iff : Settled initial as v ↔ as.foldl next initial = v := by
  constructor
  · intro h
    cases h with
    | unassigned => rfl
    | @replaced before after a ha hafter =>
      have hreplaced : next (before.foldl next initial) a = some (joined [a.value]) := by
        rw [next, ha, joined_singleton]
        rfl
      rw [List.foldl_append, List.foldl_cons, hreplaced, foldl_next_of_appends hafter]
      rfl
    | appended hne has =>
      obtain ⟨a, as, rfl⟩ := List.exists_cons_of_ne_nil hne
      -- A variable that is not there yet is appended to like one without a value.
      have hfirst : next initial a = next (some (joined initial.toList)) a := by
        cases initial with
        | none => rfl
        | some value => rw [Option.toList_some, joined_singleton]
      rw [List.foldl_cons, hfirst, ← List.foldl_cons, foldl_next_of_appends has]
  · intro h
    subst h
    induction as using List.reverseRecOn with
    | nil => exact .unassigned
    | append_singleton as a ih =>
      rw [List.foldl_append]
      exact ih.append_singleton a

/-! ## What a fragment says -/

variable {ls : List (List Char)} {vars found : Variables}

/-- What the assignments of a fragment make of what was known before. They are what the lines say,
in their order; the variables are those that were known and then the new ones as they come first;
and each is worth what its own assignments make of what it was worth before. -/
structure Reading (ls : List (List Char)) (assignments : List Assignment)
    (found vars : Variables) : Prop where
  inOrder : InOrder (fun i a => ∃ line, ls[i]? = some line ∧ a.Says line) assignments
  names : vars.names =
    found.names ++ firstNew (· == ·) found.names (assignments.map Assignment.name)
  settled : ∀ name, Settled (found.find? name) (assignments.filter fun a => a.name = name)
    (vars.find? name)

/-- What the lines say. -/
def assignments (ls : List (List Char)) : List Assignment :=
  collect (fun _ => Assignment.ofLine?) ls

/-- The lines of a fragment say their assignments. -/
theorem foldl_readLine (found : Variables) (ls : List (List Char)) :
    ls.foldl readLine found = (assignments ls).foldl assign found := by
  induction ls using List.reverseRecOn with
  | nil => rfl
  | append_singleton above line ih =>
    have hlines : assignments (above ++ [line]) =
        assignments above ++ (Assignment.ofLine? line).toList := collect_append_singleton _ _ _
    rw [List.foldl_append, ih, hlines, List.foldl_append, List.foldl_cons, List.foldl_nil, readLine]
    cases Assignment.ofLine? line <;> rfl

/-- New variables come in the order of their first assignments. -/
theorem names_foldl_assign (found : Variables) (as : List Assignment) :
    (as.foldl assign found).names =
      found.names ++ firstNew (· == ·) found.names (as.map Assignment.name) := by
  rw [← foldl_addNew, List.foldl_map]
  apply (List.foldl_hom Table.names _).symm
  intro vars a
  exact (Table.names_insert vars a.name _).symm

/-- An assignment changes its own variable only. -/
theorem find?_assign (vars : Variables) (a : Assignment) (name : String) :
    (vars.assign a).find? name =
      if a.name = name then next (vars.find? name) a else vars.find? name := by
  rw [assign, Table.find?_insert]
  by_cases h : a.name = name
  · rw [if_pos h.symm, if_pos h, h]
    rfl
  · rw [if_neg (Ne.symm h), if_neg h]

/-- A variable depends on its own assignments only. -/
theorem find?_foldl_assign (found : Variables) (as : List Assignment) (name : String) :
    (as.foldl assign found).find? name =
      (as.filter fun a => a.name = name).foldl next (found.find? name) := by
  induction as generalizing found with
  | nil => rfl
  | cons a as ih =>
    rw [List.foldl_cons, ih, find?_assign, List.filter_cons]
    by_cases h : a.name = name <;> simp [h]

/-- The reader of a fragment reads it so. -/
theorem reading_foldl_readLine (found : Variables) (ls : List (List Char)) :
    Reading ls (assignments ls) found (ls.foldl readLine found) where
  inOrder := (inOrder_collect _ ls).congr fun i a => by
    simp only [Assignment.ofLine?_eq_some_iff]
  names := by rw [foldl_readLine, names_foldl_assign]
  settled name := by rw [settled_iff, foldl_readLine, find?_foldl_assign]

/-- Given the assignments a fragment can be read in one way only. -/
theorem Reading.unique {as as' : List Assignment} {vars' : Variables}
    (h : Reading ls as found vars) (h' : Reading ls as' found vars') : vars = vars' := by
  obtain rfl : as = as' := h.inOrder.unique h'.inOrder
  refine Table.ext_of_names (h.names.trans h'.names.symm) fun name => ?_
  rw [← settled_iff.mp (h.settled name), ← settled_iff.mp (h'.settled name)]

/-- Empty lines say nothing, so that two texts with a line feed between them are read one after the
other, whether or not the first one ends within a line. -/
theorem read_append (found : Variables) (a b : String) :
    found.read (a ++ "\n" ++ b) = (found.read a).read b := by
  have htext : (a ++ "\n" ++ b).toList = a.toList ++ '\n' :: b.toList := by simp
  rw [read, read, read, htext, ← List.foldl_append]
  rcases Text.lines_append_newline a.toList b.toList with h | h
  · rw [h]
  · rw [h, List.foldl_append, List.foldl_append]
    rfl

/-- What is read is what the fragment says, whichever way assignments and other lines are mixed in
it, and two fragments with a line feed between them are read one after the other. -/
theorem read_eq_iff_settled (found vars : Variables) (fragment : String) :
    (found.read fragment = vars ↔
      ∃ ls assignments, Lined fragment.toList ls ∧ Reading ls assignments found vars) ∧
    ∀ rest, found.read (fragment ++ "\n" ++ rest) = (found.read fragment).read rest := by
  refine ⟨⟨?_, ?_⟩, read_append found fragment⟩
  · intro h
    subst h
    exact ⟨_, _, Text.lined_lines _, reading_foldl_readLine found _⟩
  · rintro ⟨ls, assignments, hlines, hreading⟩
    rw [read, hlines.lines_eq]
    exact (reading_foldl_readLine found ls).unique hreading

end Variables

end BuildLens
