import BuildLens.Compiler.FileConfig

/-!
# What is said in a command line

The ways to write the flags of a file are given as a grammar: a command line consists of parts, each
of which is an argument that says nothing, a flag with its value attached, or a flag and the next
argument as its value. Only the last flag may lack its value. Every command line has one reading,
and that is how the flags are read.

Since nothing is left over between the parts, two command lines one after the other say what each of
them says, unless the first one ends with a flag that still lacks its value.

Main definitions:

- `KnownFlag`, `FlagText`: the flags of a dialect, and how an argument is read as one.
- `FlagKind.Says`: what the value of a flag says.
- `CommandText`: a command line, and what is said in it.
- `Respelt`: the same command line with other characters before its flags.

Main results:

- `CommandText.unique`, `exists_commandText`: a command line has one reading.
- `CommandText.append`: command lines one after the other.
- `Respelt.ofArguments_eq`: the character before a flag makes no difference.
-/

namespace BuildLens

variable {d : Dialect} {arg value : Argument} {args args' : List Argument} {kind : FlagKind}
  {attached : List Char} {events events' : List FlagEvent} {waiting waiting' : Option FlagKind}

/-! ## The grammar -/

/-- The flags of a dialect in their spelling with a hyphen. The value of a flag is the argument
behind it; if `attaches` holds, it may be attached to the flag instead. -/
inductive KnownFlag (d : Dialect) :
    (spelling : String) → FlagKind → (attaches : Bool) → Prop where
  | isysroot : KnownFlag d "-isysroot" .sysroot false
  | sysroot : KnownFlag d "--sysroot" .sysroot false
  | includeFile (h : d.isMicrosoft = false) : KnownFlag d "-include" .forcedInclude false
  | forcedInclude (h : d.isMicrosoft = true) : KnownFlag d "-FI" .forcedInclude true
  | isystem : KnownFlag d "-isystem" .includeDirectory false
  | iquote : KnownFlag d "-iquote" .includeDirectory false
  | idirafter : KnownFlag d "-idirafter" .includeDirectory false
  | iframework (h : d.isMicrosoft = false) : KnownFlag d "-iframework" .frameworkDirectory false
  | framework (h : d.isMicrosoft = false) : KnownFlag d "-F" .frameworkDirectory true
  | define : KnownFlag d "-D" .define true
  | undefine : KnownFlag d "-U" .undefine true
  | includeDirectory : KnownFlag d "-I" .includeDirectory true

/-- An argument that is a flag, what the flag is about, and the text attached to it. A flag begins
with any of the characters that introduce flags in the dialect. -/
inductive FlagText (d : Dialect) : Argument → FlagKind → (attached : List Char) → Prop where
  | intro {c : Char} {tail attached : List Char} {spelling : String} {kind : FlagKind}
      {attaches : Bool} (hc : d.introduces c = true) (hflag : KnownFlag d spelling kind attaches)
      (htail : '-' :: tail = spelling.toList ++ attached)
      (hattached : attached ≠ [] → attaches = true) :
      FlagText d (.text (String.ofList (c :: tail))) kind attached

/-- What the value of a flag says. The first equals sign ends the name of a macro, and a macro
without a value is defined as one. Neither an SDK's root nor a path in place of a macro says
anything. -/
inductive FlagKind.Says : FlagKind → (value : Argument) → Option FlagEvent → Prop where
  | sysroot {value : Argument} : Says .sysroot value none
  | forcedInclude {value : Argument} : Says .forcedInclude value (some (.forcedInclude value))
  | includeDirectory {value : Argument} :
      Says .includeDirectory value (some (.includeDirectory value))
  | frameworkDirectory {value : Argument} :
      Says .frameworkDirectory value (some (.frameworkDirectory value))
  | define {name body : List Char} (h : '=' ∉ name) :
      Says .define (.text (String.ofList (name ++ '=' :: body)))
        (some (.define ⟨String.ofList name, String.ofList body⟩))
  | defineOne {name : List Char} (h : '=' ∉ name) (hne : name ≠ []) :
      Says .define (.text (String.ofList name)) (some (.define ⟨String.ofList name, "1"⟩))
  | defineNothing : Says .define (.text "") none
  | definePath {p : FilePath} : Says .define (.path p) none
  | undefine {name : String} : Says .undefine (.text name) (some (.undefine name))
  | undefinePath {p : FilePath} : Says .undefine (.path p) none

/-- A command line, what is said in it, and what the flag at its end is about if the value of that
flag is missing. An argument that is no known flag says nothing. The value of a flag is attached to
it or is the next argument, whatever that looks like. -/
inductive CommandText (d : Dialect) :
    (args : List Argument) → (events : List FlagEvent) → (waiting : Option FlagKind) → Prop where
  | nil : CommandText d [] [] none
  | other {arg : Argument} {args : List Argument} {events : List FlagEvent}
      {waiting : Option FlagKind} (h : ∀ kind attached, ¬ FlagText d arg kind attached)
      (hmore : CommandText d args events waiting) : CommandText d (arg :: args) events waiting
  | attached {arg : Argument} {kind : FlagKind} {attached : List Char} {said : Option FlagEvent}
      {args : List Argument} {events : List FlagEvent} {waiting : Option FlagKind}
      (h : FlagText d arg kind attached) (hne : attached ≠ [])
      (hvalue : kind.Says (.text (String.ofList attached)) said)
      (hmore : CommandText d args events waiting) :
      CommandText d (arg :: args) (said.toList ++ events) waiting
  | separate {arg value : Argument} {kind : FlagKind} {said : Option FlagEvent}
      {args : List Argument} {events : List FlagEvent} {waiting : Option FlagKind}
      (h : FlagText d arg kind []) (hvalue : kind.Says value said)
      (hmore : CommandText d args events waiting) :
      CommandText d (arg :: value :: args) (said.toList ++ events) waiting
  | waiting {arg : Argument} {kind : FlagKind} (h : FlagText d arg kind []) :
      CommandText d [arg] [] (some kind)

/-! ## Flags are read as the grammar has them -/

/-- A flag is recognized with the text attached to it. -/
theorem KnownFlag.ofFlag?_eq {spelling : String} {attaches : Bool}
    (h : KnownFlag d spelling kind attaches) (hattached : attached ≠ [] → attaches = true) :
    FlagKind.ofFlag? d (spelling.toList ++ attached) = some (kind, attached) := by
  have hnone (hno : attaches = false) : attached = [] := by simpa [hno] using hattached
  cases h with
  | isysroot | sysroot | isystem | iquote | idirafter =>
    rw [hnone rfl]
    cases d <;> decide
  | includeFile h | iframework h =>
    rw [hnone rfl]
    cases d <;> first | contradiction | decide
  | forcedInclude h =>
    simp [FlagKind.ofFlag?.eq_def, Dialect.forcedInclude, Dialect.attachesForcedInclude, h]
  | framework h =>
    simp [FlagKind.ofFlag?.eq_def, Dialect.forcedInclude, Dialect.attachesForcedInclude,
      Dialect.hasFrameworks, h]
  | define | undefine | includeDirectory =>
    cases h : d.isMicrosoft <;>
      simp [FlagKind.ofFlag?.eq_def, Dialect.forcedInclude, Dialect.attachesForcedInclude,
        Dialect.hasFrameworks, h]

/-- The spelling of a flag has two characters at least. -/
theorem KnownFlag.two_le_length {spelling : String} {attaches : Bool}
    (h : KnownFlag d spelling kind attaches) : 2 ≤ spelling.toList.length := by
  cases h <;> decide

/-- What is recognized is a flag and the text attached to it. -/
theorem FlagKind.ofFlag?_eq_some {flag : List Char} (h : ofFlag? d flag = some (kind, attached)) :
    ∃ spelling attaches, KnownFlag d spelling kind attaches ∧
      flag = spelling.toList ++ attached ∧ (attached ≠ [] → attaches = true) := by
  rw [ofFlag?.eq_def] at h
  split at h
  · next hflag =>
    cases h
    rcases hflag with rfl | rfl
    · exact ⟨_, _, .isysroot, by simp, by simp⟩
    · exact ⟨_, _, .sysroot, by simp, by simp⟩
  split at h
  · cases h
  split at h
  · next hflag =>
    cases h
    cases hd : d.isMicrosoft with
    | false =>
      have hflag : flag = d.forcedInclude := by
        simpa [Dialect.attachesForcedInclude, hd] using hflag
      have hforced : d.forcedInclude = "-include".toList := by simp [Dialect.forcedInclude, hd]
      exact ⟨_, _, .includeFile hd, by simp [hflag, hforced], by simp [hflag]⟩
    | true =>
      have hforced : d.forcedInclude = "-FI".toList := by simp [Dialect.forcedInclude, hd]
      have hprefix : d.forcedInclude <+: flag := by
        rcases hflag with rfl | hflag
        · exact List.prefix_rfl
        · exact hflag.2
      obtain ⟨rest, rfl⟩ := hprefix
      exact ⟨_, _, .forcedInclude hd, by simp [hforced], by simp⟩
  split at h
  · next hflag =>
    cases h
    simp only [List.mem_cons, List.not_mem_nil, or_false] at hflag
    rcases hflag with rfl | rfl | rfl
    · exact ⟨_, _, .isystem, by simp, by simp⟩
    · exact ⟨_, _, .iquote, by simp, by simp⟩
    · exact ⟨_, _, .idirafter, by simp, by simp⟩
  split at h
  · next hflag =>
    cases h
    have hd : d.isMicrosoft = false := by simpa [Dialect.hasFrameworks] using hflag.1
    exact ⟨_, _, .iframework hd, by simp [hflag.2], by simp⟩
  split at h
  · next hflag =>
    cases h
    have hd : d.isMicrosoft = false := by simpa [Dialect.hasFrameworks] using hflag.1
    obtain ⟨rest, rfl⟩ := hflag.2
    exact ⟨_, _, .framework hd, by simp, by simp⟩
  split at h
  · cases h
    exact ⟨_, _, .define, rfl, fun _ => rfl⟩
  · cases h
    exact ⟨_, _, .undefine, rfl, fun _ => rfl⟩
  · cases h
    exact ⟨_, _, .includeDirectory, rfl, fun _ => rfl⟩
  · cases h

/-- The dialect reads an argument as the grammar does. -/
theorem FlagEvent.flag?_eq_some_iff :
    FlagEvent.flag? d arg = some (kind, attached) ↔ FlagText d arg kind attached := by
  constructor
  · intro h
    cases arg with
    | path p => cases h
    | text s =>
      rw [flag?] at h
      obtain ⟨flag, hnormal, hflag⟩ := Option.bind_eq_some_iff.mp h
      obtain ⟨spelling, attaches, hknown, rfl, hattached⟩ := FlagKind.ofFlag?_eq_some hflag
      rw [Dialect.normalizeFlag.eq_def] at hnormal
      split at hnormal
      · next c c' rest hs =>
        split at hnormal
        · next hc =>
          rw [← String.ofList_toList (s := s), hs]
          exact .intro hc hknown (Option.some.inj hnormal) hattached
        · cases hnormal
      · cases hnormal
  · intro h
    obtain @⟨c, tail, _, spelling, _, _, hc, hknown, htail, hattached⟩ := h
    obtain ⟨c', rest, rfl⟩ : ∃ c' rest, tail = c' :: rest := by
      have hlen := congrArg List.length htail
      have hspelling := hknown.two_le_length
      rw [List.length_cons, List.length_append] at hlen
      exact List.exists_cons_of_length_pos (by omega)
    rw [flag?, String.toList_ofList, Dialect.normalizeFlag, if_pos hc, htail]
    exact hknown.ofFlag?_eq hattached

/-- An argument is no flag if no flag is written in it. -/
theorem FlagEvent.flag?_eq_none_iff :
    FlagEvent.flag? d arg = none ↔ ∀ kind attached, ¬ FlagText d arg kind attached := by
  simp only [← flag?_eq_some_iff, Option.eq_none_iff_forall_ne_some, Prod.forall]

/-- An argument is a flag in one way only. -/
theorem FlagText.unique {kind' : FlagKind} {attached' : List Char}
    (h : FlagText d arg kind attached) (h' : FlagText d arg kind' attached') :
    kind = kind' ∧ attached = attached' := by
  have hread := (FlagEvent.flag?_eq_some_iff.mpr h).symm.trans (FlagEvent.flag?_eq_some_iff.mpr h')
  simpa using hread

/-! ## What a value says -/

/-- A value says what is made of it. -/
theorem FlagKind.says_iff {said : Option FlagEvent} :
    kind.Says value said ↔ FlagEvent.ofValue? kind value = said := by
  constructor
  · intro h
    cases h with
    | define h => simp [FlagEvent.ofValue?, Macro.parse, Text.cutAt_append h]
    | defineOne h hne => simp [FlagEvent.ofValue?, Macro.parse, Text.cutAt_of_not_mem h, hne]
    | defineNothing => simp [FlagEvent.ofValue?]
    | _ => rfl
  · rintro rfl
    cases kind with
    | sysroot => exact .sysroot
    | forcedInclude => exact .forcedInclude
    | includeDirectory => exact .includeDirectory
    | frameworkDirectory => exact .frameworkDirectory
    | define =>
      cases value with
      | path p => exact .definePath
      | text s =>
        by_cases hmem : '=' ∈ s.toList
        · obtain ⟨name, body, hs, hname⟩ := List.eq_append_cons_of_mem hmem
          obtain rfl : s = String.ofList (name ++ '=' :: body) := by rw [← hs, String.ofList_toList]
          simpa [FlagEvent.ofValue?, Macro.parse, Text.cutAt_append hname] using
            @Says.define name body hname
        · by_cases hs : s = ""
          · subst hs
            exact .defineNothing
          · have hne : s.toList ≠ [] := by simpa using hs
            simpa [FlagEvent.ofValue?, Macro.parse, Text.cutAt_of_not_mem hmem, hs] using
              Says.defineOne hmem hne
    | undefine =>
      cases value with
      | path p => exact .undefinePath
      | text s => exact .undefine

/-- A value says one thing only. -/
theorem FlagKind.Says.unique {said said' : Option FlagEvent} (h : kind.Says value said)
    (h' : kind.Says value said') : said = said' :=
  (says_iff.mp h).symm.trans (says_iff.mp h')

/-! ## A command line has one reading -/

/-- A command line says one thing only. -/
theorem CommandText.unique (h : CommandText d args events waiting)
    (h' : CommandText d args events' waiting') : events = events' ∧ waiting = waiting' := by
  induction h generalizing events' with
  | nil =>
    cases h'
    exact ⟨rfl, rfl⟩
  | other h hmore ih =>
    cases h' with
    | other _ hmore' => exact ih hmore'
    | attached h' => exact absurd h' (h _ _)
    | separate h' => exact absurd h' (h _ _)
    | waiting h' => exact absurd h' (h _ _)
  | attached h hne hvalue hmore ih =>
    cases h' with
    | other h' => exact absurd h (h' _ _)
    | attached h' _ hvalue' hmore' =>
      obtain ⟨rfl, rfl⟩ := h.unique h'
      obtain ⟨rfl, hwaiting⟩ := ih hmore'
      exact ⟨by rw [hvalue.unique hvalue'], hwaiting⟩
    | separate h' => exact absurd (h.unique h').2 hne
    | waiting h' => exact absurd (h.unique h').2 hne
  | separate h hvalue hmore ih =>
    cases h' with
    | other h' => exact absurd h (h' _ _)
    | attached h' hne => exact absurd (h'.unique h).2 hne
    | separate h' hvalue' hmore' =>
      obtain ⟨rfl, -⟩ := h.unique h'
      obtain ⟨rfl, hwaiting⟩ := ih hmore'
      exact ⟨by rw [hvalue.unique hvalue'], hwaiting⟩
  | waiting h =>
    cases h' with
    | other h' => exact absurd h (h' _ _)
    | attached h' hne => exact absurd (h'.unique h).2 hne
    | waiting h' => exact ⟨rfl, congrArg some (h.unique h').1⟩

/-- The events of a command line are what is said in it. -/
theorem exists_commandText (d : Dialect) (args : List Argument) :
    ∃ waiting, CommandText d args (FlagEvent.ofArguments d args) waiting := by
  induction args using FlagEvent.ofArguments.induct d with
  | case1 => exact ⟨none, .nil⟩
  | case2 arg kind c cs h =>
    have hread := CommandText.attached (FlagEvent.flag?_eq_some_iff.mp h) (List.cons_ne_nil c cs)
      (FlagKind.says_iff.mpr rfl) .nil
    rw [List.append_nil] at hread
    rw [FlagEvent.ofArguments, h]
    exact ⟨none, hread⟩
  | case3 arg h =>
    cases hflag : FlagEvent.flag? d arg with
    | none =>
      rw [FlagEvent.ofArguments, hflag]
      exact ⟨none, .other (FlagEvent.flag?_eq_none_iff.mp hflag) .nil⟩
    | some read =>
      obtain ⟨kind, attached⟩ := read
      cases attached with
      | nil =>
        rw [FlagEvent.ofArguments, hflag]
        exact ⟨some kind, .waiting (FlagEvent.flag?_eq_some_iff.mp hflag)⟩
      | cons c cs => exact absurd hflag (h kind c cs)
  | case4 arg next rest h ih =>
    obtain ⟨waiting, hmore⟩ := ih
    rw [FlagEvent.ofArguments, h]
    exact ⟨waiting, .other (FlagEvent.flag?_eq_none_iff.mp h) hmore⟩
  | case5 arg next rest kind h ih =>
    obtain ⟨waiting, hmore⟩ := ih
    rw [FlagEvent.ofArguments, h]
    exact ⟨waiting, .separate (FlagEvent.flag?_eq_some_iff.mp h) (FlagKind.says_iff.mpr rfl) hmore⟩
  | case6 arg next rest kind attached hne h ih =>
    obtain ⟨waiting, hmore⟩ := ih
    have hread := CommandText.attached (FlagEvent.flag?_eq_some_iff.mp h) hne
      (FlagKind.says_iff.mpr rfl) hmore
    cases attached with
    | nil => exact absurd rfl hne
    | cons c cs =>
      rw [FlagEvent.ofArguments, h]
      exact ⟨waiting, hread⟩

/-- What is said in a command line are its events. -/
theorem CommandText.ofArguments_eq (h : CommandText d args events waiting) :
    FlagEvent.ofArguments d args = events := by
  obtain ⟨_, hread⟩ := exists_commandText d args
  exact (hread.unique h).1

/-- What is read from a command line is what is said in it. -/
theorem commandText_iff :
    (∃ waiting, CommandText d args events waiting) ↔ events = FlagEvent.ofArguments d args := by
  constructor
  · intro ⟨waiting, h⟩
    exact h.ofArguments_eq.symm
  · rintro rfl
    exact exists_commandText d args

/-- Command lines one after the other say what each of them says, unless the first one ends with a
flag that lacks its value. -/
theorem CommandText.append (h : CommandText d args events none)
    (h' : CommandText d args' events' waiting) :
    CommandText d (args ++ args') (events ++ events') waiting := by
  generalize hnone : none = end? at h
  induction h with
  | nil => exact h'
  | other h _ ih => exact .other h (ih hnone)
  | attached h hne hvalue _ ih =>
    rw [List.append_assoc]
    exact .attached h hne hvalue (ih hnone)
  | separate h hvalue _ ih =>
    rw [List.append_assoc]
    exact .separate h hvalue (ih hnone)
  | waiting => cases hnone

/-! ## Other characters before the flags -/

/-- The argument with the other of the two characters that introduce a flag. -/
def Argument.exchange : Argument → Argument
  | .text s =>
    match s.toList with
    | '-' :: rest => .text (String.ofList ('/' :: rest))
    | '/' :: rest => .text (String.ofList ('-' :: rest))
    | _ => .text s
  | .path p => .path p

/-- The command lines differ in the characters before their flags. Any argument in the place of a
flag may be spelt in the other way; values are the same. -/
inductive Respelt (d : Dialect) : List Argument → List Argument → Prop where
  | nil : Respelt d [] []
  | single {arg arg' : Argument} {args args' : List Argument}
      (h : ∀ kind, ¬ FlagText d arg kind []) (hspelt : arg' = arg ∨ arg' = arg.exchange)
      (hmore : Respelt d args args') : Respelt d (arg :: args) (arg' :: args')
  | separate {arg arg' value : Argument} {kind : FlagKind} {args args' : List Argument}
      (h : FlagText d arg kind []) (hspelt : arg' = arg ∨ arg' = arg.exchange)
      (hmore : Respelt d args args') : Respelt d (arg :: value :: args) (arg' :: value :: args')
  | waiting {arg arg' : Argument} {kind : FlagKind} (h : FlagText d arg kind [])
      (hspelt : arg' = arg ∨ arg' = arg.exchange) : Respelt d [arg] [arg']

/-- A Microsoft flag may be spelt with the other character in front. -/
theorem FlagEvent.flag?_exchange (hd : d.isMicrosoft = true) (arg : Argument) :
    FlagEvent.flag? d arg.exchange = FlagEvent.flag? d arg := by
  have hhyphen : d.introduces '-' = true := by simp [Dialect.introduces]
  have hslash : d.introduces '/' = true := by simp [Dialect.introduces, hd]
  have hread {c c' : Char} {rest : List Char} (hc : d.introduces c = true)
      (hc' : d.introduces c' = true) :
      (d.normalizeFlag (c :: rest)) = d.normalizeFlag (c' :: rest) := by
    cases rest with
    | nil => rfl
    | cons next rest => rw [Dialect.normalizeFlag, Dialect.normalizeFlag, if_pos hc, if_pos hc']
  cases arg with
  | path p => rfl
  | text s =>
    rw [Argument.exchange.eq_def]
    dsimp only
    split
    · next rest hs =>
      rw [flag?, flag?, hs, String.toList_ofList, hread hslash hhyphen]
    · next rest hs =>
      rw [flag?, flag?, hs, String.toList_ofList, hread hhyphen hslash]
    · rfl

/-- Spelt in the other way an argument is the same flag. -/
theorem flagText_iff_of_spelt {arg' : Argument} (hd : d.isMicrosoft = true)
    (h : arg' = arg ∨ arg' = arg.exchange) :
    FlagText d arg' kind attached ↔ FlagText d arg kind attached := by
  rcases h with rfl | rfl
  · exact Iff.rfl
  · rw [← FlagEvent.flag?_eq_some_iff, FlagEvent.flag?_exchange hd, FlagEvent.flag?_eq_some_iff]

/-- Where either character introduces a flag, the other one says the same. -/
theorem Respelt.commandText (hd : d.isMicrosoft = true) (h : Respelt d args args')
    (hread : CommandText d args events waiting) : CommandText d args' events waiting := by
  induction h generalizing events with
  | nil => exact hread
  | single h hspelt _ ih =>
    cases hread with
    | other hother hmore =>
      refine .other (fun kind attached hflag => ?_) (ih hmore)
      exact hother kind attached ((flagText_iff_of_spelt hd hspelt).mp hflag)
    | attached hflag hne hvalue hmore =>
      exact .attached ((flagText_iff_of_spelt hd hspelt).mpr hflag) hne hvalue (ih hmore)
    | separate hflag => exact absurd hflag (h _)
    | waiting hflag => exact absurd hflag (h _)
  | separate h hspelt _ ih =>
    cases hread with
    | other hother => exact absurd h (hother _ _)
    | attached hflag hne => exact absurd (hflag.unique h).2 hne
    | separate hflag hvalue hmore =>
      exact .separate ((flagText_iff_of_spelt hd hspelt).mpr hflag) hvalue (ih hmore)
  | waiting h hspelt =>
    cases hread with
    | other hother => exact absurd h (hother _ _)
    | attached hflag hne => exact absurd (hflag.unique h).2 hne
    | waiting hflag => exact .waiting ((flagText_iff_of_spelt hd hspelt).mpr hflag)

/-- Spelt in the other way a command line says the same. -/
theorem Respelt.ofArguments_eq (hd : d.isMicrosoft = true) (h : Respelt d args args') :
    FlagEvent.ofArguments d args' = FlagEvent.ofArguments d args := by
  obtain ⟨waiting, hread⟩ := exists_commandText d args
  exact (h.commandText hd hread).ofArguments_eq

end BuildLens
