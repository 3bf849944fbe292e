/-
# Which arguments spell a command

Arguments are said here as they are written: an option stands in front of its value or is joined
to it, two dashes end the options, and whatever does not look like an option is an argument of its
own.  A command line names a command after the options of the program, and the command has two
files for arguments.  Just such a command line is carried out, if the files are there and the
values fit.

* `scan_eq_ok_iff` — arguments are taken apart just as they are written.
* `read_eq_ok_iff` — a command line is carried out just if it spells a command.
-/
import PagePlan.Cli.Command
import PagePlan.Proofs.Outcome

namespace PagePlan.Cli

/-! ### Written arguments -/

/-- An argument that does not look like an option. -/
def IsPlain (arg : String) : Prop := arg.startsWith "-" = false ∨ arg = "-"

/-- An argument that writes an option together with its value: a long option has an equals sign
between them, the one of a single letter has nothing. -/
inductive Joins (f : Flag) (value : String) : String → Prop
  | long {spelling : String} : spelling ∈ f.spellings → spelling.startsWith "--" = true →
      Joins f value (spelling ++ "=" ++ value)
  | letter {spelling : String} : spelling ∈ f.spellings → spelling.startsWith "--" = false →
      value ≠ "" → Joins f value (spelling ++ value)

/-- Arguments that write options with their values, and others.  Options may follow other
arguments only if they are mixed. -/
inductive Writes (flags : List Flag) (mixed : Bool) : List String → Scanned → Prop
  | nil : Writes flags mixed [] .empty
  | dashes (args : List String) : Writes flags mixed ("--" :: args) ⟨[], args⟩
  | option {f : Flag} {spelling value : String} {args : List String} {s : Scanned} : f ∈ flags →
      f.takesValue = true → spelling ∈ f.spellings → Writes flags mixed args s →
      Writes flags mixed (spelling :: value :: args) (s.withFlag f value)
  | joined {f : Flag} {value arg : String} {args : List String} {s : Scanned} : f ∈ flags →
      f.takesValue = true → Joins f value arg → Writes flags mixed args s →
      Writes flags mixed (arg :: args) (s.withFlag f value)
  | argument {arg : String} {args : List String} {s : Scanned} : mixed = true → IsPlain arg →
      Writes flags mixed args s → Writes flags mixed (arg :: args) (s.withArgument arg)
  | first {arg : String} {args : List String} : mixed = false → IsPlain arg →
      Writes flags mixed (arg :: args) ⟨[], arg :: args⟩

/-- A value that an option may have. -/
def Suits (fs : Files) : Flag → String → Prop
  | .logLevel, value => Text.lower value ∈ levelChoices
  | .output, value => namesDirectory fs value = false
  | .schema, value => namesDirectory fs value = false
  | .model, _ => True
  | .help, _ => True

/-- Options with values that they may have.  Of an option that is given twice the last value
counts. -/
def Fits (fs : Files) (s : Scanned) : Prop :=
  ∀ f value, s.value? f = some value → Suits fs f value

/-- A path to a file. -/
def LeadsToFile (fs : Files) (path : String) : Prop :=
  path ≠ "" ∧ namesDirectory fs path = false ∧ ∃ bytes, fs.bytes? (.ofString path) = some bytes

/-- The command with these two files and the values of its options. -/
def Scanned.command (s : Scanned) (verb : Verb) (page document : String) : Command :=
  ⟨verb, .ofString page, .ofString document, (s.value? .output).map .ofString,
    (s.value? .schema).map .ofString, s.value? .model⟩

/-- Arguments that spell a command whose name is known. -/
inductive SpellsCommand (fs : Files) (verb : Verb) : List String → Command → Prop
  | files {args : List String} {s : Scanned} {page document : String} :
      Writes verb.flags true args s → s.rest = [page, document] → Fits fs s →
      LeadsToFile fs page → LeadsToFile fs document →
      SpellsCommand fs verb args (s.command verb page document)

/-- A command line that spells a command. -/
inductive Spells (fs : Files) : List String → Invocation → Prop
  | named {line args : List String} {s : Scanned} {verb : Verb} {c : Command} :
      Writes [.logLevel, .help] false line s → s.rest = verb.name :: args → Fits fs s →
      SpellsCommand fs verb args c → Spells fs line ⟨s.value? .logLevel, c⟩

/-! ### Options -/

theorem eq_of_mem_spellings {f g : Flag} {s : String} (hf : s ∈ f.spellings)
    (hg : s ∈ g.spellings) : f = g := by
  cases f <;> cases g <;> simp_all [Flag.spellings]

/-- An option is found by any of its spellings. -/
theorem find?_spelling_iff {flags : List Flag} {f : Flag} {s : String} :
    flags.find? (·.spellings.contains s) = some f ↔ f ∈ flags ∧ s ∈ f.spellings := by
  constructor
  · intro h
    exact ⟨List.mem_of_find?_eq_some h, by simpa using List.find?_some h⟩
  · rintro ⟨hf, hs⟩
    have hsome : (flags.find? (·.spellings.contains s)).isSome := by
      rw [List.find?_isSome]
      exact ⟨f, hf, List.contains_iff_mem.2 hs⟩
    obtain ⟨g, hg⟩ := Option.isSome_iff_exists.1 hsome
    rw [hg, eq_of_mem_spellings hs (by simpa using List.find?_some hg)]

/-- A spelling is either the one of a single letter or a long one. -/
theorem spelling_cases {f : Flag} {s : String} (h : s ∈ f.spellings) :
    (s = "-o" ∧ f.takesValue = true) ∨
      s.startsWith "--" = true ∧ s ≠ "--" ∧ '=' ∉ s.toList := by
  cases f with
  | output =>
    simp only [Flag.spellings, List.mem_cons, List.not_mem_nil, or_false] at h
    rcases h with rfl | rfl
    · exact Or.inl ⟨rfl, rfl⟩
    · exact Or.inr (by simp)
  | _ =>
    simp only [Flag.spellings, List.mem_cons, List.not_mem_nil, or_false] at h
    subst h
    exact Or.inr (by simp)

theorem startsWith_append {s p : String} (h : s.startsWith p = true) (t : String) :
    (s ++ t).startsWith p = true := by
  rw [String.startsWith_string_iff] at h ⊢
  rw [String.toList_append]
  exact h.trans (List.prefix_append _ _)

theorem startsWith_dash {s : String} (h : s.startsWith "--" = true) :
    s.startsWith "-" = true := by
  rw [String.startsWith_string_iff] at h ⊢
  exact List.IsPrefix.trans (by simp) h

/-! ### The value of a long option -/

theorem splitAtFirst_of_not_mem {s : List Char} {c : Char} (h : c ∉ s) :
    Text.splitAtFirst [c] s = none := by
  induction s with
  | nil => rfl
  | cons d s ih =>
    obtain ⟨hd, hs⟩ := not_or.1 (mt List.mem_cons.2 h)
    simp [Text.splitAtFirst, ih hs, hd]

theorem splitAtFirst_append {s : List Char} {c : Char} (h : c ∉ s) (t : List Char) :
    Text.splitAtFirst [c] (s ++ c :: t) = some (s, t) := by
  induction s with
  | nil => simp [Text.splitAtFirst]
  | cons d s ih =>
    obtain ⟨hd, hs⟩ := not_or.1 (mt List.mem_cons.2 h)
    simp [Text.splitAtFirst, ih hs, hd]

theorem splitValue_of_not_mem {arg : String} (h : '=' ∉ arg.toList) :
    splitValue arg = (arg, none) := by
  rw [splitValue, splitAtFirst_of_not_mem h]

theorem splitValue_append {name : String} (h : '=' ∉ name.toList) (value : String) :
    splitValue (name ++ "=" ++ value) = (name, some value) := by
  have htext : (name ++ "=" ++ value).toList = name.toList ++ '=' :: value.toList := by simp
  rw [splitValue, htext, splitAtFirst_append h]
  simp

/-- The first equals sign of an argument, if there is one. -/
theorem equals_cases (arg : String) :
    '=' ∉ arg.toList ∨ ∃ name value, '=' ∉ name.toList ∧ arg = name ++ "=" ++ value := by
  by_cases h : '=' ∈ arg.toList
  · obtain ⟨name, value, harg, hname⟩ := List.eq_append_cons_of_mem h
    refine Or.inr ⟨String.ofList name, String.ofList value, by simpa using hname, ?_⟩
    rw [← String.toList_inj, harg]
    simp
  · exact Or.inl h

/-! ### What one argument is -/

variable {flags : List Flag} {f : Flag} {arg spelling value : String}

/-- A long option without a value. -/
theorem pieceOfOption_long (hlong : arg.startsWith "--" = true) (hplain : '=' ∉ arg.toList) :
    pieceOfOption flags arg =
      match flags.find? (·.spellings.contains arg) with
      | none => .problem (.noSuchOption arg)
      | some f => if f.takesValue then .awaiting f arg else .flag f "" := by
  rw [pieceOfOption, splitValue_of_not_mem hplain]
  simp only [hlong, if_true]
  cases flags.find? (·.spellings.contains arg) with
  | none => rfl
  | some f => cases f <;> rfl

/-- A long option that is joined with a value. -/
theorem pieceOfOption_joined (hlong : (spelling ++ "=" ++ value).startsWith "--" = true)
    (hplain : '=' ∉ spelling.toList) :
    pieceOfOption flags (spelling ++ "=" ++ value) =
      match flags.find? (·.spellings.contains spelling) with
      | none => .problem (.noSuchOption spelling)
      | some f => if f.takesValue then .flag f value else .problem (.valueUnwanted spelling) := by
  rw [pieceOfOption, splitValue_append hplain]
  simp only [hlong, if_true]
  cases flags.find? (·.spellings.contains spelling) with
  | none => rfl
  | some f => cases f <;> rfl

/-- An option of a single letter. -/
theorem pieceOfOption_letter (hletter : arg.startsWith "--" = false) :
    pieceOfOption flags arg =
      match flags.find? (·.spellings.contains (String.ofList (arg.toList.take 2))) with
      | none => .problem (.noSuchOption (String.ofList (arg.toList.take 2)))
      | some f =>
        if arg = String.ofList (arg.toList.take 2) then
          .awaiting f (String.ofList (arg.toList.take 2))
        else .flag f (String.ofList (arg.toList.drop 2)) := by
  rw [pieceOfOption]
  simp only [hletter, Bool.false_eq_true, if_false]
  cases flags.find? (·.spellings.contains (String.ofList (arg.toList.take 2))) <;> rfl

/-- What an argument is, by the way in which it is written. -/
inductive Classified (flags : List Flag) (arg : String) : Piece → Prop
  | dashes : arg = "--" → Classified flags arg .dashes
  | argument : IsPlain arg → Classified flags arg .argument
  | awaiting {f : Flag} : f ∈ flags → f.takesValue = true → arg ∈ f.spellings →
      Classified flags arg (.awaiting f arg)
  | joined {f : Flag} {value : String} : f ∈ flags → f.takesValue = true → Joins f value arg →
      Classified flags arg (.flag f value)
  | bare {f : Flag} : f.takesValue = false → Classified flags arg (.flag f "")
  | problem (p : UsageProblem) : Classified flags arg (.problem p)

theorem classified_of_long (hlong : arg.startsWith "--" = true) :
    Classified flags arg (pieceOfOption flags arg) := by
  rcases equals_cases arg with hplain | ⟨name, value, hname, rfl⟩
  · rw [pieceOfOption_long hlong hplain]
    split
    · exact .problem _
    · next hfind =>
      obtain ⟨hf, hs⟩ := find?_spelling_iff.1 hfind
      split
      · next hvalue => exact .awaiting hf hvalue hs
      · next hvalue => exact .bare (Bool.not_eq_true _ ▸ hvalue)
  · rw [pieceOfOption_joined hlong hname]
    split
    · exact .problem _
    · next hfind =>
      obtain ⟨hf, hs⟩ := find?_spelling_iff.1 hfind
      split
      · next hvalue =>
        refine .joined hf hvalue (.long hs ?_)
        rcases spelling_cases hs with ⟨rfl, -⟩ | ⟨hspelling, -⟩
        · simp at hlong
        · exact hspelling
      · exact .problem _

theorem classified_of_letter (hletter : arg.startsWith "--" = false) :
    Classified flags arg (pieceOfOption flags arg) := by
  have hparts : String.ofList (arg.toList.take 2) ++ String.ofList (arg.toList.drop 2) = arg := by
    rw [← String.ofList_append, List.take_append_drop, String.ofList_toList]
  rw [pieceOfOption_letter hletter]
  split
  · exact .problem _
  · next f hfind =>
    obtain ⟨hf, hs⟩ := find?_spelling_iff.1 hfind
    generalize String.ofList (arg.toList.take 2) = letter at hs hparts ⊢
    generalize String.ofList (arg.toList.drop 2) = value at hparts ⊢
    subst hparts
    -- a long spelling would make the argument a long option
    have hvalue : letter.startsWith "--" = false ∧ f.takesValue = true := by
      rcases spelling_cases hs with ⟨rfl, hvalue⟩ | ⟨hlong, -⟩
      · exact ⟨by simp, hvalue⟩
      · rw [startsWith_append hlong] at hletter
        cases hletter
    split
    · next heq =>
      rw [heq]
      exact .awaiting hf hvalue.2 hs
    · next hne =>
      refine .joined hf hvalue.2 (.letter hs hvalue.1 ?_)
      rintro rfl
      exact hne (by simp)

/-- **What an argument is**, whatever the argument. -/
theorem classified {p : Piece} (h : piece flags arg = p) : Classified flags arg p := by
  subst h
  unfold piece
  split
  · next h => exact .dashes h
  · split
    · cases hlong : arg.startsWith "--" with
      | true => exact classified_of_long hlong
      | false => exact classified_of_letter hlong
    · next h =>
      refine .argument (or_iff_not_imp_right.2 fun hne => ?_)
      simpa [hne] using h

/-! ### Arguments that are written so -/

theorem piece_of_plain (h : IsPlain arg) : piece flags arg = .argument := by
  rcases h with h | rfl
  · have hne : arg ≠ "--" := by
      rintro rfl
      simp at h
    rw [piece, if_neg hne, if_neg (by simp [h])]
  · simp [piece]

theorem piece_of_long (hlong : arg.startsWith "--" = true) (hne : arg ≠ "--") :
    piece flags arg = pieceOfOption flags arg := by
  have hsingle : arg ≠ "-" := by
    rintro rfl
    simp at hlong
  rw [piece, if_neg hne, if_pos (by simp [startsWith_dash hlong, hsingle])]

theorem piece_of_mem_spellings (hf : f ∈ flags) (hvalue : f.takesValue = true)
    (hs : arg ∈ f.spellings) : piece flags arg = .awaiting f arg := by
  have hfind := find?_spelling_iff.2 ⟨hf, hs⟩
  rcases spelling_cases hs with ⟨rfl, -⟩ | ⟨hlong, hne, hplain⟩
  · have hpiece : piece flags "-o" = pieceOfOption flags "-o" := by simp [piece]
    rw [hpiece, pieceOfOption_letter (by simp)]
    simp only [List.contains_eq_mem] at hfind
    simp [hfind]
  · rw [piece_of_long hlong hne, pieceOfOption_long hlong hplain, hfind]
    exact if_pos hvalue

theorem piece_of_joins (hf : f ∈ flags) (hvalue : f.takesValue = true) (h : Joins f value arg) :
    piece flags arg = .flag f value := by
  cases h with
  | @long spelling hs hspelling =>
    have hplain : '=' ∉ spelling.toList := by
      rcases spelling_cases hs with ⟨rfl, -⟩ | ⟨-, -, hplain⟩
      · simp
      · exact hplain
    have hlong : (spelling ++ "=" ++ value).startsWith "--" = true :=
      startsWith_append (startsWith_append hspelling _) _
    have hne : spelling ++ "=" ++ value ≠ "--" := by
      intro heq
      have hmem : '=' ∈ (spelling ++ "=" ++ value).toList := by simp
      rw [heq] at hmem
      simp at hmem
    rw [piece_of_long hlong hne, pieceOfOption_joined hlong hplain,
      find?_spelling_iff.2 ⟨hf, hs⟩]
    exact if_pos hvalue
  | @letter spelling hs hspelling hnonempty =>
    rcases spelling_cases hs with ⟨rfl, -⟩ | ⟨hlong, -⟩
    · have hfind := find?_spelling_iff.2 ⟨hf, hs⟩
      have hpiece : piece flags ("-o" ++ value) = pieceOfOption flags ("-o" ++ value) := by
        have hne (t : String) (ht : t.toList.take 2 ≠ ['-', 'o']) : "-o" ++ value ≠ t := by
          rintro rfl
          simp at ht
        rw [piece, if_neg (hne _ (by simp)), if_pos (by simp [hne "-" (by simp)])]
      rw [hpiece, pieceOfOption_letter (by simp)]
      simp only [List.contains_eq_mem] at hfind
      simp [hfind, hnonempty]
    · rw [hspelling] at hlong
      cases hlong

/-! ### Reading what was written -/

variable {mixed : Bool} {args : List String} {s : Scanned}

theorem writes_of_scan (h : scan flags mixed args = .ok s)
    (hvalues : ∀ e ∈ s.flags, e.1.takesValue = true) : Writes flags mixed args s := by
  fun_induction scan flags mixed args generalizing s with
  | case1 =>
    cases h
    exact .nil
  | case2 arg args hpiece =>
    cases h
    cases classified hpiece with
    | dashes harg => exact harg ▸ .dashes args
  | case3 => cases h
  | case4 arg args f value hpiece ih =>
    obtain ⟨s, hs, rfl⟩ := except_map_eq_ok.1 h
    obtain ⟨hvalue, hvalues⟩ := List.forall_mem_cons.1 hvalues
    cases classified hpiece with
    | joined hf _ hjoins => exact .joined hf hvalue hjoins (ih hs hvalues)
    | bare hbare =>
      rw [hbare] at hvalue
      cases hvalue
  | case5 => cases h
  | case6 arg f spelling hpiece value args ih =>
    obtain ⟨s, hs, rfl⟩ := except_map_eq_ok.1 h
    obtain ⟨hvalue, hvalues⟩ := List.forall_mem_cons.1 hvalues
    cases classified hpiece with
    | awaiting hf _ harg => exact .option hf hvalue harg (ih hs hvalues)
  | case7 arg args hpiece hmixed ih =>
    obtain ⟨s, hs, rfl⟩ := except_map_eq_ok.1 h
    cases classified hpiece with
    | argument hplain => exact .argument hmixed hplain (ih hs hvalues)
  | case8 arg args hpiece hmixed =>
    cases h
    cases classified hpiece with
    | argument hplain => exact .first (Bool.not_eq_true _ ▸ hmixed) hplain

theorem scan_of_writes (h : Writes flags mixed args s) :
    scan flags mixed args = .ok s ∧ ∀ e ∈ s.flags, e.1.takesValue = true := by
  induction h with
  | nil => exact ⟨rfl, by simp [Scanned.empty]⟩
  | dashes args => exact ⟨by rw [scan, piece, if_pos rfl], by simp⟩
  | option hf hvalue hs _ ih =>
    refine ⟨?_, List.forall_mem_cons.2 ⟨hvalue, ih.2⟩⟩
    rw [scan, piece_of_mem_spellings hf hvalue hs]
    simp only [ih.1]
    rfl
  | joined hf hvalue hjoins _ ih =>
    refine ⟨?_, List.forall_mem_cons.2 ⟨hvalue, ih.2⟩⟩
    rw [scan, piece_of_joins hf hvalue hjoins]
    simp only [ih.1]
    rfl
  | argument hmixed hplain _ ih =>
    refine ⟨?_, ih.2⟩
    rw [scan, piece_of_plain hplain]
    simp only [if_pos hmixed, ih.1]
    rfl
  | first hmixed hplain =>
    refine ⟨?_, by simp⟩
    rw [scan, piece_of_plain hplain]
    simp only [hmixed, Bool.false_eq_true, if_false]

/-- An option is given just if it has a value. -/
theorem mem_given_iff : f ∈ s.given ↔ ∃ value, s.value? f = some value := by
  rw [Scanned.given, List.mem_eraseDups, Scanned.value?, List.mem_map]
  constructor
  · rintro ⟨e, he, rfl⟩
    have hsome : (s.flags.reverse.find? fun e' => e'.1 = e.1).isSome := by
      rw [List.find?_isSome]
      exact ⟨e, List.mem_reverse.2 he, by simp⟩
    obtain ⟨e', he'⟩ := Option.isSome_iff_exists.1 hsome
    exact ⟨e'.2, by rw [he']; rfl⟩
  · rintro ⟨value, h⟩
    obtain ⟨e, he, -⟩ := Option.map_eq_some_iff.1 h
    exact ⟨e, List.mem_reverse.1 (List.mem_of_find?_eq_some he), by
      simpa using List.find?_some he⟩

theorem help_not_given_iff :
    s.given.contains .help = false ↔ ∀ e ∈ s.flags, e.1.takesValue = true := by
  have htakes (f : Flag) : f.takesValue = true ↔ f ≠ .help := by
    cases f <;> simp [Flag.takesValue]
  rw [← Bool.not_eq_true, List.contains_iff_mem, Scanned.given, List.mem_eraseDups, List.mem_map]
  simp only [htakes]
  exact ⟨fun h e he hhelp => h ⟨e, he, hhelp⟩, fun h ⟨e, he, hhelp⟩ => h e he hhelp⟩

/-- **Arguments are taken apart just as they are written**, where no help is asked for. -/
theorem scan_eq_ok_iff :
    scan flags mixed args = .ok s ∧ s.given.contains .help = false ↔ Writes flags mixed args s := by
  rw [help_not_given_iff]
  exact ⟨fun h => writes_of_scan h.1 h.2, scan_of_writes⟩

/-! ### Checks -/

variable {fs : Files}

theorem checkFlag_eq_ok_iff : checkFlag fs f value = .ok () ↔ Suits fs f value := by
  cases f <;> simp [checkFlag, Suits]

/-- The options are checked with the values that count. -/
theorem checkFlags_eq_ok_iff : checkFlags fs s = .ok () ↔ Fits fs s := by
  rw [checkFlags, forM_eq_ok_iff]
  constructor
  · intro h f value hvalue
    have hcheck := h f (mem_given_iff.2 ⟨value, hvalue⟩)
    rw [hvalue] at hcheck
    exact checkFlag_eq_ok_iff.1 hcheck
  · intro h f hf
    obtain ⟨value, hvalue⟩ := mem_given_iff.1 hf
    rw [hvalue]
    exact checkFlag_eq_ok_iff.2 (h f value hvalue)

theorem checkFile_eq_ok_iff {name : String} {path? : Option String} {found : FileName} :
    checkFile fs name path? = .ok found ↔
      ∃ path, path? = some path ∧ LeadsToFile fs path ∧ found = .ofString path := by
  cases path? with
  | none => simp [checkFile]
  | some path =>
    simp only [checkFile, Option.some.injEq, exists_eq_left', LeadsToFile,
      ← Option.isSome_iff_exists]
    split
    · next hdirectory => simp [hdirectory]
    · next hdirectory =>
      rw [Bool.not_eq_true] at hdirectory
      split
      · next hthere =>
        rw [Bool.and_eq_true, bne_iff_ne] at hthere
        simp [hdirectory, hthere, eq_comm]
      · next hnone =>
        rw [Bool.and_eq_true, bne_iff_ne] at hnone
        simp only [hdirectory, true_and, hnone, false_and, reduceCtorEq]

/-! ### Command lines -/

theorem ofScanned_eq_ok_iff {verb : Verb} {c : Command} :
    Command.ofScanned fs verb s = .ok c ↔ ∃ page document, s.rest = [page, document] ∧
      Fits fs s ∧ LeadsToFile fs page ∧ LeadsToFile fs document ∧
      c = s.command verb page document := by
  constructor
  · intro h
    obtain ⟨⟨⟩, hflags, h⟩ := except_bind_eq_ok.1 h
    obtain ⟨_, hfirst, h⟩ := except_bind_eq_ok.1 h
    obtain ⟨_, hsecond, h⟩ := except_bind_eq_ok.1 h
    obtain ⟨page, hpage, hpagefile, rfl⟩ := checkFile_eq_ok_iff.1 hfirst
    obtain ⟨document, hdocument, hdocumentfile, rfl⟩ := checkFile_eq_ok_iff.1 hsecond
    split at h
    · next hnone =>
      have hrest : s.rest = [page, document] := by
        match hs : s.rest with
        | [] => simp [hs] at hpage
        | [_] => simp [hs] at hdocument
        | first :: second :: more =>
          rw [hs] at hpage hdocument hnone
          cases hpage
          cases hdocument
          rw [show more = [] from hnone]
      exact ⟨page, document, hrest, checkFlags_eq_ok_iff.1 hflags, hpagefile, hdocumentfile,
        (Except.ok.inj h).symm⟩
    · cases h
  · rintro ⟨page, document, hrest, hfits, hpage, hdocument, rfl⟩
    refine except_bind_eq_ok.2 ⟨(), checkFlags_eq_ok_iff.2 hfits, ?_⟩
    rw [hrest]
    refine except_bind_eq_ok.2 ⟨_, checkFile_eq_ok_iff.2 ⟨page, rfl, hpage, rfl⟩, ?_⟩
    refine except_bind_eq_ok.2 ⟨_, checkFile_eq_ok_iff.2 ⟨document, rfl, hdocument, rfl⟩, ?_⟩
    rfl

theorem Command.read_eq_ok_iff {verb : Verb} {c : Command} :
    Command.read fs verb args = .ok c ↔ SpellsCommand fs verb args c := by
  constructor
  · intro h
    unfold Command.read at h
    split at h
    · cases h
    · next s hscan =>
      split at h
      · cases h
      · next hhelp =>
        have hwrites := scan_eq_ok_iff.1 ⟨hscan, Bool.not_eq_true _ ▸ hhelp⟩
        cases hscanned : Command.ofScanned fs verb s with
        | error p =>
          rw [hscanned] at h
          cases h
        | ok found =>
          rw [hscanned] at h
          obtain rfl := Except.ok.inj h
          obtain ⟨page, document, hrest, hfits, hpage, hdocument, rfl⟩ :=
            ofScanned_eq_ok_iff.1 hscanned
          exact .files hwrites hrest hfits hpage hdocument
  · rintro ⟨hwrites, hrest, hfits, hpage, hdocument⟩
    obtain ⟨hscan, hhelp⟩ := scan_eq_ok_iff.2 hwrites
    have hscanned : Command.ofScanned fs verb _ = .ok _ :=
      ofScanned_eq_ok_iff.2 ⟨_, _, hrest, hfits, hpage, hdocument, rfl⟩
    simp only [Command.read, hscan, hhelp, hscanned]
    rfl

/-- A command is found by its name. -/
theorem find?_name_iff {name : String} {verb : Verb} :
    Verb.all.find? (fun v => v.name = name) = some verb ↔ verb.name = name := by
  constructor
  · intro h
    simpa using List.find?_some h
  · rintro rfl
    cases verb <;> simp [Verb.all, Verb.name]

/-- **A command line is carried out just if it spells a command.** -/
theorem read_eq_ok_iff {line : List String} {i : Invocation} :
    Invocation.read fs line = .ok i ↔ Spells fs line i := by
  constructor
  · intro h
    unfold Invocation.read at h
    split at h
    · cases h
    split at h
    · cases h
    · next s hscan =>
      split at h
      · cases h
      · next hhelp =>
        have hwrites := scan_eq_ok_iff.1 ⟨hscan, Bool.not_eq_true _ ▸ hhelp⟩
        split at h
        · cases h
        · cases h
        · next hflags hrest =>
          split at h
          · cases h
          · next hfind =>
            obtain ⟨c, hc, rfl⟩ := except_map_eq_ok.1 h
            obtain rfl := find?_name_iff.1 hfind
            exact .named hwrites hrest (checkFlags_eq_ok_iff.1 hflags) (Command.read_eq_ok_iff.1 hc)
  · rintro ⟨hwrites, hrest, hfits, hcommand⟩
    obtain ⟨hscan, hhelp⟩ := scan_eq_ok_iff.2 hwrites
    have hline : line.isEmpty = false := by
      cases hwrites with
      | nil => cases hrest
      | _ => rfl
    simp only [Invocation.read, hline, Bool.false_eq_true, if_false, hscan, hhelp,
      checkFlags_eq_ok_iff.2 hfits, hrest, find?_name_iff.2 rfl,
      Command.read_eq_ok_iff.2 hcommand]
    rfl

/-- The document of a command is a file. -/
theorem Spells.exists_document {line : List String} {i : Invocation} (h : Spells fs line i) :
    ∃ bytes, fs.bytes? i.command.document = some bytes := by
  obtain ⟨-, -, -, -, -, -, -, -, -, hbytes⟩ := h
  exact hbytes

end PagePlan.Cli
