import Mathlib.Data.List.TakeWhile
import Mathlib.Tactic.ByContra
import SigVerdict.CommandLine.Grammar

set_option autoImplicit false

/-! # How options are written

The words of a command line stand for uses of options (`Written`). An option is written with its
name behind two dashes, or with its letter, perhaps in a row with others, behind one dash. Its value
stands in the same word or in the next one.

When the names and letters of a grammar can be told apart (`Grammar.Clear`), a row of letters stands
for one thing at most, and so does a word (`row_bare_iff`, `word_name_iff` and the like). -/

namespace SigVerdict.CommandLine

/-! ## Words -/

/-- How an option is written: its name, the letter that it may have, and whether a value follows. -/
structure Spelling where
  long : String
  letter : Option Char := none
  valued : Bool
  deriving DecidableEq, Repr

/-- Uses of options, each with its value. The value is empty for an option that takes none. -/
abbrev Uses := List (String × String)

/-- The values that uses give to an option, in order. -/
def Uses.valuesOf (uses : Uses) (name : String) : List String :=
  (uses.filter fun use => use.1 = name).map Prod.snd

section Written

variable (options : List Spelling)

/-- A row of letters stands for uses, and perhaps for an option that waits for its value. Of the
    options in a row, only the last one may take a value. -/
inductive Row : List Char → Uses → Option String → Prop where
  | nil : Row [] [] none
  | bare {o : Spelling} {c : Char} {cs : List Char} {uses : Uses} {waiting : Option String}
      (ho : o ∈ options) (hc : o.letter = some c) (hbare : o.valued = false)
      (hcs : Row cs uses waiting) : Row (c :: cs) ((o.long, "") :: uses) waiting
  | attached {o : Spelling} {c d : Char} {cs : List Char} (ho : o ∈ options)
      (hc : o.letter = some c) (hvalued : o.valued = true) (hd : d ≠ '=') :
      Row (c :: d :: cs) [(o.long, String.ofList (d :: cs))] none
  | equals {o : Spelling} {c : Char} {cs : List Char} (ho : o ∈ options)
      (hc : o.letter = some c) (hvalued : o.valued = true) :
      Row (c :: '=' :: cs) [(o.long, String.ofList cs)] none
  | waits {o : Spelling} {c : Char} (ho : o ∈ options) (hc : o.letter = some c)
      (hvalued : o.valued = true) : Row [c] [] (some o.long)

/-- A word stands for uses, and perhaps for an option that waits for its value. -/
inductive Word : String → Uses → Option String → Prop where
  | bare {o : Spelling} (ho : o ∈ options) (hbare : o.valued = false) :
      Word ("--" ++ o.long) [(o.long, "")] none
  | attached {o : Spelling} {value : String} (ho : o ∈ options) (hvalued : o.valued = true) :
      Word ("--" ++ o.long ++ "=" ++ value) [(o.long, value)] none
  | waits {o : Spelling} (ho : o ∈ options) (hvalued : o.valued = true) :
      Word ("--" ++ o.long) [] (some o.long)
  | row {c : Char} {cs : List Char} {uses : Uses} {waiting : Option String}
      (hrow : Row options (c :: cs) uses waiting) :
      Word (String.ofList ('-' :: c :: cs)) uses waiting

end Written

/-- A word that can be a value by itself: it does not look like an option. -/
def IsValue (word : String) : Prop := ∀ c cs, word.toList ≠ '-' :: c :: cs

/-- The shapes of words. -/
inductive Shape : String → Prop where
  | value {word : String} (hvalue : IsValue word) : Shape word
  | name {name : String} (hname : '=' ∉ name.toList) : Shape ("--" ++ name)
  | named {name value : String} (hname : '=' ∉ name.toList) : Shape ("--" ++ name ++ "=" ++ value)
  | letters {word : String} {c : Char} {cs : List Char} (hc : c ≠ '-')
      (hword : word.toList = '-' :: c :: cs) : Shape word

/-- Words stand for uses of options. -/
inductive Written (options : List Spelling) : List String → Uses → Prop where
  | nil : Written options [] []
  | closed {word : String} {words : List String} {uses more : Uses}
      (hword : Word options word uses none) (hwords : Written options words more) :
      Written options (word :: words) (uses ++ more)
  | valued {word name value : String} {words : List String} {uses more : Uses}
      (hword : Word options word uses (some name)) (hvalue : IsValue value)
      (hwords : Written options words more) :
      Written options (word :: value :: words) (uses ++ (name, value) :: more)

/-! ## Shapes -/

theorem toList_name (name : String) : ("--" ++ name).toList = '-' :: '-' :: name.toList :=
  String.toList_append

theorem toList_named (name value : String) :
    ("--" ++ name ++ "=" ++ value).toList = '-' :: '-' :: (name.toList ++ '=' :: value.toList) := by
  simp [String.toList_append]

theorem bne_equals_of_not_mem {name : List Char} (hname : '=' ∉ name) :
    ∀ c ∈ name, (c != '=') = true := by
  intro c hc
  rw [bne_iff_ne]
  rintro rfl
  exact hname hc

theorem takeWhile_name {name cs : List Char} (hname : '=' ∉ name) :
    (name ++ '=' :: cs).takeWhile (· != '=') = name := by
  rw [List.takeWhile_append_of_pos (bne_equals_of_not_mem hname)]
  simp

theorem dropWhile_name {name cs : List Char} (hname : '=' ∉ name) :
    (name ++ '=' :: cs).dropWhile (· != '=') = '=' :: cs := by
  rw [List.dropWhile_append_of_pos (bne_equals_of_not_mem hname)]
  simp

/-- A word has one of the shapes. What starts with two dashes is parted at the first equals sign. -/
theorem shape (word : String) : Shape word := by
  by_cases hvalue : IsValue word
  · exact .value hvalue
  · obtain ⟨c, cs, hword⟩ : ∃ c cs, word.toList = '-' :: c :: cs := by
      by_contra hno
      exact hvalue fun c cs h => hno ⟨c, cs, h⟩
    by_cases hc : c = '-'
    · subst hc
      by_cases hequals : '=' ∈ cs
      · obtain ⟨name, value, rfl, hname⟩ := List.eq_append_cons_of_mem hequals
        have heq : word = "--" ++ String.ofList name ++ "=" ++ String.ofList value := by
          rw [← String.toList_inj, hword, toList_named, String.toList_ofList, String.toList_ofList]
        exact heq ▸ .named (by rwa [String.toList_ofList])
      · have heq : word = "--" ++ String.ofList cs := by
          rw [← String.toList_inj, hword, toList_name, String.toList_ofList]
        exact heq ▸ .name (by rwa [String.toList_ofList])
    · exact .letters hc hword

/-! ## Grammars -/

/-- How an option of a grammar is written. -/
def Flag.spelling (f : Flag) : Spelling := ⟨f.long, f.short, f.use.type?.isSome⟩

@[simp] theorem Flag.spelling_long (f : Flag) : f.spelling.long = f.long := rfl

/-- How the options of a grammar are written. -/
def Grammar.spellings (g : Grammar) : List Spelling := g.flags.map Flag.spelling

/-- A grammar whose words can be told apart. It has no operand. -/
structure Grammar.Clear (g : Grammar) : Prop where
  operand : g.operand = none
  names : ∀ f ∈ g.flags, ∀ f' ∈ g.flags, f.long = f'.long → f = f'
  letters : ∀ f ∈ g.flags, ∀ f' ∈ g.flags, f.short = f'.short → f.short.isSome → f = f'
  long : ∀ f ∈ g.flags, f.long ∉ ["", "help", "version"] ∧ '=' ∉ f.long.toList
  short : ∀ f ∈ g.flags, f.short ∉ [some '-', some 'h', some 'V']
  commands : ∀ word, g.hasCommand word = true → ∀ cs, word.toList ≠ '-' :: cs

variable {g : Grammar} {f : Flag} {more : Uses}

theorem Grammar.Clear.long?_eq_some_iff (hg : g.Clear) {name : String} :
    g.long? name = some f ↔ f ∈ g.flags ∧ f.long = name := by
  unfold Grammar.long?
  constructor
  · intro h
    exact ⟨List.mem_of_find?_eq_some h, by simpa using List.find?_some h⟩
  · rintro ⟨hf, rfl⟩
    cases hfind : g.flags.find? fun f' => f'.long == f.long with
    | none => exact absurd (beq_self_eq_true f.long) (List.find?_eq_none.1 hfind f hf)
    | some f' =>
        have hlong : f'.long = f.long := by simpa using List.find?_some hfind
        rw [hg.names f' (List.mem_of_find?_eq_some hfind) f hf hlong]

theorem Grammar.Clear.short?_eq_some_iff (hg : g.Clear) {c : Char} :
    g.short? c = some f ↔ f ∈ g.flags ∧ f.short = some c := by
  unfold Grammar.short?
  constructor
  · intro h
    exact ⟨List.mem_of_find?_eq_some h, by simpa using List.find?_some h⟩
  · rintro ⟨hf, hc⟩
    cases hfind : g.flags.find? fun f' => f'.short == some c with
    | none => exact absurd (beq_iff_eq.2 hc) (List.find?_eq_none.1 hfind f hf)
    | some f' =>
        have hshort : f'.short = some c := by simpa using List.find?_some hfind
        rw [hg.letters f' (List.mem_of_find?_eq_some hfind) f hf (hshort.trans hc.symm)
          (by rw [hshort, Option.isSome_some])]

theorem mem_spellings {o : Spelling} : o ∈ g.spellings ↔ ∃ f ∈ g.flags, f.spelling = o :=
  List.mem_map

theorem Flag.not_valued (h : f.use.type? = none) : f.spelling.valued = false := by
  rw [spelling, h, Option.isSome_none]

theorem Flag.valued {type : ValueType} (h : f.use.type? = some type) :
    f.spelling.valued = true := by
  rw [spelling, h, Option.isSome_some]

/-! ## What a row stands for -/

theorem exists_flag_of_row {c : Char} {cs : List Char} {waiting : Option String}
    (h : Row g.spellings (c :: cs) more waiting) : ∃ f ∈ g.flags, f.short = some c := by
  cases h with
  | bare ho hc | attached ho hc | equals ho hc | waits ho hc =>
      obtain ⟨f, hf, rfl⟩ := mem_spellings.1 ho
      exact ⟨f, hf, hc⟩

theorem exists_flag_of_waiting_row {cs : List Char} {name : String}
    (h : Row g.spellings cs more (some name)) : ∃ f ∈ g.flags, f.long = name := by
  generalize hwaiting : some name = waiting at h
  induction h with
  | nil | attached | equals => cases hwaiting
  | bare _ _ _ _ ih => exact ih hwaiting
  | waits ho =>
      obtain ⟨f, hf, rfl⟩ := mem_spellings.1 ho
      cases hwaiting
      exact ⟨f, hf, rfl⟩

section Row

variable (hg : g.Clear) (hf : f ∈ g.flags) {c : Char} (hc : f.short = some c) {cs : List Char}

include hg hf hc

theorem eq_spelling {o : Spelling} (ho : o ∈ g.spellings) (hletter : o.letter = some c) :
    o = f.spelling := by
  obtain ⟨f', hf', rfl⟩ := mem_spellings.1 ho
  have hshort : f'.short = some c := hletter
  rw [hg.letters f' hf' f hf (hshort.trans hc.symm) (by rw [hshort]; rfl)]

theorem row_bare_iff (htype : f.use.type? = none) (more : Uses) (waiting : Option String) :
    Row g.spellings (c :: cs) more waiting ↔
      ∃ behind, more = (f.long, "") :: behind ∧ Row g.spellings cs behind waiting := by
  have hbare := Flag.not_valued htype
  constructor
  · intro h
    cases h with
    | bare ho hletter _ hcs =>
        obtain rfl := eq_spelling hg hf hc ho hletter
        exact ⟨_, rfl, hcs⟩
    | attached ho hletter hv | equals ho hletter hv | waits ho hletter hv =>
        obtain rfl := eq_spelling hg hf hc ho hletter
        cases hbare.symm.trans hv
  · rintro ⟨behind, rfl, hcs⟩
    exact .bare (mem_spellings.2 ⟨f, hf, rfl⟩) hc hbare hcs

section Valued

variable (hvalued : f.spelling.valued = true)

include hvalued

theorem row_waits_iff (more : Uses) (waiting : Option String) :
    Row g.spellings [c] more waiting ↔ more = [] ∧ waiting = some f.long := by
  constructor
  · intro h
    cases h with
    | bare ho hletter hbare =>
        obtain rfl := eq_spelling hg hf hc ho hletter
        cases hbare.symm.trans hvalued
    | waits ho hletter hv =>
        obtain rfl := eq_spelling hg hf hc ho hletter
        exact ⟨rfl, rfl⟩
  · rintro ⟨rfl, rfl⟩
    exact .waits (mem_spellings.2 ⟨f, hf, rfl⟩) hc hvalued

theorem row_equals_iff (more : Uses) (waiting : Option String) :
    Row g.spellings (c :: '=' :: cs) more waiting ↔
      more = [(f.long, String.ofList cs)] ∧ waiting = none := by
  constructor
  · intro h
    cases h with
    | bare ho hletter hbare =>
        obtain rfl := eq_spelling hg hf hc ho hletter
        cases hbare.symm.trans hvalued
    | attached ho hletter hv hd => exact absurd rfl hd
    | equals ho hletter hv =>
        obtain rfl := eq_spelling hg hf hc ho hletter
        exact ⟨rfl, rfl⟩
  · rintro ⟨rfl, rfl⟩
    exact .equals (mem_spellings.2 ⟨f, hf, rfl⟩) hc hvalued

theorem row_attached_iff {d : Char} (hd : d ≠ '=') (more : Uses) (waiting : Option String) :
    Row g.spellings (c :: d :: cs) more waiting ↔
      more = [(f.long, String.ofList (d :: cs))] ∧ waiting = none := by
  constructor
  · intro h
    cases h with
    | bare ho hletter hbare =>
        obtain rfl := eq_spelling hg hf hc ho hletter
        cases hbare.symm.trans hvalued
    | attached ho hletter hv _ =>
        obtain rfl := eq_spelling hg hf hc ho hletter
        exact ⟨rfl, rfl⟩
    | equals => exact absurd rfl hd
  · rintro ⟨rfl, rfl⟩
    exact .attached (mem_spellings.2 ⟨f, hf, rfl⟩) hc hvalued hd

end Valued

end Row

/-! ## What a word stands for -/

theorem dash_of_word {word : String} {waiting : Option String}
    (h : Word g.spellings word more waiting) : ∃ c cs, word.toList = '-' :: c :: cs := by
  cases h with
  | bare | attached | waits => exact ⟨'-', _, by simp [String.toList_append]; rfl⟩
  | row => exact ⟨_, _, String.toList_ofList⟩

theorem exists_flag_of_waiting {word name : String} (h : Word g.spellings word more (some name)) :
    ∃ f ∈ g.flags, f.long = name := by
  cases h with
  | waits ho =>
      obtain ⟨f, hf, rfl⟩ := mem_spellings.1 ho
      exact ⟨f, hf, rfl⟩
  | row hrow => exact exists_flag_of_waiting_row hrow

theorem word_row_iff {word : String} {c : Char} {cs : List Char} (hc : c ≠ '-')
    (hword : word.toList = '-' :: c :: cs) (more : Uses) (waiting : Option String) :
    Word g.spellings word more waiting ↔ Row g.spellings (c :: cs) more waiting := by
  constructor
  · intro h
    cases h with
    | bare | attached | waits =>
        simp only [String.toList_append] at hword
        exact absurd (List.cons.inj (List.cons.inj hword).2).1.symm hc
    | row hrow =>
        rw [String.toList_ofList] at hword
        rwa [← (List.cons.inj hword).2]
  · intro h
    rw [← String.ofList_toList (s := word), hword]
    exact .row h

theorem hasCommand_eq_false_of_word (hg : g.Clear) {word : String} {waiting : Option String}
    (h : Word g.spellings word more waiting) : g.hasCommand word = false := by
  obtain ⟨c, cs, hword⟩ := dash_of_word h
  exact Bool.eq_false_iff.2 fun hcommand => hg.commands word hcommand (c :: cs) hword

/-- What a word stands for that starts with two dashes. -/
theorem exists_flag_of_word (hg : g.Clear) {word : String} {cs : List Char}
    (hword : word.toList = '-' :: '-' :: cs) {waiting : Option String}
    (h : Word g.spellings word more waiting) :
    ∃ f ∈ g.flags,
      cs = f.long.toList ∧
        (f.spelling.valued = false ∧ more = [(f.long, "")] ∧ waiting = none ∨
          f.spelling.valued = true ∧ more = [] ∧ waiting = some f.long) ∨
      ∃ value : String, cs = f.long.toList ++ '=' :: value.toList ∧
        f.spelling.valued = true ∧ more = [(f.long, value)] ∧ waiting = none := by
  cases h with
  | bare ho hbare =>
      obtain ⟨f, hf, rfl⟩ := mem_spellings.1 ho
      have hcs : cs = f.long.toList := by simpa [String.toList_append] using hword.symm
      exact ⟨f, hf, Or.inl ⟨hcs, Or.inl ⟨hbare, rfl, rfl⟩⟩⟩
  | attached ho hvalued =>
      obtain ⟨f, hf, rfl⟩ := mem_spellings.1 ho
      refine ⟨f, hf, Or.inr ⟨_, ?_, hvalued, rfl, rfl⟩⟩
      simpa [String.toList_append] using hword.symm
  | waits ho hvalued =>
      obtain ⟨f, hf, rfl⟩ := mem_spellings.1 ho
      have hcs : cs = f.long.toList := by simpa [String.toList_append] using hword.symm
      exact ⟨f, hf, Or.inl ⟨hcs, Or.inr ⟨hvalued, rfl, rfl⟩⟩⟩
  | row hrow =>
      -- no option has a dash for its letter
      rw [String.toList_ofList, List.cons.injEq, List.cons.injEq] at hword
      obtain ⟨f, hf, hshort⟩ := exists_flag_of_row hrow
      rw [hword.2.1] at hshort
      exact absurd (by rw [hshort]; simp) (hg.short f hf)

theorem ne_dashes_of_word (hg : g.Clear) {word : String} {waiting : Option String}
    (h : Word g.spellings word more waiting) : word ≠ "--" := by
  rintro rfl
  have hword : ("--" : String).toList = ['-', '-'] := rfl
  obtain ⟨f, hf, ⟨hlong, -⟩ | ⟨value, hvalue, -⟩⟩ := exists_flag_of_word hg hword h
  · have hempty : f.long = "" := String.toList_inj.1 hlong.symm
    exact (hg.long f hf).1 (hempty ▸ List.mem_cons_self)
  · simp at hvalue

section Name

variable (hg : g.Clear) {name value : String} (hname : '=' ∉ name.toList)

include hg hname

theorem exists_flag_of_name {waiting : Option String}
    (h : Word g.spellings ("--" ++ name) more waiting) :
    ∃ f ∈ g.flags, f.long = name ∧
      (f.spelling.valued = false ∧ more = [(name, "")] ∧ waiting = none ∨
        f.spelling.valued = true ∧ more = [] ∧ waiting = some name) := by
  obtain ⟨f, hf, ⟨hcs, hstands⟩ | ⟨value, hcs, -⟩⟩ :=
    exists_flag_of_word hg (toList_name name) h
  · obtain rfl := String.toList_inj.1 hcs
    exact ⟨f, hf, rfl, hstands⟩
  · rw [hcs] at hname
    exact absurd (List.mem_append_right _ List.mem_cons_self) hname

theorem exists_flag_of_named {waiting : Option String}
    (h : Word g.spellings ("--" ++ name ++ "=" ++ value) more waiting) :
    ∃ f ∈ g.flags, f.long = name ∧
      f.spelling.valued = true ∧ more = [(name, value)] ∧ waiting = none := by
  obtain ⟨f, hf, ⟨hcs, -⟩ | ⟨value', hcs, hstands⟩⟩ :=
    exists_flag_of_word hg (toList_named name value) h
  · have hlong := (hg.long f hf).2
    rw [← hcs] at hlong
    exact absurd (List.mem_append_right _ List.mem_cons_self) hlong
  · have hlong := congrArg (List.takeWhile (· != '=')) hcs
    rw [takeWhile_name hname, takeWhile_name (hg.long f hf).2, String.toList_inj] at hlong
    subst hlong
    obtain rfl := String.toList_inj.1 (List.cons.inj (List.append_cancel_left hcs)).2
    exact ⟨f, hf, rfl, hstands⟩

theorem word_name_iff (hf : f ∈ g.flags) (hlong : f.long = name) (more : Uses)
    (waiting : Option String) :
    Word g.spellings ("--" ++ name) more waiting ↔
      f.spelling.valued = false ∧ more = [(name, "")] ∧ waiting = none ∨
        f.spelling.valued = true ∧ more = [] ∧ waiting = some name := by
  constructor
  · intro h
    obtain ⟨f', hf', hlong', hstands⟩ := exists_flag_of_name hg hname h
    rwa [hg.names f hf f' hf' (hlong.trans hlong'.symm)]
  · subst hlong
    have hmem := mem_spellings.2 ⟨f, hf, rfl⟩
    rintro (⟨hbare, rfl, rfl⟩ | ⟨hvalued, rfl, rfl⟩)
    · exact .bare hmem hbare
    · exact .waits hmem hvalued

theorem word_named_iff (hf : f ∈ g.flags) (hlong : f.long = name) (more : Uses)
    (waiting : Option String) :
    Word g.spellings ("--" ++ name ++ "=" ++ value) more waiting ↔
      f.spelling.valued = true ∧ more = [(name, value)] ∧ waiting = none := by
  constructor
  · intro h
    obtain ⟨f', hf', hlong', hstands⟩ := exists_flag_of_named hg hname h
    rwa [hg.names f hf f' hf' (hlong.trans hlong'.symm)]
  · subst hlong
    rintro ⟨hvalued, rfl, rfl⟩
    exact .attached (mem_spellings.2 ⟨f, hf, rfl⟩) hvalued

end Name

end SigVerdict.CommandLine
