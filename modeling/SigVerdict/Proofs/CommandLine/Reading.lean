import Mathlib.Tactic.ByContra
import SigVerdict.CommandLine.Reader
import SigVerdict.Proofs.CommandLine.Spelling
import SigVerdict.Proofs.Except

set_option autoImplicit false

/-! # What a reader reads

A reader takes words one by one and checks a value only when the next option starts, so what it
holds in between is not settled. But whatever it reads to the end without a fault is written, and it
then holds the uses that are (`Reader.reads_iff`). A word that is read closes uses or leaves an
option that waits for its value (`Reader.step_holding_iff`), and what is not checked yet can be
checked first (`Reader.reads_resolve_iff`). -/

namespace SigVerdict.CommandLine

variable {g : Grammar} {f : Flag} {uses more : Uses} {r r' : Reader}

/-! ## Uses that fit -/

theorem Uses.valuesOf_append (uses more : Uses) (name : String) :
    Uses.valuesOf (uses ++ more) name = uses.valuesOf name ++ more.valuesOf name := by
  rw [valuesOf, List.filter_append, List.map_append]
  rfl

theorem Uses.valuesOf_single_self (name value : String) :
    Uses.valuesOf [(name, value)] name = [value] := by
  simp [valuesOf]

theorem Uses.valuesOf_single_of_ne {name other : String} (h : name ≠ other) (value : String) :
    Uses.valuesOf [(name, value)] other = [] := by
  simp [valuesOf, h]

theorem Given.values_eq_valuesOf (g : Given) (name : String) :
    g.values name = Uses.valuesOf g.flags name := by
  rw [values, Uses.valuesOf, ← List.filterMap_eq_map, List.filterMap_filter]
  simp only [beq_iff_eq, decide_eq_true_eq, Function.comp_apply]

theorem Given.has_eq_true_iff {g : Given} {name : String} :
    g.has name = true ↔ Uses.valuesOf g.flags name ≠ [] := by
  simp [has, Uses.valuesOf, List.filter_eq_nil_iff]

/-- Uses give an option values of its type, and if it may not come several times, at most one. -/
structure Uses.Fit (uses : Uses) (f : Flag) : Prop where
  typed : ∀ type, f.use.type? = some type →
    ∀ value ∈ uses.valuesOf f.long, type.check f.display value = .ok ()
  once : f.use.repeats = false → (uses.valuesOf f.long).length ≤ 1

/-- Uses fit all options. -/
def Uses.Fits (uses : Uses) (flags : List Flag) : Prop := ∀ f ∈ flags, uses.Fit f

theorem Uses.Fit.of_append (h : Uses.Fit (uses ++ more) f) : uses.Fit f where
  typed type htype value hvalue := h.typed type htype value (by
    rw [valuesOf_append]
    exact List.mem_append_left _ hvalue)
  once hrepeats := by
    have hlength := h.once hrepeats
    rw [valuesOf_append, List.length_append] at hlength
    omega

theorem Uses.Fits.of_append {flags : List Flag} (h : Uses.Fits (uses ++ more) flags) :
    uses.Fits flags :=
  fun f hf => (h f hf).of_append

theorem Uses.fits_nil (flags : List Flag) : Uses.Fits [] flags :=
  fun _ _ => ⟨fun _ _ _ hvalue => absurd hvalue List.not_mem_nil, fun _ => Nat.zero_le 1⟩

/-- One more use of an option fits when the option may come again and the value has its type. -/
theorem Grammar.Clear.fits_concat_iff (hg : g.Clear) (hf : f ∈ g.flags) (hfits : uses.Fits g.flags)
    {value : String} :
    Uses.Fits (uses ++ [(f.long, value)]) g.flags ↔
      (f.use.repeats = true ∨ uses.valuesOf f.long = []) ∧
        ∀ type, f.use.type? = some type → type.check f.display value = .ok () := by
  constructor
  · intro h
    obtain ⟨htyped, honce⟩ := h f hf
    rw [Uses.valuesOf_append, Uses.valuesOf_single_self] at htyped honce
    constructor
    · by_contra hno
      rw [not_or, Bool.not_eq_true] at hno
      have hlength := honce hno.1
      rw [List.length_append, List.length_singleton] at hlength
      exact hno.2 (List.eq_nil_of_length_eq_zero (by omega))
    · exact fun type htype => htyped type htype value (List.mem_append_right _ List.mem_cons_self)
  · rintro ⟨hagain, hvalue⟩ f' hf'
    obtain ⟨htyped, honce⟩ := hfits f' hf'
    by_cases hlong : f.long = f'.long
    · obtain rfl := hg.names f hf f' hf' hlong
      constructor
      · intro type htype other hother
        rw [Uses.valuesOf_append, Uses.valuesOf_single_self, List.mem_append] at hother
        rcases hother with hother | hother
        · exact htyped type htype other hother
        · exact List.mem_singleton.1 hother ▸ hvalue type htype
      · intro hrepeats
        have hnone := hagain.resolve_left (by rw [hrepeats]; exact nofun)
        rw [Uses.valuesOf_append, Uses.valuesOf_single_self, hnone]
        exact Nat.le_refl 1
    · have hsame : Uses.valuesOf (uses ++ [(f.long, value)]) f'.long = uses.valuesOf f'.long := by
        rw [Uses.valuesOf_append, Uses.valuesOf_single_of_ne hlong, List.append_nil]
      exact ⟨by rwa [hsame], by rwa [hsame]⟩

theorem Given.use_eq_ok_iff (hg : g.Clear) (hf : f ∈ g.flags) (hfits : uses.Fits g.flags)
    {value : String} {given : Given} :
    Given.use { flags := uses } f value = .ok given ↔
      Uses.Fits (uses ++ [(f.long, value)]) g.flags ∧
        given = { flags := uses ++ [(f.long, value)] } := by
  rw [hg.fits_concat_iff hf hfits]
  have hhas : ((!f.use.repeats && Given.has { flags := uses } f.long) = true) ↔
      ¬(f.use.repeats = true ∨ uses.valuesOf f.long = []) := by
    rw [Bool.and_eq_true, Given.has_eq_true_iff, Bool.not_eq_true', not_or, Bool.not_eq_true]
  unfold use
  split
  · next h => exact ⟨nofun, fun hok => absurd hok.1.1 (hhas.1 h)⟩
  · next h =>
      rw [hhas, Classical.not_not] at h
      cases htype : f.use.type? with
      | none =>
          simp only [Except.ok.injEq, eq_comm (a := given), h, true_and]
          exact ⟨fun hgiven => ⟨nofun, hgiven⟩, fun hok => hok.2⟩
      | some type =>
          cases hcheck : type.check f.display value with
          | error stop =>
              simp only [hcheck]
              refine ⟨nofun, fun hok => ?_⟩
              cases hcheck.symm.trans (hok.1.2 type rfl)
          | ok u =>
              simp only [hcheck, Except.ok.injEq, eq_comm (a := given), h, true_and]
              refine ⟨fun hgiven => ⟨?_, hgiven⟩, fun hok => hok.2⟩
              rintro _ ⟨⟩
              exact hcheck

/-! ## Steps of a reader -/

namespace Reader

/-- The reader that holds uses, all of which are checked, and perhaps an option that waits for its
    value. -/
def holding (uses : Uses) (waiting : Option Flag := none) : Reader :=
  { given := { flags := uses }, pending := waiting.map fun f => (.flag f, none) }

/-- A reader of a grammar gets from uses to what words stand for behind them. -/
def GetsTo (g : Grammar) (uses : Uses) (Stands : Uses → Option String → Prop) (r : Reader) : Prop :=
  ∃ more waiting, Stands more (waiting.map Flag.long) ∧ (∀ f ∈ waiting, f ∈ g.flags) ∧
    Uses.Fits (uses ++ more) g.flags ∧ r = holding (uses ++ more) waiting

theorem GetsTo.fits {Stands : Uses → Option String → Prop} (h : GetsTo g uses Stands r) :
    uses.Fits g.flags := by
  obtain ⟨_, _, -, -, hfits, -⟩ := h
  exact hfits.of_append

theorem react_holding_iff (hg : g.Clear) (hf : f ∈ g.flags) (hfits : uses.Fits g.flags)
    {value : String} :
    (holding uses).react f value = .ok r ↔
      Uses.Fits (uses ++ [(f.long, value)]) g.flags ∧ r = holding (uses ++ [(f.long, value)]) := by
  constructor
  · intro h
    obtain ⟨_, ⟨⟩, h⟩ := bind_eq_ok_iff.1 h
    obtain ⟨given, huse, h⟩ := bind_eq_ok_iff.1 h
    obtain ⟨hfit, rfl⟩ := (Given.use_eq_ok_iff hg hf hfits).1 huse
    cases h
    exact ⟨hfit, rfl⟩
  · rintro ⟨hfit, rfl⟩
    exact bind_eq_ok_iff.2 ⟨_, rfl,
      bind_eq_ok_iff.2 ⟨_, (Given.use_eq_ok_iff hg hf hfits).2 ⟨hfit, rfl⟩, rfl⟩⟩

theorem await_holding : (holding uses).await f = .ok (holding uses (some f)) := rfl

theorem getsTo_congr {Stands Stands' : Uses → Option String → Prop}
    (h : ∀ more waiting, Stands more waiting ↔ Stands' more waiting) :
    GetsTo g uses Stands r ↔ GetsTo g uses Stands' r := by
  simp only [GetsTo, h]

/-- What stands behind a use of an option, when the rest leads on from that use. -/
theorem getsTo_concat_iff {Stands : Uses → Option String → Prop} {use : String × String}
    {Rest : Uses → Option String → Prop}
    (h : ∀ more waiting,
      Stands more waiting ↔ ∃ behind, more = use :: behind ∧ Rest behind waiting) :
    GetsTo g uses Stands r ↔ GetsTo g (uses ++ [use]) Rest r := by
  simp only [GetsTo, h]
  constructor
  · rintro ⟨_, waiting, ⟨behind, rfl, hrest⟩, hwaiting, hfits, rfl⟩
    rw [List.append_cons uses use behind] at hfits
    rw [List.append_cons uses use behind]
    exact ⟨behind, waiting, hrest, hwaiting, hfits, rfl⟩
  · rintro ⟨behind, waiting, hrest, hwaiting, hfits, rfl⟩
    rw [← List.append_cons uses use behind] at hfits
    rw [← List.append_cons uses use behind]
    exact ⟨_, waiting, ⟨behind, rfl, hrest⟩, hwaiting, hfits, rfl⟩

theorem getsTo_closed_iff {use : String × String} :
    GetsTo g uses (fun more waiting => more = [use] ∧ waiting = none) r ↔
      Uses.Fits (uses ++ [use]) g.flags ∧ r = holding (uses ++ [use]) := by
  constructor
  · rintro ⟨_, waiting, ⟨rfl, hnone⟩, -, hfits, rfl⟩
    rw [Option.map_eq_none_iff] at hnone
    exact ⟨hfits, by rw [hnone]⟩
  · rintro ⟨hfits, rfl⟩
    exact ⟨_, none, ⟨rfl, rfl⟩, nofun, hfits, rfl⟩

theorem getsTo_waiting_iff (hg : g.Clear) (hf : f ∈ g.flags) (hfits : uses.Fits g.flags) :
    GetsTo g uses (fun more waiting => more = [] ∧ waiting = some f.long) r ↔
      r = holding uses (some f) := by
  constructor
  · rintro ⟨_, waiting, ⟨rfl, hsome⟩, hwaiting, -, rfl⟩
    obtain ⟨f', rfl, hlong⟩ := Option.map_eq_some_iff.1 hsome
    rw [List.append_nil, hg.names f' (hwaiting f' rfl) f hf hlong]
  · rintro rfl
    refine ⟨[], some f, ⟨rfl, rfl⟩, ?_, ?_, ?_⟩
    · rintro _ ⟨⟩
      exact hf
    · rwa [List.append_nil]
    · rw [List.append_nil]

theorem stop_ne_ok {stop : Stop} : r.stop stop ≠ .ok r' := by
  intro h
  obtain ⟨_, -, h⟩ := bind_eq_ok_iff.1 h
  cases h

section Letters

variable (hg : g.Clear) {c : Char} {cs : List Char}

include hg

/-- A letter that no option has is not read. -/
theorem readLetters_of_unknown (h : ∀ f ∈ g.flags, f.short ≠ some c) :
    readLetters g r (c :: cs) ≠ .ok r' := by
  intro hok
  rw [readLetters] at hok
  split at hok
  · exact stop_ne_ok hok
  · split at hok
    · exact stop_ne_ok hok
    · split at hok
      · cases hok
      · next f hshort =>
          obtain ⟨hf, hc⟩ := hg.short?_eq_some_iff.1 hshort
          exact h f hf hc

/-- The letter of an option is not one of the letters that ask for an explanation. -/
theorem readLetters_of_known (hf : f ∈ g.flags) (hc : f.short = some c) :
    readLetters g r (c :: cs) =
      match f.use.type? with
      | none => (r.react f "").bind fun r => readLetters g r cs
      | some _ =>
        match cs with
        | [] => r.await f
        | '=' :: cs => r.react f (String.ofList cs)
        | cs => r.react f (String.ofList cs) := by
  have hreserved {d : Char} (hd : some d ∈ [some '-', some 'h', some 'V']) : ¬(c == d) = true := by
    rw [beq_iff_eq]
    rintro rfl
    exact hg.short f hf (hc ▸ hd)
  have hfind : g.short? c = some f := hg.short?_eq_some_iff.2 ⟨hf, hc⟩
  rw [readLetters, if_neg (hreserved (by simp)), if_neg (hreserved (by simp))]
  split
  · next hshort => cases hshort.symm.trans hfind
  · next hshort =>
      cases hshort.symm.trans hfind
      rfl

theorem readLetters_valued_iff {type : ValueType} (hf : f ∈ g.flags) (hc : f.short = some c)
    (htype : f.use.type? = some type) (hfits : uses.Fits g.flags) :
    readLetters g (holding uses) (c :: cs) = .ok r ↔
      GetsTo g uses (Row g.spellings (c :: cs)) r := by
  have hvalued := Flag.valued htype
  rw [readLetters_of_known hg hf hc, htype]
  dsimp only
  split
  · rw [getsTo_congr (row_waits_iff hg hf hc hvalued), getsTo_waiting_iff hg hf hfits,
      await_holding, Except.ok.injEq, eq_comm]
  · rw [getsTo_congr (row_equals_iff hg hf hc hvalued), getsTo_closed_iff,
      react_holding_iff hg hf hfits]
  · next rest hempty hequals =>
      obtain ⟨d, rest, rfl⟩ := List.exists_cons_of_ne_nil hempty
      have hd : d ≠ '=' := by
        rintro rfl
        exact hequals rest rfl
      rw [getsTo_congr (row_attached_iff hg hf hc hvalued hd), getsTo_closed_iff,
        react_holding_iff hg hf hfits]

theorem readLetters_iff (hfits : uses.Fits g.flags) :
    readLetters g (holding uses) cs = .ok r ↔ GetsTo g uses (Row g.spellings cs) r := by
  induction cs generalizing uses with
  | nil =>
      rw [readLetters, Except.ok.injEq]
      constructor
      · rintro rfl
        exact ⟨[], none, .nil, nofun, by rwa [List.append_nil], by rw [List.append_nil]⟩
      · rintro ⟨_, waiting, hrow, -, -, rfl⟩
        generalize hname : waiting.map Flag.long = name at hrow
        cases hrow
        rw [Option.map_eq_none_iff.1 hname, List.append_nil]
  | cons c cs ih =>
      by_cases hknown : ∃ f ∈ g.flags, f.short = some c
      · obtain ⟨f, hf, hc⟩ := hknown
        cases htype : f.use.type? with
        | none =>
            rw [readLetters_of_known hg hf hc, htype,
              getsTo_concat_iff (row_bare_iff hg hf hc htype)]
            refine (bind_eq_ok_iff (x := (holding uses).react f "")).trans ?_
            constructor
            · rintro ⟨r', hreact, hrest⟩
              obtain ⟨hfit, rfl⟩ := (react_holding_iff hg hf hfits).1 hreact
              exact (ih hfit).1 hrest
            · intro h
              exact ⟨_, (react_holding_iff hg hf hfits).2 ⟨h.fits, rfl⟩, (ih h.fits).2 h⟩
        | some type => exact readLetters_valued_iff hg hf hc htype hfits
      · refine iff_of_false (readLetters_of_unknown hg fun f hf hc => hknown ⟨f, hf, hc⟩) ?_
        rintro ⟨more, waiting, hrow, -⟩
        exact hknown (exists_flag_of_row hrow)

end Letters

section Name

variable (hg : g.Clear) {name value : String} (hname : '=' ∉ name.toList)

include hg hname

omit hname in
/-- A name that no option has is not read. -/
theorem readLong_of_unknown {value : Option String} (h : ∀ f ∈ g.flags, f.long ≠ name) :
    readLong g r name value ≠ .ok r' := by
  intro hok
  unfold readLong at hok
  split at hok
  · split at hok
    · cases hok
    · exact stop_ne_ok hok
  · split at hok
    · cases hok
    · next f hlong => exact h f (hg.long?_eq_some_iff.1 hlong).1 (hg.long?_eq_some_iff.1 hlong).2

omit hname in
/-- The name of an option is not one of the names that ask for an explanation. -/
theorem readLong_of_known {value : Option String} (hf : f ∈ g.flags) (hlong : f.long = name) :
    readLong g r name value =
      match f.use.type?, value with
      | none, some value => .error (.fault (.unexpectedValue value f.display))
      | none, none => r.react f ""
      | some _, some value => r.react f value
      | some _, none => r.await f := by
  have hreserved : ¬(name == "help" || name == "version") = true := by
    rw [Bool.or_eq_true, beq_iff_eq, beq_iff_eq]
    rintro (rfl | rfl) <;> exact (hg.long f hf).1 (by rw [hlong]; simp)
  have hfind : g.long? name = some f := hg.long?_eq_some_iff.2 ⟨hf, hlong⟩
  cases htype : f.use.type? <;> cases value <;> simp only [readLong, if_neg hreserved, hfind, htype]

theorem readLong_name_iff (hfits : uses.Fits g.flags) :
    readLong g (holding uses) name none = .ok r ↔
      GetsTo g uses (Word g.spellings ("--" ++ name)) r := by
  by_cases hknown : ∃ f ∈ g.flags, f.long = name
  · obtain ⟨f, hf, hlong⟩ := hknown
    rw [readLong_of_known hg hf hlong, getsTo_congr (word_name_iff hg hname hf hlong)]
    subst hlong
    cases htype : f.use.type? with
    | none =>
        simp only [Flag.not_valued htype, true_and, Bool.false_eq_true, false_and, or_false]
        rw [getsTo_closed_iff, react_holding_iff hg hf hfits]
    | some type =>
        simp only [Flag.valued htype, true_and, Bool.true_eq_false, false_and, false_or]
        rw [getsTo_waiting_iff hg hf hfits, await_holding, Except.ok.injEq, eq_comm]
  · refine iff_of_false (readLong_of_unknown hg fun f hf hlong => hknown ⟨f, hf, hlong⟩) ?_
    rintro ⟨more, waiting, hword, -⟩
    obtain ⟨f, hf, hlong, -⟩ := exists_flag_of_name hg hname hword
    exact hknown ⟨f, hf, hlong⟩

theorem readLong_named_iff (hfits : uses.Fits g.flags) :
    readLong g (holding uses) name (some value) = .ok r ↔
      GetsTo g uses (Word g.spellings ("--" ++ name ++ "=" ++ value)) r := by
  by_cases hknown : ∃ f ∈ g.flags, f.long = name
  · obtain ⟨f, hf, hlong⟩ := hknown
    rw [readLong_of_known hg hf hlong, getsTo_congr (word_named_iff hg hname hf hlong)]
    subst hlong
    cases htype : f.use.type? with
    | none =>
        refine iff_of_false nofun ?_
        rintro ⟨more, waiting, ⟨hvalued, -⟩, -⟩
        cases hvalued.symm.trans (Flag.not_valued htype)
    | some type =>
        simp only [Flag.valued htype, true_and]
        rw [getsTo_closed_iff, react_holding_iff hg hf hfits]
  · refine iff_of_false (readLong_of_unknown hg fun f hf hlong => hknown ⟨f, hf, hlong⟩) ?_
    rintro ⟨more, waiting, hword, -⟩
    obtain ⟨f, hf, hlong, -⟩ := exists_flag_of_named hg hname hword
    exact hknown ⟨f, hf, hlong⟩

end Name

theorem readOperand_ne_ok (hg : g.Clear) {argument : String} :
    readOperand g r argument ≠ .ok r' := by
  unfold readOperand
  rw [hg.operand]
  dsimp only
  split <;> exact nofun

section Step

variable (honly : r.onlyOperands = false) {word : String}

include honly

/-- A value goes to the option that waits for one; otherwise it has no place. -/
theorem step_value (hvalue : IsValue word) :
    (∀ f, r.awaiting? = some f →
      step g r word = .ok { r with pending := some (.flag f, some word) }) ∧
    (r.awaiting? = none → step g r word = readOperand g r word) := by
  unfold step
  rw [honly, if_neg Bool.false_ne_true]
  split
  · next hword => exact absurd hword (hvalue _ _)
  · next hword => exact absurd hword (hvalue _ _)
  · next hword => exact absurd hword (hvalue _ _)
  · exact ⟨fun f hf => by rw [hf], fun hnone => by rw [hnone]⟩

theorem step_name {name : String} (hname : '=' ∉ name.toList) (hdashes : "--" ++ name ≠ "--") :
    step g r ("--" ++ name) = readLong g r name none := by
  have hbefore := bne_equals_of_not_mem hname
  cases hcs : name.toList with
  | nil => exact absurd (by rw [String.toList_eq_nil_iff.1 hcs]; rfl) hdashes
  | cons c cs =>
      have hwhole : String.ofList (c :: cs) = name := by rw [← hcs, String.ofList_toList]
      rw [hcs] at hbefore
      unfold step
      rw [honly, if_neg Bool.false_ne_true, toList_name, hcs]
      simp only [List.takeWhile_eq_self_iff.2 hbefore, List.dropWhile_eq_nil_iff.2 hbefore, hwhole]

theorem step_named {name value : String} (hname : '=' ∉ name.toList) :
    step g r ("--" ++ name ++ "=" ++ value) = readLong g r name (some value) := by
  obtain ⟨c, cs, hcs⟩ : ∃ c cs, name.toList ++ '=' :: value.toList = c :: cs :=
    List.exists_cons_of_ne_nil (by simp)
  have htake : (c :: cs).takeWhile (· != '=') = name.toList := by rw [← hcs, takeWhile_name hname]
  have hdrop : (c :: cs).dropWhile (· != '=') = '=' :: value.toList := by
    rw [← hcs, dropWhile_name hname]
  unfold step
  rw [honly, if_neg Bool.false_ne_true, toList_named, hcs]
  simp only [htake, hdrop, String.ofList_toList]

theorem step_letters {c : Char} {cs : List Char} (hc : c ≠ '-')
    (hword : word.toList = '-' :: c :: cs) : step g r word = readLetters g r (c :: cs) := by
  unfold step
  rw [honly, if_neg Bool.false_ne_true]
  split
  · next h => cases h.symm.trans hword; exact absurd rfl hc
  · next h => cases h.symm.trans hword; exact absurd rfl hc
  · next h => cases h.symm.trans hword; rfl
  · next h => exact absurd hword (h c cs)

end Step

/-- A word is read exactly if it stands for something, and then the reader gets to that. -/
theorem step_holding_iff (hg : g.Clear) (hfits : uses.Fits g.flags) {word : String}
    (hdashes : word ≠ "--") :
    step g (holding uses) word = .ok r ↔ GetsTo g uses (Word g.spellings word) r := by
  cases shape word with
  | value hvalue =>
      rw [(step_value rfl hvalue).2 rfl]
      refine iff_of_false (readOperand_ne_ok hg) ?_
      rintro ⟨more, waiting, h, -⟩
      obtain ⟨c, cs, hword⟩ := dash_of_word h
      exact hvalue c cs hword
  | name hname =>
      rw [step_name rfl hname hdashes]
      exact readLong_name_iff hg hname hfits
  | named hname =>
      rw [step_named rfl hname]
      exact readLong_named_iff hg hname hfits
  | letters hc hword =>
      rw [step_letters rfl hc hword, getsTo_congr (word_row_iff hc hword)]
      exact readLetters_iff hg hfits

/-! ## What is not checked yet -/

theorem settled_of_resolve (h : r.resolve = .ok r') :
    r'.pending = none ∧ r'.onlyOperands = r.onlyOperands := by
  unfold resolve at h
  split at h
  · next hnone =>
      cases h
      exact ⟨hnone, rfl⟩
  · cases h
  · obtain ⟨given, -, rfl⟩ := map_eq_ok_iff.1 h
    exact ⟨rfl, rfl⟩
  · obtain ⟨given, -, rfl⟩ := map_eq_ok_iff.1 h
    exact ⟨rfl, rfl⟩

theorem resolve_resolve (h : r.resolve = .ok r') : r'.resolve = .ok r' := by
  rw [resolve, (settled_of_resolve h).1]

theorem awaiting?_of_resolve (h : r.resolve = .ok r') : r'.awaiting? = none := by
  rw [awaiting?, (settled_of_resolve h).1]

/-- An option is used when what is pending is checked. -/
theorem react_eq_ok_iff {value : String} {last : Reader} :
    r.react f value = .ok last ↔ ∃ r', r.resolve = .ok r' ∧ r'.react f value = .ok last := by
  unfold react
  rw [bind_eq_ok_iff]
  refine exists_congr fun r' => and_congr_right fun h => ?_
  rw [resolve_resolve h]
  rfl

theorem await_eq_ok_iff {last : Reader} :
    r.await f = .ok last ↔ ∃ r', r.resolve = .ok r' ∧ r'.await f = .ok last := by
  unfold await
  rw [bind_eq_ok_iff]
  refine exists_congr fun r' => and_congr_right fun h => ?_
  rw [resolve_resolve h]
  rfl

theorem readLong_eq_ok_iff (hg : g.Clear) {name : String} {value : Option String} {last : Reader} :
    readLong g r name value = .ok last ↔
      ∃ r', r.resolve = .ok r' ∧ readLong g r' name value = .ok last := by
  by_cases hknown : ∃ f ∈ g.flags, f.long = name
  · obtain ⟨f, hf, hlong⟩ := hknown
    simp only [readLong_of_known hg hf hlong]
    cases f.use.type? <;> cases value
    · exact react_eq_ok_iff
    · exact iff_of_false nofun fun ⟨_, _, h⟩ => nomatch h
    · exact await_eq_ok_iff
    · exact react_eq_ok_iff
  · have hunknown : ∀ f ∈ g.flags, f.long ≠ name := fun f hf hlong => hknown ⟨f, hf, hlong⟩
    exact iff_of_false (readLong_of_unknown hg hunknown)
      fun ⟨_, _, h⟩ => readLong_of_unknown hg hunknown h

theorem readLetters_eq_ok_iff (hg : g.Clear) {c : Char} {cs : List Char} {last : Reader} :
    readLetters g r (c :: cs) = .ok last ↔
      ∃ r', r.resolve = .ok r' ∧ readLetters g r' (c :: cs) = .ok last := by
  by_cases hknown : ∃ f ∈ g.flags, f.short = some c
  · obtain ⟨f, hf, hc⟩ := hknown
    simp only [readLetters_of_known hg hf hc]
    cases f.use.type? with
    | none =>
        have hbind (r : Reader) :
            ((r.react f "").bind fun r => readLetters g r cs) = .ok last ↔
            ∃ r', r.react f "" = .ok r' ∧ readLetters g r' cs = .ok last :=
          bind_eq_ok_iff (x := r.react f "")
        simp only [hbind, react_eq_ok_iff (r := r)]
        constructor
        · rintro ⟨behind, ⟨r', hr', hreact⟩, hrest⟩
          exact ⟨r', hr', behind, hreact, hrest⟩
        · rintro ⟨r', hr', behind, hreact, hrest⟩
          exact ⟨behind, ⟨r', hr', hreact⟩, hrest⟩
    | some type =>
        dsimp only
        split
        · exact await_eq_ok_iff
        · exact react_eq_ok_iff
        · exact react_eq_ok_iff
  · have hunknown : ∀ f ∈ g.flags, f.short ≠ some c := fun f hf hc => hknown ⟨f, hf, hc⟩
    exact iff_of_false (readLetters_of_unknown hg hunknown)
      fun ⟨_, _, h⟩ => readLetters_of_unknown hg hunknown h

/-- A word that is no value for an option that waits is read when what is pending is checked. -/
theorem step_eq_ok_iff (hg : g.Clear) (honly : r.onlyOperands = false) {word : String}
    (hdashes : word ≠ "--") (hvalue : r.awaiting? = none ∨ ¬IsValue word) {last : Reader} :
    step g r word = .ok last ↔ ∃ r', r.resolve = .ok r' ∧ step g r' word = .ok last := by
  have hthen {r' : Reader} (h : r.resolve = .ok r') : r'.onlyOperands = false :=
    (settled_of_resolve h).2.trans honly
  cases shape word with
  | value hword =>
      rw [(step_value honly hword).2 (hvalue.resolve_right (not_not_intro hword))]
      refine iff_of_false (readOperand_ne_ok hg) ?_
      rintro ⟨r', h, hok⟩
      rw [(step_value (hthen h) hword).2 (awaiting?_of_resolve h)] at hok
      exact readOperand_ne_ok hg hok
  | name hname =>
      rw [step_name honly hname hdashes, readLong_eq_ok_iff hg]
      exact exists_congr fun r' => and_congr_right fun h => by
        rw [step_name (hthen h) hname hdashes]
  | named hname =>
      rw [step_named honly hname, readLong_eq_ok_iff hg]
      exact exists_congr fun r' => and_congr_right fun h => by rw [step_named (hthen h) hname]
  | letters hc hword =>
      rw [step_letters honly hc hword, readLetters_eq_ok_iff hg]
      exact exists_congr fun r' => and_congr_right fun h => by
        rw [step_letters (hthen h) hc hword]

/-! ## Runs -/

/-- This is what has been given to a reader when what is pending is checked. -/
def Holds (r : Reader) (given : Given) : Prop := ∃ r', r.resolve = .ok r' ∧ r'.given = given

/-- From a reader, words are read up to a command, if there is one, and this is what has been given
    in the end. -/
def Reads (g : Grammar) (r : Reader) (words : List String)
    (found : Option (String × List String)) (given : Given) : Prop :=
  ∃ last, run g r words = .ok (last, found) ∧ last.Holds given

section Reads

variable {found : Option (String × List String)} {word : String} {words : List String}
  {given : Given}

theorem holds_holding_iff : (holding uses).Holds given ↔ given = { flags := uses } := by
  constructor
  · rintro ⟨_, ⟨⟩, h⟩
    exact h.symm
  · rintro rfl
    exact ⟨_, rfl, rfl⟩

theorem not_holds_waiting : ¬(holding uses (some f)).Holds given := by
  rintro ⟨_, ⟨⟩, -⟩

/-- What is held does not depend on what may come. -/
theorem holds_onlyOperands_iff : Holds { r with onlyOperands := true } given ↔ r.Holds given := by
  have hresolve : resolve { r with onlyOperands := true } =
      r.resolve.map fun r => { r with onlyOperands := true } := by
    obtain ⟨given, _ | ⟨f | o, value⟩, seen, only⟩ := r
    · rfl
    · cases value with
      | none => rfl
      | some value =>
          show Except.map _ (given.use f value) = Except.map _ (Except.map _ (given.use f value))
          cases given.use f value <;> rfl
    · show Except.map _ (o.type.check o.display (value.getD "")) =
        Except.map _ (Except.map _ (o.type.check o.display (value.getD "")))
      cases o.type.check o.display (value.getD "") <;> rfl
  unfold Holds
  rw [hresolve]
  simp only [map_eq_ok_iff]
  constructor
  · rintro ⟨_, ⟨r', h, rfl⟩, hgiven⟩
    exact ⟨r', h, hgiven⟩
  · rintro ⟨r', h, hgiven⟩
    exact ⟨_, ⟨r', h, rfl⟩, hgiven⟩

theorem holds_resolve_iff : r.Holds given ↔ ∃ r', r.resolve = .ok r' ∧ r'.Holds given := by
  constructor
  · rintro ⟨r', h, hgiven⟩
    exact ⟨r', h, r', resolve_resolve h, hgiven⟩
  · rintro ⟨r', h, last, hlast, hgiven⟩
    rw [resolve_resolve h] at hlast
    cases hlast
    exact ⟨r', h, hgiven⟩

theorem reads_nil_iff : Reads g r [] found given ↔ found = none ∧ r.Holds given := by
  constructor
  · rintro ⟨last, h, hholds⟩
    cases h
    exact ⟨rfl, hholds⟩
  · rintro ⟨rfl, hholds⟩
    exact ⟨r, rfl, hholds⟩

theorem reads_command_iff (honly : r.onlyOperands = false) (hawaiting : r.awaiting? = none)
    (hword : g.hasCommand word = true) :
    Reads g r (word :: words) found given ↔ found = some (word, words) ∧ r.Holds given := by
  have hrun : run g r (word :: words) = .ok (r, some (word, words)) := by
    rw [run, if_pos (by rw [honly, hawaiting, hword]; rfl)]
  constructor
  · rintro ⟨last, h, hholds⟩
    cases hrun.symm.trans h
    exact ⟨rfl, hholds⟩
  · rintro ⟨rfl, hholds⟩
    exact ⟨r, hrun, hholds⟩

theorem reads_cons_iff
    (h : r.onlyOperands = true ∨ r.awaiting? ≠ none ∨ g.hasCommand word = false) :
    Reads g r (word :: words) found given ↔
      ∃ r', step g r word = .ok r' ∧ Reads g r' words found given := by
  have hno : ¬(!r.onlyOperands && r.awaiting?.isNone && g.hasCommand word) = true := by
    rw [Bool.and_eq_true, Bool.and_eq_true, Bool.not_eq_true', Option.isNone_iff_eq_none]
    rintro ⟨⟨honly, hnone⟩, hcommand⟩
    rcases h with h | h | h
    · cases honly.symm.trans h
    · exact h hnone
    · cases hcommand.symm.trans h
  unfold Reads
  rw [run, if_neg hno]
  cases step g r word with
  | error stop =>
      refine iff_of_false ?_ ?_
      · rintro ⟨_, ⟨⟩, -⟩
      · rintro ⟨_, ⟨⟩, -⟩
  | ok r' =>
      constructor
      · exact fun h => ⟨r', rfl, h⟩
      · rintro ⟨_, ⟨⟩, h⟩
        exact h

/-- Behind two dashes nothing may come. -/
theorem reads_onlyOperands_iff (hg : g.Clear) (honly : r.onlyOperands = true) :
    Reads g r words found given ↔ words = [] ∧ found = none ∧ r.Holds given := by
  cases words with
  | nil => rw [reads_nil_iff, eq_self_iff_true, true_and]
  | cons word words =>
      rw [reads_cons_iff (Or.inl honly)]
      refine iff_of_false ?_ (fun h => nomatch h.1)
      rintro ⟨r', hstep, -⟩
      rw [step, if_pos honly] at hstep
      exact readOperand_ne_ok hg hstep

theorem reads_dashes_iff (hg : g.Clear) (honly : r.onlyOperands = false) :
    Reads g r ("--" :: words) found given ↔ words = [] ∧ found = none ∧ r.Holds given := by
  have hcommand : g.hasCommand "--" = false := by
    by_contra h
    exact hg.commands "--" (Bool.not_eq_false _ ▸ h) ['-'] rfl
  have hstep : step g r "--" = .ok { r with onlyOperands := true } := by
    rw [step, honly]
    rfl
  rw [reads_cons_iff (Or.inr (Or.inr hcommand)), hstep, ← holds_onlyOperands_iff,
    ← reads_onlyOperands_iff hg rfl]
  constructor
  · rintro ⟨_, ⟨⟩, h⟩
    exact h
  · exact fun h => ⟨_, rfl, h⟩

/-- Words are read as if what is pending were checked first. -/
theorem reads_resolve_iff (hg : g.Clear) (honly : r.onlyOperands = false)
    (hawaiting : r.awaiting? = none) :
    Reads g r words found given ↔ ∃ r', r.resolve = .ok r' ∧ Reads g r' words found given := by
  have hthen {r' : Reader} (h : r.resolve = .ok r') : r'.onlyOperands = false :=
    (settled_of_resolve h).2.trans honly
  cases words with
  | nil => simp only [reads_nil_iff, holds_resolve_iff (r := r), and_left_comm, exists_and_left]
  | cons word words =>
      by_cases hdashes : word = "--"
      · subst hdashes
        rw [reads_dashes_iff hg honly, holds_resolve_iff]
        constructor
        · rintro ⟨hnil, hnone, r', h, hholds⟩
          exact ⟨r', h, (reads_dashes_iff hg (hthen h)).2 ⟨hnil, hnone, hholds⟩⟩
        · rintro ⟨r', h, hreads⟩
          obtain ⟨hnil, hnone, hholds⟩ := (reads_dashes_iff hg (hthen h)).1 hreads
          exact ⟨hnil, hnone, r', h, hholds⟩
      · cases hcommand : g.hasCommand word with
        | true =>
            rw [reads_command_iff honly hawaiting hcommand, holds_resolve_iff, ← exists_and_left]
            refine exists_congr fun r' => Iff.trans and_left_comm (and_congr_right fun h => ?_)
            rw [reads_command_iff (hthen h) (awaiting?_of_resolve h) hcommand]
        | false =>
            rw [reads_cons_iff (Or.inr (Or.inr hcommand))]
            simp only [step_eq_ok_iff hg honly hdashes (Or.inl hawaiting)]
            constructor
            · rintro ⟨behind, ⟨r', h, hstep⟩, hreads⟩
              exact ⟨r', h, (reads_cons_iff (Or.inr (Or.inr hcommand))).2 ⟨behind, hstep, hreads⟩⟩
            · rintro ⟨r', h, hreads⟩
              obtain ⟨behind, hstep, hreads⟩ := (reads_cons_iff (Or.inr (Or.inr hcommand))).1 hreads
              exact ⟨behind, ⟨r', h, hstep⟩, hreads⟩

/-- A word is read from uses that are held: it closes further uses or leaves an option that
    waits. -/
theorem reads_word_iff (hg : g.Clear) (hfits : uses.Fits g.flags) (hdashes : word ≠ "--")
    (hcommand : g.hasCommand word = false) :
    Reads g (holding uses) (word :: words) found given ↔
      ∃ more waiting, Word g.spellings word more (waiting.map Flag.long) ∧
        (∀ f ∈ waiting, f ∈ g.flags) ∧ Uses.Fits (uses ++ more) g.flags ∧
        Reads g (holding (uses ++ more) waiting) words found given := by
  rw [reads_cons_iff (Or.inr (Or.inr hcommand))]
  simp only [step_holding_iff hg hfits hdashes]
  constructor
  · rintro ⟨_, ⟨more, waiting, hword, hwaiting, hfit, rfl⟩, hreads⟩
    exact ⟨more, waiting, hword, hwaiting, hfit, hreads⟩
  · rintro ⟨more, waiting, hword, hwaiting, hfit, hreads⟩
    exact ⟨_, ⟨more, waiting, hword, hwaiting, hfit, rfl⟩, hreads⟩

/-- An option that waits for its value takes the next word. -/
theorem reads_waiting_iff (hg : g.Clear) (hf : f ∈ g.flags) (hfits : uses.Fits g.flags) :
    Reads g (holding uses (some f)) words found given ↔
      ∃ value rest, words = value :: rest ∧ IsValue value ∧
        Uses.Fits (uses ++ [(f.long, value)]) g.flags ∧
        Reads g (holding (uses ++ [(f.long, value)])) rest found given := by
  have hunsettled {r' : Reader} : resolve (holding uses (some f)) ≠ .ok r' := nofun
  cases words with
  | nil =>
      rw [reads_nil_iff]
      refine iff_of_false (fun h => not_holds_waiting h.2) ?_
      rintro ⟨_, _, ⟨⟩, -⟩
  | cons word words =>
      by_cases hdashes : word = "--"
      · subst hdashes
        rw [reads_dashes_iff hg rfl]
        refine iff_of_false (fun h => not_holds_waiting h.2.2) ?_
        rintro ⟨_, _, ⟨⟩, hvalue, -⟩
        exact hvalue '-' [] rfl
      · rw [reads_cons_iff (r := holding uses (some f)) (Or.inr (Or.inl (Option.some_ne_none f)))]
        by_cases hvalue : IsValue word
        · have hstep : step g (holding uses (some f)) word =
              .ok { holding uses with pending := some (.flag f, some word) } :=
            (step_value rfl hvalue).1 f rfl
          rw [hstep]
          constructor
          · rintro ⟨_, ⟨⟩, hreads⟩
            obtain ⟨r', h, hreads⟩ := (reads_resolve_iff hg rfl rfl).1 hreads
            obtain ⟨_, huse, rfl⟩ := map_eq_ok_iff.1 h
            obtain ⟨hfit, rfl⟩ := (Given.use_eq_ok_iff hg hf hfits).1 huse
            exact ⟨word, words, rfl, hvalue, hfit, hreads⟩
          · rintro ⟨_, _, ⟨⟩, -, hfit, hreads⟩
            refine ⟨_, rfl, (reads_resolve_iff hg rfl rfl).2 ⟨_, ?_, hreads⟩⟩
            exact map_eq_ok_iff.2 ⟨_, (Given.use_eq_ok_iff hg hf hfits).2 ⟨hfit, rfl⟩, rfl⟩
        · refine iff_of_false ?_ ?_
          · rintro ⟨r', hstep, -⟩
            obtain ⟨_, h, -⟩ := (step_eq_ok_iff hg rfl hdashes (Or.inr hvalue)).1 hstep
            exact hunsettled h
          · rintro ⟨_, _, ⟨⟩, hword, -⟩
            exact hvalue hword

/-- What may stand behind the options: nothing, two dashes, or a command with its own words. -/
inductive Ends (g : Grammar) : List String → Option (String × List String) → Prop where
  | nothing : Ends g [] none
  | dashes : Ends g ["--"] none
  | command {word : String} {words : List String} (h : g.hasCommand word = true) :
      Ends g (word :: words) (some (word, words))

theorem reads_of_ends (hg : g.Clear) (hends : Ends g words found) :
    Reads g (holding uses) words found { flags := uses } := by
  have hholds : (holding uses).Holds { flags := uses } := holds_holding_iff.2 rfl
  cases hends with
  | nothing => exact reads_nil_iff.2 ⟨rfl, hholds⟩
  | dashes => exact (reads_dashes_iff hg rfl).2 ⟨rfl, rfl, hholds⟩
  | command hcommand => exact (reads_command_iff rfl rfl hcommand).2 ⟨rfl, hholds⟩

/-- Words that are read are an end, or the first of them is read from uses that are held. -/
theorem ends_or_of_reads (hg : g.Clear) (h : Reads g (holding uses) words found given) :
    (Ends g words found ∧ given = { flags := uses }) ∨
      ∃ word rest, words = word :: rest ∧ word ≠ "--" ∧ g.hasCommand word = false := by
  cases words with
  | nil =>
      obtain ⟨rfl, hholds⟩ := reads_nil_iff.1 h
      exact Or.inl ⟨.nothing, holds_holding_iff.1 hholds⟩
  | cons word rest =>
      by_cases hdashes : word = "--"
      · subst hdashes
        obtain ⟨rfl, rfl, hholds⟩ := (reads_dashes_iff hg rfl).1 h
        exact Or.inl ⟨.dashes, holds_holding_iff.1 hholds⟩
      · cases hcommand : g.hasCommand word with
        | true =>
            obtain ⟨rfl, hholds⟩ := (reads_command_iff rfl rfl hcommand).1 h
            exact Or.inl ⟨.command hcommand, holds_holding_iff.1 hholds⟩
        | false => exact Or.inr ⟨word, rest, rfl, hdashes, hcommand⟩

theorem written_of_reads (hg : g.Clear) (hfits : uses.Fits g.flags)
    (h : Reads g (holding uses) words found given) :
    ∃ front more tail, words = front ++ tail ∧ Written g.spellings front more ∧
      Ends g tail found ∧ Uses.Fits (uses ++ more) g.flags ∧ given = { flags := uses ++ more } := by
  -- a value may stand in a word of its own, so the induction goes over the number of words
  induction hn : words.length using Nat.strongRecOn generalizing words uses with
  | ind n ih =>
      subst hn
      obtain ⟨hends, rfl⟩ | ⟨word, words, rfl, hdashes, hcommand⟩ := ends_or_of_reads hg h
      · refine ⟨[], [], words, rfl, .nil, hends, ?_⟩
        rw [List.append_nil]
        exact ⟨hfits, rfl⟩
      · obtain ⟨more, waiting, hword, hwaiting, hfit, hreads⟩ :=
          (reads_word_iff hg hfits hdashes hcommand).1 h
        cases waiting with
        | none =>
            obtain ⟨front, behind, tail, rfl, hwritten, hends, hfit, rfl⟩ :=
              ih _ (Nat.lt_succ_self _) hfit hreads rfl
            rw [List.append_assoc] at hfit ⊢
            exact ⟨_, _, tail, rfl, .closed hword hwritten, hends, hfit, rfl⟩
        | some f =>
            obtain ⟨value, words, rfl, hvalue, hfit, hreads⟩ :=
              (reads_waiting_iff hg (hwaiting f rfl) hfit).1 hreads
            obtain ⟨front, behind, tail, rfl, hwritten, hends, hfit, rfl⟩ :=
              ih _ (by rw [List.length_cons, List.length_cons]; omega) hfit hreads rfl
            rw [List.append_assoc, List.append_assoc] at hfit ⊢
            exact ⟨_, _, tail, rfl, .valued hword hvalue hwritten, hends, hfit, rfl⟩

theorem reads_of_written (hg : g.Clear) (hfits : uses.Fits g.flags) {front tail : List String}
    (hwritten : Written g.spellings front more) (hends : Ends g tail found)
    (hfit : Uses.Fits (uses ++ more) g.flags) :
    Reads g (holding uses) (front ++ tail) found { flags := uses ++ more } := by
  induction hwritten generalizing uses with
  | nil =>
      rw [List.append_nil]
      exact reads_of_ends hg hends
  | @closed word words here more hword hwords ih =>
      rw [← List.append_assoc] at hfit ⊢
      refine (reads_word_iff hg hfits (ne_dashes_of_word hg hword)
        (hasCommand_eq_false_of_word hg hword)).2 ⟨here, none, hword, nofun, hfit.of_append, ?_⟩
      exact ih hfit.of_append hfit
  | @valued word name value words here more hword hvalue hwords ih =>
      obtain ⟨f, hf, rfl⟩ := exists_flag_of_waiting hword
      rw [← List.append_assoc, List.append_cons] at hfit ⊢
      have hhere : Uses.Fits (uses ++ here) g.flags := hfit.of_append.of_append
      refine (reads_word_iff hg hfits (ne_dashes_of_word hg hword)
        (hasCommand_eq_false_of_word hg hword)).2 ⟨here, some f, hword, ?_, hhere, ?_⟩
      · rintro _ ⟨⟩
        exact hf
      · exact (reads_waiting_iff hg hf hhere).2
          ⟨value, _, rfl, hvalue, hfit.of_append, ih hfit.of_append hfit⟩

/-- **What is read is what is written.** From uses that are held, words are read to the end exactly
    if options are written in front of an end, and then their uses are what has been given. -/
theorem reads_iff (hg : g.Clear) (hfits : uses.Fits g.flags) :
    Reads g (holding uses) words found given ↔
      ∃ front more tail, words = front ++ tail ∧ Written g.spellings front more ∧
        Ends g tail found ∧ Uses.Fits (uses ++ more) g.flags ∧
        given = { flags := uses ++ more } := by
  constructor
  · exact written_of_reads hg hfits
  · rintro ⟨front, more, tail, rfl, hwritten, hends, hfit, rfl⟩
    exact reads_of_written hg hfits hwritten hends hfit

end Reads

/-! ## Whole command lines -/

/-- What uses have to be like at the end of a command line: each option fits and is there if it is
    required, or if the variable in its place does not fit. -/
structure Suits (g : Grammar) (environment : String → Option (List UInt8)) (uses : Uses) :
    Prop where
  fits : uses.Fits g.flags
  required : ∀ f ∈ g.flags, f.required = true → uses.valuesOf f.long ≠ []
  overridden : ∀ f ∈ g.flags,
    f.environment.bind environment = some [] → uses.valuesOf f.long ≠ []

variable {environment : String → Option (List UInt8)} {given : Given}

theorem checkVariable_eq_ok_iff :
    checkVariable environment f = .ok () ↔ f.environment.bind environment ≠ some [] := by
  unfold checkVariable
  split
  · next h => exact iff_of_false nofun fun hne => hne h
  · next h => exact iff_of_true rfl h

theorem checkVariables_eq_ok_iff {flags : List Flag} :
    flags.forM (checkVariable environment) = .ok () ↔
      ∀ f ∈ flags, f.environment.bind environment ≠ some [] := by
  induction flags with
  | nil => exact iff_of_true rfl nofun
  | cons f flags ih =>
      rw [List.forall_mem_cons, ← ih, ← checkVariable_eq_ok_iff]
      refine (bind_eq_ok_iff (x := checkVariable environment f)).trans ?_
      constructor
      · rintro ⟨⟨⟩, hcheck, hrest⟩
        exact ⟨hcheck, hrest⟩
      · rintro ⟨hcheck, hrest⟩
        exact ⟨(), hcheck, hrest⟩

theorem finish_eq_ok_iff :
    r.finish g environment = .ok given ↔ r.Holds given ∧
      (∀ f ∈ g.flags, f.required = true → given.has f.long = true) ∧
      ∀ f ∈ g.flags, f.environment.bind environment = some [] → given.has f.long = true := by
  have hvariables (given : Given) :
      (g.flags.filter fun f => !given.has f.long).forM (checkVariable environment) = .ok () ↔
        ∀ f ∈ g.flags, f.environment.bind environment = some [] → given.has f.long = true := by
    simp only [checkVariables_eq_ok_iff, List.mem_filter, Bool.not_eq_true', and_imp]
    refine forall₂_congr fun f hf => ?_
    rw [← not_imp_not, ne_eq, Classical.not_not, Bool.not_eq_false]
  have hrequired (given : Given) :
      (g.flags.any fun f => f.required && !given.has f.long) = false ↔
        ∀ f ∈ g.flags, f.required = true → given.has f.long = true := by
    simp
  constructor
  · intro h
    obtain ⟨r', hresolve, h⟩ := bind_eq_ok_iff.1 h
    obtain ⟨⟨⟩, hcheck, h⟩ := bind_eq_ok_iff.1 h
    split at h
    · cases h
    · next hany =>
        cases h
        exact ⟨⟨r', hresolve, rfl⟩, (hrequired _).1 (Bool.eq_false_iff.2 hany),
          (hvariables _).1 hcheck⟩
  · rintro ⟨⟨r', hresolve, rfl⟩, hall, hcheck⟩
    refine bind_eq_ok_iff.2 ⟨r', hresolve, bind_eq_ok_iff.2 ⟨(), (hvariables _).2 hcheck, ?_⟩⟩
    exact if_neg (Bool.eq_false_iff.1 ((hrequired _).2 hall))

/-- Words are read to the end, and nothing is missing then, exactly if options that suit the grammar
    are written in front of an end. -/
theorem run_finish_iff (hg : g.Clear) {words : List String}
    {found : Option (String × List String)} :
    (∃ last, run g {} words = .ok (last, found) ∧ last.finish g environment = .ok given) ↔
      ∃ front uses tail, words = front ++ tail ∧ Written g.spellings front uses ∧
        Ends g tail found ∧ Suits g environment uses ∧ given = { flags := uses } := by
  have hreads :
      (∃ last, run g {} words = .ok (last, found) ∧ last.finish g environment = .ok given) ↔
      Reads g (holding []) words found given ∧
        (∀ f ∈ g.flags, f.required = true → given.has f.long = true) ∧
        ∀ f ∈ g.flags, f.environment.bind environment = some [] → given.has f.long = true := by
    simp only [finish_eq_ok_iff, ← and_assoc, exists_and_right]
    rfl
  rw [hreads, reads_iff hg (Uses.fits_nil _)]
  constructor
  · rintro ⟨⟨front, uses, tail, rfl, hwritten, hends, hfits, rfl⟩, hrequired, hoverridden⟩
    simp only [Given.has_eq_true_iff] at hrequired hoverridden
    exact ⟨front, uses, tail, rfl, hwritten, hends, ⟨hfits, hrequired, hoverridden⟩, rfl⟩
  · rintro ⟨front, uses, tail, rfl, hwritten, hends, hsuits, rfl⟩
    simp only [Given.has_eq_true_iff]
    exact ⟨⟨front, uses, tail, rfl, hwritten, hends, hsuits.fits, rfl⟩, hsuits.required,
      hsuits.overridden⟩

end Reader

end SigVerdict.CommandLine
