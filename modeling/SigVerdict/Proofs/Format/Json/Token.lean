import SigVerdict.Proofs.Format.Json.Layout
import SigVerdict.Proofs.Text.Numeral

set_option autoImplicit false

/-! # Reading the tokens of a layout

The tokens of a text are found again in every layout of them (`tokens?_of_laid`), as long as its
strings are texts and its numbers are whole. The reader holds what it has read of a token, and so
each kind of token is followed through its characters; a string is followed through the ways in
which its characters are written. -/

namespace SigVerdict.Json

open Text

variable {c : Char} {cs rest held : List Char} {pieces : List Piece} {phase next : Phase}
  {token : Token} {tokens : List Token}

/-! ## One character -/

/-- A character in the middle of a token. -/
theorem tokensFrom?_of_held (h : readChar c phase = some ([], next)) (cs : List Char) :
    tokensFrom? phase (c :: cs) = tokensFrom? next cs := by
  rw [tokensFrom?, h]
  cases hnext : tokensFrom? next cs <;> simp [hnext]

/-- A character that completes a token. -/
theorem tokensFrom?_of_token (h : readChar c phase = some ([token], next)) (cs : List Char) :
    tokensFrom? phase (c :: cs) = (tokensFrom? next cs).map (token :: ·) := by
  rw [tokensFrom?, h]
  cases hnext : tokensFrom? next cs <;> simp [hnext]

theorem tokensFrom?_spaces (h : Spaces cs) (rest : List Char) :
    tokensFrom? .between (cs ++ rest) = tokensFrom? .between rest := by
  induction cs with
  | nil => rfl
  | cons c cs ih =>
      obtain ⟨hc, hcs⟩ := List.forall_mem_cons.1 h
      have hread : readChar c .between = some ([], .between) := if_pos hc
      rw [List.cons_append, tokensFrom?_of_held hread, ih hcs]

/-! ## Names and numbers -/

/-- A token that is held is complete in front of a character that is not part of it. -/
theorem tokensFrom?_of_closed {closed : Option Token} (hfinish : finish? phase = closed.map ([·]))
    (hread : ∀ c, rest.head? = some c → readChar c phase =
      closed.bind fun token => (startToken c).map fun started =>
        (token :: started.1, started.2)) :
    tokensFrom? phase rest = closed.bind fun token =>
      (tokensFrom? .between rest).map (token :: ·) := by
  cases rest with
  | nil =>
      rw [tokensFrom?, tokensFrom?, hfinish]
      cases closed <;> rfl
  | cons c rest =>
      rw [tokensFrom?, tokensFrom?, hread c rfl, readChar]
      cases closed with
      | none => rfl
      | some token =>
          cases startToken c with
          | none => rfl
          | some started => cases h : tokensFrom? started.2 rest <;> simp [h]

/-- A name is complete in front of what ends it. -/
theorem tokensFrom?_name (hends : Ends rest) (held : List Char) :
    tokensFrom? (.name held) rest =
      (nameToken? held.reverse).bind fun token => (tokensFrom? .between rest).map (token :: ·) := by
  refine tokensFrom?_of_closed rfl fun c hc => ?_
  rw [readChar, (hends c hc).1]
  cases nameToken? held.reverse with
  | none => rfl
  | some token => cases h : startToken c <;> simp

/-- A number is complete in front of what ends it. -/
theorem tokensFrom?_number (hends : Ends rest) (held : List Char) :
    tokensFrom? (.number held) rest =
      (closeNumber? held).bind fun token => (tokensFrom? .between rest).map (token :: ·) := by
  refine tokensFrom?_of_closed rfl fun c hc => ?_
  rw [readChar, (hends c hc).2]
  cases closeNumber? held with
  | none => rfl
  | some token => cases h : startToken c <;> simp

/-- What is held of a token grows by the characters that go on with it. -/
theorem tokensFrom?_held_append (hold : List Char → Phase)
    (h : ∀ c ∈ cs, ∀ held, readChar c (hold held) = some ([], hold (c :: held)))
    (held rest : List Char) :
    tokensFrom? (hold held) (cs ++ rest) = tokensFrom? (hold (cs.reverse ++ held)) rest := by
  induction cs generalizing held with
  | nil => rfl
  | cons c cs ih =>
      obtain ⟨hc, hcs⟩ := List.forall_mem_cons.1 h
      rw [List.cons_append, tokensFrom?_of_held (hc held), ih hcs, List.reverse_cons,
        List.append_assoc, List.singleton_append]

theorem digitsThen_digits (n : Nat) : digitsThen isFraction (digits n) = true := by
  have hall : ∀ c ∈ digits n, (digitValue? c).isSome = true := by
    intro c hc
    obtain ⟨d, hd, rfl⟩ := exists_digitOf_of_mem_digits hc
    rw [digitValue?_digitOf hd]
    rfl
  have hne : (digits n).isEmpty = false := by simpa using digits_ne_nil n
  simp only [digitsThen, List.takeWhile_eq_self_iff.2 hall, List.dropWhile_eq_nil_iff.2 hall, hne]
  rfl

theorem isNumber_cons (hzero : c ≠ '0') (hminus : c ≠ '-') (cs : List Char) :
    isNumber (c :: cs) = digitsThen isFraction (c :: cs) ∧
      isNumber ('-' :: c :: cs) = digitsThen isFraction (c :: cs) := by
  simp [isNumber, hzero, hminus]

/-- The numeral of an integer is a number, as it has no zero in front of other digits. -/
theorem isNumber_integerDigits (n : Int) : isNumber (integerDigits n) = true := by
  have hdigits : ∀ m, m ≠ 0 → isNumber (digits m) = true ∧ isNumber ('-' :: digits m) = true := by
    intro m hm
    have hthen := digitsThen_digits m
    have hzero := mt head?_digits_iff.1 hm
    obtain ⟨c, cs, hcons⟩ := List.exists_cons_of_ne_nil (digits_ne_nil m)
    have hc : c ∈ digits m := by rw [hcons]; exact List.mem_cons_self
    have hminus : c ≠ '-' := by
      obtain ⟨d, hd, rfl⟩ := exists_digitOf_of_mem_digits hc
      have hall : ∀ d < 10, digitOf d ≠ '-' := by decide
      exact hall d hd
    rw [hcons] at hthen hzero ⊢
    rw [(isNumber_cons (by simpa using hzero) hminus cs).1,
      (isNumber_cons (by simpa using hzero) hminus cs).2]
    exact ⟨hthen, hthen⟩
  cases n with
  | ofNat m =>
      by_cases hm : m = 0
      · rw [hm]
        show isNumber (digits 0) = true
        rw [digits_of_lt (by decide)]
        rfl
      · exact (hdigits m hm).1
  | negSucc m => exact (hdigits (m + 1) m.succ_ne_zero).2

/-- The numeral of an integer is read in front of what ends it. -/
theorem tokensFrom?_integerDigits (hends : Ends rest) (n : Int) :
    tokensFrom? .between (integerDigits n ++ rest) =
      (tokensFrom? .between rest).map (.number (integerDigits n) :: ·) := by
  have hstart : ∃ c cs, integerDigits n = c :: cs ∧
      readChar c .between = some ([], .number [c]) ∧ ∀ d ∈ cs, isNumberChar d = true := by
    have hfirst : ∀ d < 10, readChar (digitOf d) .between = some ([], .number [digitOf d]) := by
      decide
    have hall : ∀ m, ∀ c ∈ digits m, isNumberChar c = true := by
      intro m c hc
      obtain ⟨d, hd, rfl⟩ := exists_digitOf_of_mem_digits hc
      rw [isNumberChar, digitValue?_digitOf hd]
      rfl
    cases n with
    | ofNat m =>
        obtain ⟨c, cs, hcons⟩ := List.exists_cons_of_ne_nil (digits_ne_nil m)
        obtain ⟨d, hd, rfl⟩ := exists_digitOf_of_mem_digits
          (by rw [hcons]; exact List.mem_cons_self : c ∈ digits m)
        refine ⟨digitOf d, cs, hcons, hfirst d hd, fun c hc => hall m c ?_⟩
        rw [hcons]
        exact List.mem_cons_of_mem _ hc
    | negSucc m => exact ⟨'-', digits (m + 1), rfl, by decide, hall (m + 1)⟩
  have hnumber := isNumber_integerDigits n
  obtain ⟨c, cs, hcons, hread, hall⟩ := hstart
  rw [hcons] at hnumber ⊢
  rw [List.cons_append, tokensFrom?_of_held hread,
    tokensFrom?_held_append .number fun d hd _ => if_pos (hall d hd), tokensFrom?_number hends,
    closeNumber?]
  simp [hnumber]

theorem tokensFrom?_of_name (hread : readChar c .between = some ([], .name [c]))
    (hall : ∀ d ∈ cs, isNameChar d = true) (htoken : nameToken? (c :: cs) = some token)
    (hends : Ends rest) :
    tokensFrom? .between (c :: cs ++ rest) = (tokensFrom? .between rest).map (token :: ·) := by
  rw [List.cons_append, tokensFrom?_of_held hread,
    tokensFrom?_held_append .name fun d hd _ => if_pos (hall d hd), tokensFrom?_name hends]
  simp [htoken]

/-! ## Strings -/

/-- The piece of a string that a character is read as when it is written by a printer. -/
def pieceOf (c : Char) : Piece :=
  if letterOf? c = none ∧ c.toNat < 32 then .unit c.toNat else .char c

theorem letterOf?_ne {letter : Char} (h : letterOf? c = some letter) : letter ≠ 'u' := by
  have key : ∀ entry ∈ letters, entry.2 ≠ 'u' := by decide
  obtain ⟨front, back, split, -⟩ := List.lookup_eq_some_iff.1 h
  exact key (c, letter) (by simp [split])

theorem hexValue?_hexDigit {d : Nat} (h : d < 16) : hexValue? (hexDigit false d) = some d := by
  have hall : ∀ d < 16, hexValue? (hexDigit false d) = some d := by decide
  exact hall d h

/-- Four digits of an escape, of which a printer writes two zeros first. -/
theorem tokensFrom?_unit {n : Nat} (hn : n < 256) (pieces : List Piece) (rest : List Char) :
    tokensFrom? (.unit pieces 0 4)
        ('0' :: '0' :: hexDigit false (n / 16) :: hexDigit false (n % 16) :: rest) =
      tokensFrom? (.string (.unit n :: pieces)) rest := by
  have hhigh : hexValue? (hexDigit false (n / 16)) = some (n / 16) := hexValue?_hexDigit (by omega)
  have hlow : hexValue? (hexDigit false (n % 16)) = some (n % 16) := hexValue?_hexDigit (by omega)
  have hfirst : readChar '0' (.unit pieces 0 4) = some ([], .unit pieces 0 3) := rfl
  have hsecond : readChar '0' (.unit pieces 0 3) = some ([], .unit pieces 0 2) := rfl
  have hthird : readChar (hexDigit false (n / 16)) (.unit pieces 0 2) =
      some ([], .unit pieces (n / 16) 1) := by
    rw [readChar, hhigh]
    simp
  have hfourth : readChar (hexDigit false (n % 16)) (.unit pieces (n / 16) 1) =
      some ([], .string (.unit n :: pieces)) := by
    rw [readChar, hlow]
    simp [Nat.div_add_mod]
  rw [tokensFrom?_of_held hfirst, tokensFrom?_of_held hsecond, tokensFrom?_of_held hthird,
    tokensFrom?_of_held hfourth]

/-- Each way to write a character is read back as its piece. -/
theorem tokensFrom?_escape (c : Char) (pieces : List Piece) (rest : List Char) :
    tokensFrom? (.string pieces) (escape c ++ rest) =
      tokensFrom? (.string (pieceOf c :: pieces)) rest := by
  have hbackslash : ∀ cs, tokensFrom? (.string pieces) ('\\' :: cs) =
      tokensFrom? (.escape pieces) cs := fun cs => tokensFrom?_of_held rfl cs
  unfold escape pieceOf
  cases hletter : letterOf? c with
  | some letter =>
      have hread : readChar letter (.escape pieces) = some ([], .string (.char c :: pieces)) := by
        simp [readChar, letterOf?_ne hletter, unescape?_of_letterOf? hletter]
      simp only [List.cons_append, List.nil_append]
      rw [hbackslash, tokensFrom?_of_held hread, if_neg nofun]
  | none =>
      by_cases hcontrol : c.toNat < 32
      · have hu : readChar 'u' (.escape pieces) = some ([], .unit pieces 0 4) := rfl
        simp only [if_pos hcontrol, List.cons_append, List.nil_append]
        rw [hbackslash, tokensFrom?_of_held hu, tokensFrom?_unit (by omega),
          if_pos ⟨trivial, hcontrol⟩]
      · -- the quote and the backslash would have letters
        have hquote : c ≠ '"' := by
          rintro rfl
          cases hletter
        have hslash : c ≠ '\\' := by
          rintro rfl
          cases hletter
        have hread : readChar c (.string pieces) = some ([], .string (.char c :: pieces)) := by
          simp [readChar, hquote, hslash, hcontrol]
        simp only [if_neg hcontrol, List.cons_append, List.nil_append]
        rw [tokensFrom?_of_held hread, if_neg fun h => hcontrol h.2]

theorem tokensFrom?_escapes (cs : List Char) (pieces : List Piece) (rest : List Char) :
    tokensFrom? (.string pieces) (cs.flatMap escape ++ rest) =
      tokensFrom? (.string ((cs.map pieceOf).reverse ++ pieces)) rest := by
  induction cs generalizing pieces with
  | nil => rfl
  | cons c cs ih =>
      rw [List.flatMap_cons, List.append_assoc, tokensFrom?_escape, ih, List.map_cons,
        List.reverse_cons, List.append_assoc, List.singleton_append]

/-- The pieces of a text make this text again; none of them is half of a character. -/
theorem textOf_map_pieceOf (cs : List Char) : textOf (cs.map pieceOf) = some cs := by
  induction cs with
  | nil => rfl
  | cons c cs ih =>
      rw [List.map_cons, pieceOf]
      split
      · next h =>
          have hhigh : isHighHalf c.toNat = false := by simp [isHighHalf]; omega
          have hlow : isLowHalf c.toNat = false := by simp [isLowHalf]; omega
          rw [textOf.eq_def]
          simp [hhigh, hlow, ih]
      · rw [textOf, ih]
        rfl

/-- A string that a printer writes is read back. -/
theorem tokensFrom?_renderString (text : String) (rest : List Char) :
    tokensFrom? .between (renderString (some text) ++ rest) =
      (tokensFrom? .between rest).map (.string (some text) :: ·) := by
  have hopen : ∀ cs, tokensFrom? .between ('"' :: cs) = tokensFrom? (.string []) cs :=
    fun cs => tokensFrom?_of_held rfl cs
  have hclose : readChar '"' (.string (text.toList.map pieceOf).reverse) =
      some ([.string (some text)], .between) := by
    simp [readChar, closeString, textOf_map_pieceOf]
  rw [renderString, quote, Option.getD_some, List.cons_append, List.cons_append, hopen,
    List.append_assoc, tokensFrom?_escapes, List.append_nil, List.singleton_append]
  exact tokensFrom?_of_token hclose rest

/-! ## Layouts -/

/-- A token that a printer writes so that it is read back: a string that is a text, or a number that
    is whole. -/
def Token.IsProper : Token → Prop
  | .string text => text.isSome = true
  | .number numeral => ∃ n : Int, numeral = integerDigits n
  | _ => True

theorem tokensFrom?_spelling (h : token.IsProper) (hends : token.IsOpenEnded → Ends rest) :
    tokensFrom? .between (token.spelling ++ rest) =
      (tokensFrom? .between rest).map (token :: ·) := by
  cases token with
  | openSquare => exact tokensFrom?_of_token rfl rest
  | closeSquare => exact tokensFrom?_of_token rfl rest
  | openCurly => exact tokensFrom?_of_token rfl rest
  | closeCurly => exact tokensFrom?_of_token rfl rest
  | comma => exact tokensFrom?_of_token rfl rest
  | colon => exact tokensFrom?_of_token rfl rest
  | null =>
      show tokensFrom? .between ('n' :: ['u', 'l', 'l'] ++ rest) = _
      exact tokensFrom?_of_name rfl (List.all_eq_true.1 rfl) rfl (hends trivial)
  | bool value =>
      cases value with
      | true =>
          show tokensFrom? .between ('t' :: ['r', 'u', 'e'] ++ rest) = _
          exact tokensFrom?_of_name rfl (List.all_eq_true.1 rfl) rfl (hends trivial)
      | false =>
          show tokensFrom? .between ('f' :: ['a', 'l', 's', 'e'] ++ rest) = _
          exact tokensFrom?_of_name rfl (List.all_eq_true.1 rfl) rfl (hends trivial)
  | number numeral =>
      obtain ⟨n, rfl⟩ := h
      exact tokensFrom?_integerDigits (hends trivial) n
  | string text =>
      obtain ⟨text, rfl⟩ := Option.isSome_iff_exists.1 h
      exact tokensFrom?_renderString text rest

/-- **The tokens of a text are found in every layout of them.** -/
theorem tokens?_of_laid (hproper : ∀ token ∈ tokens, token.IsProper) (h : Laid tokens cs) :
    tokens? cs = some tokens := by
  rw [tokens?]
  induction h with
  | nil h =>
      have hspaces := tokensFrom?_spaces h []
      rwa [List.append_nil] at hspaces
  | cons hlead hends hrest ih =>
      obtain ⟨htoken, htokens⟩ := List.forall_mem_cons.1 hproper
      rw [tokensFrom?_spaces hlead, tokensFrom?_spelling htoken hends, ih htokens, Option.map_some]

end SigVerdict.Json
