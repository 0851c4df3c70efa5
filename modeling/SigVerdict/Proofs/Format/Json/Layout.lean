import SigVerdict.Format.Json.Printer
import SigVerdict.Format.Json.Token

set_option autoImplicit false

/-! # Layouts of JSON

A JSON text is made of tokens, each spelt in its own way, with any white space around them (`Laid`).
Only behind a name or a number this is not quite free, as it must be seen where this ends. The
tokens of a value are the same in all its layouts, and the one that a printer makes is one of them
(`laid_render`). -/

namespace SigVerdict.Json

/-! ## Tokens of a value -/

/-- How a token is spelt. -/
def Token.spelling : Token → List Char
  | .openSquare => ['[']
  | .closeSquare => [']']
  | .openCurly => ['\x7b']
  | .closeCurly => ['\x7d']
  | .comma => [',']
  | .colon => [':']
  | .null => "null".toList
  | .bool true => "true".toList
  | .bool false => "false".toList
  | .number numeral => numeral
  | .string text => renderString text

/-- Whether a token has no end of its own, so that what stands behind it has to end it. -/
def Token.IsOpenEnded : Token → Prop
  | .null | .bool _ | .number _ => True
  | _ => False

mutual

/-- The tokens of a value. -/
def tokensOf : Json → List Token
  | .null => [.null]
  | .bool b => [.bool b]
  | .number numeral => [.number numeral]
  | .string text => [.string text]
  | .array [] => [.openSquare, .closeSquare]
  | .array (item :: items) =>
    .openSquare :: (tokensOf item ++ (tokensOfItems items ++ [.closeSquare]))
  | .object [] => [.openCurly, .closeCurly]
  | .object ((key, value) :: members) =>
    .openCurly :: .string key :: .colon ::
      (tokensOf value ++ (tokensOfMembers members ++ [.closeCurly]))

/-- The tokens of the items behind the first one. -/
def tokensOfItems : List Json → List Token
  | [] => []
  | item :: items => .comma :: (tokensOf item ++ tokensOfItems items)

/-- The tokens of the members behind the first one. -/
def tokensOfMembers : List (Option String × Json) → List Token
  | [] => []
  | (key, value) :: members =>
    .comma :: .string key :: .colon :: (tokensOf value ++ tokensOfMembers members)

end

/-! ## Texts of tokens -/

/-- A text in front of which names and numbers end. -/
def Ends (cs : List Char) : Prop :=
  ∀ c, cs.head? = some c → isNameChar c = false ∧ isNumberChar c = false

/-- White space between tokens. -/
def Spaces (cs : List Char) : Prop := ∀ c ∈ cs, isSpace c = true

/-- A text is made of tokens, with white space around them. -/
inductive Laid : List Token → List Char → Prop where
  | nil {cs : List Char} (h : Spaces cs) : Laid [] cs
  | cons {lead rest : List Char} {token : Token} {tokens : List Token} (hlead : Spaces lead)
      (hends : token.IsOpenEnded → Ends rest) (hrest : Laid tokens rest) :
      Laid (token :: tokens) (lead ++ (token.spelling ++ rest))

variable {lead rest tail cs : List Char} {tokens : List Token}

theorem ends_cons {c : Char} (h : isNameChar c = false ∧ isNumberChar c = false) (cs : List Char) :
    Ends (c :: cs) := by
  rintro d ⟨⟩
  exact h

theorem ends_newLine (depth : Nat) (cs : List Char) : Ends (newLine depth ++ cs) :=
  ends_cons (by decide) _

theorem spaces_space : Spaces [' '] := List.forall_mem_singleton.2 (by decide)

theorem spaces_newLine (depth : Nat) : Spaces (newLine depth) := by
  refine List.forall_mem_cons.2 ⟨by decide, fun c hc => ?_⟩
  rw [List.eq_of_mem_replicate hc]
  decide

theorem Laid.spaces (h : Laid tokens cs) (hlead : Spaces lead) : Laid tokens (lead ++ cs) := by
  have happend : ∀ more, Spaces more → Spaces (lead ++ more) := fun more hmore =>
    List.forall_mem_append.2 ⟨hlead, hmore⟩
  cases h with
  | nil h => exact .nil (happend cs h)
  | @cons more rest token tokens hmore hends hrest =>
      rw [← List.append_assoc]
      exact .cons (happend more hmore) hends hrest

/-- One more token right in front. -/
theorem Laid.token (token : Token) (hends : token.IsOpenEnded → Ends rest) (h : Laid tokens rest) :
    Laid (token :: tokens) (token.spelling ++ rest) :=
  .cons (fun _ hc => absurd hc List.not_mem_nil) hends h

/-! ## The printer -/

/-- A key with its colon and a value. -/
theorem Laid.member {value : List Char} (key : Option String) (h : Laid tokens value) :
    Laid (.string key :: .colon :: tokens) (renderString key ++ ':' :: ' ' :: value) :=
  ((h.spaces spaces_space).token .colon nofun).token (.string key) nofun

mutual

/-- A value that a printer writes, in front of a text that ends it. -/
theorem laid_renderAt (depth : Nat) (v : Json) {tokens : List Token} {rest : List Char}
    (h : Laid tokens rest) (hends : Ends rest) :
    Laid (tokensOf v ++ tokens) (renderAt depth v ++ rest) := by
  match v with
  | .null => exact h.token .null fun _ => hends
  | .bool true => exact h.token (.bool true) fun _ => hends
  | .bool false => exact h.token (.bool false) fun _ => hends
  | .number numeral => exact h.token (.number numeral) fun _ => hends
  | .string text => exact h.token (.string text) nofun
  | .array [] => exact (h.token .closeSquare nofun).token .openSquare nofun
  | .array (item :: items) =>
      have hclose := (h.token .closeSquare nofun).spaces (spaces_newLine depth)
      have hitems := laid_renderItems (depth + 1) items hclose (ends_newLine depth _)
      have hitem := laid_renderAt (depth + 1) item hitems.1 hitems.2
      have hopen := (hitem.spaces (spaces_newLine (depth + 1))).token .openSquare nofun
      simpa only [tokensOf, renderAt, Token.spelling, List.append_assoc, List.cons_append,
        List.nil_append] using hopen
  | .object [] => exact (h.token .closeCurly nofun).token .openCurly nofun
  | .object ((key, value) :: members) =>
      have hclose := (h.token .closeCurly nofun).spaces (spaces_newLine depth)
      have hmembers := laid_renderMembers (depth + 1) members hclose (ends_newLine depth _)
      have hvalue := laid_renderAt (depth + 1) value hmembers.1 hmembers.2
      have hopen :=
        ((hvalue.member key).spaces (spaces_newLine (depth + 1))).token .openCurly nofun
      simpa only [tokensOf, renderAt, Token.spelling, List.append_assoc, List.cons_append,
        List.nil_append] using hopen

theorem laid_renderItems (depth : Nat) (items : List Json) {tokens : List Token}
    {rest : List Char} (h : Laid tokens rest) (hends : Ends rest) :
    Laid (tokensOfItems items ++ tokens) (renderItems depth items ++ rest) ∧
      Ends (renderItems depth items ++ rest) := by
  match items with
  | [] => exact ⟨h, hends⟩
  | item :: items =>
      have hitems := laid_renderItems depth items h hends
      have hitem := laid_renderAt depth item hitems.1 hitems.2
      have hcomma := (hitem.spaces (spaces_newLine depth)).token .comma nofun
      refine ⟨?_, ends_cons (by decide) _⟩
      simpa only [tokensOfItems, renderItems, Token.spelling, List.append_assoc, List.cons_append,
        List.nil_append] using hcomma

theorem laid_renderMembers (depth : Nat) (members : List (Option String × Json))
    {tokens : List Token} {rest : List Char} (h : Laid tokens rest) (hends : Ends rest) :
    Laid (tokensOfMembers members ++ tokens) (renderMembers depth members ++ rest) ∧
      Ends (renderMembers depth members ++ rest) := by
  match members with
  | [] => exact ⟨h, hends⟩
  | (key, value) :: members =>
      have hmembers := laid_renderMembers depth members h hends
      have hvalue := laid_renderAt depth value hmembers.1 hmembers.2
      have hcomma := ((hvalue.member key).spaces (spaces_newLine depth)).token .comma nofun
      refine ⟨?_, ends_cons (by decide) _⟩
      simpa only [tokensOfMembers, renderMembers, Token.spelling, List.append_assoc,
        List.cons_append, List.nil_append] using hcomma

end

/-- What a printer writes is a layout of the value, and so it is with white space behind it. -/
theorem laid_render (v : Json) (htail : Spaces tail) : Laid (tokensOf v) (render v ++ tail) := by
  have hends : Ends tail := by
    intro c hc
    have hspace := htail c (List.mem_of_mem_head? hc)
    simp only [isSpace, Bool.or_eq_true, beq_iff_eq] at hspace
    rcases hspace with ((rfl | rfl) | rfl) | rfl <;> decide
  have hrender := laid_renderAt 0 v (.nil htail) hends
  rwa [List.append_nil] at hrender

end SigVerdict.Json
