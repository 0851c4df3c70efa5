import SigVerdict.Format.Json.Parser
import SigVerdict.Proofs.Format.Json.Token

set_option autoImplicit false

/-! # Reading JSON back

Behind the tokens of a value, the reader has this value and nothing else has changed (`run_value`):
what was open before is open still. So a value is read from each of its layouts
(`parse?_of_laid`), and a document is read back as the value that a printer wrote
(`parse?_render_document`). -/

namespace SigVerdict.Json

namespace Reader

/-- A value that is due first is one that is due, unless there is none. -/
theorem run_firstValue (frames : List Frame) (v : Json) (rest : List Token) :
    run ⟨frames, .firstValue⟩ (tokensOf v ++ rest) = run ⟨frames, .value⟩ (tokensOf v ++ rest) := by
  have hstep : ∀ token, token ≠ .closeSquare →
      step ⟨frames, .firstValue⟩ token = step ⟨frames, .value⟩ token := by
    intro token hne
    cases token <;> first | rfl | exact absurd rfl hne
  have hfirst : ∃ token tokens, tokensOf v = token :: tokens ∧ token ≠ .closeSquare := by
    match v with
    | .null | .bool _ | .number _ | .string _ => exact ⟨_, _, rfl, nofun⟩
    | .array [] | .array (_ :: _) | .object [] | .object ((_, _) :: _) => exact ⟨_, _, rfl, nofun⟩
  obtain ⟨token, tokens, htokens, hne⟩ := hfirst
  rw [htokens, List.cons_append, run, run, hstep token hne]

mutual

/-- The tokens of a value make the value. -/
theorem run_value (v : Json) (frames : List Frame) (rest : List Token) :
    run ⟨frames, .value⟩ (tokensOf v ++ rest) = run ⟨frames, .behind v⟩ rest := by
  match v with
  | .null => rfl
  | .bool b => rfl
  | .number numeral => rfl
  | .string text => rfl
  | .array [] => rfl
  | .array (item :: items) =>
      have hitem := run_value item (.array [] :: frames)
        (tokensOfItems items ++ .closeSquare :: rest)
      have hitems := run_items items item [] frames rest
      have htokens : tokensOf (.array (item :: items)) ++ rest =
          .openSquare :: (tokensOf item ++ (tokensOfItems items ++ .closeSquare :: rest)) := by
        simp [tokensOf]
      rw [htokens]
      show run ⟨.array [] :: frames, .firstValue⟩ _ = _
      rw [run_firstValue, hitem, hitems]
      rfl
  | .object [] => rfl
  | .object ((key, value) :: members) =>
      have hvalue := run_value value (.object [] key :: frames)
        (tokensOfMembers members ++ .closeCurly :: rest)
      have hmembers := run_members members key value [] frames rest
      have htokens : tokensOf (.object ((key, value) :: members)) ++ rest =
          .openCurly :: .string key :: .colon ::
            (tokensOf value ++ (tokensOfMembers members ++ .closeCurly :: rest)) := by
        simp [tokensOf]
      rw [htokens]
      show run ⟨.object [] key :: frames, .value⟩ _ = _
      rw [hvalue, hmembers]
      rfl

/-- The tokens behind the first item of an array make the array. -/
theorem run_items (items : List Json) (v : Json) (held : List Json) (frames : List Frame)
    (rest : List Token) :
    run ⟨.array held :: frames, .behind v⟩ (tokensOfItems items ++ .closeSquare :: rest) =
      run ⟨frames, .behind (.array (held.reverse ++ v :: items))⟩ rest := by
  match items with
  | [] =>
      rw [← List.reverse_cons]
      rfl
  | item :: items =>
      have hitem := run_value item (.array (v :: held) :: frames)
        (tokensOfItems items ++ .closeSquare :: rest)
      have hitems := run_items items item (v :: held) frames rest
      rw [tokensOfItems, List.cons_append, List.append_assoc]
      show run ⟨.array (v :: held) :: frames, .value⟩ _ = _
      rw [hitem, hitems, List.reverse_cons, List.append_assoc, List.singleton_append]

/-- The tokens behind the first member of an object make the object. -/
theorem run_members (members : List (Option String × Json)) (key : Option String) (v : Json)
    (held : List (Option String × Json)) (frames : List Frame) (rest : List Token) :
    run ⟨.object held key :: frames, .behind v⟩ (tokensOfMembers members ++ .closeCurly :: rest) =
      run ⟨frames, .behind (.object (held.reverse ++ (key, v) :: members))⟩ rest := by
  match members with
  | [] =>
      rw [← List.reverse_cons]
      rfl
  | (next, value) :: members =>
      have hvalue := run_value value (.object ((key, v) :: held) next :: frames)
        (tokensOfMembers members ++ .closeCurly :: rest)
      have hmembers := run_members members next value ((key, v) :: held) frames rest
      rw [tokensOfMembers, List.cons_append, List.cons_append, List.cons_append, List.append_assoc]
      show run ⟨.object ((key, v) :: held) next :: frames, .value⟩ _ = _
      rw [hvalue, hmembers, List.reverse_cons, List.append_assoc, List.singleton_append]

end

end Reader

/-- A value that is read back from its layouts: its strings are texts and its numbers are whole. -/
def IsProper (v : Json) : Prop := ∀ token ∈ tokensOf v, token.IsProper

variable {v : Json} {cs tail : List Char}

/-- **A value is read from each of its layouts.** -/
theorem parse?_of_laid (hproper : v.IsProper) (h : Laid (tokensOf v) cs) : parse? cs = some v := by
  have hrun := Reader.run_value v [] []
  rw [List.append_nil] at hrun
  rw [parse?, tokens?_of_laid hproper h]
  simp only [bind, Option.bind_some, hrun]
  rfl

/-! ## Documents -/

theorem isProper_array {items : List Json} (h : ∀ item ∈ items, item.IsProper) :
    (array items).IsProper := by
  have hitems : ∀ items : List Json, (∀ item ∈ items, item.IsProper) →
      ∀ token ∈ tokensOfItems items, token.IsProper := by
    intro items h
    induction items with
    | nil => exact List.forall_mem_nil _
    | cons item items ih =>
        obtain ⟨hitem, hitems⟩ := List.forall_mem_cons.1 h
        exact List.forall_mem_cons.2 ⟨trivial, List.forall_mem_append.2 ⟨hitem, ih hitems⟩⟩
  cases items with
  | nil => exact List.forall_mem_cons.2 ⟨trivial, List.forall_mem_singleton.2 trivial⟩
  | cons item items =>
      obtain ⟨hitem, hrest⟩ := List.forall_mem_cons.1 h
      exact List.forall_mem_cons.2 ⟨trivial, List.forall_mem_append.2 ⟨hitem,
        List.forall_mem_append.2 ⟨hitems items hrest, List.forall_mem_singleton.2 trivial⟩⟩⟩

theorem isProper_object {members : List (Option String × Json)}
    (h : ∀ member ∈ members, member.1.isSome = true ∧ member.2.IsProper) :
    (object members).IsProper := by
  have hmembers : ∀ members : List (Option String × Json),
      (∀ member ∈ members, member.1.isSome = true ∧ member.2.IsProper) →
        ∀ token ∈ tokensOfMembers members, token.IsProper := by
    intro members h
    induction members with
    | nil => exact List.forall_mem_nil _
    | cons member members ih =>
        obtain ⟨⟨hkey, hvalue⟩, hmembers⟩ := List.forall_mem_cons.1 h
        exact List.forall_mem_cons.2 ⟨trivial, List.forall_mem_cons.2 ⟨hkey,
          List.forall_mem_cons.2 ⟨trivial, List.forall_mem_append.2 ⟨hvalue, ih hmembers⟩⟩⟩⟩
  cases members with
  | nil => exact List.forall_mem_cons.2 ⟨trivial, List.forall_mem_singleton.2 trivial⟩
  | cons member members =>
      obtain ⟨⟨hkey, hvalue⟩, hrest⟩ := List.forall_mem_cons.1 h
      exact List.forall_mem_cons.2 ⟨trivial, List.forall_mem_cons.2 ⟨hkey,
        List.forall_mem_cons.2 ⟨trivial, List.forall_mem_append.2 ⟨hvalue,
          List.forall_mem_append.2 ⟨hmembers members hrest,
            List.forall_mem_singleton.2 trivial⟩⟩⟩⟩⟩

mutual

/-- Documents have only texts and whole numbers. -/
theorem isProper_ofDocument (d : Document) : (ofDocument d).IsProper := by
  match d with
  | .null | .bool _ => exact List.forall_mem_singleton.2 trivial
  | .number n => exact List.forall_mem_singleton.2 ⟨n, rfl⟩
  | .text _ => exact List.forall_mem_singleton.2 rfl
  | .list items => exact isProper_array (isProper_ofItems items)
  | .record fields => exact isProper_object (isProper_ofFields fields)
  | .variant name payload =>
      exact isProper_object (List.forall_mem_singleton.2 ⟨rfl, isProper_ofDocument payload⟩)

theorem isProper_ofItems (items : List Document) : ∀ item ∈ ofItems items, item.IsProper := by
  match items with
  | [] => exact List.forall_mem_nil _
  | item :: items =>
      exact List.forall_mem_cons.2 ⟨isProper_ofDocument item, isProper_ofItems items⟩

theorem isProper_ofFields (fields : List (String × Document)) :
    ∀ member ∈ ofFields fields, member.1.isSome = true ∧ member.2.IsProper := by
  match fields with
  | [] => exact List.forall_mem_nil _
  | (name, value) :: fields =>
      exact List.forall_mem_cons.2 ⟨⟨rfl, isProper_ofDocument value⟩, isProper_ofFields fields⟩

end

/-- A document is read from each of its layouts. -/
theorem parse?_of_laid_document {d : Document} (h : Laid (tokensOf (ofDocument d)) cs) :
    parse? cs = some (ofDocument d) :=
  parse?_of_laid (isProper_ofDocument d) h

/-- **A document is read back as it is printed**, with any white space behind it. -/
theorem parse?_render_document (d : Document) (htail : Spaces tail) :
    parse? (render (ofDocument d) ++ tail) = some (ofDocument d) :=
  parse?_of_laid_document (laid_render (ofDocument d) htail)

end SigVerdict.Json
