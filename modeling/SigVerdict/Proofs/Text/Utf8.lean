import Mathlib.Tactic.SplitIfs
import SigVerdict.Text.Utf8

set_option autoImplicit false

/-! # Decoding and encoding

Octets are decoded to a text exactly when they are the octets of this text (`decode?_eq_some_iff`).
A reader that has taken in a lead octet waits for a fixed number of tail octets, and each of them
adds six bits. So on the one hand the octets of a character bring a reader to this character
(`scan_encodeChar`), and on the other hand octets that a reader takes without a gap start with the
octets of some character (`exists_encodeChar_of_scan`). -/

namespace SigVerdict.Text.Utf8

/-! ## Texts without gaps -/

theorem withoutGaps_eq_some_iff {found : List (Option Char)} {cs : List Char} :
    withoutGaps found = some cs ↔ found = cs.map some := by
  induction found generalizing cs with
  | nil =>
      cases cs <;> simp [withoutGaps]
  | cons c found ih =>
      cases c with
      | none => cases cs <;> simp [withoutGaps]
      | some c =>
          simp only [withoutGaps, Option.map_eq_some_iff, ih]
          constructor
          · rintro ⟨rest, rfl, rfl⟩
            rfl
          · intro h
            cases cs with
            | nil => simp at h
            | cons d rest =>
                simp only [List.map_cons, List.cons.injEq, Option.some.injEq] at h
                exact ⟨rest, h.2, by rw [h.1]⟩

theorem encode_cons (c : Char) (cs : List Char) :
    encode (c :: cs) = String.utf8EncodeChar c ++ encode cs := by
  simp [encode]

/-! ## Lead and tail octets -/

variable {b : UInt8} {bs : List UInt8} {cs : List Char} {value left low high : Nat}

theorem scan_ascii (h : b.toNat < 0x80) :
    scan .ready (b :: bs) = some (Char.ofNat b.toNat) :: scan .ready bs := by
  simp only [scan_cons, step, start, if_pos h, List.singleton_append]

theorem scan_lead_two (hlow : 0xC2 ≤ b.toNat) (hhigh : b.toNat < 0xE0) :
    scan .ready (b :: bs) = scan (.inside (b.toNat - 0xC0) 1 0x80 0xBF) bs := by
  have h80 : ¬b.toNat < 0x80 := by omega
  have hC2 : ¬b.toNat < 0xC2 := by omega
  simp only [scan_cons, step, start, if_neg h80, if_neg hC2, if_pos hhigh, List.nil_append]

theorem scan_lead_three (hlow : 0xE0 ≤ b.toNat) (hhigh : b.toNat < 0xF0) :
    scan .ready (b :: bs) =
      scan (.inside (b.toNat - 0xE0) 2 (if b.toNat = 0xE0 then 0xA0 else 0x80)
        (if b.toNat = 0xED then 0x9F else 0xBF)) bs := by
  have h80 : ¬b.toNat < 0x80 := by omega
  have hC2 : ¬b.toNat < 0xC2 := by omega
  have hE0 : ¬b.toNat < 0xE0 := by omega
  simp only [scan_cons, step, start, if_neg h80, if_neg hC2, if_neg hE0, if_pos hhigh,
    List.nil_append]

theorem scan_lead_four (hlow : 0xF0 ≤ b.toNat) (hhigh : b.toNat < 0xF5) :
    scan .ready (b :: bs) =
      scan (.inside (b.toNat - 0xF0) 3 (if b.toNat = 0xF0 then 0x90 else 0x80)
        (if b.toNat = 0xF4 then 0x8F else 0xBF)) bs := by
  have h80 : ¬b.toNat < 0x80 := by omega
  have hC2 : ¬b.toNat < 0xC2 := by omega
  have hE0 : ¬b.toNat < 0xE0 := by omega
  have hF0 : ¬b.toNat < 0xF0 := by omega
  simp only [scan_cons, step, start, if_neg h80, if_neg hC2, if_neg hE0, if_neg hF0, if_pos hhigh,
    List.nil_append]

/-- Any other octet starts no character. -/
theorem scan_stray (h : ¬b.toNat < 0x80 ∧ b.toNat < 0xC2 ∨ 0xF5 ≤ b.toNat) :
    scan .ready (b :: bs) = none :: scan .ready bs := by
  simp only [scan_cons, step, start]
  split_ifs <;> first | omega | rfl

/-- The last tail octet finishes the character. -/
theorem scan_last (hlow : low ≤ b.toNat) (hhigh : b.toNat ≤ high) :
    scan (.inside value 1 low high) (b :: bs) =
      some (Char.ofNat (64 * value + (b.toNat - 0x80))) :: scan .ready bs := by
  simp only [scan_cons, step, if_pos (And.intro hlow hhigh), if_true, List.singleton_append]

theorem scan_tail (hleft : left ≠ 1) (hlow : low ≤ b.toNat) (hhigh : b.toNat ≤ high) :
    scan (.inside value left low high) (b :: bs) =
      scan (.inside (64 * value + (b.toNat - 0x80)) (left - 1) 0x80 0xBF) bs := by
  simp only [scan_cons, step, if_pos (And.intro hlow hhigh), if_neg hleft, List.nil_append]

/-- A reader inside a character has a gap ahead unless the next octet is the tail that is due. -/
theorem exists_tail_of_scan (h : scan (.inside value left low high) bs = cs.map some) :
    ∃ b rest, bs = b :: rest ∧ low ≤ b.toNat ∧ b.toNat ≤ high := by
  cases bs with
  | nil => cases cs <;> simp [State.rest] at h
  | cons b rest =>
      by_cases hb : low ≤ b.toNat ∧ b.toNat ≤ high
      · exact ⟨b, rest, rfl, hb⟩
      · rw [scan_cons, step, if_neg hb] at h
        cases cs <;> simp at h

/-! ## The octets of a character -/

/-- A tail octet holds six bits. -/
theorem toNat_tail (n : Nat) : (UInt8.ofNat (n % 64 + 128)).toNat = n % 64 + 128 := by
  rw [UInt8.toNat_ofNat']
  omega

/-- The octets of a character bring a reader to this character. -/
theorem scan_encodeChar (c : Char) (bs : List UInt8) :
    scan .ready (String.utf8EncodeChar c ++ bs) = some c :: scan .ready bs := by
  have hvalid : c.val.toNat.isValidChar := c.valid
  have hback : Char.ofNat c.val.toNat = c := Char.ofNat_toNat c
  unfold String.utf8EncodeChar
  generalize c.val.toNat = n at hvalid hback
  dsimp only
  -- one case for each number of octets
  split_ifs with h1 h2 h3
  · have hn : (UInt8.ofNat n).toNat = n := by rw [UInt8.toNat_ofNat']; omega
    rw [List.singleton_append, scan_ascii (by omega), hn, hback]
  · have ha : (UInt8.ofNat (n / 64 % 32 + 192)).toNat = n / 64 + 192 := by
      rw [UInt8.toNat_ofNat']; omega
    have hb := toNat_tail n
    have hn : 64 * (n / 64 + 192 - 0xC0) + (n % 64 + 128 - 0x80) = n := by omega
    rw [List.cons_append, List.singleton_append, scan_lead_two (by omega) (by omega),
      scan_last (by omega) (by omega), ha, hb, hn, hback]
  · have ha : (UInt8.ofNat (n / 4096 % 16 + 224)).toNat = n / 4096 + 224 := by
      rw [UInt8.toNat_ofNat']; omega
    have hb := toNat_tail (n / 64)
    have hd := toNat_tail n
    have hn : 64 * (64 * (n / 4096 + 224 - 0xE0) + (n / 64 % 64 + 128 - 0x80)) +
        (n % 64 + 128 - 0x80) = n := by omega
    rw [List.cons_append, List.cons_append, List.singleton_append,
      scan_lead_three (by omega) (by omega),
      scan_tail (by decide) (by split_ifs <;> omega) (by split_ifs <;> omega),
      scan_last (by omega) (by omega), ha, hb, hd, hn, hback]
  · have ha : (UInt8.ofNat (n / 262144 % 8 + 240)).toNat = n / 262144 + 240 := by
      rw [UInt8.toNat_ofNat']; omega
    have hb := toNat_tail (n / 4096)
    have hd := toNat_tail (n / 64)
    have he := toNat_tail n
    have hn : 64 * (64 * (64 * (n / 262144 + 240 - 0xF0) + (n / 4096 % 64 + 128 - 0x80)) +
        (n / 64 % 64 + 128 - 0x80)) + (n % 64 + 128 - 0x80) = n := by omega
    rw [List.cons_append, List.cons_append, List.cons_append, List.singleton_append,
      scan_lead_four (by omega) (by omega),
      scan_tail (by decide) (by split_ifs <;> omega) (by split_ifs <;> omega),
      scan_tail (by decide) (by omega) (by omega), scan_last (by omega) (by omega), ha, hb, hd, he,
      hn, hback]

theorem toNat_ofNat {n : Nat} (h : n.isValidChar) : (Char.ofNat n).val.toNat = n := by
  rw [Char.ofNat, dif_pos h]
  rfl

theorem ofNat_eq {n : Nat} (h : n = b.toNat) : UInt8.ofNat n = b := by
  rw [h, UInt8.ofNat_toNat]

theorem encodeChar_ascii (h : b.toNat < 0x80) :
    String.utf8EncodeChar (Char.ofNat b.toNat) = [b] := by
  unfold String.utf8EncodeChar
  rw [toNat_ofNat (Or.inl (by omega)), if_pos (by omega), UInt8.ofNat_toNat]

theorem encodeChar_two {a b : UInt8} (ha : 0xC2 ≤ a.toNat) (ha' : a.toNat < 0xE0)
    (hb : 0x80 ≤ b.toNat) (hb' : b.toNat ≤ 0xBF) :
    String.utf8EncodeChar (Char.ofNat (64 * (a.toNat - 0xC0) + (b.toNat - 0x80))) = [a, b] := by
  unfold String.utf8EncodeChar
  rw [toNat_ofNat (Or.inl (by omega)), if_neg (by omega), if_pos (by omega),
    ofNat_eq (b := a) (by omega), ofNat_eq (b := b) (by omega)]

theorem encodeChar_three {a b d : UInt8} (ha : 0xE0 ≤ a.toNat) (ha' : a.toNat < 0xF0)
    (hb : (if a.toNat = 0xE0 then 0xA0 else 0x80) ≤ b.toNat)
    (hb' : b.toNat ≤ if a.toNat = 0xED then 0x9F else 0xBF) (hd : 0x80 ≤ d.toNat)
    (hd' : d.toNat ≤ 0xBF) :
    String.utf8EncodeChar
      (Char.ofNat (64 * (64 * (a.toNat - 0xE0) + (b.toNat - 0x80)) + (d.toNat - 0x80))) =
      [a, b, d] := by
  have hlow : 0x80 ≤ b.toNat ∧ (a.toNat = 0xE0 → 0xA0 ≤ b.toNat) := by split_ifs at hb <;> omega
  have hhigh : b.toNat ≤ 0xBF ∧ (a.toNat = 0xED → b.toNat ≤ 0x9F) := by split_ifs at hb' <;> omega
  have hvalid : (64 * (64 * (a.toNat - 0xE0) + (b.toNat - 0x80)) +
      (d.toNat - 0x80)).isValidChar := by
    unfold Nat.isValidChar
    omega
  unfold String.utf8EncodeChar
  rw [toNat_ofNat hvalid, if_neg (by omega), if_neg (by omega), if_pos (by omega),
    ofNat_eq (b := a) (by omega), ofNat_eq (b := b) (by omega), ofNat_eq (b := d) (by omega)]

theorem encodeChar_four {a b d e : UInt8} (ha : 0xF0 ≤ a.toNat) (ha' : a.toNat < 0xF5)
    (hb : (if a.toNat = 0xF0 then 0x90 else 0x80) ≤ b.toNat)
    (hb' : b.toNat ≤ if a.toNat = 0xF4 then 0x8F else 0xBF) (hd : 0x80 ≤ d.toNat)
    (hd' : d.toNat ≤ 0xBF) (he : 0x80 ≤ e.toNat) (he' : e.toNat ≤ 0xBF) :
    String.utf8EncodeChar
      (Char.ofNat (64 * (64 * (64 * (a.toNat - 0xF0) + (b.toNat - 0x80)) + (d.toNat - 0x80)) +
        (e.toNat - 0x80))) = [a, b, d, e] := by
  have hlow : 0x80 ≤ b.toNat ∧ (a.toNat = 0xF0 → 0x90 ≤ b.toNat) := by split_ifs at hb <;> omega
  have hhigh : b.toNat ≤ 0xBF ∧ (a.toNat = 0xF4 → b.toNat ≤ 0x8F) := by split_ifs at hb' <;> omega
  have hvalid : (64 * (64 * (64 * (a.toNat - 0xF0) + (b.toNat - 0x80)) + (d.toNat - 0x80)) +
      (e.toNat - 0x80)).isValidChar := by
    unfold Nat.isValidChar
    omega
  unfold String.utf8EncodeChar
  rw [toNat_ofNat hvalid, if_neg (by omega), if_neg (by omega), if_neg (by omega),
    ofNat_eq (b := a) (by omega), ofNat_eq (b := b) (by omega), ofNat_eq (b := d) (by omega),
    ofNat_eq (b := e) (by omega)]

/-- Octets that are read without a gap start with the octets of a character. -/
theorem exists_encodeChar_of_scan (h : scan .ready (b :: bs) = cs.map some) :
    ∃ c rest, b :: bs = String.utf8EncodeChar c ++ rest := by
  -- the first octet says how many others are due, and without a gap each of them is there
  by_cases hstray : ¬b.toNat < 0x80 ∧ b.toNat < 0xC2 ∨ 0xF5 ≤ b.toNat
  · rw [scan_stray hstray] at h
    cases cs <;> simp at h
  by_cases hascii : b.toNat < 0x80
  · exact ⟨_, bs, by rw [encodeChar_ascii hascii]; rfl⟩
  by_cases htwo : b.toNat < 0xE0
  · rw [scan_lead_two (by omega) htwo] at h
    obtain ⟨t, rest, rfl, ht, ht'⟩ := exists_tail_of_scan h
    exact ⟨_, rest, by rw [encodeChar_two (by omega) htwo ht ht']; rfl⟩
  by_cases hthree : b.toNat < 0xF0
  · rw [scan_lead_three (by omega) hthree] at h
    obtain ⟨t, rest, rfl, ht, ht'⟩ := exists_tail_of_scan h
    rw [scan_tail (by decide) ht ht'] at h
    obtain ⟨u, rest, rfl, hu, hu'⟩ := exists_tail_of_scan h
    exact ⟨_, rest, by rw [encodeChar_three (by omega) hthree ht ht' hu hu']; rfl⟩
  · rw [scan_lead_four (by omega) (by omega)] at h
    obtain ⟨t, rest, rfl, ht, ht'⟩ := exists_tail_of_scan h
    rw [scan_tail (by decide) ht ht'] at h
    obtain ⟨u, rest, rfl, hu, hu'⟩ := exists_tail_of_scan h
    rw [scan_tail (by decide) hu hu'] at h
    obtain ⟨v, rest, rfl, hv, hv'⟩ := exists_tail_of_scan h
    exact ⟨_, rest, by rw [encodeChar_four (by omega) (by omega) ht ht' hu hu' hv hv']; rfl⟩

/-! ## Texts -/

theorem scan_encode (cs : List Char) : scan .ready (encode cs) = cs.map some := by
  induction cs with
  | nil => rfl
  | cons c cs ih => rw [encode_cons, scan_encodeChar, ih, List.map_cons]

theorem eq_encode_of_scan (h : scan .ready bs = cs.map some) : bs = encode cs := by
  -- on the number of octets, of which a character takes several at once
  induction hn : bs.length using Nat.strongRecOn generalizing bs cs with
  | _ n ih =>
      cases bs with
      | nil =>
          cases cs with
          | nil => rfl
          | cons c cs => simp [State.rest] at h
      | cons b bs =>
          obtain ⟨c, rest, hrest⟩ := exists_encodeChar_of_scan h
          rw [hrest, scan_encodeChar] at h
          have hshort : rest.length < n := by
            have hlength := congrArg List.length hrest
            have hpos := c.utf8Size_pos
            rw [List.length_append, String.length_utf8EncodeChar] at hlength
            omega
          cases cs with
          | nil => simp at h
          | cons d cs =>
              simp only [List.map_cons, List.cons.injEq, Option.some.injEq] at h
              rw [hrest, encode_cons, h.1, ← ih rest.length hshort h.2 rfl]

/-- Octets are decoded to a text exactly when they are the octets of the text. -/
theorem decode?_eq_some_iff : decode? bs = some cs ↔ bs = encode cs := by
  rw [decode?, withoutGaps_eq_some_iff]
  constructor
  · exact eq_encode_of_scan
  · rintro rfl
    exact scan_encode cs

end SigVerdict.Text.Utf8
