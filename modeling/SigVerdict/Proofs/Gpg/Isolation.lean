import SigVerdict.Proofs.Gpg.Run
import SigVerdict.Proofs.Status.Append

set_option autoImplicit false

/-! # Lines of a run are read by themselves

What a run gives for one line of its status depends on the octets of this line alone. Octets that
are no text, or that break off in the middle of a character, cannot reach across a line feed, so
they spoil the line that they stand on and no other (`Verifier.verify_isolates_lines`). The proof
puts the octets in front of a line feed and those behind it together again: first as texts, then as
streams. -/

namespace SigVerdict.Gpg

open Status Text
open Text.Utf8 (lineFeed)

/-- Octets behind a line feed give what they give by themselves, further down. -/
theorem Run.items_ofEnd_append {front : List UInt8}
    (h : front = [] ∨ front.getLast? = some lineFeed) (behind : List UInt8) (exit : Option Nat) :
    (ofEnd (front ++ behind) exit).items =
      (ofEnd front exit).items ++
        (ofEnd behind exit).items.map (Item.below (front.count lineFeed)) := by
  rw [items_ofEnd, items_ofEnd, items_ofEnd, Utf8.decodeLossy_append_of_ended h,
    items_append (Utf8.decodeLossy_ended h), Utf8.count_lineFeed_decodeLossy]

namespace Verifier

/-- **Lines are read by themselves.** If octets up to a line feed, and further octets behind them,
    are the status of a run, then the run gives what these two give apart; only the lines of those
    behind come further down, by the number of line feeds in front. So each line gives what it gives
    alone, and what stands in front of it and behind it gives the same whatever the line is. -/
theorem verify_isolates_lines (v : Verifier) (launcher : Launcher) (manifest signature : String)
    (front behind : List UInt8) (exit : Option Nat)
    (hfront : front = [] ∨ front.getLast? = some lineFeed)
    (hends : v.Ends launcher manifest signature (front ++ behind) exit) :
    ∃ r, v.verify launcher manifest signature = .ok r ∧
      r.items = (Run.ofEnd front exit).items ++
        (Run.ofEnd behind exit).items.map (Item.below (front.count lineFeed)) ∧
      ∀ line rest, behind = line ++ lineFeed :: rest → lineFeed ∉ line →
        r.items = (Run.ofEnd front exit).items ++
          (Run.ofEnd (line ++ [lineFeed]) exit).items.map (Item.below (front.count lineFeed)) ++
          (Run.ofEnd rest exit).items.map (Item.below (front.count lineFeed + 1)) := by
  have hitems := Run.items_ofEnd_append hfront behind exit
  refine ⟨.ofEnd (front ++ behind) exit, verify_of_ends hends, hitems, ?_⟩
  rintro line rest rfl hline
  have hended : (line ++ [lineFeed]).getLast? = some lineFeed := List.getLast?_concat
  have hcount : (line ++ [lineFeed]).count lineFeed = 1 := by
    rw [List.count_append, List.count_eq_zero.2 hline, List.count_singleton_self]
  have hbehind := Run.items_ofEnd_append (Or.inr hended) rest exit
  rw [List.append_assoc, List.singleton_append, hcount] at hbehind
  rw [hitems, hbehind, List.map_append, List.map_map, ← List.append_assoc]
  -- to stand below one line and then below others is to stand below all of them
  congr 1
  refine List.map_congr_left fun item _ => ?_
  rw [Function.comp_apply, Item.below_below, Nat.add_comm 1]

/-- A character that breaks off leaves the lines around it as they are, the malformed one too. -/
theorem verify_isolates_lines_truncated :
    ∃ r, ({ keyring := "ring" } : Verifier).verify
        ⟨3, fun _ => .ended 0 ((Utf8.encode "x NO_PUBKEY A\n".toList ++ [0xE2, 0x82, 0x0A]) ++
          (Utf8.encode "x ERRSIG".toList ++ lineFeed :: Utf8.encode "x BADARMOR".toList)) none⟩
        "m" "s" = .ok r ∧
      r.items = [.ok ⟨.noPubkey, [.text "A"], rfl, trivial⟩,
        .error ⟨3, "x ERRSIG", .missing .errSig "keyid"⟩, .ok ⟨.badArmor, [], trivial⟩] := by
  have hends : ({ keyring := "ring" } : Verifier).Ends
      ⟨3, fun _ => .ended 0 ((Utf8.encode "x NO_PUBKEY A\n".toList ++ [0xE2, 0x82, 0x0A]) ++
        (Utf8.encode "x ERRSIG".toList ++ lineFeed :: Utf8.encode "x BADARMOR".toList)) none⟩
      "m" "s" ((Utf8.encode "x NO_PUBKEY A\n".toList ++ [0xE2, 0x82, 0x0A]) ++
        (Utf8.encode "x ERRSIG".toList ++ lineFeed :: Utf8.encode "x BADARMOR".toList)) none :=
    ⟨0, rfl, nofun⟩
  obtain ⟨r, hr, -, hlines⟩ :=
    verify_isolates_lines _ _ "m" "s" _ _ none (Or.inr (by decide)) hends
  exact ⟨r, hr, (hlines _ _ rfl (by decide)).trans rfl⟩

end Verifier

end SigVerdict.Gpg
