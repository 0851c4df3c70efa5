import SigVerdict.Proofs.Text.LineFeed
import SigVerdict.Status.Stream

set_option autoImplicit false

/-! # Streams behind one another

A stream starts afresh behind each line feed. So when a text that ends with a line feed is put in
front of another, each of the two gives what it gives by itself, and only the numbers of the lines
behind grow, by the number of line feeds in front (`items_append`). -/

namespace SigVerdict.Status

open Text

/-! ## Items further down -/

/-- The fault of a line when so many more lines stand above it. -/
def LineFault.below (above : Nat) (fault : LineFault) : LineFault :=
  { fault with number := fault.number + above }

/-- What a line gives when so many more lines stand above it. -/
def Item.below (above : Nat) : Item → Item
  | .ok outcome => .ok outcome
  | .error fault => .error (fault.below above)

theorem Item.below_below (m n : Nat) (item : Item) :
    Item.below m (Item.below n item) = Item.below (n + m) item := by
  cases item with
  | ok outcome => rfl
  | error fault => simp only [Item.below, LineFault.below, Nat.add_assoc]

theorem itemOfLine?_add (n above : Nat) (line : List Char) :
    itemOfLine? (n + above) line = (itemOfLine? n line).map (Item.below above) := by
  unfold itemOfLine?
  cases decodeLine line with
  | error cause => rfl
  | ok outcome => cases outcome <;> rfl

/-- Lines that are counted from a later number on give the same, further down. -/
theorem itemsOfLines_numberFrom_add (n above : Nat) (lines : List (List Char)) :
    itemsOfLines (numberFrom (n + above) lines) =
      (itemsOfLines (numberFrom n lines)).map (Item.below above) := by
  induction lines generalizing n with
  | nil => rfl
  | cons line rest ih =>
      have hrest := ih (n + 1)
      rw [Nat.add_right_comm] at hrest
      simp only [itemsOfLines] at hrest
      simp only [numberFrom, itemsOfLines, List.filterMap_cons, itemOfLine?_add]
      cases itemOfLine? n line with
      | none => exact hrest
      | some item => exact congrArg (Item.below above item :: ·) hrest

/-! ## Two texts -/

theorem itemsOfLines_append (as bs : List (Nat × List Char)) :
    itemsOfLines (as ++ bs) = itemsOfLines as ++ itemsOfLines bs := by
  simp only [itemsOfLines, List.filterMap_append]

/-- Two texts, of which the first ends with a line feed, give what each of them gives by itself; the
    lines of the second then come below those of the first. -/
theorem items_append {front : List Char} (h : front = [] ∨ ∃ before, front = before ++ ['\n'])
    (behind : List Char) :
    items (front ++ behind) =
      items front ++ (items behind).map (Item.below (front.count '\n')) := by
  simp only [items, numberedLines]
  rw [lines_append_of_ended h, numberFrom_append, itemsOfLines_append, length_lines_of_ended h,
    itemsOfLines_numberFrom_add]

end SigVerdict.Status
