set_option autoImplicit false

/-! # Parts of texts

A text is a list of characters. It is cut into lines at line feeds, into pieces and words at blanks,
and into the items of a setting at blanks and commas. -/

namespace SigVerdict.Text

/-! ## White space

Blank characters are those with the Unicode property White_Space; `trimStart` and `trimEnd` cut
them off the two ends of a text. -/

/-- A character with the property White_Space. -/
def isBlank (c : Char) : Bool :=
  let n := c.toNat
  (9 ≤ n && n ≤ 13) || n == 0x20 || n == 0x85 || n == 0xA0 || n == 0x1680 ||
    (0x2000 ≤ n && n ≤ 0x200A) || n == 0x2028 || n == 0x2029 || n == 0x202F ||
    n == 0x205F || n == 0x3000

/-- The text without the blanks at its start. -/
def trimStart (cs : List Char) : List Char := cs.dropWhile isBlank

/-- The text without the blanks at its end. -/
def trimEnd (cs : List Char) : List Char := (cs.reverse.dropWhile isBlank).reverse

/-- The text without the blanks at either end. -/
def trim (cs : List Char) : List Char := trimEnd (trimStart cs)

@[simp] theorem trimStart_nil : trimStart [] = [] := rfl

theorem trimStart_cons_of_not_blank {c : Char} {cs : List Char} (h : isBlank c = false) :
    trimStart (c :: cs) = c :: cs := by
  simp [trimStart, h]

/-! ## Pieces of a line

`pieces k` cuts a text at its stretches of blanks into at most `k` pieces. The `k`-th piece is all
that is left, with its inner and trailing blanks. -/

/-- At most `k` pieces of a text, parted by blanks; the `k`-th is the whole rest. -/
def pieces : Nat → List Char → List (List Char)
  | 0, _ => []
  | k + 1, cs =>
    match trimStart cs with
    | [] => []
    | c :: rest =>
      if k = 0 then [c :: rest]
      else (c :: rest).takeWhile (!isBlank ·) :: pieces k ((c :: rest).dropWhile (!isBlank ·))

@[simp] theorem pieces_zero (cs : List Char) : pieces 0 cs = [] := rfl

/-! ## Runs between separators

`runs sep` lists the maximal non-empty stretches of a text that hold no separator. Words are the
runs between blanks; the items of a setting are the runs between blanks and commas. -/

/-- The runs of the rest of a text, where `held` is the run being read, last character first. -/
def runsFrom (sep : Char → Bool) (held : List Char) : List Char → List (List Char)
  | [] => if held.isEmpty then [] else [held.reverse]
  | c :: cs =>
    if sep c then
      if held.isEmpty then runsFrom sep [] cs else held.reverse :: runsFrom sep [] cs
    else runsFrom sep (c :: held) cs

/-- The maximal runs of characters that are no separators, in order. -/
def runs (sep : Char → Bool) (cs : List Char) : List (List Char) := runsFrom sep [] cs

/-- The words of a text: its runs between blanks. -/
def words (cs : List Char) : List (List Char) := runs isBlank cs

/-- What separates the items of a list that is written as one text. -/
def isItemSeparator (c : Char) : Bool := c == ',' || isBlank c

/-- The items of a list that is written as one text, parted by commas or blanks. -/
def items (cs : List Char) : List (List Char) := runs isItemSeparator cs

/-- The parts of a text with a separator between each two. -/
def joinWith (sep : List Char) : List (List Char) → List Char
  | [] => []
  | [part] => part
  | part :: next :: parts => part ++ sep ++ joinWith sep (next :: parts)

/-- A text with its words on one line, a single space between each two. -/
def collapse (cs : List Char) : List Char := joinWith [' '] (words cs)

/-! ## Lines

A line ends at a line feed, and one carriage return before the line feed belongs to the line end.
Nothing else ends a line, and a last line without a line feed keeps its carriage return. -/

/-- A finished line, whose characters are `held`, last one first, without the carriage return
    of its line end. -/
def closeLine (held : List Char) : List Char :=
  match held with
  | '\r' :: held => held.reverse
  | held => held.reverse

/-- The lines of the rest of a text, where `held` is the line being read, last character
    first. -/
def linesFrom (held : List Char) : List Char → List (List Char)
  | [] => if held.isEmpty then [] else [held.reverse]
  | c :: cs => if c == '\n' then closeLine held :: linesFrom [] cs else linesFrom (c :: held) cs

/-- The lines of a text. -/
def lines (cs : List Char) : List (List Char) := linesFrom [] cs

/-- Number the members of a list, the first one by `n`. -/
def numberFrom {α : Type} (n : Nat) : List α → List (Nat × α)
  | [] => []
  | a :: as => (n, a) :: numberFrom (n + 1) as

/-- The lines of a text with their numbers, counted from one. -/
def numberedLines (cs : List Char) : List (Nat × List Char) := numberFrom 1 (lines cs)

end SigVerdict.Text
