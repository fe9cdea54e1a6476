/-!
# Positions in a text

Offsets count the bytes of the UTF-8 form. `lineColumn` turns an offset into a line and a column,
both counted from one, columns in characters; `lines` splits a text at its line ends.
-/

namespace Stencil.Text

/-- Number of bytes of the UTF-8 form. -/
def byteLength (s : List Char) : Nat := s.foldl (fun n c => n + c.utf8Size) 0

theorem foldl_utf8Size (s : List Char) (n : Nat) :
    s.foldl (fun n c => n + c.utf8Size) n = n + byteLength s := by
  unfold byteLength
  induction s generalizing n with
  | nil => rfl
  | cons c s ih =>
    rw [List.foldl_cons, List.foldl_cons, ih (n + c.utf8Size), ih (0 + c.utf8Size)]
    omega

@[simp] theorem byteLength_nil : byteLength [] = 0 := rfl

@[simp] theorem byteLength_cons (c : Char) (s : List Char) :
    byteLength (c :: s) = c.utf8Size + byteLength s := by
  conv => lhs; unfold byteLength
  rw [List.foldl_cons, foldl_utf8Size]
  omega

@[simp] theorem byteLength_append (s t : List Char) :
    byteLength (s ++ t) = byteLength s + byteLength t := by
  induction s with
  | nil => simp
  | cons c s ih => simp [ih]; omega

/-- Line and column reached after `offset` bytes of `s`, from the given line and column on. -/
def advance (line column : Nat) : List Char → Nat → Nat × Nat
  | [], _ => (line, column)
  | c :: s, offset =>
    if offset < c.utf8Size then (line, column)
    else if c = '\n' then advance (line + 1) 1 s (offset - c.utf8Size)
    else advance line (column + 1) s (offset - c.utf8Size)

/-- Line and column of a byte offset; an offset past the end counts as the end. -/
def lineColumn (source : List Char) (offset : Nat) : Nat × Nat := advance 1 1 source offset

/-- Lines, with the current line's characters in reverse. A line ends at `\n` or `\r\n`; a text that
ends with a line end has no further empty line. -/
def linesFrom (current : List Char) : List Char → List (List Char)
  | [] => if current.isEmpty then [] else [current.reverse]
  | c :: s =>
    if c = '\n' then
      (match current with
        | '\r' :: kept => kept.reverse
        | kept => kept.reverse) :: linesFrom [] s
    else linesFrom (c :: current) s

/-- The lines of a text, without their line ends. -/
def lines (source : List Char) : List (List Char) := linesFrom [] source

/-- The characters after the first `offset` bytes, if a character starts or the text ends there. -/
def dropBytes? : List Char → Nat → Option (List Char)
  | s, 0 => some s
  | [], _ + 1 => none
  | c :: s, n + 1 => if n + 1 < c.utf8Size then none else dropBytes? s (n + 1 - c.utf8Size)

theorem utf8Size_pos (c : Char) : 0 < c.utf8Size := Char.utf8Size_pos c

/-- A prefix's byte length is a boundary, and the text goes on there with the rest. -/
theorem dropBytes?_byteLength (s t : List Char) : dropBytes? (s ++ t) (byteLength s) = some t := by
  induction s with
  | nil => simp [dropBytes?]
  | cons c s ih =>
    have := utf8Size_pos c
    obtain ⟨n, hn⟩ : ∃ n, byteLength (c :: s) = n + 1 :=
      ⟨c.utf8Size + byteLength s - 1, by rw [byteLength_cons]; omega⟩
    rw [hn, List.cons_append, dropBytes?, if_neg (by rw [← hn, byteLength_cons]; omega), ← hn,
      byteLength_cons, Nat.add_sub_cancel_left]
    exact ih

end Stencil.Text
