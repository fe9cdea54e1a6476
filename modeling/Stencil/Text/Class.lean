import Stencil.Text.Table.Alphabetic

/-!
# Character classes

Blanks, letters and numerals by their Unicode properties, and the two kinds of name characters:
words (tag names) take letters, numerals and `_`; identifiers start with a letter or `_` and go on
with letters, numerals, `_` and `-`.
-/

namespace Stencil.Text

/-- The property White_Space. -/
def blanks : Ranges := [
  (0x9, 0xD), (0x20, 0x20), (0x85, 0x85), (0xA0, 0xA0), (0x1680, 0x1680), (0x2000, 0x200A),
  (0x2028, 0x2029), (0x202F, 0x202F), (0x205F, 0x205F), (0x3000, 0x3000)]

def isBlank (c : Char) : Bool := blanks.covers c.toNat

def isLetter (c : Char) : Bool := alphabetic.covers c.toNat

def isNumeral (c : Char) : Bool := numeric.covers c.toNat

def isWordChar (c : Char) : Bool := isLetter c || isNumeral c || c == '_'

def startsName (c : Char) : Bool := isLetter c || c == '_'

def continuesName (c : Char) : Bool := isWordChar c || c == '-'

/-- Every character that may start a name may go on with one. -/
theorem continuesName_of_startsName {c : Char} (h : startsName c = true) :
    continuesName c = true := by
  unfold startsName at h
  unfold continuesName isWordChar
  cases hl : isLetter c <;> simp_all

/-- No name starts with a blank. -/
theorem isBlank_of_startsName {c : Char} (h : startsName c = true) : isBlank c = false := by
  cases hb : isBlank c with
  | false => rfl
  | true =>
    have points : ∀ n ∈ blanks.points, alphabetic.covers n = false := by decide +kernel
    have hl : isLetter c = false := points _ (Ranges.mem_points_of_covers hb)
    have hu : c ≠ '_' := by
      rintro rfl
      exact absurd hb (by decide)
    simp [startsName, hl, hu] at h

end Stencil.Text
