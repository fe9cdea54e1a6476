import Stencil.Text.Class

/-!
# Trimming

Blanks at the ends of a text. `trim` drops them at both ends; the lemmas say that what is left has
no blank at that end and that only blanks were dropped.
-/

namespace Stencil.Text

def trimStart (s : List Char) : List Char := s.dropWhile isBlank

def trimEnd (s : List Char) : List Char := (s.reverse.dropWhile isBlank).reverse

def trim (s : List Char) : List Char := trimEnd (trimStart s)

/-- `s` without the blanks at its ends. -/
def trimmed (s : String) : String := String.ofList (trim s.toList)

@[simp] theorem trimStart_nil : trimStart [] = [] := rfl

theorem trimStart_cons_solid {c : Char} (h : isBlank c = false) (s : List Char) :
    trimStart (c :: s) = c :: s := by simp [trimStart, h]

theorem takeWhile_blanks (s : List Char) : ∀ c ∈ s.takeWhile isBlank, isBlank c = true :=
  List.all_eq_true.1 List.all_takeWhile

theorem trimStart_eq (s : List Char) : ∃ b, s = b ++ trimStart s ∧ ∀ c ∈ b, isBlank c = true :=
  ⟨s.takeWhile isBlank, List.takeWhile_append_dropWhile.symm, takeWhile_blanks s⟩

theorem trimEnd_eq (s : List Char) : ∃ b, s = trimEnd s ++ b ∧ ∀ c ∈ b, isBlank c = true := by
  refine ⟨(s.reverse.takeWhile isBlank).reverse, ?_, ?_⟩
  · rw [trimEnd, ← List.reverse_append, List.takeWhile_append_dropWhile, List.reverse_reverse]
  · intro c hc
    exact takeWhile_blanks _ c (List.mem_reverse.1 hc)

theorem trim_eq (s : List Char) : ∃ b b', s = b ++ trim s ++ b' ∧
    (∀ c ∈ b, isBlank c = true) ∧ ∀ c ∈ b', isBlank c = true := by
  obtain ⟨b, hb, hs⟩ := trimStart_eq s
  obtain ⟨b', hb', hs'⟩ := trimEnd_eq (trimStart s)
  refine ⟨b, b', ?_, hs, hs'⟩
  rw [List.append_assoc, trim, ← hb', ← hb]

/-- Behind a text that ends with no blank the blanks are trimmed alone. -/
theorem trimEnd_append {s : List Char} (h : trimEnd s = s) (t : List Char) :
    trimEnd (s ++ t) = s ++ trimEnd t := by
  have hr : s.reverse.dropWhile isBlank = s.reverse := by
    rw [← List.reverse_reverse (s.reverse.dropWhile isBlank)]
    exact congrArg List.reverse h
  rw [trimEnd, trimEnd, List.reverse_append, List.dropWhile_append]
  split
  · rename_i ht
    rw [hr, List.reverse_reverse, List.isEmpty_iff.1 ht, List.reverse_nil, List.append_nil]
  · rw [List.reverse_append, List.reverse_reverse]

theorem trimStart_length_le (s : List Char) : (trimStart s).length ≤ s.length := by
  obtain ⟨b, hb, -⟩ := trimStart_eq s
  have := congrArg List.length hb
  simp at this
  omega

end Stencil.Text
