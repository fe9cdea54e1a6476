import Stencil.Error

/-!
# Spans

Cutting a text where quotes and brackets allow it. `literalEnd` finds the end of a quoted literal,
in which a backslash escapes the next character. `seek` finds the first stop character outside
literals, brackets and parentheses, and `splitAtTop` cuts a text at every such place.
-/

namespace Stencil.Span

def isQuote (c : Char) : Bool := c == '"' || c == '\''

/-- The text up to and including the closing quote `q`, and what follows; `none` if nothing closes
the literal. -/
def literalEnd (q : Char) : List Char → Option (List Char × List Char)
  | [] => none
  | c :: s =>
    if c = '\\' then
      match s with
      | [] => none
      | d :: s => (literalEnd q s).map fun (body, rest) => (c :: d :: body, rest)
    else if c = q then some ([c], s)
    else (literalEnd q s).map fun (body, rest) => (c :: body, rest)

theorem literalEnd_eq_append {q : Char} {s body rest : List Char}
    (h : literalEnd q s = some (body, rest)) : s = body ++ rest := by
  fun_induction literalEnd q s generalizing body rest with
  | case1 => simp at h
  | case2 => simp at h
  | case3 d s ih =>
    obtain ⟨⟨b, r⟩, hb, e⟩ := Option.map_eq_some_iff.1 h
    cases e
    simp [ih hb]
  | case4 => cases h; rfl
  | case5 c s _ _ ih =>
    obtain ⟨⟨b, r⟩, hb, e⟩ := Option.map_eq_some_iff.1 h
    cases e
    simp [ih hb]

theorem literalEnd_length {q : Char} {s body rest : List Char}
    (h : literalEnd q s = some (body, rest)) : rest.length ≤ s.length := by
  rw [literalEnd_eq_append h]; simp

/-- What follows up to the first of `stops` at the top level, or the end of the text. Depth counts
the open brackets and parentheses; a closing one too many counts for nothing. If a literal is never
closed, the error is the text from its opening quote on. -/
def seek (stops : List Char) (depth : Nat) (s : List Char) : Except (List Char) (List Char) :=
  match s with
  | [] => .ok []
  | c :: rest =>
    if isQuote c then
      match h : literalEnd c rest with
      | none => .error (c :: rest)
      | some (_, rest') =>
        have := literalEnd_length h
        seek stops depth rest'
    else if c = '[' ∨ c = '(' then seek stops (depth + 1) rest
    else if c = ']' ∨ c = ')' then seek stops (depth - 1) rest
    else if depth = 0 ∧ c ∈ stops then .ok (c :: rest)
    else seek stops depth rest
termination_by s.length

theorem seek_length {stops : List Char} {depth : Nat} {s rest : List Char}
    (h : seek stops depth s = .ok rest) : rest.length ≤ s.length := by
  fun_induction seek stops depth s with
  | case1 => cases h; simp
  | case2 => cases h
  | case3 depth c s _ body rest' hb hl ih => have := ih h; simp at this ⊢; omega
  | case4 depth c s _ _ ih => have := ih h; simp at this ⊢; omega
  | case5 depth c s _ _ _ ih => have := ih h; simp at this ⊢; omega
  | case6 => cases h; simp
  | case7 depth c s _ _ _ _ ih => have := ih h; simp at this ⊢; omega

/-- The pieces of `s` between the top-level occurrences of `sep`, or the text from an unclosed quote
on. -/
def piecesAtTop (sep : Char) (s : List Char) : Except (List Char) (List (List Char)) :=
  match h : seek [sep] 0 s with
  | .error unclosed => .error unclosed
  | .ok [] => .ok [s]
  | .ok (_ :: rest) =>
    have := seek_length h
    (piecesAtTop sep rest).map (s.take (s.length - (rest.length + 1)) :: ·)
termination_by s.length
decreasing_by simp at this; omega

/-- Cuts a text at the top-level occurrences of a character. -/
def splitAtTop (input : List Char) (sep : Char) : Except Error (List (List Char)) :=
  match piecesAtTop sep input with
  | .ok pieces => .ok pieces
  | .error _ => .error (.malformedIn input "unterminated string literal")

end Stencil.Span
