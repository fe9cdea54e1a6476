import Stencil.Expression.Basic
import Stencil.Proofs.Expression.Separated

/-!
# Texts spelt as literals

Any text can be spelt as a quoted literal: backslashes and the quote are escaped. The literal ends
where it should, no search for separators stops in it, and it is read as the text.
-/

namespace Stencil

/-- A text to be spelt as a literal, and the quote to spell it with. -/
structure Literal where
  text : String
  quote : Char
  isQuote : Span.isQuote quote = true

namespace Literal

/-- A backslash before every backslash and every quote `q`. -/
def escape (q : Char) (s : List Char) : List Char :=
  s.flatMap fun c => if c = '\\' ∨ c = q then ['\\', c] else [c]

/-- The literal without its opening quote. -/
def body (l : Literal) : List Char := escape l.quote l.text.toList ++ [l.quote]

def print (l : Literal) : List Char := l.quote :: l.body

def token (l : Literal) : Token := ⟨.quoted, String.ofList l.print⟩

theorem escape_cons_marked {q c : Char} (h : c = '\\' ∨ c = q) (s : List Char) :
    escape q (c :: s) = '\\' :: c :: escape q s := by
  rw [escape, List.flatMap_cons, if_pos h]
  rfl

theorem escape_cons_free {q c : Char} (h : ¬ (c = '\\' ∨ c = q)) (s : List Char) :
    escape q (c :: s) = c :: escape q s := by
  rw [escape, List.flatMap_cons, if_neg h]
  rfl

/-- The first free quote after an escaped text is the one that was put there. -/
theorem literalEnd_escape {q : Char} (hq : q ≠ '\\') (s : List Char) :
    Span.literalEnd q (escape q s ++ [q]) = some (escape q s ++ [q], []) := by
  induction s with
  | nil =>
    rw [escape, List.flatMap_nil, List.nil_append, Span.literalEnd.eq_def]
    simp [hq]
  | cons c s ih =>
    by_cases h : c = '\\' ∨ c = q
    · rw [escape_cons_marked h, List.cons_append, List.cons_append, Span.literalEnd.eq_def]
      simp [ih]
    · have hc := not_or.1 h
      rw [escape_cons_free h, List.cons_append, Span.literalEnd.eq_def]
      simp [hc, ih]

/-- A quote is no letter that an escape gives another meaning. -/
theorem unescape_escape {q : Char} (hq : Span.isQuote q = true) (s : List Char) :
    Expression.unescape (escape q s) = s := by
  induction s with
  | nil => rfl
  | cons c s ih =>
    by_cases h : c = '\\' ∨ c = q
    · have letters : c ≠ 'n' ∧ c ≠ 't' ∧ c ≠ 'r' := by
        have hc : c = '\\' ∨ Span.isQuote c = true := by
          rcases h with h | rfl
          · exact .inl h
          · exact .inr hq
        simp only [Span.isQuote, Bool.or_eq_true, beq_iff_eq] at hc
        rcases hc with rfl | rfl | rfl <;> decide
      rw [escape_cons_marked h, Expression.unescape.eq_def]
      simp [letters, ih]
    · rw [escape_cons_free h, Expression.unescape.eq_def]
      simp [(not_or.1 h).1, ih]

variable (l : Literal)

theorem literalEnd_body : Span.literalEnd l.quote l.body = some (l.body, []) := by
  refine literalEnd_escape ?_ l.text.toList
  rintro e
  have hq := l.isQuote
  rw [e] at hq
  cases hq

theorem startsName_quote : Text.startsName l.quote = false := by
  cases h : Text.startsName l.quote with
  | false => rfl
  | true => cases (quoteless_startsName.isQuote h).symm.trans l.isQuote

theorem level : Span.Level l.print := .literal l.isQuote l.literalEnd_body

theorem reads (rest : List Char) : Scanner.Reads (.value .quoted) l.print rest :=
  .quoted l.isQuote l.literalEnd_body

theorem unquote_print : Expression.unquote l.print = l.text := by
  have hd : (l.print.drop 1).dropLast = escape l.quote l.text.toList := List.dropLast_concat
  rw [Expression.unquote, hd, unescape_escape l.isQuote, String.ofList_toList]

/-- The expression of a literal is its text. -/
def expression : Expression := .literal (String.ofList l.print) (.text l.text)

theorem ofToken_token : Expression.ofToken l.token = .ok l.expression := by
  have h : Expression.unquote (String.ofList l.print).toList = l.text := by
    rw [String.toList_ofList]
    exact l.unquote_print
  simp only [Expression.ofToken, Expression.ofTokenAt, Expression.ofTokenWith, token, h]
  rfl

end Literal

end Stencil
