import Stencil.Proofs.Expression.Numbers
import Stencil.Proofs.Expression.Tokens

/-!
# The grammar of values

A `Term` is a derivation of a value: a string, a number, a range or a path, which starts with a name or
a bracket and goes on with `Steps`. `spelling` is the text that it derives, `Fits` says that no number
and no index in it is too large, and `expression` is what it stands for.
-/

namespace Stencil

open Scanner (Blank IsName)

-- Powers are those of the natural numbers and integers, whatever algebra is imported.
attribute [local instance (high)] instPowNat

abbrev Blanks := { s : List Char // Blank s }

abbrev Name := { s : List Char // IsName s }

/-- What may stand between two quotes `q`: characters other than the quote and the backslash, and pairs
of a backslash and any character. -/
inductive Quotable (q : Char) : List Char → Prop where
  | nil : Quotable q []
  | plain {c : Char} {s : List Char} (hq : c ≠ q) (hb : c ≠ '\\') (h : Quotable q s) :
    Quotable q (c :: s)
  | pair (c : Char) {s : List Char} (h : Quotable q s) : Quotable q ('\\' :: c :: s)

mutual

inductive Term where
  | string (q : Char) (body : List Char) (isQuote : Span.isQuote q = true) (quotable : Quotable q body)
  | number (n : NumberLiteral)
  | range (b₁ : Blanks) (first : Term) (b₂ b₃ : Blanks) (last : Term) (b₄ : Blanks)
  | named (name : Name) (further : Steps)
  | bracketed (start : Bracket) (further : Steps)

inductive Bracket where
  | mk (b : Blanks) (inner : Term) (b' : Blanks)

inductive Steps where
  | none
  | name (name : Name) (further : Steps)
  | index (ds : Digits) (further : Steps)
  | bracket (next : Bracket) (further : Steps)

end

/-! ## Spellings -/

mutual

def Term.spelling : Term → List Char
  | .string q body _ _ => q :: (body ++ [q])
  | .number n => n.spelling
  | .range b₁ first b₂ b₃ last b₄ =>
    '(' :: (b₁ ++ (first.spelling ++ (b₂ ++ '.' :: '.' :: (b₃ ++ (last.spelling ++ (b₄ ++ [')']))))))
  | .named name further => name ++ further.spelling
  | .bracketed start further => start.spelling ++ further.spelling

def Bracket.spelling : Bracket → List Char
  | .mk b inner b' => '[' :: (b ++ (inner.spelling ++ (b' ++ [']'])))

def Steps.spelling : Steps → List Char
  | .none => []
  | .name name further => '.' :: (name ++ further.spelling)
  | .index ds further => '.' :: (ds ++ further.spelling)
  | .bracket next further => next.spelling ++ further.spelling

end

/-! ## Limits -/

mutual

/-- No number overflows, and no index after a point exceeds the integers of 64 bits. -/
def Term.Fits : Term → Prop
  | .string _ _ _ _ => True
  | .number n => n.Fits
  | .range _ first _ _ last _ => first.Fits ∧ last.Fits
  | .named _ further => further.Fits
  | .bracketed start further => start.Fits ∧ further.Fits

def Bracket.Fits : Bracket → Prop
  | .mk _ inner _ => inner.Fits

def Steps.Fits : Steps → Prop
  | .none => True
  | .name _ further => further.Fits
  | .index ds further => Decimal.digitsValue ds < 2 ^ (63 : Nat) ∧ further.Fits
  | .bracket next further => next.Fits ∧ further.Fits

end

/-! ## Meanings -/

/-- The literal that a name alone stands for, if it is one of the four words. -/
def word? (name : String) : Steps → Option Value
  | .none =>
    if name = "true" then some (.bool true)
    else if name = "false" then some (.bool false)
    else if name = "nil" ∨ name = "null" then some .null
    else none
  | _ => none

mutual

def Term.expression (t : Term) : Expression :=
  let spelling := String.ofList t.spelling
  match t with
  | .string _ body _ _ => .literal spelling (.text (String.ofList (Expression.unescape body)))
  | .number n => .literal spelling n.value
  | .range _ first _ _ last _ => .range spelling first.expression last.expression
  | .named name further =>
    match word? (String.ofList name) further with
    | some v => .literal spelling v
    | none => .path spelling (.key (String.ofList name) :: further.segments)
  | .bracketed start further => .path spelling (start.segment :: further.segments)

def Bracket.segment : Bracket → Segment
  | .mk _ inner _ => Expression.bracketSegment inner.expression

def Steps.segments : Steps → List Segment
  | .none => []
  | .name name further => .key (String.ofList name) :: further.segments
  | .index ds further => .index (Decimal.digitsValue ds) :: further.segments
  | .bracket next further => next.segment :: further.segments

end

/-- An expression is spelt as its term is. -/
theorem Term.spelling_expression (t : Term) : t.expression.spelling = String.ofList t.spelling := by
  cases t with
  | string | number | range | bracketed => rfl
  | named name further =>
    rw [Term.expression]
    split <;> rfl

def Term.kind : Term → TokenKind
  | .string _ _ _ _ => .quoted
  | .number _ => .number
  | .range _ _ _ _ _ _ => .range
  | .named name further => Scanner.wordKind (String.ofList (name ++ further.spelling))
  | .bracketed _ _ => .path

def Term.token (t : Term) : Token := ⟨t.kind, String.ofList t.spelling⟩

end Stencil
