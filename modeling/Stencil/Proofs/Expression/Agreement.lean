import Mathlib
import Stencil.Proofs.Expression.Parsing
import Stencil.Proofs.Expression.Places

/-!
# Tokens stand on their own

Where a value ends is decided by the characters behind it. `value_agrees` says that nothing of them is
left in the token: its text is scanned alone as the same token, and the second reading makes of it what
a parse of the text does.
-/

namespace Stencil

open Scanner

theorem Term.spelling_ne_nil (t : Term) : t.spelling ≠ [] := by
  rcases (t.reads Ends.nil).starts with ⟨c, cs, e, -⟩ | ⟨h, -⟩
  · rw [e]
    exact List.cons_ne_nil c cs
  · cases h

/-- Scanned alone a term is its token, and all of the text is taken. -/
theorem Term.value_alone (t : Term) : value? (ofChars t.spelling) =
    .ok (some t.token) ((ofChars t.spelling).past t.spelling []) := by
  have whole : (ofChars t.spelling).rest = t.spelling ++ [] := (List.append_nil _).symm
  obtain ⟨s, hv, hr⟩ := t.value_gives whole Ends.nil
  have hs := value_eq_past hv (hr ▸ whole)
  rw [hr] at hs
  rw [hv, hs]

theorem Term.ofChars_spelling {t : Term} (h : t.Fits) :
    Expression.ofChars t.spelling = .ok t.expression := by
  have hb : Blank [] := by decide
  have hp := Expression.ofChars_of_term hb hb (t.ofToken_of_fits h)
  rwa [List.nil_append, List.append_nil] at hp

namespace Scanner

variable {s s' : Scanner}

theorem valueAt_none {depth : Nat} (h : valueAt depth s = .ok none s') : s' = s := by
  cases depth with
  | zero =>
    cases h
    rfl
  | succ depth =>
    obtain ⟨quoted, s₁, hq, h₁⟩ := bind_eq_ok_iff.1 h
    rcases (quoted_ok hq).symm with ⟨text, rfl, -⟩ | ⟨rfl, rfl⟩
    · cases h₁
    obtain ⟨range, s₂, hr, h₂⟩ := bind_eq_ok_iff.1 h₁
    rcases (rangeOf_ok (valueAt_reads depth) hr).symm with ⟨text, rfl, -⟩ | ⟨rfl, rfl, -⟩
    · cases h₂
    obtain ⟨number, s₃, hn, h₃⟩ := bind_eq_ok_iff.1 h₂
    rcases (chunk_ok hn).symm with ⟨text, rfl, -⟩ | ⟨rfl, rfl, -⟩
    · cases h₃
    obtain ⟨path, s₄, hp, h₄⟩ := bind_eq_ok_iff.1 h₃
    rcases (pathOf_ok (valueAt_reads depth) hp).symm with ⟨text, rfl, -⟩ | ⟨rfl, rfl⟩
    · cases h₄
    · cases h₄
      rfl

/-- **Tokens stand on their own.** A scan that fails at nothing either finds no value and moves over
nothing, or it moves over the text of a token, and that token is what a scan of its text alone gives.
An expression is made of it, unless a number or an index in it is too large, and it is the expression
that the token's text is parsed as. -/
theorem value_agrees {o : Option Token} (h : value? s = .ok o s') :
    o = none ∧ s' = s ∨
      ∃ (t : Token) (term : Term), o = some t ∧ term.token = t ∧
        t.text ≠ "" ∧ s.rest = t.text.toList ++ s'.rest ∧ s' = s.past t.text.toList s'.rest ∧
        value? (ofChars t.text.toList) = .ok (some t) ((ofChars t.text.toList).past t.text.toList []) ∧
        (term.Fits ∧ (∃ e, Expression.ofToken t = .ok e ∧ Expression.parse t.text = .ok e ∧
            e.spelling = t.text ∧ toString e = t.text) ∨
          ¬ term.Fits ∧ ∃ e, Expression.ofToken t = .error e ∧ e.OverLimit) := by
  cases o with
  | none => exact .inl ⟨rfl, valueAt_none h⟩
  | some t =>
    obtain ⟨e, hr⟩ := value_reads s t s' h
    obtain ⟨term, rfl⟩ := hr.term
    have ht : term.token.text.toList = term.spelling := String.toList_ofList
    have hne : term.token.text ≠ "" := fun he => term.spelling_ne_nil (by rw [← ht, he]; rfl)
    have halone := term.value_alone
    rw [← ht] at halone
    refine .inr ⟨term.token, term, rfl, rfl, hne, e, value_eq_past h e, halone, ?_⟩
    by_cases hf : term.Fits
    · have ho := term.ofToken_of_fits hf
      have hp : Expression.parse term.token.text = .ok term.expression := by
        rw [Expression.parse, ht]
        exact Term.ofChars_spelling hf
      exact .inl ⟨hf, term.expression, ho, hp, term.spelling_expression, term.spelling_expression⟩
    · obtain ⟨e, ho, he⟩ := term.ofToken_limited.eq_error hf
      exact .inr ⟨hf, e, ho, he⟩

set_option maxRecDepth 1000 in
/-- In a range the path ends at the two points, and alone at the end of its text. -/
theorem value_agrees_path :
    let s : Scanner := ⟨"(a[0].1..9)".toList, 1, "a[0].1..9)".toList⟩
    let alone := ofChars "a[0].1".toList
    value? s = .ok (some ⟨.path, "a[0].1"⟩) (s.past "a[0].1".toList "..9)".toList) ∧
      value? alone = .ok (some ⟨.path, "a[0].1"⟩) (alone.past "a[0].1".toList []) ∧
      ∃ e, Expression.ofToken ⟨.path, "a[0].1"⟩ = .ok e ∧ Expression.parse "a[0].1" = .ok e ∧
        e.spelling = "a[0].1" ∧ toString e = "a[0].1" := by
  intro s alone
  have h : value? s = .ok (some ⟨.path, "a[0].1"⟩) (s.past "a[0].1".toList "..9)".toList) := by cbv
  have hfits : Expression.ofToken ⟨.path, "a[0].1"⟩ =
    .ok (.path "a[0].1" [.key "a", .index 0, .index 1]) := by cbv
  refine ⟨h, ?_⟩
  rcases value_agrees h with
    ⟨he, -⟩ | ⟨t, term, he, -, -, -, -, halone, ⟨-, hp⟩ | ⟨-, e, hp, -⟩⟩
  · cases he
  · cases he
    exact ⟨halone, hp⟩
  · cases he
    cases hfits.symm.trans hp

end Scanner

end Stencil
