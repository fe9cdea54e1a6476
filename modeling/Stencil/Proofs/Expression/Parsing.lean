import Stencil.Proofs.Expression.Rereading

/-!
# Expressions by the grammar

`parse_iff_term` says that an expression is parsed exactly from the spellings of the terms in which
everything fits, blanks around them aside, and is what the term stands for.
-/

namespace Stencil

open Scanner
open Text (isBlank)

/-! ## Trimming -/

namespace Text

variable {s t b b' : List Char}

theorem trimEnd_concat (s : List Char) {c : Char} (h : isBlank c = false) :
    trimEnd (s ++ [c]) = s ++ [c] := by
  rw [trimEnd, List.reverse_append, List.reverse_singleton, List.singleton_append,
    List.dropWhile_cons_of_neg (by simp [h]), List.reverse_cons, List.reverse_reverse]

theorem trimEnd_of_solid (h : ∀ c ∈ s, isBlank c = false) : trimEnd s = s := by
  rcases List.eq_nil_or_concat s with rfl | ⟨t, c, rfl⟩
  · rfl
  · rw [List.concat_eq_append] at h ⊢
    exact trimEnd_concat t (h c (by simp))

theorem trimEnd_blank (hb : Blank b) : trimEnd b = [] := by
  have hr : ∀ c ∈ b.reverse, isBlank c = true := fun c hc => hb c (List.mem_reverse.1 hc)
  rw [trimEnd, (span_iff.2 ⟨(List.append_nil _).symm, hr, rfl⟩).2, List.reverse_nil]

theorem trimEnd_join (hs : trimEnd s = s) (ht : trimEnd t = t) : trimEnd (s ++ t) = s ++ t := by
  rw [trimEnd_append hs, ht]

/-- Trimming takes the blanks around a text that starts and ends with none. -/
theorem trim_between (hb : Blank b) (hb' : Blank b') (hs : Breaks isBlank (s ++ b'))
    (he : trimEnd s = s) : trim (b ++ (s ++ b')) = s := by
  rw [trim, trimStart_append hb hs, trimEnd_append he, trimEnd_blank hb', List.append_nil]

end Text

theorem Scanner.IsName.trimEnd {name : List Char} (h : IsName name) : Text.trimEnd name = name :=
  Text.trimEnd_of_solid fun c hc => isBlank_of_continuesName (h.continues c hc)

theorem Scanner.IsDigits.trimEnd {ds : List Char} (h : IsDigits ds) : Text.trimEnd ds = ds :=
  Text.trimEnd_of_solid fun c hc => isBlank_of_isDigit (h.2 c hc)

theorem NumberLiteral.trimEnd_spelling (n : NumberLiteral) :
    Text.trimEnd n.spelling = n.spelling := by
  have hs : Text.trimEnd n.sign = n.sign := by
    unfold sign
    cases n.minus <;> decide
  have hp : Text.trimEnd n.point = n.point := by
    unfold point
    cases n.fraction with
    | none => rfl
    | some ds => exact Text.trimEnd_join (s := ['.']) (by decide) ds.2.trimEnd
  exact Text.trimEnd_join hs (Text.trimEnd_join n.whole.2.trimEnd hp)

mutual

/-- No term ends with a blank. -/
theorem Term.trimEnd_spelling : ∀ t : Term, Text.trimEnd t.spelling = t.spelling
  | .string q body hq _ => Text.trimEnd_concat (q :: body) (isBlank_of_isQuote hq)
  | .number n => n.trimEnd_spelling
  | .range b₁ first b₂ b₃ last b₄ => by
    have e : (Term.range b₁ first b₂ b₃ last b₄).spelling = ('(' :: (b₁ ++ (first.spelling ++ (b₂ ++
        '.' :: '.' :: (b₃ ++ (last.spelling ++ b₄)))))) ++ [')'] := by simp [Term.spelling]
    rw [e]
    exact Text.trimEnd_concat _ (by decide)
  | .named name further => Text.trimEnd_join name.2.trimEnd further.trimEnd_spelling
  | .bracketed start further => Text.trimEnd_join start.trimEnd_spelling further.trimEnd_spelling

theorem Bracket.trimEnd_spelling : ∀ b : Bracket, Text.trimEnd b.spelling = b.spelling
  | .mk b inner b' => by
    have e : (Bracket.mk b inner b').spelling = ('[' :: (b ++ (inner.spelling ++ b'))) ++ [']'] := by
      simp [Bracket.spelling]
    rw [e]
    exact Text.trimEnd_concat _ (by decide)

theorem Steps.trimEnd_spelling : ∀ steps : Steps, Text.trimEnd steps.spelling = steps.spelling
  | .none => rfl
  | .name name further =>
    Text.trimEnd_join (s := ['.']) (by decide)
      (Text.trimEnd_join name.2.trimEnd further.trimEnd_spelling)
  | .index ds further =>
    Text.trimEnd_join (s := ['.']) (by decide)
      (Text.trimEnd_join ds.2.trimEnd further.trimEnd_spelling)
  | .bracket next further => Text.trimEnd_join next.trimEnd_spelling further.trimEnd_spelling

end

theorem Term.trim_between (t : Term) {b b' : List Char} (hb : Blank b) (hb' : Blank b') :
    Text.trim (b ++ (t.spelling ++ b')) = t.spelling :=
  Text.trim_between hb hb' (t.breaks_isBlank b') t.trimEnd_spelling

/-! ## Whole expressions -/

namespace Expression

variable {text b b' : List Char} {e : Expression}

/-- The text of an expression is the spelling of a term with blanks around it. -/
theorem term_of_ofChars (h : ofChars text = .ok e) :
    ∃ t : Term, t.spelling = Text.trim text ∧ ofToken t.token = .ok e := by
  obtain ⟨s', h⟩ := readIn_eq_ok_iff.1 h
  simp only [reader, bind_eq_ok_iff] at h
  obtain ⟨_, s₁, hb, o, s₂, hv, h⟩ := h
  obtain ⟨b, hb, e₁, -⟩ := skipBlanks_ok hb
  cases o with
  | none => cases h
  | some token =>
    obtain ⟨e₂, hr⟩ := value_reads _ _ _ hv
    obtain ⟨t, rfl⟩ := hr.term
    obtain ⟨_, s₃, hb', h⟩ := bind_eq_ok_iff.1 h
    obtain ⟨b', hb', e₃, -⟩ := skipBlanks_ok hb'
    obtain ⟨ended, s₄, ha, h⟩ := bind_eq_ok_iff.1 h
    cases ha
    split at h
    · rename_i ended
      have htext : text = b ++ (t.spelling ++ b') := by
        rw [Term.token, String.toList_ofList] at e₂
        rw [List.isEmpty_iff.1 ended, List.append_nil] at e₃
        rw [← e₃, ← e₂]
        exact e₁
      exact ⟨t, by rw [htext, t.trim_between hb hb'], (lift_ok h).1⟩
    · obtain ⟨_, _, _, h⟩ := bind_eq_ok_iff.1 h
      obtain ⟨_, _, hf, -⟩ := bind_eq_ok_iff.1 h
      cases hf

theorem ofChars_of_term {t : Term} (hb : Blank b) (hb' : Blank b') (h : ofToken t.token = .ok e) :
    ofChars (b ++ (t.spelling ++ b')) = .ok e := by
  refine readIn_of_gives (?_ : Gives _ _ _ [])
  refine (skipBlanks_gives rfl hb (t.breaks_isBlank b')).bind fun s₁ e₁ => ?_
  refine (t.value_gives e₁ (.of_blank hb')).bind fun s₂ e₂ => ?_
  refine (skipBlanks_gives (e₂.trans (List.append_nil b').symm) hb' rfl).bind fun s₃ e₃ => ?_
  refine (atEnd_gives e₃).bind fun s₄ e₄ => ?_
  exact (e₄.trans e₃) ▸ lift_gives h

/-- **The grammar of expressions.** A text is parsed exactly if it is, blanks around it aside, the
spelling of a term in which no number and no index is too large, and as the expression that the term
stands for. -/
theorem parse_iff_term (text : String) (e : Expression) :
    Expression.parse text = .ok e ↔
      ∃ t : Term, t.spelling = Text.trim text.toList ∧ t.Fits ∧ t.expression = e := by
  constructor
  · intro h
    obtain ⟨t, hs, ho⟩ := term_of_ofChars h
    have hl := t.ofToken_limited
    rw [ho] at hl
    cases hl with
    | ok hf => exact ⟨t, hs, hf, rfl⟩
  · rintro ⟨t, hs, hf, rfl⟩
    obtain ⟨b, b', e, hb, hb'⟩ := Text.trim_eq text.toList
    rw [parse, e, List.append_assoc, ← hs]
    exact ofChars_of_term hb hb' (t.ofToken_of_fits hf)

end Expression

end Stencil
