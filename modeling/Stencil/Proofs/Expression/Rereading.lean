import Stencil.Proofs.Expression.Scanning
import Stencil.Proofs.Pipeline

/-!
# The second reading of a value

A token is scanned once more to make an expression of it. On the token of a term that reading takes the
term apart as the first one did: it gives the term's expression, or fails at a number or an index that
is too large, and never anywhere else.
-/

namespace Stencil

open Scanner
open Text (startsName continuesName isBlank)

-- Powers are those of the natural numbers and integers, whatever algebra is imported.
attribute [local instance (high)] instPowNat

/-- The fault of a number or of an index that is too large. -/
def Error.OverLimit (e : Error) : Prop :=
  ∃ text, e = .malformedIn text "invalid index" ∨ e = .malformedIn text "invalid number"

/-- The reading gives `a` if everything fits, and else fails at what does not. -/
inductive Limited {α : Type} (fits : Prop) (a : α) : Except Error α → Prop where
  | ok (h : fits) : Limited fits a (.ok a)
  | error {e : Error} (h : ¬ fits) (he : e.OverLimit) : Limited fits a (.error e)

namespace Limited

variable {α β : Type} {fits fits' : Prop} {a : α} {b : β} {r : Except Error α}

theorem eq_ok (h : Limited fits a r) (hf : fits) : r = .ok a := by
  cases h with
  | ok => rfl
  | error h => exact absurd hf h

theorem eq_error (h : Limited fits a r) (hf : ¬ fits) : ∃ e, r = .error e ∧ e.OverLimit := by
  cases h with
  | ok h => exact absurd h hf
  | error h he => exact ⟨_, rfl, he⟩

theorem congr (h : Limited fits a r) (e : fits ↔ fits') : Limited fits' a r := propext e ▸ h

theorem map (h : Limited fits a r) (f : α → β) : Limited fits (f a) (r.map f) := by
  cases h with
  | ok h => exact .ok h
  | error h he => exact .error h he

theorem bind {f : α → Except Error β} (h : Limited fits a r) (hf : Limited fits' b (f a)) :
    Limited (fits ∧ fits') b (r >>= f) := by
  cases h with
  | error h he => exact .error (fun hb => h hb.1) he
  | ok h =>
    change Limited _ _ (f a)
    generalize f a = r' at hf ⊢
    cases hf with
    | ok h' => exact .ok ⟨h, h'⟩
    | error h' he => exact .error (fun hb => h' hb.2) he

end Limited

namespace Scanner

variable {α β : Type} {m : Scan α} {f : α → Scan β} {s : Scanner} {a : α} {b : β} {fits : Prop}
  {rest : List Char}

theorem Gives.limited (h : Gives m s a rest)
    (hf : ∀ s', s'.rest = rest → Limited fits b (outcome (f a s'))) :
    Limited fits b (outcome ((m >>= f) s)) := by
  obtain ⟨s', hm, hr⟩ := h
  rw [bind_of_ok hm]
  exact hf s' hr

end Scanner

theorem Scanner.lift_limited {α β : Type} {r : Except Error α} {f : α → Scan β} {s : Scanner} {a : α}
    {b : β} {fits fits' : Prop} (h : Limited fits a r) (hf : Limited fits' b (outcome (f a s))) :
    Limited (fits ∧ fits') b (outcome ((lift r >>= f) s)) := by
  rw [outcome_lift_bind]
  exact h.bind hf

/-! ## Readings of the parts -/

namespace Expression

variable {inner : Token → Except Error Expression} {s : Scanner} {n : Nat} {fits fits' : Prop}

theorem segments_end (hs : s.rest = []) : outcome (segments inner n s) = .ok [] := by
  cases n with
  | zero => rfl
  | succ n =>
    have he : atEnd s = .ok true s := by rw [atEnd, hs]; rfl
    rw [segments, bind_of_ok he]
    rfl

theorem limited_more {segment : Segment} {more : List Segment}
    (h : Limited fits more (outcome (segments inner n s))) :
    Limited fits (segment :: more)
      (outcome ((do return segment :: (← segments inner n) : Scan (List Segment)) s)) := by
  have e : outcome ((do return segment :: (← segments inner n) : Scan (List Segment)) s) =
      (outcome (segments inner n s)).map (segment :: ·) := outcome_map _
  rw [e]
  exact h.map _

theorem segments_name {name : Name} {rest : List Char} {more : List Segment}
    (hs : s.rest = '.' :: (name ++ rest)) (hb : Breaks continuesName rest)
    (h : ∀ s', s'.rest = rest → Limited fits more (outcome (segments inner n s'))) :
    Limited fits (.key (String.ofList name) :: more) (outcome (segments inner (n + 1) s)) := by
  rw [segments]
  refine (atEnd_misses hs).limited fun s₁ e₁ => ?_
  refine (eat_gives (e₁.trans hs)).limited fun s₂ e₂ => ?_
  refine (chunk_gives (splitName_iff.2 ⟨e₂, name.2, hb⟩)).limited fun s₃ e₃ => ?_
  exact limited_more (h s₃ e₃)

theorem segments_index {ds : Digits} {rest : List Char} {more : List Segment}
    (hs : s.rest = '.' :: (ds ++ rest)) (hb : Breaks Char.isDigit rest)
    (h : ∀ s', s'.rest = rest → Limited fits more (outcome (segments inner n s'))) :
    Limited (Decimal.digitsValue ds < 2 ^ (63 : Nat) ∧ fits)
      (.index (Decimal.digitsValue ds) :: more) (outcome (segments inner (n + 1) s)) := by
  rw [segments]
  refine (atEnd_misses hs).limited fun s₁ e₁ => ?_
  refine (eat_gives (e₁.trans hs)).limited fun s₂ e₂ => ?_
  have hn : splitName s₂.rest = none := by
    rw [e₂]
    exact splitName_eq_none_iff.2 (ds.2.breaks_startsName rest)
  refine (chunk_misses hn).limited fun s₃ e₃ => ?_
  refine (chunk_gives (splitDigits_iff.2 ⟨e₃.trans e₂, ds.2, hb⟩)).limited fun s₄ e₄ => ?_
  dsimp only
  rw [String.toList_ofList, Decimal.integer?_digits ds.2]
  by_cases hl : Decimal.digitsValue ds < 2 ^ (63 : Nat)
  · rw [if_pos hl]
    exact (limited_more (h s₄ e₄)).congr (and_iff_right hl).symm
  · rw [if_neg hl]
    exact .error (fun hf => hl hf.1) ⟨_, .inl rfl⟩

theorem segments_bracket {b b' : Blanks} {t : Term} {rest : List Char} {more : List Segment}
    (hs : s.rest = (Bracket.mk b t b').spelling ++ rest)
    (ht : Limited t.Fits t.expression (inner t.token))
    (h : ∀ s', s'.rest = rest → Limited fits more (outcome (segments inner n s'))) :
    Limited (t.Fits ∧ fits) (bracketSegment t.expression :: more)
      (outcome (segments inner (n + 1) s)) := by
  have closing : Ends (']' :: rest) := .of_head (by decide) (by decide) (by decide)
  simp only [Bracket.spelling, List.cons_append, List.append_assoc, List.nil_append] at hs
  rw [segments]
  refine (atEnd_misses hs).limited fun s₁ e₁ => ?_
  refine (eat_misses (by rw [e₁, hs]; simp)).limited fun s₂ e₂ => ?_
  refine (eat_gives ((e₂.trans e₁).trans hs)).limited fun s₃ e₃ => ?_
  refine (skipBlanks_gives e₃ b.2 (t.breaks_isBlank _)).limited fun s₄ e₄ => ?_
  refine (t.value_gives e₄ (closing.blanks b'.2)).limited fun s₅ e₅ => ?_
  refine (skipBlanks_gives e₅ b'.2 rfl).limited fun s₆ e₆ => ?_
  refine (eat_gives e₆).limited fun s₇ e₇ => ?_
  refine (require_gives rfl).limited fun s₈ e₈ => ?_
  exact lift_limited ht (limited_more (h s₈ (e₈.trans e₇)))

theorem pathSegments_named {name : Name} {rest : List Char} {more : List Segment}
    (hs : s.rest = name ++ rest) (hb : Breaks continuesName rest)
    (h : ∀ s', s'.rest = rest →
      Limited fits more (outcome (segments inner (name.val ++ rest).length s'))) :
    Limited fits (.key (String.ofList name) :: more) (outcome (pathSegments inner s)) := by
  rw [pathSegments]
  refine get_gives.limited fun s₁ e₁ => ?_
  refine (chunk_gives (splitName_iff.2 ⟨e₁.trans hs, name.2, hb⟩)).limited fun s₂ e₂ => ?_
  rw [hs]
  exact limited_more (h s₂ e₂)

theorem pathSegments_bracketed {more : List Segment} (hs : s.rest.head? = some '[')
    (h : ∀ s', s'.rest = s.rest → Limited fits more (outcome (segments inner s.rest.length s'))) :
    Limited fits more (outcome (pathSegments inner s)) := by
  rw [pathSegments]
  refine get_gives.limited fun s₁ e₁ => ?_
  have hn : splitName s₁.rest = none := by
    obtain ⟨rest, e⟩ := List.head?_eq_some_iff.1 hs
    rw [e₁, e]
    rfl
  refine (chunk_misses hn).limited fun s₂ e₂ => ?_
  exact h s₂ (e₂.trans e₁)

theorem rangeEnds_limited {b₁ b₂ b₃ b₄ : Blanks} {first last : Term}
    (hs : s.rest = (Term.range b₁ first b₂ b₃ last b₄).spelling)
    (hf : Limited first.Fits first.expression (inner first.token))
    (hl : Limited last.Fits last.expression (inner last.token)) :
    Limited (first.Fits ∧ last.Fits) (first.expression, last.expression)
      (outcome (rangeEnds inner s)) := by
  have closing : Ends [')'] := .of_head (by decide) (by decide) (by decide)
  rw [rangeEnds]
  refine (eat_gives hs).limited fun s₁ e₁ => ?_
  refine (skipBlanks_gives e₁ b₁.2 (first.breaks_isBlank _)).limited fun s₂ e₂ => ?_
  refine (first.value_gives e₂ (Ends.points.blanks b₂.2)).limited fun s₃ e₃ => ?_
  refine (skipBlanks_gives e₃ b₂.2 rfl).limited fun s₄ e₄ => ?_
  have points : s₄.rest = ['.', '.'] ++ (b₃ ++ (last.spelling ++ (b₄ ++ [')']))) := e₄
  refine (eatAll_gives points).limited fun s₅ e₅ => ?_
  refine (skipBlanks_gives e₅ b₃.2 (last.breaks_isBlank _)).limited fun s₆ e₆ => ?_
  refine (last.value_gives e₆ (closing.blanks b₄.2)).limited fun s₇ e₇ => ?_
  have ends : Limited (last.Fits ∧ True) (first.expression, last.expression)
      (outcome ((do return (first.expression, ← lift (inner last.token)) :
        Scan (Expression × Expression)) s₇)) := lift_limited hl (.ok trivial)
  exact lift_limited hf (ends.congr (and_iff_left trivial))

end Expression

/-! ## The token of a term -/

open Expression

section
variable (inner : Token → Except Error Expression) (text : List Char)

theorem ofTokenWith_quoted : ofTokenWith inner ⟨.quoted, String.ofList text⟩ =
    .ok (.literal (String.ofList text) (.text (unquote text))) := by
  rw [ofTokenWith, String.toList_ofList]

theorem ofTokenWith_number : ofTokenWith inner ⟨.number, String.ofList text⟩ =
    (numeral text).map (.literal (String.ofList text)) := by
  rw [ofTokenWith, String.toList_ofList]

theorem ofTokenWith_path : ofTokenWith inner ⟨.path, String.ofList text⟩ =
    (outcome (pathSegments inner (Scanner.ofChars text))).map (.path (String.ofList text)) := by
  rw [ofTokenWith, String.toList_ofList]
  rfl

theorem ofTokenWith_range : ofTokenWith inner ⟨.range, String.ofList text⟩ =
    (outcome (rangeEnds inner (Scanner.ofChars text))).map
      fun ends => .range (String.ofList text) ends.1 ends.2 := by
  rw [ofTokenWith, String.toList_ofList]
  rfl

end

theorem ofTokenAt_succ (depth : Nat) : ofTokenAt (depth + 1) = ofTokenWith (ofTokenAt depth) := rfl

theorem unquote_string (q : Char) (body : List Char) :
    unquote (q :: (body ++ [q])) = String.ofList (unescape body) := by
  rw [unquote, List.drop_one, List.tail_cons, List.dropLast_concat]

theorem NumberLiteral.numeral_limited (n : NumberLiteral) :
    Limited n.Fits n.value (Expression.numeral n.spelling) := by
  by_cases hf : n.Fits
  · rw [n.numeral_of_fits hf]
    exact .ok hf
  · rw [n.numeral_of_not_fits hf]
    exact .error hf ⟨_, .inr rfl⟩

/-- The spelling of a step, if there is one, has a point or a bracket. -/
theorem Steps.mem_spelling {steps : Steps} (h : steps ≠ .none) :
    ∃ c, (c = '.' ∨ c = '[') ∧ c ∈ steps.spelling := by
  cases steps with
  | none => exact absurd rfl h
  | name | index => exact ⟨'.', .inl rfl, List.mem_cons_self⟩
  | bracket next => exact ⟨'[', .inr rfl, List.mem_append_left _ next.mem_spelling⟩

/-- A name is one of the words, or no literal and a path. -/
theorem word_cases (name : List Char) :
    (∃ word ∈ ["true", "false", "nil", "null"], name = word.toList) ∨
      word? (String.ofList name) .none = none ∧ wordKind (String.ofList name) = .path := by
  by_cases hw : ∃ word ∈ ["true", "false", "nil", "null"], name = word.toList
  · exact .inl hw
  · have ne : ∀ word ∈ ["true", "false", "nil", "null"], String.ofList name ≠ word := by
      rintro word hm rfl
      exact hw ⟨_, hm, String.toList_ofList.symm⟩
    simp only [List.forall_mem_cons] at ne
    exact .inr ⟨by simp [word?, ne], by simp [wordKind, ne]⟩

theorem Term.expression_of_no_word {name : Name} {further : Steps}
    (h : word? (String.ofList name) further = none) : (Term.named name further).expression =
      .path (String.ofList (name ++ further.spelling))
        (.key (String.ofList name) :: further.segments) := by
  rw [Term.expression, h]
  rfl

/-- A name alone may be a word, which is a literal; all other names start a path. -/
theorem Term.named_cases (inner : Token → Except Error Expression) (name : Name) (further : Steps) :
    further = .none ∧ ofTokenWith inner (Term.named name further).token =
        .ok (Term.named name further).expression ∨
      (Term.named name further).kind = .path ∧
        (Term.named name further).expression = .path (String.ofList (name ++ further.spelling))
          (.key (String.ofList name) :: further.segments) := by
  by_cases hf : further = .none
  · subst hf
    have hk : (Term.named name .none).kind = wordKind (String.ofList name) := by
      rw [Term.kind, Steps.spelling, List.append_nil]
    rcases word_cases name with ⟨word, hm, hw⟩ | ⟨hw, hp⟩
    · obtain ⟨name, hn⟩ := name
      refine .inl ⟨rfl, ?_⟩
      subst hw
      rcases (by simpa using hm : word = "true" ∨ word = "false" ∨ word = "nil" ∨ word = "null") with
        rfl | rfl | rfl | rfl <;> rfl
    · exact .inr ⟨hk.trans hp, Term.expression_of_no_word hw⟩
  · obtain ⟨c, hc, hm⟩ := further.mem_spelling hf
    have hw : word? (String.ofList name) further = none := by
      cases further with
      | none => exact absurd rfl hf
      | name | index | bracket => rfl
    exact .inr ⟨wordKind_of_mem hc (List.mem_append_right _ hm), Term.expression_of_no_word hw⟩

mutual

/-- The bound on the nesting only has to reach the length of the spelling, since a bracket or a range is
longer than what it holds. -/
theorem Term.ofTokenWith_limited : ∀ (t : Term) (depth : Nat), t.spelling.length ≤ depth →
    Limited t.Fits t.expression (ofTokenWith (ofTokenAt depth) t.token)
  | .string q body hq hb, depth, _ => by
    rw [Term.token, Term.kind, ofTokenWith_quoted, Term.spelling, unquote_string]
    exact .ok trivial
  | .number n, depth, _ => by
    rw [Term.token, Term.kind, ofTokenWith_number]
    exact n.numeral_limited.map _
  | .range b₁ first b₂ b₃ last b₄, depth, hd => by
    obtain ⟨depth, rfl⟩ : ∃ d, depth = d + 1 :=
      ⟨depth - 1, by simp [Term.spelling] at hd; omega⟩
    have hl : first.spelling.length ≤ depth ∧ last.spelling.length ≤ depth := by
      simp [Term.spelling] at hd
      omega
    have ends := rangeEnds_limited (s := Scanner.ofChars (Term.range b₁ first b₂ b₃ last b₄).spelling)
      rfl (first.ofTokenWith_limited depth hl.1) (last.ofTokenWith_limited depth hl.2)
    rw [Term.token, Term.kind, ofTokenWith_range, ofTokenAt_succ]
    exact ends.map fun ends => Expression.range _ ends.1 ends.2
  | .named name further, depth, hd => by
    rcases Term.named_cases (ofTokenAt depth) name further with ⟨rfl, h⟩ | ⟨hk, he⟩
    · rw [h]
      exact .ok trivial
    · have hl : further.spelling.length ≤ depth ∧
          further.spelling.length ≤ (name.val ++ further.spelling).length := by
        simp [Term.spelling] at hd ⊢
        omega
      rw [he, Term.token, hk, ofTokenWith_path, Term.spelling]
      refine (pathSegments_named rfl (further.breaks_end (by decide) (by decide)) ?_).map _
      exact further.segments_limited depth _ hl.1 hl.2
  | .bracketed (.mk b t b') further, depth, hd => by
    obtain ⟨depth, rfl⟩ : ∃ d, depth = d + 1 :=
      ⟨depth - 1, by simp [Term.spelling, Bracket.spelling] at hd; omega⟩
    have hl : t.spelling.length ≤ depth ∧ further.spelling.length ≤ depth + 1 := by
      simp [Term.spelling, Bracket.spelling] at hd
      omega
    rw [Term.token, Term.kind, ofTokenWith_path]
    refine (pathSegments_bracketed rfl fun s' e => ?_).map _
    refine segments_bracket e (t.ofTokenWith_limited depth hl.1) ?_
    exact further.segments_limited (depth + 1) _ hl.2 (by simp; omega)

theorem Steps.segments_limited : ∀ (steps : Steps) (depth n : Nat), steps.spelling.length ≤ depth →
    steps.spelling.length ≤ n → ∀ s : Scanner, s.rest = steps.spelling →
      Limited steps.Fits steps.segments (outcome (Expression.segments (ofTokenAt depth) n s))
  | .none, _, _, _, _, s, hs => by
    rw [segments_end hs]
    exact .ok trivial
  | .name name further, depth, n, hd, hn, s, hs => by
    obtain ⟨n, rfl⟩ : ∃ m, n = m + 1 := ⟨n - 1, by simp [Steps.spelling] at hn; omega⟩
    have hl : further.spelling.length ≤ depth ∧ further.spelling.length ≤ n := by
      simp [Steps.spelling] at hd hn
      omega
    exact segments_name hs (further.breaks_end (by decide) (by decide))
      (further.segments_limited depth n hl.1 hl.2)
  | .index ds further, depth, n, hd, hn, s, hs => by
    obtain ⟨n, rfl⟩ : ∃ m, n = m + 1 := ⟨n - 1, by simp [Steps.spelling] at hn; omega⟩
    have hl : further.spelling.length ≤ depth ∧ further.spelling.length ≤ n := by
      simp [Steps.spelling] at hd hn
      omega
    exact segments_index hs (further.breaks_end (by decide) (by decide))
      (further.segments_limited depth n hl.1 hl.2)
  | .bracket (.mk b t b') further, depth, n, hd, hn, s, hs => by
    obtain ⟨n, rfl⟩ : ∃ m, n = m + 1 :=
      ⟨n - 1, by simp [Steps.spelling, Bracket.spelling] at hn; omega⟩
    obtain ⟨depth, rfl⟩ : ∃ d, depth = d + 1 :=
      ⟨depth - 1, by simp [Steps.spelling, Bracket.spelling] at hd; omega⟩
    have hl : t.spelling.length ≤ depth ∧ further.spelling.length ≤ depth + 1 ∧
        further.spelling.length ≤ n := by
      simp [Steps.spelling, Bracket.spelling] at hd hn
      omega
    exact segments_bracket hs (t.ofTokenWith_limited depth hl.1)
      (further.segments_limited (depth + 1) n hl.2.1 hl.2.2)

end

/-- A term's token is read as the term's expression, if everything in it fits. -/
theorem Term.ofToken_limited (t : Term) : Limited t.Fits t.expression (ofToken t.token) := by
  refine t.ofTokenWith_limited t.token.text.length (Nat.le_of_eq ?_)
  rw [Term.token, String.length_ofList]

theorem Term.ofToken_of_fits {t : Term} (h : t.Fits) : ofToken t.token = .ok t.expression :=
  t.ofToken_limited.eq_ok h

end Stencil
