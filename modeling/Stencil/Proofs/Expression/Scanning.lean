import Stencil.Proofs.Expression.Terms

/-!
# The scanner takes terms

What the scanner reads as a value is the spelling of a term, and the spelling of a term is read as a
value in front of every text that does not go on with it: the scanner is greedy, but no term that stands
inside another one is followed by more than a blank, two points or a closing bracket.
-/

namespace Stencil

open Scanner
open Text (startsName continuesName isBlank)

/-! ## What may follow a term -/

namespace Scanner

/-- The text goes on with no value: neither with a character of a name nor with a further step. -/
structure Ends (rest : List Char) : Prop where
  name : Breaks continuesName rest
  path : EndsPath rest

namespace Ends

variable {s rest : List Char}

theorem of_class {p q : Char → Bool} (h : ∀ c, q c = true → p c = true) (hs : Breaks p s) :
    Breaks q s := by
  cases s with
  | nil => rfl
  | cons c s =>
    have hp : p c = false := hs
    cases hq : q c with
    | false => exact hq
    | true => cases hp.symm.trans (h c hq)

theorem startsName (h : Ends rest) : Breaks startsName rest :=
  of_class (fun _ => Text.continuesName_of_startsName) h.name

theorem isDigit (h : Ends rest) : Breaks Char.isDigit rest :=
  of_class (fun _ => continuesName_of_isDigit) h.name

theorem nil : Ends [] := ⟨rfl, by simp, fun _ h => nomatch h⟩

theorem of_head {c : Char} (hn : continuesName c = false) (hp : c ≠ '.') (hb : c ≠ '[') :
    Ends (c :: rest) :=
  ⟨hn, by simpa using hb, fun _ e => absurd (List.cons.inj e).1 hp⟩

theorem points : Ends ('.' :: '.' :: rest) := by
  refine ⟨rfl, by simp, fun r e => ?_⟩
  cases e
  exact ⟨rfl, rfl⟩

/-- Blanks end a value, too. -/
theorem blanks {b : List Char} (hb : Blank b) (h : Ends rest) : Ends (b ++ rest) := by
  cases b with
  | nil => exact h
  | cons c b =>
    have hc : isBlank c = true := hb c List.mem_cons_self
    have ne (d : Char) (hd : isBlank d = false) : c ≠ d := by
      rintro rfl
      cases hc.symm.trans hd
    refine of_head ?_ (ne '.' (by decide)) (ne '[' (by decide))
    cases hn : continuesName c with
    | false => rfl
    | true => cases hc.symm.trans (isBlank_of_continuesName hn)

theorem of_blank {b : List Char} (hb : Blank b) : Ends b := by
  simpa using nil.blanks hb

end Ends

end Scanner

/-! ## Strings -/

namespace Quotable

variable {q : Char} {body rest : List Char}

theorem literalEnd (hq : q ≠ '\\') (h : Quotable q body) :
    Span.literalEnd q (body ++ [q]) = some (body ++ [q], []) := by
  induction h with
  | nil => simp [Span.literalEnd, hq]
  | plain hc hb _ ih =>
    rw [List.cons_append, Span.literalEnd.eq_def]
    simp [hb, hc, ih]
  | pair c _ ih =>
    rw [List.cons_append, List.cons_append, Span.literalEnd.eq_def]
    simp [ih]

theorem of_literalEnd {s : List Char} (h : Span.literalEnd q s = some (body, rest)) :
    ∃ s', body = s' ++ [q] ∧ Quotable q s' := by
  fun_induction Span.literalEnd q s generalizing body rest with
  | case1 => cases h
  | case2 => cases h
  | case3 d s ih =>
    obtain ⟨⟨b, r⟩, hb, e⟩ := Option.map_eq_some_iff.1 h
    cases e
    obtain ⟨s', rfl, hs⟩ := ih hb
    exact ⟨_, rfl, .pair d hs⟩
  | case4 s hq =>
    cases h
    exact ⟨[], rfl, .nil⟩
  | case5 c s hb hq ih =>
    obtain ⟨⟨b, r⟩, hr, e⟩ := Option.map_eq_some_iff.1 h
    cases e
    obtain ⟨s', rfl, hs⟩ := ih hr
    exact ⟨_, rfl, .plain hq hb hs⟩

end Quotable

/-! ## Words -/

/-- No word has a point or a bracket. -/
theorem wordKind_of_mem {text : List Char} {c : Char} (hc : c = '.' ∨ c = '[') (hm : c ∈ text) :
    wordKind (String.ofList text) = .path := by
  have ne (word : String) (hw : '.' ∉ word.toList ∧ '[' ∉ word.toList) :
      String.ofList text ≠ word := by
    rintro rfl
    rw [String.toList_ofList] at hw
    rcases hc with rfl | rfl
    · exact hw.1 hm
    · exact hw.2 hm
  have words : String.ofList text ≠ "true" ∧ String.ofList text ≠ "false" ∧
      String.ofList text ≠ "nil" ∧ String.ofList text ≠ "null" :=
    ⟨ne _ (by decide), ne _ (by decide), ne _ (by decide), ne _ (by decide)⟩
  simp [wordKind, words]

theorem Bracket.mem_spelling : ∀ b : Bracket, '[' ∈ b.spelling
  | .mk _ _ _ => List.mem_cons_self

/-! ## Terms are read -/

theorem NumberLiteral.numeral (n : NumberLiteral) {rest : List Char} (h : Ends rest) :
    Numeral n.spelling rest := by
  refine ⟨n.sign, n.whole, n.point, by simp [spelling], ?_, n.whole.2, ⟨h.isDigit, ?_⟩, h.startsName⟩
  · unfold sign
    cases n.minus <;> simp
  · unfold point
    cases n.fraction with
    | none => exact .inl ⟨rfl, fun r e => (h.path.2 r e).2⟩
    | some ds => exact .inr ⟨_, rfl, ds.2⟩

/-- A step is no character of the name in front of it. -/
theorem Steps.breaks {p : Char → Bool} (hp : p '.' = false) (hb : p '[' = false) (steps : Steps)
    {rest : List Char} (h : Breaks p rest) : Breaks p (steps.spelling ++ rest) := by
  cases steps with
  | none => exact h
  | name | index => exact hp
  | bracket next => cases next; exact hb

theorem Steps.breaks_end {p : Char → Bool} (hp : p '.' = false) (hb : p '[' = false) (steps : Steps) :
    Breaks p steps.spelling := by
  simpa using steps.breaks hp hb (rfl : Breaks p [])

mutual

/-- Behind a term that another one holds stand blanks, two points or a closing bracket, which end it. -/
theorem Term.reads {rest : List Char} (h : Ends rest) :
    ∀ t : Term, Reads (.value t.kind) t.spelling rest
  | .string q body hq hb => by
    have hq' : q ≠ '\\' := by
      rintro rfl
      cases hq
    exact .quoted hq (hb.literalEnd hq')
  | .number n => .number (n.numeral h)
  | .range b₁ first b₂ b₃ last b₄ => by
    have closing : Ends (')' :: rest) := .of_head (by decide) (by decide) (by decide)
    exact .range b₁.2 b₂.2 b₃.2 b₄.2 (first.reads (Ends.points.blanks b₂.2))
      (last.reads (closing.blanks b₄.2))
  | .named name further =>
    .path (.named name.2 (further.breaks (by decide) (by decide) h.name) (further.reads h)) rfl
  | .bracketed start further => by
    refine .path (.bracketed (start.reads _) (further.reads h)) ?_
    exact wordKind_of_mem (.inr rfl) (List.mem_append_left _ start.mem_spelling)

theorem Bracket.reads (rest : List Char) : ∀ b : Bracket, Reads .bracket b.spelling rest
  | .mk b inner b' => by
    have closing : Ends (']' :: rest) := .of_head (by decide) (by decide) (by decide)
    exact .bracket b.2 b'.2 (inner.reads (closing.blanks b'.2))

theorem Steps.reads {rest : List Char} (h : Ends rest) :
    ∀ steps : Steps, Reads .segments steps.spelling rest
  | .none => .done h.path
  | .name name further =>
    .dotted (.inl ⟨name.2, further.breaks (by decide) (by decide) h.name⟩) (further.reads h)
  | .index ds further =>
    .dotted (.inr ⟨ds.2, further.breaks (by decide) (by decide) h.isDigit⟩) (further.reads h)
  | .bracket next further => .nested (next.reads _) (further.reads h)

end

/-! ## What is read is a term -/

/-- The text derives from the part of the grammar. -/
def Scanner.Part.Derives (text : List Char) : Part → Prop
  | .value kind => ∃ t : Term, t.spelling = text ∧ t.kind = kind
  | .path => ∃ t : Term, t.spelling = text ∧ t.kind = wordKind (String.ofList text)
  | .bracket => ∃ b : Bracket, b.spelling = text
  | .segments => ∃ steps : Steps, steps.spelling = text

theorem Scanner.Numeral.literal {text rest : List Char} (h : Numeral text rest) :
    ∃ n : NumberLiteral, n.spelling = text := by
  obtain ⟨minus, whole, fraction, rfl, hm, hw, ⟨-, hf⟩, -⟩ := h
  have hs : ∃ m : Bool, (if m then ['-'] else []) = minus := by
    rcases hm with rfl | rfl
    · exact ⟨false, rfl⟩
    · exact ⟨true, rfl⟩
  have hp : ∃ f : Option Digits, (f.map fun ds => '.' :: ds.val).getD [] = fraction := by
    rcases hf with ⟨rfl, -⟩ | ⟨ds, rfl, hd⟩
    · exact ⟨none, rfl⟩
    · exact ⟨some ⟨ds, hd⟩, rfl⟩
  obtain ⟨m, rfl⟩ := hs
  obtain ⟨f, rfl⟩ := hp
  exact ⟨⟨m, ⟨whole, hw⟩, f⟩, (List.append_assoc _ _ _).symm⟩

theorem Scanner.Reads.derives {part : Part} {text rest : List Char} (h : Reads part text rest) :
    part.Derives text := by
  induction h with
  | @quoted q body _ hq hb =>
    obtain ⟨s, rfl, hs⟩ := Quotable.of_literalEnd hb
    exact ⟨.string q s hq hs, rfl, rfl⟩
  | number h =>
    obtain ⟨n, rfl⟩ := h.literal
    exact ⟨.number n, rfl, rfl⟩
  | @range b₁ _ b₂ b₃ _ b₄ _ _ _ hb₁ hb₂ hb₃ hb₄ _ _ ih₁ ih₂ =>
    obtain ⟨first, rfl, -⟩ := ih₁
    obtain ⟨last, rfl, -⟩ := ih₂
    exact ⟨.range ⟨b₁, hb₁⟩ first ⟨b₂, hb₂⟩ ⟨b₃, hb₃⟩ last ⟨b₄, hb₄⟩, rfl, rfl⟩
  | path _ hk ih =>
    obtain ⟨t, rfl, ht⟩ := ih
    exact ⟨t, rfl, ht.trans hk⟩
  | @named name _ _ hn _ _ ih =>
    obtain ⟨steps, rfl⟩ := ih
    exact ⟨.named ⟨name, hn⟩ steps, rfl, rfl⟩
  | bracketed _ _ ih₁ ih₂ =>
    obtain ⟨start, rfl⟩ := ih₁
    obtain ⟨steps, rfl⟩ := ih₂
    refine ⟨.bracketed start steps, rfl, (wordKind_of_mem (.inr rfl) ?_).symm⟩
    exact List.mem_append_left _ start.mem_spelling
  | @bracket b _ b' _ _ hb hb' _ ih =>
    obtain ⟨inner, rfl, -⟩ := ih
    exact ⟨.mk ⟨b, hb⟩ inner ⟨b', hb'⟩, rfl⟩
  | done => exact ⟨.none, rfl⟩
  | @dotted word _ _ hw _ ih =>
    obtain ⟨steps, rfl⟩ := ih
    rcases hw with ⟨hn, -⟩ | ⟨hd, -⟩
    · exact ⟨.name ⟨word, hn⟩ steps, rfl⟩
    · exact ⟨.index ⟨word, hd⟩ steps, rfl⟩
  | nested _ _ ih₁ ih₂ =>
    obtain ⟨next, rfl⟩ := ih₁
    obtain ⟨steps, rfl⟩ := ih₂
    exact ⟨.bracket next steps, rfl⟩

/-- The token of every value that is read is that of a term. -/
theorem Scanner.Reads.term {t : Token} {rest : List Char}
    (h : Reads (.value t.kind) t.text.toList rest) : ∃ term : Term, term.token = t := by
  obtain ⟨term, hs, hk⟩ := h.derives
  exact ⟨term, by rw [Term.token, hs, hk, String.ofList_toList]⟩

theorem Term.breaks_isBlank (t : Term) (rest : List Char) : Breaks isBlank (t.spelling ++ rest) :=
  (t.reads Ends.nil).breaks_isBlank rest

/-- A term is read as its token in front of every text that does not go on with it. -/
theorem Term.value_gives (t : Term) {s : Scanner} {rest : List Char}
    (hs : s.rest = t.spelling ++ rest) (h : Ends rest) : Gives value? s (some t.token) rest := by
  refine value_gives_iff.2 ?_
  rw [Term.token, String.toList_ofList]
  exact ⟨hs, t.reads h⟩

end Stencil
