import Stencil.Proofs.Pipeline
import Stencil.Proofs.Expression.Separated

/-!
# Pipelines by their pieces

The reader of a pipeline takes an initial value and only then looks out for bars. `parse_iff_pieces`
says that it reads what a cut of the whole text at its bars gives: no bar, bracket or quote of the
initial value counts in that cut, and the value is read from the first piece alone.
-/

namespace Stencil

open Scanner

namespace Span

/-! ## Pieces behind a level text -/

variable {sep : Char} {text rest : List Char}

theorem piecesAtTop_of_end (h : seek [sep] 0 text = .ok []) : piecesAtTop sep text = .ok [text] := by
  rw [piecesAtTop]
  split
  · rename_i hs
    cases hs.symm.trans h
  · rfl
  · rename_i hs
    cases hs.symm.trans h

theorem piecesAtTop_of_stop {chunk : List Char} (h : seek [sep] 0 text = .ok (sep :: rest))
    (e : text = chunk ++ sep :: rest) :
    piecesAtTop sep text = (piecesAtTop sep rest).map (chunk :: ·) := by
  rw [piecesAtTop]
  split
  · rename_i hs
    cases hs.symm.trans h
  · rename_i hs
    cases hs.symm.trans h
  · rename_i hs
    cases hs.symm.trans h
    simp [e]

/-- A text can be cut if what follows the first place of the search can. -/
theorem piecesAtTop_of_seek (h : seek [sep] 0 text = .ok rest)
    (hr : ∀ more, rest = sep :: more → ∃ pieces, piecesAtTop sep more = .ok pieces) :
    ∃ first pieces, piecesAtTop sep text = .ok (first :: pieces) := by
  obtain ⟨chunk, e, -, hc⟩ := seek_ok h
  cases rest with
  | nil => exact ⟨_, _, piecesAtTop_of_end h⟩
  | cons c more =>
    obtain rfl : c = sep := by simpa using (hc c rfl).1
    obtain ⟨pieces, hp⟩ := hr more rfl
    refine ⟨chunk, pieces, ?_⟩
    rw [piecesAtTop_of_stop h e, hp]
    rfl

/-- A level text at the front belongs to the first piece. -/
theorem piecesAtTop_level {first : List Char} {pieces : List (List Char)} (hs : Separators [sep])
    (ht : Level text) : piecesAtTop sep (text ++ rest) = .ok ((text ++ first) :: pieces) ↔
      piecesAtTop sep rest = .ok (first :: pieces) := by
  have hk : seek [sep] 0 (text ++ rest) = seek [sep] 0 rest := ht [sep] hs 0 rest
  constructor
  · intro h
    rcases piecesAtTop_cases h with ⟨hn, e⟩ | ⟨chunk, rest', more, hn, e, hm, e'⟩
    · rw [hk] at hn
      simp at e
      rw [piecesAtTop_of_end hn, e.1, e.2]
    · rw [hk] at hn
      cases e'
      rw [List.append_assoc, List.append_cancel_left_eq] at e
      rw [piecesAtTop_of_stop hn e, hm]
      rfl
  · intro h
    rcases piecesAtTop_cases h with ⟨hn, e⟩ | ⟨chunk, rest', more, hn, e, hm, e'⟩
    · rw [← hk] at hn
      cases e
      exact piecesAtTop_of_end hn
    · rw [← hk] at hn
      cases e'
      have e : text ++ rest = (text ++ first) ++ sep :: rest' := by rw [e, List.append_assoc]
      rw [piecesAtTop_of_stop hn e, hm]
      rfl

theorem piecesAtTop_alone (ht : Passed [sep] text) : piecesAtTop sep text = .ok [text] := by
  have hk := ht 0 []
  rw [List.append_nil] at hk
  exact piecesAtTop_of_end (hk.trans (by rw [seek]))

theorem piecesAtTop_cons {pieces : List (List Char)} (hs : Separators [sep]) (ht : Passed [sep] text)
    (hp : piecesAtTop sep rest = .ok pieces) :
    piecesAtTop sep (text ++ sep :: rest) = .ok (text :: pieces) := by
  rw [piecesAtTop_of_stop ((ht 0 (sep :: rest)).trans (seek_stop hs)) rfl, hp]
  rfl

theorem piecesAtTop_ne_nil : piecesAtTop sep text ≠ .ok [] := by
  intro h
  rcases piecesAtTop_cases h with ⟨-, e⟩ | ⟨_, _, _, -, -, -, e⟩ <;> cases e

/-- Only a text without a separator is its own piece. -/
theorem piecesAtTop_eq_alone {piece : List Char} (h : piecesAtTop sep text = .ok [piece]) :
    seek [sep] 0 text = .ok [] ∧ piece = text := by
  rcases piecesAtTop_cases h with ⟨hk, e⟩ | ⟨_, _, _, -, -, hm, e⟩
  · cases e
    exact ⟨hk, rfl⟩
  · cases e
    exact absurd hm piecesAtTop_ne_nil

/-- Level texts, joined by a separator, are its pieces. -/
theorem piecesAtTop_joined {first : List Char} {pieces : List (List Char)} (hs : Separators [sep])
    (hf : Level first) (hp : ∀ piece ∈ pieces, Level piece) :
    piecesAtTop sep (first ++ pieces.flatMap (sep :: ·)) = .ok (first :: pieces) := by
  induction pieces generalizing first with
  | nil =>
    rw [List.flatMap_nil, List.append_nil]
    exact piecesAtTop_alone (hf.passed hs)
  | cons piece pieces ih =>
    rw [List.flatMap_cons, List.cons_append]
    exact piecesAtTop_cons hs (hf.passed hs)
      (ih (hp piece List.mem_cons_self) fun p hm => hp p (List.mem_cons_of_mem piece hm))

/-- The first piece ends with the text or at a separator. -/
theorem piecesAtTop_head {first : List Char} {pieces : List (List Char)} (hs : Separators [sep])
    (h : piecesAtTop sep text = .ok (first :: pieces)) :
    ∃ more, text = first ++ more ∧ Mute more := by
  rcases piecesAtTop_cases h with ⟨-, e⟩ | ⟨chunk, rest, more, -, e, -, e'⟩
  · cases e
    exact ⟨[], by simp, .nil⟩
  · cases e'
    refine ⟨_, e, fun c hc => ?_⟩
    cases hc
    exact hs _ List.mem_cons_self

/-! ## Readings at the front of a text -/

/-- What is read off the front of a text is level, and what stands behind the next separator has no
bearing on it. -/
def Local (reads : List Char → List Char → Prop) : Prop :=
  ∀ text rest, reads text rest → ∃ front, text = front ++ rest ∧ Level front ∧
    ∀ rest', Alike rest rest' → reads (front ++ rest') rest'

namespace Local

variable {reads : List Char → List Char → Prop} {pieces : List (List Char)}

/-- What is read off a text is read off its first piece. -/
theorem piece {first : List Char} (h : Local reads) (hs : Separators [sep]) (hr : reads text rest)
    (hp : piecesAtTop sep rest = .ok (first :: pieces)) :
    ∃ piece, piecesAtTop sep text = .ok (piece :: pieces) ∧ reads piece first := by
  obtain ⟨front, rfl, hlevel, hreads⟩ := h text rest hr
  obtain ⟨more, e, hm⟩ := piecesAtTop_head hs hp
  have halike : Alike rest first := ⟨first, more, [], e, by simp, hm, .nil⟩
  exact ⟨front ++ first, (piecesAtTop_level hs hlevel).2 hp, hreads first halike⟩

theorem of_piece {piece : List Char} (h : Local reads) (hs : Separators [sep])
    (hp : piecesAtTop sep text = .ok (piece :: pieces)) (hr : reads piece rest) :
    ∃ rest', reads text rest' ∧ piecesAtTop sep rest' = .ok (rest :: pieces) := by
  obtain ⟨front, rfl, hlevel, hreads⟩ := h piece rest hr
  obtain ⟨more, rfl, hm⟩ := piecesAtTop_head hs hp
  have halike : Alike rest (rest ++ more) := ⟨rest, [], more, by simp, rfl, .nil, hm⟩
  rw [List.append_assoc] at hp ⊢
  exact ⟨rest ++ more, hreads _ halike, (piecesAtTop_level hs hlevel).1 hp⟩

end Local

end Span

namespace Expression

variable {text rest : List Char} {e : Expression}

/-- Blanks at its front aside, the text begins with a value that is read as the expression. -/
def Begins (text : List Char) (e : Expression) (rest : List Char) : Prop :=
  ∃ t, Gives value? (Scanner.ofChars (Text.trimStart text)) (some t) rest ∧ ofToken t = .ok e

theorem begins_iff : Begins text e rest ↔ ∃ b t, Blank b ∧ text = b ++ (t.text.toList ++ rest) ∧
    Reads (.value t.kind) t.text.toList rest ∧ ofToken t = .ok e := by
  constructor
  · rintro ⟨t, hv, ho⟩
    obtain ⟨hs, hr⟩ := value_gives_iff.1 hv
    obtain ⟨b, hb, hblank⟩ := Text.trimStart_eq text
    exact ⟨b, t, hblank, hb.trans (congrArg (b ++ ·) hs), hr, ho⟩
  · rintro ⟨b, t, hb, rfl, hr, ho⟩
    rw [Begins, trimStart_append hb (hr.breaks_isBlank rest)]
    exact ⟨t, value_gives_iff.2 ⟨rfl, hr⟩, ho⟩

theorem begins_local (e : Expression) : Span.Local (Begins · e ·) := by
  intro text rest h
  obtain ⟨b, t, hb, rfl, hr, ho⟩ := begins_iff.1 h
  refine ⟨b ++ t.text.toList, (List.append_assoc _ _ _).symm, hb.level.append hr.level, ?_⟩
  intro rest' ha
  exact begins_iff.2 ⟨b, t, hb, List.append_assoc _ _ _, hr.alike ha, ho⟩

theorem Begins.unique {e' : Expression} {rest' : List Char} (h : Begins text e rest)
    (h' : Begins text e' rest') : e = e' ∧ rest = rest' := by
  obtain ⟨t, hv, ho⟩ := h
  obtain ⟨t', ⟨s', hv', e⟩, ho'⟩ := h'
  obtain ⟨ht, er⟩ := hv.eq_of_ok hv'
  cases ht
  cases ho.symm.trans ho'
  exact ⟨rfl, er.symm.trans e⟩

end Expression

namespace Pipeline

variable {s s' : Scanner} {text : List Char}

/-- The text, blanks at its front aside, starts with a value that is read as the expression. -/
def StartsWith (text : List Char) (e : Expression) : Prop :=
  ∃ t rest, Gives value? (Scanner.ofChars (Text.trimStart text)) (some t) rest ∧
    Expression.ofToken t = .ok e

/-! ## The initial value -/

theorem leading_ok {e : Expression} (h : leading s = .ok e s') :
    ∃ blanks t, s.rest = blanks ++ (t.text.toList ++ s'.rest) ∧ Blank blanks ∧
      Reads (.value t.kind) t.text.toList s'.rest ∧ Expression.ofToken t = .ok e := by
  obtain ⟨_, s₁, hb, h₁⟩ := bind_eq_ok_iff.1 h
  obtain ⟨o, s₂, hv, h₂⟩ := bind_eq_ok_iff.1 h₁
  obtain ⟨blanks, hb, e₁, -⟩ := skipBlanks_ok hb
  cases o with
  | none => cases h₂
  | some t =>
    obtain ⟨e₂, hr⟩ := value_reads s₁ t s₂ hv
    obtain ⟨ho, rfl⟩ := lift_ok (r := Expression.ofToken t) h₂
    exact ⟨blanks, t, by rw [e₁, e₂], hb, hr, ho⟩

theorem leading_gives {blanks rest : List Char} {t : Token} {e : Expression}
    (hs : s.rest = blanks ++ (t.text.toList ++ rest)) (hb : Blank blanks)
    (hr : Reads (.value t.kind) t.text.toList rest) (ho : Expression.ofToken t = .ok e) :
    Gives leading s e rest := by
  refine (skipBlanks_gives hs hb (hr.breaks_isBlank rest)).bind fun s₁ e₁ => ?_
  refine (value_gives_iff.2 ⟨e₁, hr⟩).bind fun s₂ e₂ => ?_
  refine ⟨s₂, ?_, e₂⟩
  change Scanner.lift (Expression.ofToken t) s₂ = _
  rw [ho]
  rfl

/-! ## What follows it -/

/-- The filters are read up to the end of the text, so no quote is left open in it. -/
theorem filtersOf_ok {n : Nat} {filters : List Invocation} {rest : List Char}
    (hs : s.rest = '|' :: rest) (hn : s.rest.length ≤ n) (h : filtersOf n s = .ok filters s') :
    ∃ pieces, Span.piecesAtTop '|' rest = .ok pieces := by
  induction n generalizing s s' rest filters with
  | zero =>
    rw [hs] at hn
    cases hn
  | succ n ih =>
    obtain ⟨eaten, s₁, he, h₁⟩ := bind_eq_ok_iff.1 h
    have e₁ := eat_head_ok (by rw [hs]; rfl) he
    obtain rfl : rest = s₁.rest := by simpa [hs] using e₁
    obtain rfl : eaten = true := by
      rcases eat_ok he with ⟨e, -⟩ | ⟨-, e⟩
      · exact e
      · simp [e] at e₁
    obtain ⟨span, s₂, ht, h₂⟩ := bind_eq_ok_iff.1 h₁
    obtain ⟨filter, s₃, hf, h₃⟩ := bind_eq_ok_iff.1 h₂
    obtain ⟨more, s₄, hm, -⟩ := bind_eq_ok_iff.1 h₃
    obtain ⟨o, s₅, hk, h₅⟩ := bind_eq_ok_iff.1 (taking_ok ht).1
    cases h₅
    obtain ⟨-, rfl⟩ := lift_ok hf
    have hk := skipTo_ok hk
    have hl : s₃.rest.length ≤ n := by
      have := Span.seek_length hk
      simp only [e₁, List.length_cons] at hn
      omega
    obtain ⟨first, pieces, hp⟩ := Span.piecesAtTop_of_seek hk fun more e => ih e hl hm
    exact ⟨_, hp⟩

/-- A pipeline that is read has an initial value, and what follows it can be cut. -/
theorem reader_ok {p : Pipeline} (h : reader s = .ok p s') :
    ∃ s₁ first pieces, leading s = .ok p.initial s₁ ∧
      Span.piecesAtTop '|' s₁.rest = .ok (first :: pieces) := by
  obtain ⟨initial, s₁, hl, h₁⟩ := bind_eq_ok_iff.1 h
  obtain ⟨o, s₂, hk, h₂⟩ := bind_eq_ok_iff.1 h₁
  obtain ⟨_, s₃, hg, h₃⟩ := bind_eq_ok_iff.1 h₂
  obtain ⟨filters, s₄, hf, h₄⟩ := bind_eq_ok_iff.1 h₃
  cases hg
  cases h₄
  obtain ⟨first, pieces, hp⟩ := Span.piecesAtTop_of_seek (skipTo_ok hk) fun more e =>
    filtersOf_ok e (Nat.le_refl _) hf
  exact ⟨s₁, first, pieces, hl, hp⟩

theorem filters_of_ofChars {p : Pipeline} (h : ofChars text = .ok p) :
    ∃ s first pieces, leading (Scanner.ofChars text) = .ok p.initial s ∧
      Span.piecesAtTop '|' s.rest = .ok (first :: pieces) ∧
      pieces.mapM Invocation.ofChars = .ok p.filters := by
  obtain ⟨s', hr⟩ := Expression.readIn_eq_ok_iff.1 h
  obtain ⟨s, first, pieces, hl, hp⟩ := reader_ok hr
  refine ⟨s, first, pieces, hl, hp, ?_⟩
  rw [ofChars_of_leading hl hp] at h
  cases hm : pieces.mapM Invocation.ofChars with
  | error e =>
    rw [hm] at h
    cases h
  | ok filters =>
    rw [hm] at h
    exact congrArg (Except.ok ∘ Pipeline.filters) (Except.ok.inj h)

/-! ## The whole text -/

theorem splitAtTop_ok {input : List Char} {sep : Char} {pieces : List (List Char)} :
    Span.splitAtTop input sep = .ok pieces ↔ Span.piecesAtTop sep input = .ok pieces := by
  unfold Span.splitAtTop
  constructor
  · intro h
    split at h
    · rename_i hp
      cases h
      exact hp
    · cases h
  · intro h
    rw [h]

theorem separators_bar : Span.Separators ['|'] := by decide

/-- The first piece starts with the initial value, and no piece is lost in the value. -/
theorem pieces_of_leading {e : Expression} {first : List Char} {pieces : List (List Char)}
    (hl : leading (Scanner.ofChars text) = .ok e s')
    (hp : Span.piecesAtTop '|' s'.rest = .ok (first :: pieces)) :
    ∃ first', Span.piecesAtTop '|' text = .ok (first' :: pieces) ∧ StartsWith first' e := by
  obtain ⟨blanks, t, he, hb, hr, ho⟩ := leading_ok hl
  have hbegins : Expression.Begins text e s'.rest := Expression.begins_iff.2 ⟨blanks, t, hb, he, hr, ho⟩
  obtain ⟨first', hp', t', hv, ho'⟩ := (Expression.begins_local e).piece separators_bar hbegins hp
  exact ⟨first', hp', t', first, hv, ho'⟩

/-- The value that the first piece starts with is the initial value. -/
theorem leading_of_pieces {e : Expression} {first : List Char} {pieces : List (List Char)}
    (hp : Span.piecesAtTop '|' text = .ok (first :: pieces)) (hf : StartsWith first e) :
    ∃ s' first', leading (Scanner.ofChars text) = .ok e s' ∧
      Span.piecesAtTop '|' s'.rest = .ok (first' :: pieces) := by
  obtain ⟨t, rest, hv, ho⟩ := hf
  obtain ⟨rest', hbegins, hp'⟩ :=
    (Expression.begins_local e).of_piece separators_bar hp ⟨t, hv, ho⟩
  obtain ⟨blanks, t', hb, htext, hr, ho'⟩ := Expression.begins_iff.1 hbegins
  obtain ⟨s', hl, hs⟩ := leading_gives (s := Scanner.ofChars text) htext hb hr ho'
  exact ⟨s', rest, hl, hs ▸ hp'⟩

/-- A text is a pipeline exactly if it can be cut at its top-level bars into a first piece, which
starts with the initial value and may go on with anything, and one piece for each filter. -/
theorem parse_iff_pieces (text : String) (p : Pipeline) :
    Pipeline.parse text = .ok p ↔ ∃ first pieces,
      Span.splitAtTop text.toList '|' = .ok (first :: pieces) ∧ StartsWith first p.initial ∧
        pieces.mapM Invocation.ofChars = .ok p.filters := by
  constructor
  · intro h
    obtain ⟨s', hr⟩ := Expression.readIn_eq_ok_iff.1 h
    obtain ⟨s₁, first, pieces, hl, hp⟩ := reader_ok hr
    obtain ⟨first', hp', hf⟩ := pieces_of_leading hl hp
    refine ⟨first', pieces, splitAtTop_ok.2 hp', hf, ?_⟩
    rw [parse, ofChars_of_leading hl hp] at h
    cases hm : pieces.mapM Invocation.ofChars with
    | error e =>
      rw [hm] at h
      cases h
    | ok filters =>
      rw [hm] at h
      exact congrArg (Except.ok ∘ Pipeline.filters) (Except.ok.inj h)
  · rintro ⟨first, pieces, hp, hf, hm⟩
    obtain ⟨s', first', hl, hp'⟩ := leading_of_pieces (splitAtTop_ok.1 hp) hf
    rw [parse, ofChars_of_leading hl hp', hm]
    rfl

end Pipeline

end Stencil
