import Stencil.Pipeline
import Stencil.Proofs.Discipline
import Stencil.Proofs.Expression.Spans

/-!
# Reading closed texts

A reader of a closed text moves over closed chunks, hands on closed texts and never meets a literal
that is not closed; its faults are malformed expressions. `Scanner.overClosed` is that discipline; the
readers of values, expressions, filters and pipelines obey it.
-/

namespace Stencil

/-- The fault of a quoted literal that nothing closes. -/
def Error.Unterminated (e : Error) : Prop :=
  ∃ expression, e = .malformed expression "unterminated string literal"

/-- The faults of reading a closed text: all those of reading expressions but that one. -/
def Error.OfClosed (e : Error) : Prop :=
  ∃ text message, e = .malformedIn text message ∧ message ≠ "unterminated string literal"

theorem Error.OfClosed.not_unterminated {e : Error} (h : e.OfClosed) : ¬ e.Unterminated := by
  obtain ⟨text, message, rfl, hm⟩ := h
  rintro ⟨expression, e⟩
  exact hm (Error.malformed.inj e).2

theorem Error.ofClosed_malformedIn {text : List Char} {message : String}
    (h : message ≠ "unterminated string literal") : (Error.malformedIn text message).OfClosed :=
  ⟨text, message, rfl, h⟩

/-- The reading fails as readings of closed texts do, if it fails. -/
def Terminated {α : Type} (r : Except Error α) : Prop := ∀ e, r = .error e → e.OfClosed

namespace Terminated

variable {α β : Type}

theorem ok {a : α} : Terminated (.ok a : Except Error α) := fun _ h => nomatch h

theorem error {e : Error} (h : e.OfClosed) : Terminated (.error e : Except Error α) := by
  rintro _ ⟨⟩
  exact h

theorem map {r : Except Error α} {f : α → β} (h : Terminated r) : Terminated (r.map f) := by
  cases r with
  | ok a => exact ok
  | error e => exact error (h e rfl)

theorem bind {r : Except Error α} {f : α → Except Error β} (h : Terminated r)
    (hf : ∀ a, Terminated (f a)) : Terminated (r >>= f) := by
  cases r with
  | ok a => exact hf a
  | error e => exact error (h e rfl)

theorem mapM {f : α → Except Error β} {items : List α} (h : ∀ a ∈ items, Terminated (f a)) :
    Terminated (items.mapM f) := by
  induction items with
  | nil => exact ok
  | cons a items ih =>
    rw [List.mapM_cons]
    refine (h a List.mem_cons_self).bind fun b => ?_
    refine (ih fun a' ha => h a' (List.mem_cons_of_mem a ha)).bind fun bs => ?_
    exact ok

end Terminated

namespace Scanner

/-- The readers of a closed text. -/
def overClosed : Discipline Error Scanner where
  Good s := Closed s.rest
  Moves s s' := ∃ chunk, s.rest = chunk ++ s'.rest ∧ Closed chunk
  Fails := Error.OfClosed
  refl s := ⟨[], rfl, Closed.nil⟩
  trans h h' := by
    obtain ⟨chunk, e, hc⟩ := h
    obtain ⟨chunk', e', hc'⟩ := h'
    exact ⟨chunk ++ chunk', by rw [e, e', List.append_assoc], hc.append hc'⟩
  good hs h := by
    obtain ⟨chunk, e, hc⟩ := h
    rw [e] at hs
    exact hc.append_iff.1 hs

/-- What is read, if anything, is closed. -/
def TextClosed (text : Option String) : Prop := ∀ t ∈ text, Closed t.toList

def TokenClosed (token : Option Token) : Prop := ∀ t ∈ token, Closed t.text.toList

section
variable {α : Type} {Q : α → Prop}

theorem fail_overClosed {message : String} (h : message ≠ "unterminated string literal") :
    Obeys overClosed (fail message) Q := fun _ _ => Error.ofClosed_malformedIn h

theorem require_overClosed {condition : Bool} {message : String}
    (h : message ≠ "unterminated string literal") :
    Obeys overClosed (require condition message) fun _ => True := by
  unfold require
  split
  · exact Obeys.pure trivial
  · exact fail_overClosed h

theorem lift_overClosed {r : Except Error α} (h : Terminated r) :
    Obeys overClosed (lift r) fun _ => True := by
  intro s _
  cases r with
  | ok a => exact .stay trivial
  | error e => exact h e rfl

/-- A move over the front of what is left. -/
theorem overClosed_moves {s s' : Scanner} {chunk : List Char} (e : s.rest = chunk ++ s'.rest)
    (h : Closed chunk) : overClosed.Moves s s' := ⟨chunk, e, h⟩

theorem taking_overClosed {reader : Scan Unit} {Q : Unit → Prop} (h : Obeys overClosed reader Q) :
    Obeys overClosed (taking reader) fun text => Closed text.toList := by
  intro s hs
  have hr := h s hs
  unfold taking
  cases he : reader s with
  | error e s' =>
    rw [he] at hr
    exact hr
  | ok a s' =>
    rw [he] at hr
    obtain ⟨⟨chunk, e, hc⟩, -⟩ := hr
    refine ⟨overClosed_moves e hc, ?_⟩
    simpa [e] using hc

theorem attempt_overClosed {reader : Scan (Option α)} {Q : Option α → Prop} (hn : Q none)
    (h : Obeys overClosed reader Q) : Obeys overClosed (attempt reader) Q := by
  intro s hs
  have hr := h s hs
  unfold attempt
  split
  · exact .stay hn
  · exact hr

theorem atEnd_overClosed : Obeys overClosed atEnd fun _ => True :=
  fun _ _ => .stay trivial

theorem peek_overClosed : Obeys overClosed peek fun _ => True :=
  fun _ _ => .stay trivial

theorem eat_overClosed {c : Char} (hc : Span.isQuote c = false) :
    Obeys overClosed (eat c) fun _ => True := by
  intro s _
  unfold eat
  split
  · exact .stay trivial
  · rename_i d rest e
    split
    · rename_i hd
      subst hd
      exact ⟨overClosed_moves e (Plain.singleton hc).closed, trivial⟩
    · exact .stay trivial

theorem eatAll_overClosed {word : List Char} (hw : Plain word) :
    Obeys overClosed (eatAll word) fun _ => True := by
  intro s _
  unfold eatAll
  split
  · rename_i hp
    refine ⟨overClosed_moves ?_ hw.closed, trivial⟩
    obtain ⟨rest, e⟩ := List.isPrefixOf_iff_prefix.1 hp
    simp [past, ← e]
  · exact .stay trivial

theorem skipBlanks_overClosed : Obeys overClosed skipBlanks fun _ => True := fun _ _ =>
  ⟨overClosed_moves List.takeWhile_append_dropWhile.symm
    (Plain.takeWhile quoteless_isBlank).closed, trivial⟩

/-! ## Words and numbers -/

/-- The chunk that is cut off the front holds no quotes. -/
def CutsPlain (split : List Char → Option (List Char × List Char)) : Prop :=
  ∀ s chunk rest, split s = some (chunk, rest) → s = chunk ++ rest ∧ Plain chunk

theorem chunk_overClosed {split : List Char → Option (List Char × List Char)}
    (h : CutsPlain split) : Obeys overClosed (chunk? split) TextClosed := by
  intro s _
  unfold chunk?
  cases hs : split s.rest with
  | none => exact .stay (by simp [TextClosed])
  | some p =>
    obtain ⟨chunk, rest⟩ := p
    obtain ⟨e, hp⟩ := h _ _ _ hs
    exact ⟨overClosed_moves e hp.closed, by simpa [TextClosed] using hp.closed⟩

theorem splitName_cutsPlain : CutsPlain splitName := by
  intro s chunk rest h
  cases s with
  | nil => cases h
  | cons c s =>
    rw [splitName] at h
    split at h
    · rename_i hc
      cases h
      exact ⟨by simp, Plain.cons (quoteless_startsName.isQuote hc)
        (Plain.takeWhile quoteless_continuesName)⟩
    · cases h

theorem splitDigits_cutsPlain : CutsPlain splitDigits := by
  intro s chunk rest h
  rw [splitDigits] at h
  split at h
  · cases h
  · cases h
    exact ⟨by simp, Plain.takeWhile quoteless_isDigit⟩

theorem splitDotted_cutsPlain : CutsPlain splitDotted := by
  intro s chunk rest h
  unfold splitDotted at h
  split at h
  · rename_i s
    split at h
    · rename_i name rest' hn
      cases h
      obtain ⟨e, hp⟩ := splitName_cutsPlain _ _ _ hn
      exact ⟨by rw [e]; rfl, Plain.cons (by decide) hp⟩
    · obtain ⟨⟨ds, rest'⟩, hd, e⟩ := Option.map_eq_some_iff.1 h
      cases e
      obtain ⟨e, hp⟩ := splitDigits_cutsPlain _ _ _ hd
      exact ⟨by rw [e]; rfl, Plain.cons (by decide) hp⟩
  · cases h

theorem splitFraction_plain (s : List Char) :
    s = (splitFraction s).1 ++ (splitFraction s).2 ∧ Plain (splitFraction s).1 := by
  unfold splitFraction
  split
  · split
    · rename_i ds rest hd
      obtain ⟨e, hp⟩ := splitDigits_cutsPlain _ _ _ hd
      exact ⟨by rw [e]; rfl, Plain.cons (by decide) hp⟩
    · exact ⟨rfl, Plain.nil⟩
  · exact ⟨rfl, Plain.nil⟩

theorem splitMinus_plain (s : List Char) :
    s = (splitMinus s).1 ++ (splitMinus s).2 ∧ Plain (splitMinus s).1 := by
  unfold splitMinus
  split
  · exact ⟨rfl, Plain.singleton (by decide)⟩
  · exact ⟨rfl, Plain.nil⟩

theorem splitNumber_cutsPlain : CutsPlain splitNumber := by
  intro s chunk rest h
  obtain ⟨em, hm⟩ := splitMinus_plain s
  simp only [splitNumber] at h
  split at h
  · cases h
  · rename_i whole rest' hd
    obtain ⟨ed, hw⟩ := splitDigits_cutsPlain _ _ _ hd
    obtain ⟨ef, hf⟩ := splitFraction_plain rest'
    split at h
    · cases h
    · cases h
      refine ⟨?_, (hm.append hw).append hf⟩
      calc s = (splitMinus s).1 ++ (splitMinus s).2 := em
        _ = (splitMinus s).1 ++ (whole ++ rest') := by rw [ed]
        _ = (splitMinus s).1 ++ (whole ++ ((splitFraction rest').1 ++ (splitFraction rest').2)) := by
          rw [← ef]
        _ = _ := by simp only [List.append_assoc]

theorem name_overClosed : Obeys overClosed name? TextClosed := chunk_overClosed splitName_cutsPlain

theorem digits_overClosed : Obeys overClosed digits? TextClosed :=
  chunk_overClosed splitDigits_cutsPlain

theorem number_overClosed : Obeys overClosed number? TextClosed :=
  chunk_overClosed splitNumber_cutsPlain

/-! ## Literals and spans -/

theorem quoted_overClosed : Obeys overClosed quoted? TextClosed := by
  intro s hs
  unfold quoted?
  split
  · exact .stay (by simp [TextClosed])
  · rename_i q rest e
    split
    · rename_i hq
      change Closed s.rest at hs
      rw [e] at hs
      cases hl : Span.literalEnd q rest with
      | none => exact absurd hs (Span.not_closed_of_literalEnd hq hl)
      | some p =>
        obtain ⟨body, rest'⟩ := p
        have hc : Closed (q :: body) := Span.closed_literal hq hl
        refine ⟨overClosed_moves ?_ hc, by simpa [TextClosed] using hc⟩
        rw [e, Span.literalEnd_eq_append hl]
        rfl
    · exact .stay (by simp [TextClosed])

theorem skipTo_overClosed {stops : List Char} : Obeys overClosed (skipTo stops) fun _ => True := by
  intro s hs
  obtain ⟨rest, hr⟩ := Span.seek_of_closed stops 0 hs
  obtain ⟨chunk, e, hc, -⟩ := Span.seek_ok hr
  unfold skipTo
  rw [hr]
  exact ⟨overClosed_moves e hc, trivial⟩

/-! ## Values -/

theorem plain_dots : Plain ['.', '.'] := Plain.cons (by decide) (Plain.singleton (by decide))

section
variable {inner : Scan (Option Token)} (hi : Obeys overClosed inner TokenClosed)
include hi

theorem bracket_overClosed : Obeys overClosed (bracket inner) fun _ => True := by
  unfold bracket
  refine (eat_overClosed (by decide)).bind fun _ _ => ?_
  refine skipBlanks_overClosed.bind fun _ _ => ?_
  refine hi.bind fun _ _ => ?_
  refine (require_overClosed (by decide)).bind fun _ _ => ?_
  refine skipBlanks_overClosed.bind fun _ _ => ?_
  refine (eat_overClosed (by decide)).bind fun _ _ => ?_
  exact require_overClosed (by decide)

theorem parentheses_overClosed : Obeys overClosed (parentheses inner) fun _ => True := by
  unfold parentheses
  refine (eat_overClosed (by decide)).bind fun _ _ => ?_
  refine skipBlanks_overClosed.bind fun _ _ => ?_
  refine hi.bind fun _ _ => ?_
  refine (require_overClosed (by decide)).bind fun _ _ => ?_
  refine skipBlanks_overClosed.bind fun _ _ => ?_
  refine (eatAll_overClosed plain_dots).bind fun _ _ => ?_
  refine (require_overClosed (by decide)).bind fun _ _ => ?_
  refine skipBlanks_overClosed.bind fun _ _ => ?_
  refine hi.bind fun _ _ => ?_
  refine (require_overClosed (by decide)).bind fun _ _ => ?_
  refine skipBlanks_overClosed.bind fun _ _ => ?_
  refine (eat_overClosed (by decide)).bind fun _ _ => ?_
  exact require_overClosed (by decide)

theorem rangeOf_overClosed : Obeys overClosed (rangeOf inner) TextClosed := by
  unfold rangeOf
  refine peek_overClosed.bind fun c _ => ?_
  split
  · refine (taking_overClosed (parentheses_overClosed hi)).bind fun text ht => ?_
    exact Obeys.pure (by simpa [TextClosed] using ht)
  · exact Obeys.pure (by simp [TextClosed])

theorem segmentsOf_overClosed (n : Nat) : Obeys overClosed (segmentsOf inner n) fun _ => True := by
  induction n with
  | zero => exact Obeys.pure trivial
  | succ n ih =>
    unfold segmentsOf
    refine peek_overClosed.bind fun c _ => ?_
    split
    · refine (chunk_overClosed splitDotted_cutsPlain).bind fun dotted _ => ?_
      split
      · exact ih
      · exact Obeys.pure trivial
    · exact (bracket_overClosed hi).bind fun _ _ => ih
    · exact Obeys.pure trivial

theorem segmented_overClosed : Obeys overClosed (segmented inner) fun _ => True := by
  unfold segmented
  refine peek_overClosed.bind fun c _ => ?_
  have further : Obeys overClosed (do segmentsOf inner (← get).rest.length) fun _ => True :=
    Obeys.get.bind fun s _ => segmentsOf_overClosed hi s.rest.length
  split
  · exact (bracket_overClosed hi).bind fun _ _ => further
  · exact name_overClosed.bind fun _ _ => further

theorem pathOf_overClosed : Obeys overClosed (pathOf inner) TextClosed := by
  unfold pathOf
  refine peek_overClosed.bind fun c _ => ?_
  split
  · refine (taking_overClosed (segmented_overClosed hi)).bind fun text ht => ?_
    exact Obeys.pure (by simpa [TextClosed] using ht)
  · exact Obeys.pure (by simp [TextClosed])

end

theorem valueAt_overClosed (depth : Nat) : Obeys overClosed (valueAt depth) TokenClosed := by
  induction depth with
  | zero => exact Obeys.pure (by simp [TokenClosed])
  | succ depth ih =>
    unfold valueAt
    refine quoted_overClosed.bind fun quoted hq => ?_
    split
    · exact Obeys.pure (by simpa [TokenClosed, TextClosed] using hq)
    refine (rangeOf_overClosed ih).bind fun range hr => ?_
    split
    · exact Obeys.pure (by simpa [TokenClosed, TextClosed] using hr)
    refine number_overClosed.bind fun number hn => ?_
    split
    · exact Obeys.pure (by simpa [TokenClosed, TextClosed] using hn)
    refine (pathOf_overClosed ih).bind fun path hp => ?_
    split
    · exact Obeys.pure (by simpa [TokenClosed, TextClosed] using hp)
    · exact Obeys.pure (by simp [TokenClosed])

theorem value_overClosed : Obeys overClosed value? TokenClosed := fun s =>
  valueAt_overClosed (s.rest.length + 1) s

end

end Scanner

end Stencil
