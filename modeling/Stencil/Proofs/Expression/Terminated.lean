import Stencil.Proofs.Expression.Reading

/-!
# Expressions and filters of closed texts

The second reading of a token and the readings of a filter and of the initial value of a pipeline
meet no literal that is not closed.
-/

namespace Stencil

open Scanner

/-- A message that starts in another way is another message. -/
theorem append_ne {start middle rest message : String}
    (h : start.toList.isPrefixOf message.toList = false) : start ++ middle ++ rest ≠ message := by
  rintro rfl
  rw [String.append_assoc, String.toList_append,
    List.isPrefixOf_iff_prefix.2 (List.prefix_append _ _)] at h
  cases h

namespace Expression

theorem fails_of_readIn {α : Type} {reader : Scan α} {Q : α → Prop} {F : Error → Prop}
    {text : List Char} (hr : Obeys (overClosed.failing F) reader Q) (h : Closed text) :
    ∀ e, readIn reader text = .error e → F e := by
  have ha := hr (Scanner.ofChars text) h
  unfold readIn
  cases he : reader (Scanner.ofChars text) with
  | ok a s =>
    intro e h
    cases h
  | error e' s =>
    rw [he] at ha
    rintro e ⟨⟩
    exact ha

theorem readIn_terminated {α : Type} {reader : Scan α} {Q : α → Prop} {text : List Char}
    (hr : Obeys overClosed reader Q) (h : Closed text) : Terminated (readIn reader text) :=
  fails_of_readIn (hr.failing fun _ => id) h

theorem numeral_terminated (text : List Char) : Terminated (numeral text) := by
  unfold numeral
  split
  · exact .ok
  · split
    · split
      · exact .ok
      · exact .error (Error.ofClosed_malformedIn (by decide))
    · exact .error (Error.ofClosed_malformedIn (by decide))

section
variable {inner : Token → Except Error Expression}
  (hi : ∀ t, Closed t.text.toList → Terminated (inner t))
include hi

theorem segments_overClosed (n : Nat) : Obeys overClosed (segments inner n) fun _ => True := by
  induction n with
  | zero => exact Obeys.pure trivial
  | succ n ih =>
    have more (segment : Segment) :
        Obeys overClosed (do return segment :: (← segments inner n)) fun _ => True :=
      ih.bind fun _ _ => Obeys.pure trivial
    unfold segments
    refine atEnd_overClosed.bind fun ended _ => ?_
    split
    · exact Obeys.pure trivial
    refine (eat_overClosed (by decide)).bind fun dot _ => ?_
    split
    · refine name_overClosed.bind fun name _ => ?_
      split
      · exact more _
      refine digits_overClosed.bind fun digits _ => ?_
      split
      · split
        · exact more _
        · exact fail_overClosed (by decide)
      · exact fail_overClosed (by decide)
    refine (eat_overClosed (by decide)).bind fun opened _ => ?_
    split
    · refine skipBlanks_overClosed.bind fun _ _ => ?_
      refine value_overClosed.bind fun token ht => ?_
      split
      · refine skipBlanks_overClosed.bind fun _ _ => ?_
        refine (eat_overClosed (by decide)).bind fun _ _ => ?_
        refine (require_overClosed (by decide)).bind fun _ _ => ?_
        refine (lift_overClosed (hi _ (ht _ rfl))).bind fun _ _ => ?_
        exact more _
      · exact fail_overClosed (by decide)
    · exact fail_overClosed (by decide)

theorem pathSegments_overClosed : Obeys overClosed (pathSegments inner) fun _ => True := by
  unfold pathSegments
  refine Obeys.get.bind fun s _ => ?_
  refine name_overClosed.bind fun name _ => ?_
  split
  · exact (segments_overClosed hi _).bind fun _ _ => Obeys.pure trivial
  · exact segments_overClosed hi _

theorem rangeEnds_overClosed : Obeys overClosed (rangeEnds inner) fun _ => True := by
  unfold rangeEnds
  refine (eat_overClosed (by decide)).bind fun _ _ => ?_
  refine skipBlanks_overClosed.bind fun _ _ => ?_
  refine value_overClosed.bind fun first hf => ?_
  split
  · refine skipBlanks_overClosed.bind fun _ _ => ?_
    refine (eatAll_overClosed plain_dots).bind fun _ _ => ?_
    refine skipBlanks_overClosed.bind fun _ _ => ?_
    refine value_overClosed.bind fun last hl => ?_
    split
    · refine (lift_overClosed (hi _ (hf _ rfl))).bind fun _ _ => ?_
      refine (lift_overClosed (hi _ (hl _ rfl))).bind fun _ _ => ?_
      exact Obeys.pure trivial
    · exact fail_overClosed (by decide)
  · exact fail_overClosed (by decide)

theorem ofTokenWith_terminated {t : Token} (h : Closed t.text.toList) :
    Terminated (ofTokenWith inner t) := by
  unfold ofTokenWith
  dsimp only
  split
  · exact .ok
  · exact (numeral_terminated _).map
  · exact .ok
  · exact .ok
  · exact (readIn_terminated (pathSegments_overClosed hi) h).map
  · exact (readIn_terminated (rangeEnds_overClosed hi) h).map

end

theorem ofTokenAt_terminated (depth : Nat) :
    ∀ t : Token, Closed t.text.toList → Terminated (ofTokenAt depth t) := by
  induction depth with
  | zero => exact fun t _ => .error (Error.ofClosed_malformedIn (by decide))
  | succ depth ih => exact fun t h => ofTokenWith_terminated ih h

theorem ofToken_terminated {t : Token} (h : Closed t.text.toList) : Terminated (ofToken t) :=
  ofTokenAt_terminated _ t h

end Expression

namespace Invocation

theorem key_overClosed : Obeys overClosed key? fun _ => True := by
  refine attempt_overClosed trivial (name_overClosed.bind fun name _ => ?_)
  split
  · refine skipBlanks_overClosed.bind fun _ _ => ?_
    refine (eat_overClosed (by decide)).bind fun colon _ => ?_
    split
    · exact Obeys.pure trivial
    · exact Obeys.pure trivial
  · exact Obeys.pure trivial

theorem argumentsOf_overClosed (n : Nat) : Obeys overClosed (argumentsOf n) fun _ => True := by
  induction n with
  | zero => exact Obeys.pure trivial
  | succ n ih =>
    unfold argumentsOf
    refine skipBlanks_overClosed.bind fun _ _ => ?_
    refine peek_overClosed.bind fun c _ => ?_
    split
    · exact Obeys.pure trivial
    · exact fail_overClosed (by decide)
    · exact fail_overClosed (by decide)
    refine key_overClosed.bind fun key _ => ?_
    refine skipBlanks_overClosed.bind fun _ _ => ?_
    refine value_overClosed.bind fun token ht => ?_
    split
    · split
      · exact fail_overClosed (append_ne (by decide))
      · refine Obeys.get.bind fun s _ => ?_
        exact fail_overClosed (append_ne (by decide))
    · refine (lift_overClosed (Expression.ofToken_terminated (ht _ rfl))).bind fun value _ => ?_
      refine skipTo_overClosed.bind fun stop _ => ?_
      split
      · exact Obeys.pure trivial
      refine (eat_overClosed (by decide)).bind fun _ _ => ?_
      exact ih.bind fun _ _ => Obeys.pure trivial

theorem reader_overClosed : Obeys overClosed reader fun _ => True := by
  have arguments (name : String) : Obeys overClosed
      (do return (⟨name, ← argumentsOf ((← get).rest.length + 1)⟩ : Invocation)) fun _ => True :=
    Obeys.get.bind fun s _ => (argumentsOf_overClosed _).bind fun _ _ => Obeys.pure trivial
  unfold reader
  refine skipBlanks_overClosed.bind fun _ _ => ?_
  refine name_overClosed.bind fun name _ => ?_
  split
  · refine skipBlanks_overClosed.bind fun _ _ => ?_
    refine atEnd_overClosed.bind fun ended _ => ?_
    split
    · exact Obeys.pure trivial
    refine (eat_overClosed (by decide)).bind fun colon _ => ?_
    dsimp only
    split
    · exact arguments _
    refine (eat_overClosed (by decide)).bind fun comma _ => ?_
    split
    · exact arguments _
    exact Obeys.bind_of_fails (fail_overClosed (append_ne (by decide)))
  · exact fail_overClosed (by decide)

theorem ofChars_terminated {text : List Char} (h : Closed text) : Terminated (ofChars text) :=
  Expression.readIn_terminated reader_overClosed h

end Invocation

theorem Pipeline.leading_overClosed : Obeys overClosed Pipeline.leading fun _ => True := by
  unfold Pipeline.leading
  refine skipBlanks_overClosed.bind fun _ _ => ?_
  refine value_overClosed.bind fun token ht => ?_
  split
  · exact lift_overClosed (Expression.ofToken_terminated (ht _ rfl))
  · exact fail_overClosed (by decide)

end Stencil
