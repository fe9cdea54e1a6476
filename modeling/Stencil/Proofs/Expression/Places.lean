import Stencil.Proofs.Expression.Tokens

/-!
# Places that a reader reaches

A reader of values moves over the front of what is left of its text, whether it ends well or fails, and
its offset goes up by the bytes it has moved over.
-/

namespace Stencil

namespace Scanner

/-- `s'` is a later place in the same text. -/
def Reaches (s s' : Scanner) : Prop :=
  ∃ chunk, s.rest = chunk ++ s'.rest ∧ s' = s.past chunk s'.rest

namespace Reaches

variable {s s' s'' : Scanner}

theorem refl (s : Scanner) : s.Reaches s := ⟨[], rfl, rfl⟩

theorem past {chunk rest : List Char} (e : s.rest = chunk ++ rest) : s.Reaches (s.past chunk rest) :=
  ⟨chunk, e, rfl⟩

theorem trans (h : s.Reaches s') (h' : s'.Reaches s'') : s.Reaches s'' := by
  obtain ⟨chunk, e, hs⟩ := h
  obtain ⟨chunk', e', hs'⟩ := h'
  refine ⟨chunk ++ chunk', by rw [e, e', List.append_assoc], ?_⟩
  rw [hs', hs]
  simp [Scanner.past, Nat.add_assoc]

theorem eq_past (h : s.Reaches s') {text : List Char} (e : s.rest = text ++ s'.rest) :
    s' = s.past text s'.rest := by
  obtain ⟨chunk, e', hs⟩ := h
  obtain rfl : chunk = text := List.append_cancel_right (e'.symm.trans e)
  exact hs

end Reaches

/-- The place that a run ends at, also when it fails. -/
def place {α : Type} : EStateM.Result Error Scanner α → Scanner
  | .ok _ s => s
  | .error _ s => s

def Onward {α : Type} (m : Scan α) : Prop := ∀ s : Scanner, s.Reaches (place (m s))

section
variable {α β : Type} {m : Scan α} {f : α → Scan β}

theorem Onward.bind (hm : Onward m) (hf : ∀ a, Onward (f a)) : Onward (m >>= f) := by
  intro s
  have h := hm s
  cases hr : m s with
  | ok a s' =>
    rw [hr] at h
    rw [bind_of_ok hr]
    exact h.trans (hf a s')
  | error e s' =>
    rw [hr] at h
    rw [bind_of_error hr]
    exact h

theorem Onward.stay {r : α} : Onward (pure r : Scan α) := fun s => .refl s

theorem get_onward : Onward (get : Scan Scanner) := fun s => .refl s

theorem peek_onward : Onward peek := fun s => .refl s

theorem fail_onward {message : String} : Onward (fail message : Scan α) := fun s => .refl s

theorem require_onward {condition : Bool} {message : String} : Onward (require condition message) := by
  unfold require
  split
  · exact .stay
  · exact fail_onward

theorem eat_onward {c : Char} : Onward (eat c) := by
  intro s
  unfold eat
  split
  · exact .refl s
  · rename_i e
    split
    · exact .past e
    · exact .refl s

theorem eatAll_onward {word : List Char} : Onward (eatAll word) := by
  intro s
  unfold eatAll
  split
  · rename_i h
    exact .past (List.prefix_iff_eq_append.1 (List.isPrefixOf_iff_prefix.1 h)).symm
  · exact .refl s

theorem skipBlanks_onward : Onward skipBlanks := fun _ =>
  .past List.takeWhile_append_dropWhile.symm

theorem chunk_onward {split : List Char → Option (List Char × List Char)}
    (h : ∀ s chunk rest, split s = some (chunk, rest) → s = chunk ++ rest) :
    Onward (chunk? split) := by
  intro s
  unfold chunk?
  split
  · exact .refl s
  · exact .past (h _ _ _ ‹_›)

theorem taking_onward {reader : Scan Unit} (h : Onward reader) : Onward (taking reader) := by
  intro s
  have hr := h s
  unfold taking
  cases he : reader s with
  | ok a s' =>
    rw [he] at hr
    exact hr
  | error e s' =>
    rw [he] at hr
    exact hr

theorem quoted_onward : Onward quoted? := by
  intro s
  unfold quoted?
  split
  · exact .refl s
  · rename_i e
    split
    · split
      · rename_i hl
        exact .past (by rw [e, Span.literalEnd_eq_append hl]; rfl)
      · exact .refl s
    · exact .refl s

end

/-! ## Values -/

section
variable {inner : Scan (Option Token)} (hi : Onward inner)
include hi

theorem bracket_onward : Onward (bracket inner) := by
  unfold bracket
  refine eat_onward.bind fun _ => skipBlanks_onward.bind fun _ => hi.bind fun _ => ?_
  refine require_onward.bind fun _ => skipBlanks_onward.bind fun _ => ?_
  exact eat_onward.bind fun _ => require_onward

theorem parentheses_onward : Onward (parentheses inner) := by
  unfold parentheses
  refine eat_onward.bind fun _ => skipBlanks_onward.bind fun _ => hi.bind fun _ => ?_
  refine require_onward.bind fun _ => skipBlanks_onward.bind fun _ => ?_
  refine eatAll_onward.bind fun _ => require_onward.bind fun _ => ?_
  refine skipBlanks_onward.bind fun _ => hi.bind fun _ => require_onward.bind fun _ => ?_
  exact skipBlanks_onward.bind fun _ => eat_onward.bind fun _ => require_onward

theorem rangeOf_onward : Onward (rangeOf inner) := by
  unfold rangeOf
  refine peek_onward.bind fun _ => ?_
  split
  · exact (taking_onward (parentheses_onward hi)).bind fun _ => .stay
  · exact .stay

theorem segmentsOf_onward (n : Nat) : Onward (segmentsOf inner n) := by
  induction n with
  | zero => exact .stay
  | succ n ih =>
    unfold segmentsOf
    refine peek_onward.bind fun _ => ?_
    split
    · refine (chunk_onward fun _ _ _ h => (splitDotted_iff.1 h).1).bind fun _ => ?_
      split
      · exact ih
      · exact .stay
    · exact (bracket_onward hi).bind fun _ => ih
    · exact .stay

theorem segmented_onward : Onward (segmented inner) := by
  have further : Onward (do segmentsOf inner (← get).rest.length) :=
    get_onward.bind fun s => segmentsOf_onward hi s.rest.length
  unfold segmented
  refine peek_onward.bind fun _ => ?_
  split
  · exact (bracket_onward hi).bind fun _ => further
  · exact (chunk_onward fun _ _ _ h => (splitName_iff.1 h).1).bind fun _ => further

theorem pathOf_onward : Onward (pathOf inner) := by
  unfold pathOf
  refine peek_onward.bind fun _ => ?_
  split
  · exact (taking_onward (segmented_onward hi)).bind fun _ => .stay
  · exact .stay

end

theorem valueAt_onward (depth : Nat) : Onward (valueAt depth) := by
  induction depth with
  | zero => exact .stay
  | succ depth ih =>
    unfold valueAt
    refine quoted_onward.bind fun _ => ?_
    split
    · exact .stay
    refine (rangeOf_onward ih).bind fun _ => ?_
    split
    · exact .stay
    refine (chunk_onward fun _ _ _ h => (splitNumber_iff.1 h).1).bind fun _ => ?_
    split
    · exact .stay
    refine (pathOf_onward ih).bind fun _ => ?_
    split
    · exact .stay
    · exact .stay

theorem value_onward : Onward value? := fun s => valueAt_onward (s.rest.length + 1) s

/-- The place behind a value is known from the text that the value takes. -/
theorem value_eq_past {s s' : Scanner} {o : Option Token} {text : List Char}
    (h : value? s = .ok o s') (e : s.rest = text ++ s'.rest) : s' = s.past text s'.rest := by
  have hs := value_onward s
  rw [h] at hs
  exact hs.eq_past e

end Scanner

end Stencil
