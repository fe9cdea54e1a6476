import Stencil.Proofs.Expression.Runs
import Stencil.Proofs.Expression.Terminated

/-!
# The spans of a pipeline

`Pipeline.spans` cuts what follows the initial value at its bars. The filters of a pipeline are read
from these spans one by one, so a pipeline of a closed text meets no literal that is not closed.
-/

namespace Stencil

open Scanner

namespace Scanner

variable {α β : Type} {m : Scan α} {f : α → Scan β} {s : Scanner}

theorem outcome_lift_bind (r : Except Error α) :
    outcome ((lift r >>= f) s) = r >>= fun a => outcome (f a s) := by
  cases r with
  | ok a => rw [bind_of_ok (m := lift (.ok a)) rfl]; rfl
  | error e => rw [bind_of_error (m := lift (.error e)) rfl]; rfl

theorem outcome_map (g : α → β) : outcome ((g <$> m) s) = (outcome (m s)).map g := by
  change outcome (EStateM.map g m s) = _
  rw [EStateM.map]
  cases m s with
  | ok a s' => rfl
  | error e s' => rfl

end Scanner

namespace Pipeline

/-- The texts after the bars of a pipeline. -/
def spans (text : List Char) : List (List Char) :=
  match leading (Scanner.ofChars text) with
  | .error _ _ => []
  | .ok _ s =>
    match Span.piecesAtTop '|' s.rest with
    | .error _ => []
    | .ok pieces => pieces.tail

theorem filtersOf_nil {n : Nat} {s : Scanner} (hs : s.rest = []) : filtersOf n s = .ok [] s := by
  cases n with
  | zero => rfl
  | succ n =>
    have he : eat '|' s = .ok false s := by rw [eat, hs]
    rw [filtersOf, bind_of_ok he]
    rfl

/-- The first filter is read from the chunk up to the next bar. -/
theorem filtersOf_bar {n : Nat} {s : Scanner} {chunk rest : List Char}
    (hs : s.rest = '|' :: (chunk ++ rest)) (h : Span.seek ['|'] 0 (chunk ++ rest) = .ok rest) :
    ∃ s', s'.rest = rest ∧ filtersOf (n + 1) s =
      (lift (Invocation.ofChars chunk) >>= fun filter => (filter :: ·) <$> filtersOf n) s' := by
  have he : eat '|' s = .ok true (s.past ['|'] (chunk ++ rest)) := by rw [eat, hs]; rfl
  obtain ⟨s', hk, hr⟩ := skipTo_gives (s := s.past ['|'] (chunk ++ rest)) h
  have ht : taking (do let _ ← skipTo ['|']) (s.past ['|'] (chunk ++ rest)) =
      .ok (String.ofList chunk) s' := by
    rw [taking, bind_of_ok hk]
    simp [past, hr, pure, EStateM.pure]
  refine ⟨s', hr, ?_⟩
  rw [filtersOf, bind_of_ok he]
  simp only [if_true]
  rw [bind_of_ok ht, Invocation.parse, String.toList_ofList]
  rfl

theorem outcome_filtersOf_bar {n : Nat} {s : Scanner} {chunk rest : List Char}
    (hs : s.rest = '|' :: (chunk ++ rest)) (h : Span.seek ['|'] 0 (chunk ++ rest) = .ok rest) :
    ∃ s', s'.rest = rest ∧ outcome (filtersOf (n + 1) s) = do
      let filter ← Invocation.ofChars chunk
      return filter :: (← outcome (filtersOf n s')) := by
  obtain ⟨s', hr, hf⟩ := filtersOf_bar hs h
  refine ⟨s', hr, ?_⟩
  rw [hf, outcome_lift_bind]
  congr 1
  funext filter
  rw [outcome_map]
  rfl

theorem outcome_filtersOf {n : Nat} {s : Scanner} {rest : List Char} {pieces : List (List Char)}
    (hs : s.rest = '|' :: rest) (hp : Span.piecesAtTop '|' rest = .ok pieces)
    (hn : pieces.length ≤ n) :
    outcome (filtersOf n s) = pieces.mapM Invocation.ofChars := by
  induction pieces generalizing n s rest with
  | nil =>
    rcases Span.piecesAtTop_cases hp with ⟨-, e⟩ | ⟨_, _, _, -, -, -, e⟩
    · cases e
    · cases e
  | cons piece more ih =>
    cases n with
    | zero => cases hn
    | succ n =>
      rw [List.mapM_cons]
      rcases Span.piecesAtTop_cases hp with ⟨hk, e⟩ | ⟨chunk, rest', more', hk, rfl, hm, e⟩
      · cases e
        rw [← List.append_nil piece] at hs hk
        obtain ⟨s', hr, ho⟩ := outcome_filtersOf_bar (n := n) hs hk
        rw [ho, filtersOf_nil hr]
        rfl
      · cases e
        obtain ⟨s', hr, ho⟩ := outcome_filtersOf_bar (n := n) hs hk
        rw [ho, ih hr hm (Nat.le_of_succ_le_succ hn)]

/-- A pipeline is its leading value and its spans, each read as a filter. -/
theorem ofChars_of_leading {text first : List Char} {spans : List (List Char)} {s : Scanner}
    {initial : Expression} (hl : leading (Scanner.ofChars text) = .ok initial s)
    (hp : Span.piecesAtTop '|' s.rest = .ok (first :: spans)) :
    ofChars text = (spans.mapM Invocation.ofChars).map (⟨initial, ·⟩) := by
  unfold ofChars Expression.readIn reader
  rw [bind_of_ok hl]
  have filters (s' : Scanner) : outcome ((do
      return (⟨initial, ← filtersOf (← get).rest.length⟩ : Pipeline)) s') =
      (outcome (filtersOf s'.rest.length s')).map (⟨initial, ·⟩) := outcome_map _
  rcases Span.piecesAtTop_cases hp with ⟨hk, e⟩ | ⟨chunk, rest, more, hk, hr, hm, e⟩
  · cases e
    obtain ⟨s', ht, hr⟩ := skipTo_gives hk
    rw [bind_of_ok ht, filters, filtersOf_nil hr]
    rfl
  · cases e
    obtain ⟨s', ht, hr⟩ := skipTo_gives hk
    have hn : spans.length ≤ s'.rest.length := by
      rw [hr]
      exact Span.piecesAtTop_length hm
    rw [bind_of_ok ht, filters, outcome_filtersOf hr hm hn]

/-- In a closed text an initial value leaves a closed text, which can be cut. -/
theorem leading_cases {text : List Char} (h : Closed text) :
    (∃ e s, leading (Scanner.ofChars text) = .error e s ∧ e.OfClosed ∧ spans text = []) ∨
      ∃ initial s first, leading (Scanner.ofChars text) = .ok initial s ∧
        Span.piecesAtTop '|' s.rest = .ok (first :: spans text) ∧
        ∀ span ∈ spans text, Cut text span := by
  have ha := leading_overClosed (Scanner.ofChars text) h
  unfold spans
  cases hl : leading (Scanner.ofChars text) with
  | error e s =>
    rw [hl] at ha
    exact .inl ⟨e, s, rfl, ha, rfl⟩
  | ok initial s =>
    rw [hl] at ha
    obtain ⟨⟨chunk, e, hc⟩, -⟩ := ha
    change text = chunk ++ s.rest at e
    have hs : Closed s.rest := by
      rw [e] at h
      exact hc.append_iff.1 h
    obtain ⟨pieces, hp⟩ := Span.piecesAtTop_of_closed '|' hs
    have hcut (piece : List Char) (hm : piece ∈ pieces) : Cut text piece := by
      rw [e]
      exact Cut.behind hc (Span.piecesAtTop_cut hp piece hm)
    cases pieces with
    | nil => rcases Span.piecesAtTop_cases hp with ⟨-, e⟩ | ⟨_, _, _, -, -, -, e⟩ <;> cases e
    | cons first spans =>
      dsimp only
      rw [hp]
      exact .inr ⟨initial, s, first, rfl, hp, fun span hm =>
        hcut span (List.mem_cons_of_mem first hm)⟩

/-- The spans of a closed text are cut out of it. -/
theorem spans_cut {text : List Char} (h : Closed text) : ∀ span ∈ spans text, Cut text span := by
  rcases leading_cases h with ⟨e, s, -, -, hs⟩ | ⟨initial, s, first, -, -, hcut⟩
  · rw [hs]
    intro span hm
    cases hm
  · exact hcut

theorem ofChars_terminated {text : List Char} (h : Closed text) : Terminated (ofChars text) := by
  rcases leading_cases h with ⟨e, s, hl, he, -⟩ | ⟨initial, s, first, hl, hp, hcut⟩
  · unfold ofChars Expression.readIn reader
    rw [bind_of_error hl]
    exact .error he
  · rw [ofChars_of_leading hl hp]
    exact (Terminated.mapM fun span hm => Invocation.ofChars_terminated (hcut span hm).closed).map

end Pipeline

end Stencil
