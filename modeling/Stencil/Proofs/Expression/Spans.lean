import Stencil.Proofs.Expression.Literals

/-!
# Spans and the walk over a text

The end of a literal, the search for a stop and the cutting of a text follow the walk of `Quoting`:
what they take is closed, and they fail only at a literal that nothing closes. So a text can be cut
into pieces exactly if it is closed.
-/

namespace Stencil.Span

open Quoting

/-! ## Literals -/

theorem literalEnd_after {q : Char} {s body rest : List Char}
    (h : literalEnd q s = some (body, rest)) : (inside q).after body = outside := by
  fun_induction literalEnd q s generalizing body rest with
  | case1 => simp at h
  | case2 => simp at h
  | case3 d s ih =>
    obtain ⟨⟨b, r⟩, hb, e⟩ := Option.map_eq_some_iff.1 h
    cases e
    simpa [next] using ih hb
  | case4 s hq =>
    cases h
    simp [next, hq]
  | case5 c s hb hq ih =>
    obtain ⟨⟨b, r⟩, hr, e⟩ := Option.map_eq_some_iff.1 h
    cases e
    simpa [next, hb, hq] using ih hr

theorem after_ne_of_literalEnd {q : Char} {s : List Char} (h : literalEnd q s = none) :
    (inside q).after s ≠ outside := by
  fun_induction literalEnd q s with
  | case1 => simp
  | case2 => simp [next]
  | case3 d s ih => simpa [next] using ih (Option.map_eq_none_iff.1 h)
  | case4 => cases h
  | case5 c s hb hq ih => simpa [next, hb, hq] using ih (Option.map_eq_none_iff.1 h)

theorem literalEnd_append {q : Char} {s body rest : List Char}
    (h : literalEnd q s = some (body, rest)) (t : List Char) :
    literalEnd q (s ++ t) = some (body, rest ++ t) := by
  fun_induction literalEnd q s generalizing body rest with
  | case1 => cases h
  | case2 => cases h
  | case3 d s ih =>
    obtain ⟨⟨b, r⟩, hb, e⟩ := Option.map_eq_some_iff.1 h
    cases e
    rw [List.cons_append, List.cons_append, literalEnd.eq_def]
    simp [ih hb]
  | case4 s hq =>
    cases h
    rw [List.cons_append, literalEnd.eq_def]
    simp [hq]
  | case5 c s hb hq ih =>
    obtain ⟨⟨b, r⟩, hr, e⟩ := Option.map_eq_some_iff.1 h
    cases e
    rw [List.cons_append, literalEnd.eq_def]
    simp [hb, hq, ih hr]

theorem literalEnd_body {q : Char} {s body rest : List Char}
    (h : literalEnd q s = some (body, rest)) : literalEnd q body = some (body, []) := by
  fun_induction literalEnd q s generalizing body rest with
  | case1 => cases h
  | case2 => cases h
  | case3 d s ih =>
    obtain ⟨⟨b, r⟩, hb, e⟩ := Option.map_eq_some_iff.1 h
    cases e
    rw [literalEnd.eq_def]
    simp [ih hb]
  | case4 s hq =>
    cases h
    rw [literalEnd.eq_def]
    simp [hq]
  | case5 c s hb hq ih =>
    obtain ⟨⟨b, r⟩, hr, e⟩ := Option.map_eq_some_iff.1 h
    cases e
    rw [literalEnd.eq_def]
    simp [hb, hq, ih hr]

/-- A literal ends at its first free quote, whatever follows. -/
theorem literalEnd_iff {q : Char} {s body rest : List Char} :
    literalEnd q s = some (body, rest) ↔
      s = body ++ rest ∧ literalEnd q body = some (body, []) := by
  constructor
  · exact fun h => ⟨literalEnd_eq_append h, literalEnd_body h⟩
  · rintro ⟨rfl, h⟩
    exact literalEnd_append h rest

theorem closed_literal {q : Char} {s body rest : List Char} (hq : isQuote q = true)
    (h : literalEnd q s = some (body, rest)) : Closed (q :: body) := by
  rw [Closed, after_cons, next, if_pos hq]
  exact literalEnd_after h

theorem not_closed_of_literalEnd {q : Char} {s : List Char} (hq : isQuote q = true)
    (h : literalEnd q s = none) : ¬ Closed (q :: s) := by
  rw [Closed, after_cons, next, if_pos hq]
  exact after_ne_of_literalEnd h

/-! ## The search for a stop -/

/-- A search moves over a closed chunk and stops at a stop, which is no quote, or at the end. -/
theorem seek_ok {stops : List Char} {depth : Nat} {s rest : List Char}
    (h : seek stops depth s = .ok rest) :
    ∃ chunk, s = chunk ++ rest ∧ Closed chunk ∧ ∀ c ∈ rest.head?, c ∈ stops ∧ Plain [c] := by
  fun_induction seek stops depth s with
  | case1 =>
    cases h
    exact ⟨[], rfl, Closed.nil, by simp⟩
  | case2 => cases h
  | case3 depth c s hq body rest' hl _ ih =>
    obtain ⟨chunk, rfl, hc, hn⟩ := ih h
    refine ⟨c :: body ++ chunk, ?_, (closed_literal hq hl).append hc, hn⟩
    rw [literalEnd_eq_append hl]
    simp
  | case6 depth c s hq ho hc hd =>
    cases h
    have hp : Plain [c] := Plain.singleton (by simpa using hq)
    exact ⟨[], rfl, Closed.nil, by simpa using ⟨hd.2, hp⟩⟩
  | case4 depth c s hq _ ih | case5 depth c s hq _ _ ih | case7 depth c s hq _ _ _ ih =>
    have hp : Plain [c] := Plain.singleton (by simpa using hq)
    obtain ⟨chunk, rfl, hc, hn⟩ := ih h
    exact ⟨c :: chunk, rfl, hp.closed.append hc, hn⟩

theorem seek_error {stops : List Char} {depth : Nat} {s unclosed : List Char}
    (h : seek stops depth s = .error unclosed) : ¬ Closed s := by
  fun_induction seek stops depth s with
  | case1 => cases h
  | case2 depth c s hq hl => exact not_closed_of_literalEnd hq hl
  | case3 depth c s hq body rest' hl _ ih =>
    rw [literalEnd_eq_append hl, ← List.cons_append, (closed_literal hq hl).append_iff]
    exact ih h
  | case6 => cases h
  | case4 depth c s hq _ ih | case5 depth c s hq _ _ ih | case7 depth c s hq _ _ _ ih =>
    have hp : Plain [c] := Plain.singleton (by simpa using hq)
    rw [← List.singleton_append, Closed.plain_append_iff hp]
    exact ih h

theorem seek_of_closed {s : List Char} (stops : List Char) (depth : Nat) (h : Closed s) :
    ∃ rest, seek stops depth s = .ok rest := by
  cases hs : seek stops depth s with
  | ok rest => exact ⟨rest, rfl⟩
  | error unclosed => exact absurd h (seek_error hs)

/-! ## Pieces -/

/-- A text has one piece, or a first piece, a separator and the pieces of what follows it. -/
theorem piecesAtTop_cases {sep : Char} {s : List Char} {pieces : List (List Char)}
    (h : piecesAtTop sep s = .ok pieces) :
    (seek [sep] 0 s = .ok [] ∧ pieces = [s]) ∨
      ∃ chunk rest more, seek [sep] 0 s = .ok (sep :: rest) ∧ s = chunk ++ sep :: rest ∧
        piecesAtTop sep rest = .ok more ∧ pieces = chunk :: more := by
  rw [piecesAtTop] at h
  split at h
  · cases h
  · rename_i hs
    cases h
    exact .inl ⟨hs, rfl⟩
  · rename_i c rest hs
    obtain ⟨chunk, e, -, hn⟩ := seek_ok hs
    obtain rfl : c = sep := by simpa using (hn c rfl).1
    cases hm : piecesAtTop c rest with
    | error unclosed =>
      rw [hm] at h
      cases h
    | ok more =>
      rw [hm] at h
      refine .inr ⟨chunk, rest, more, hs, e, hm, ?_⟩
      have ht : s.take (s.length - (rest.length + 1)) = chunk := by simp [e]
      rw [ht] at h
      cases h
      rfl

/-- The pieces of a text are cut out of it. -/
theorem piecesAtTop_cut {sep : Char} {s : List Char} {pieces : List (List Char)}
    (h : piecesAtTop sep s = .ok pieces) : ∀ piece ∈ pieces, Cut s piece := by
  induction pieces generalizing s with
  | nil =>
    intro piece hm
    cases hm
  | cons first more ih =>
    rcases piecesAtTop_cases h with ⟨hs, e⟩ | ⟨chunk, rest, more', hs, e, hr, e'⟩
    · cases e
      obtain ⟨chunk, e, hc, -⟩ := seek_ok hs
      rw [List.append_nil] at e
      subst e
      simpa using Cut.refl hc
    · cases e'
      obtain ⟨chunk, e'', hc, hn⟩ := seek_ok hs
      obtain rfl : first = chunk := List.append_cancel_right (e.symm.trans e'')
      have hb : Closed (first ++ [sep]) := hc.append (hn sep rfl).2.closed
      intro piece hm
      rcases List.mem_cons.1 hm with rfl | hm
      · rw [e]
        exact Cut.head hc
      · have hcut := Cut.behind hb (ih hr piece hm)
        rwa [List.append_assoc, List.singleton_append, ← e] at hcut

theorem piecesAtTop_error {sep : Char} {s unclosed : List Char}
    (h : piecesAtTop sep s = .error unclosed) : ¬ Closed s := by
  fun_induction piecesAtTop sep s with
  | case1 s unclosed' hs => exact seek_error hs
  | case2 => cases h
  | case3 s c rest hs _ ih =>
    obtain ⟨chunk, e, hc, hn⟩ := seek_ok hs
    have hr : ¬ Closed rest := by
      cases hm : piecesAtTop sep rest with
      | error unclosed' =>
        rw [hm] at h
        cases h
        exact ih hm
      | ok more =>
        rw [hm] at h
        cases h
    rwa [e, hc.append_iff, ← List.singleton_append, (hn c rfl).2.closed.append_iff]

theorem piecesAtTop_of_closed {s : List Char} (sep : Char) (h : Closed s) :
    ∃ pieces, piecesAtTop sep s = .ok pieces := by
  cases hs : piecesAtTop sep s with
  | ok pieces => exact ⟨pieces, rfl⟩
  | error unclosed => exact absurd h (piecesAtTop_error hs)

theorem piecesAtTop_length {sep : Char} {s : List Char} {pieces : List (List Char)}
    (h : piecesAtTop sep s = .ok pieces) : pieces.length ≤ s.length + 1 := by
  induction pieces generalizing s with
  | nil => simp
  | cons first more ih =>
    rcases piecesAtTop_cases h with ⟨-, e⟩ | ⟨chunk, rest, more', -, e, hr, e'⟩
    · cases e
      simp
    · cases e'
      have := ih hr
      simp [e]
      omega

end Stencil.Span
