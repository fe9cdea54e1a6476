import Stencil.Proofs.Pipeline.Trimmed

/-!
# Cutting and joining

`splitAtTop` searches anew behind every separator. `splitAtTop_joins` says that its pieces, joined by
the separator, are the text, and that each of them is whole: cut again, it is its only piece. Whether
a text can be cut depends on its literals alone, so on no separator: a cut fails exactly if a literal
that opens outside any other is never closed.
-/

namespace Stencil.Span

open Quoting

/-! ## Literals that stay open -/

/-- Behind a closed text a literal opens, and no text behind its quote closes it. -/
def LeavesOpen (s : List Char) : Prop :=
  ∃ before q rest, s = before ++ q :: rest ∧ Closed before ∧ isQuote q = true ∧
    ∀ body, body <+: rest → (inside q).after body ≠ outside

theorem LeavesOpen.not_closed {s : List Char} (h : LeavesOpen s) : ¬ Closed s := by
  obtain ⟨before, q, rest, rfl, hb, hq, hn⟩ := h
  rw [hb.append_iff, Closed, after_cons, next, if_pos hq]
  exact hn rest (List.prefix_refl rest)

theorem LeavesOpen.behind {s t : List Char} (hs : Closed s) (h : LeavesOpen t) :
    LeavesOpen (s ++ t) := by
  obtain ⟨before, q, rest, rfl, hb, hq, hn⟩ := h
  exact ⟨s ++ before, q, rest, by simp, hs.append hb, hq, hn⟩

theorem leavesOpen_of_literalEnd {q : Char} {s : List Char} (hq : isQuote q = true)
    (h : literalEnd q s = none) : LeavesOpen (q :: s) := by
  refine ⟨[], q, s, rfl, Closed.nil, hq, ?_⟩
  rintro body ⟨more, rfl⟩
  apply after_ne_of_literalEnd
  cases hl : literalEnd q body with
  | none => rfl
  | some p => cases h.symm.trans (literalEnd_append hl more)

/-- A search that fails does so at a literal that stays open. -/
theorem leavesOpen_of_seek {stops : List Char} {depth : Nat} {s unclosed : List Char}
    (h : seek stops depth s = .error unclosed) : LeavesOpen s := by
  fun_induction seek stops depth s with
  | case1 => cases h
  | case2 depth c s hq hl => exact leavesOpen_of_literalEnd hq hl
  | case3 depth c s hq body rest' hl _ ih =>
    rw [literalEnd_eq_append hl]
    exact (ih h).behind (closed_literal hq hl)
  | case6 => cases h
  | case4 depth c s hq _ ih | case5 depth c s hq _ _ ih | case7 depth c s hq _ _ _ ih =>
    have hp : Plain [c] := Plain.singleton (by simpa using hq)
    exact (ih h).behind hp.closed

theorem closed_or_leavesOpen (s : List Char) : Closed s ∨ LeavesOpen s := by
  cases h : seek [] 0 s with
  | error unclosed => exact .inr (leavesOpen_of_seek h)
  | ok rest =>
    obtain ⟨chunk, rfl, hc, hstop⟩ := seek_ok h
    cases rest with
    | nil => exact .inl (by simpa using hc)
    | cons c rest => cases (hstop c rfl).1

theorem leavesOpen_iff {s : List Char} : LeavesOpen s ↔ ¬ Closed s :=
  ⟨LeavesOpen.not_closed, (closed_or_leavesOpen s).resolve_left⟩

/-! ## Pieces -/

/-- A search that stops behind a chunk passes over the chunk by itself. -/
theorem seek_chunk {stops : List Char} {depth : Nat} {chunk rest : List Char} {c : Char}
    (h : seek stops depth (chunk ++ c :: rest) = .ok (c :: rest)) :
    seek stops depth chunk = .ok [] := by
  generalize hs : chunk ++ c :: rest = s at h
  fun_induction seek stops depth s generalizing chunk with
  | case1 => simp at hs
  | case2 => cases h
  | case3 depth d s hq body rest' hl _ ih =>
    obtain ⟨front, rfl, -, -⟩ := seek_ok h
    obtain ⟨e, hbody⟩ := literalEnd_iff.1 hl
    obtain rfl : chunk = d :: (body ++ front) := by
      rw [e, ← List.append_assoc, ← List.cons_append] at hs
      exact List.append_cancel_right hs
    rw [seek_literal hq (literalEnd_append hbody front)]
    exact ih rfl h
  | case6 depth d s =>
    obtain ⟨rfl, rfl⟩ := List.cons.inj (Except.ok.inj h)
    have e : chunk = [] := List.append_cancel_right (hs.trans (List.nil_append _).symm)
    rw [e, seek]
  | case4 depth d s hq _ ih | case5 depth d s hq _ _ ih | case7 depth d s hq _ _ _ ih =>
    cases chunk with
    | nil => rw [seek]
    | cons d' chunk =>
      obtain ⟨rfl, rfl⟩ := List.cons.inj hs
      rw [seek, if_neg hq]
      simpa only [*, if_true, if_false] using ih rfl h

/-- The pieces of a text join to it, and each of them is whole. -/
theorem piecesAtTop_joins {sep : Char} {s : List Char} {pieces : List (List Char)}
    (h : piecesAtTop sep s = .ok pieces) :
    [sep].intercalate pieces = s ∧ ∀ piece ∈ pieces, piecesAtTop sep piece = .ok [piece] := by
  induction pieces generalizing s with
  | nil => exact absurd h piecesAtTop_ne_nil
  | cons first more ih =>
    rcases piecesAtTop_cases h with ⟨hs, e⟩ | ⟨chunk, rest, more', hs, e, hr, e'⟩
    · cases e
      exact ⟨List.intercalate_singleton, by simpa using h⟩
    · cases e'
      obtain ⟨hjoin, hwhole⟩ := ih hr
      have hne : more ≠ [] := by
        rintro rfl
        exact piecesAtTop_ne_nil hr
      refine ⟨?_, List.forall_mem_cons.2 ⟨?_, hwhole⟩⟩
      · rw [List.intercalate_cons_of_ne_nil hne, hjoin, e]
        simp
      · rw [e] at hs
        exact piecesAtTop_of_end (seek_chunk hs)

/-- A text is cut into pieces that join to it and are whole, unless a literal that opens outside any
other is never closed; then every cut of it fails. -/
theorem splitAtTop_joins (input : List Char) (sep : Char) :
    ¬ LeavesOpen input ∧ (∃ pieces, splitAtTop input sep = .ok pieces ∧
      [sep].intercalate pieces = input ∧ ∀ piece ∈ pieces, splitAtTop piece sep = .ok [piece]) ∨
    LeavesOpen input ∧
      splitAtTop input sep = .error (.malformedIn input "unterminated string literal") := by
  cases h : piecesAtTop sep input with
  | ok pieces =>
    obtain ⟨hjoin, hwhole⟩ := piecesAtTop_joins h
    have hclosed : ¬ LeavesOpen input := fun ho => ho.not_closed (closed_of_piecesAtTop h)
    refine .inl ⟨hclosed, pieces, Pipeline.splitAtTop_ok.2 h, hjoin, fun piece hp => ?_⟩
    exact Pipeline.splitAtTop_ok.2 (hwhole piece hp)
  | error unclosed =>
    refine .inr ⟨leavesOpen_iff.2 (piecesAtTop_error h), ?_⟩
    rw [splitAtTop, h]

end Stencil.Span
