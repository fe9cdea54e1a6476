import Stencil.Proofs.Markup.Literals
import Stencil.Proofs.Snippet

/-!
# Where faults point

A fault of the markup stands at an opening delimiter of the source. Its line and column lead to that
delimiter in a line of its snippet, which shows the line with the caret row behind it. The caret
stands under the delimiter in the first 9999 lines.
-/

namespace Stencil

open Markup

/-- Where an opening delimiter stands, there it stands in a line of the snippet of its offset. -/
theorem Markup.Opens.line {source : List Char} {d : Delimiter} {offset : Nat}
    (h : Opens source d offset) :
    ∃ k left right, Text.lineColumn source offset = (k + 1, left.length + 1) ∧
      (Text.lines source)[k]? = some (left ++ d.opening ++ right) := by
  obtain ⟨before, after, rfl, rfl⟩ := h
  have hd : ∃ y, d.opening = ['{', y] ∧ y ≠ '\n' ∧ y ≠ '\r' := by
    cases d with
    | output => exact ⟨'{', rfl, by decide, by decide⟩
    | tag => exact ⟨'%', rfl, by decide, by decide⟩
  obtain ⟨y, hd, hy, hy'⟩ := hd
  rw [hd]
  obtain ⟨k, left, right, hplace, hline⟩ :=
    Text.exists_line 1 [] before after (by decide : '{' ≠ '\n') hy hy'
  exact ⟨k, left, right, by rw [Nat.add_comm k 1]; exact hplace, hline⟩

/-- A fault of the markup points at an opening delimiter: its line and column are those of the
delimiter's offset, and lead to it in a line of the snippet. The snippet shows that line with the one
caret row right behind it; the caret stands under the delimiter if the line number has at most four
digits. -/
theorem Template.parse_fault {source : String} {fault : MarkupFault}
    (h : Template.parse .builtin source = .error (.markup fault)) :
    ∃ (d : Delimiter) (before after left right : List Char) (snippet : Snippet),
      source.toList = before ++ d.opening ++ after ∧
      Text.lineColumn source.toList (Text.byteLength before) = (fault.line, fault.column) ∧
      fault.snippet = some snippet ∧ snippet.line = fault.line ∧ snippet.column = fault.column ∧
      1 ≤ fault.line ∧
      snippet.lines[fault.line - 1]? = some (String.ofList (left ++ d.opening ++ right)) ∧
      fault.column = left.length + 1 ∧
      (∃ caret, snippet.Carets (left ++ d.opening ++ right) caret) ∧
      (snippet.PointsAt (left ++ d.opening ++ right) ↔ fault.line < 10000) := by
  rcases Template.parse_fails h with ⟨text, message, e, -⟩ | ⟨d, offset, message, ho, e⟩
  · cases e
  · obtain ⟨k, left, right, hplace, hline⟩ := ho.line
    obtain ⟨before, after, hs, rfl⟩ := ho
    rw [Error.markupAt, hplace] at e
    cases e
    refine ⟨d, before, after, left, right, _, hs, hplace, rfl, rfl, rfl, Nat.le_add_left .., ?_, rfl,
      ⟨_, Snippet.carets_around hline⟩, Snippet.pointsAt_iff hline (Nat.le_add_left ..)⟩
    rw [Nat.add_sub_cancel]
    simp [Snippet.around, hline]

/-- A condition is missing on the second line, behind a character of two bytes. -/
theorem Template.parse_fault_second_line :
    ∃ fault, Template.parse .builtin "a\r\né\x7b% if %\x7d" = .error (.markup fault) ∧
      fault.line = 2 ∧ fault.column = 2 ∧
      ∃ snippet line, fault.snippet = some snippet ∧ snippet.PointsAt line := by
  have hp : Template.parse .builtin "a\r\né\x7b% if %\x7d" =
      .error (.markupAt "a\r\né\x7b% if %\x7d" 5 "'if' requires a condition") := by cbv
  refine ⟨_, hp, rfl, rfl, ?_⟩
  obtain ⟨d, before, after, left, right, snippet, -, -, hs, -, -, -, -, -, -, hpoints⟩ :=
    Template.parse_fault hp
  exact ⟨snippet, _, hs, hpoints.2 (by decide)⟩

/-! ## Past four digits -/

theorem Markup.splitOpening_newlines (n : Nat) (s : List Char) :
    splitOpening (List.replicate n '\n' ++ '{' :: '{' :: s) =
      some (List.replicate n '\n', .output, s) := by
  induction n with
  | zero => rfl
  | succ n ih =>
    rw [List.replicate_succ, List.cons_append, splitOpening, ih]
    · rfl
    all_goals simp

theorem Text.advance_newlines (line n : Nat) (c : Char) (s : List Char) :
    advance line 1 (List.replicate n '\n' ++ c :: s) (byteLength (List.replicate n '\n')) =
      (line + n, 1) := by
  induction n generalizing line with
  | zero => exact if_pos (utf8Size_pos c)
  | succ n ih =>
    rw [List.replicate_succ, List.cons_append, advance, byteLength_cons, if_neg (by omega), if_pos rfl,
      Nat.add_sub_cancel_left, ih]
    congr 1
    omega

/-- An output that nothing closes, behind `n` line ends. -/
def unclosedBehind (n : Nat) : String := String.ofList (List.replicate n '\n' ++ ['{', '{'])

theorem Template.parse_unclosedBehind (n : Nat) :
    Template.parse .builtin (unclosedBehind n) =
      .error (.markupAt (unclosedBehind n) (Text.byteLength (List.replicate n '\n'))
        "'\x7b\x7b' was never closed") := by
  have hlex : Markup.lex (unclosedBehind n) = .error (.markupAt (unclosedBehind n)
      (Text.byteLength (List.replicate n '\n')) "'\x7b\x7b' was never closed") := by
    rw [Markup.lex, lexFrom]
    split
    · rename_i h
      rw [unclosedBehind, String.toList_ofList, splitOpening_newlines] at h
      cases h
    · rename_i h
      rw [unclosedBehind, String.toList_ofList, splitOpening_newlines] at h
      cases h
      dsimp only
      split
      · rw [Nat.zero_add]
        rfl
      · rename_i h
        cases h
  unfold Template.parse
  rw [hlex]
  rfl

/-- In line 10000 the caret stands beside its column: the number takes five columns, and the caret
row leaves four. -/
theorem Template.parse_fault_misses :
    ∃ fault snippet, Template.parse .builtin (unclosedBehind 9999) = .error (.markup fault) ∧
      (fault.line, fault.column) = (10000, 1) ∧ fault.snippet = some snippet ∧
      ∀ line, ¬ snippet.PointsAt line := by
  have hsource : (unclosedBehind 9999).toList = List.replicate 9999 '\n' ++ '{' :: ['{'] :=
    String.toList_ofList
  have hplace : Text.lineColumn (unclosedBehind 9999).toList
      (Text.byteLength (List.replicate 9999 '\n')) = (10000, 1) := by
    rw [hsource, Text.lineColumn, Text.advance_newlines]
  have hopens : Opens (unclosedBehind 9999).toList .output
      (Text.byteLength (List.replicate 9999 '\n')) :=
    ⟨List.replicate 9999 '\n', [], by rw [hsource, List.append_nil]; rfl, rfl⟩
  obtain ⟨k, left, right, hat, hline⟩ := hopens.line
  obtain ⟨hk, hleft⟩ := Prod.mk.inj (hat.symm.trans hplace)
  obtain rfl : k = 9999 := by omega
  have hparse := Template.parse_unclosedBehind 9999
  rw [Error.markupAt, hplace] at hparse
  exact ⟨_, _, hparse, rfl, rfl, fun line hpoints =>
    absurd (Snippet.pointsAt_around hline (Nat.le_refl 1) hpoints) (by decide)⟩

end Stencil
