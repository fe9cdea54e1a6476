import Mathlib.Data.List.Basic
import Stencil.Source.Path

/-!
# Normal paths

What `Path.normalize` leaves of a path: names, with at most one step to the parent, in front of them.
Such a path is read back from its text.
-/

namespace Stencil

namespace Text

variable {c : Char} {s : List Char}

theorem piecesFrom_single (current : List Char) :
    piecesFrom [c] 0 current s = s.splitOnPPrepend (· == c) current := by
  induction s generalizing current with
  | nil => simp [piecesFrom]
  | cons x s ih =>
    rw [piecesFrom, List.splitOnPPrepend_cons_eq_if, ← List.splitOnPPrepend_nil_right]
    by_cases hx : x = c
    · simp [hx, ih]
    · simp [hx, ih, Ne.symm hx]

theorem pieces_single : pieces [c] s = s.splitOn c := by
  rw [pieces, piecesFrom_single, List.splitOnPPrepend_nil_right, List.splitOn_eq_splitOnP]

theorem pieces_append_cons (s t : List Char) :
    pieces [c] (s ++ c :: t) = pieces [c] s ++ pieces [c] t := by
  simp only [pieces_single, List.splitOn_eq_splitOnP]
  exact List.splitOnP_append_cons s t (beq_self_eq_true c)

theorem pieces_of_not_mem (h : c ∉ s) : pieces [c] s = [s] := by
  have hfree : ∀ piece ∈ [s], c ∉ piece := by simpa using h
  rw [pieces_single]
  simpa using List.splitOn_intercalate c hfree (by simp)

theorem not_mem_of_mem_splitOn {piece : List Char} (h : piece ∈ s.splitOn c) : c ∉ piece := by
  induction s generalizing piece with
  | nil => simp_all
  | cons x s ih =>
    rw [List.splitOn_cons_eq_if_modifyHead] at h
    split at h
    · rcases List.mem_cons.1 h with rfl | h
      · exact List.not_mem_nil
      · exact ih h
    · rename_i hx
      obtain ⟨first, others, e⟩ := List.exists_cons_of_ne_nil (List.splitOn_ne_nil c s)
      rw [e] at h ih
      rcases List.mem_cons.1 h with rfl | h
      · simpa [Ne.symm (by simpa using hx : x ≠ c)] using ih List.mem_cons_self
      · exact ih (List.mem_cons_of_mem _ h)

end Text

namespace Path

/-- The step is read back from its text. -/
def Step.Spelled (step : Step) : Prop :=
  '/' ∉ step.text.toList ∧ Step.ofChars? step.text.toList = some step

theorem Step.spelled_of_ofChars? {s : List Char} {step : Step} (hs : '/' ∉ s)
    (h : Step.ofChars? s = some step) : step.Spelled := by
  have htext : step.text.toList = s := by
    unfold Step.ofChars? at h
    split at h
    · cases h
    · split at h <;> cases h <;> simp_all [Step.text]
  exact ⟨htext ▸ hs, htext ▸ h⟩

/-- Steps as they stand in a normal path. -/
structure Normal (steps : List Step) : Prop where
  spelled : ∀ step ∈ steps, step.Spelled
  parent_first : .parent ∉ steps.tail

/-- One step more keeps a path normal. The parent comes first only where nothing stood, and what
stands in front is never taken back from the middle. -/
theorem Normal.enter {steps : List Step} {step : Step} (h : Normal steps)
    (hs : step = .current ∨ step.Spelled) : Normal (enter steps step) := by
  cases step with
  | current => exact h
  | parent =>
    simp only [Path.enter]
    split
    · exact ⟨by simp only [List.mem_singleton, forall_eq]; exact hs.resolve_left nofun, by simp⟩
    · refine ⟨fun s hm => h.spelled s (List.dropLast_subset _ hm), fun hm => h.parent_first ?_⟩
      rw [List.tail_dropLast] at hm
      exact List.dropLast_subset _ hm
  | name n =>
    refine ⟨fun s hm => ?_, fun hm => ?_⟩
    · rcases List.mem_append.1 hm with hm | hm
      · exact h.spelled s hm
      · exact List.mem_singleton.1 hm ▸ hs.resolve_left nofun
    · cases steps with
      | nil => simp [Path.enter] at hm
      | cons _ rest => exact h.parent_first (by simpa [Path.enter] using hm)

theorem Normal.follow {start steps : List Step} (h : Normal start)
    (hs : ∀ step ∈ steps, step = .current ∨ step.Spelled) : Normal (steps.foldl Path.enter start) := by
  induction steps generalizing start with
  | nil => exact h
  | cons step steps ih =>
    exact ih (h.enter (hs step List.mem_cons_self)) fun s hm => hs s (List.mem_cons_of_mem _ hm)

theorem normal_normalize {p : Path} (h : ∀ step ∈ p.steps, step = .current ∨ step.Spelled) :
    Normal p.normalize.steps :=
  Normal.follow ⟨by simp, by simp⟩ h

theorem ofString_spelled {s : String} {step : Step} (h : step ∈ (ofString s).steps) :
    step = .current ∨ step.Spelled := by
  simp only [ofString, ofChars, Text.pieces_single, List.mem_append, List.mem_filterMap] at h
  rcases h with h | ⟨piece, hp, h⟩
  · split at h <;> simp_all
  · exact .inr (Step.spelled_of_ofChars? (Text.not_mem_of_mem_splitOn hp) h)

theorem pieces_text {steps : List Step} (h : ∀ step ∈ steps, step.Spelled) (hne : steps ≠ []) :
    Text.pieces ['/'] (text ⟨true, steps⟩).toList = [] :: steps.map (·.text.toList) := by
  have htext : (text ⟨true, steps⟩).toList = '/' :: ['/'].intercalate (steps.map (·.text.toList)) := by
    simp [text, String.toList_intercalate, Function.comp_def]
  rw [htext, Text.pieces_single, List.splitOn_cons_eq_if_modifyHead, if_pos (by simp),
    List.splitOn_intercalate '/' ?_ (by simpa using hne)]
  intro piece hp
  obtain ⟨step, hm, rfl⟩ := List.mem_map.1 hp
  exact (h step hm).1

/-- An absolute path of such steps is read back from its text. -/
theorem ofString_text {steps : List Step} (h : ∀ step ∈ steps, step.Spelled) :
    ofString (text ⟨true, steps⟩) = ⟨true, steps⟩ := by
  by_cases hne : steps = []
  · subst hne
    rfl
  · have hread : (steps.map (·.text.toList)).filterMap Step.ofChars? = steps := by
      rw [List.filterMap_map]
      exact (List.filterMap_congr fun step hm => (h step hm).2).trans List.filterMap_some
    have habs : (text ⟨true, steps⟩).toList.head? = some '/' := by simp [text]
    simp [ofString, ofChars, pieces_text h hne, hread, habs, Step.ofChars?]

/-! ## Paths below another -/

theorem within_iff {p root : Path} :
    p.within root = true ↔ ∃ inner, p = ⟨root.absolute, root.steps ++ inner⟩ := by
  obtain ⟨a, steps⟩ := p
  simp only [within, Bool.and_eq_true, beq_iff_eq, List.isPrefixOf_iff_prefix, Path.mk.injEq]
  constructor
  · rintro ⟨ha, inner, hs⟩
    exact ⟨inner, ha.symm, hs.symm⟩
  · rintro ⟨inner, ha, hs⟩
    exact ⟨ha.symm, inner, hs.symm⟩

end Path

end Stencil
