import Mathlib.Data.List.Basic
import Stencil.Filter.Text
import Stencil.Filter.List

/-!
# Cutting, joining and replacing

`split`, `join` and `replace` share one notion of where a text occurs: from the left, without
overlaps. `Text.Cut` states it without the walk over the text. `pieces` finds such a cut, joining the
parts of a cut gives the text back, and replacing puts the new text between the same parts.
-/

namespace Stencil

namespace Text

/-- No occurrence of `sep` starts inside `p` where `rest` follows. -/
def Clear (sep p rest : List Char) : Prop :=
  ∀ u v, p = u ++ v → v ≠ [] → ¬ sep <+: v ++ rest

/-- The parts of a text between the occurrences of `sep`, taken from the left: the next occurrence is
the first one, and the search goes on behind it. -/
inductive Cut (sep : List Char) : List Char → List (List Char) → Prop
  | last {p : List Char} (h : Clear sep p []) : Cut sep p [p]
  | next {p rest : List Char} {parts : List (List Char)} (h : Clear sep p (sep ++ rest))
      (t : Cut sep rest parts) : Cut sep (p ++ (sep ++ rest)) (p :: parts)

variable {sep s p rest : List Char} {parts : List (List Char)}

theorem clear_nil : Clear sep [] rest := by
  intro u v h hv
  exact absurd (List.append_eq_nil_iff.1 h.symm).2 hv

theorem Clear.tail {c : Char} (h : Clear sep (c :: p) rest) : Clear sep p rest := fun u v hp hv =>
  h (c :: u) v (by rw [hp, List.cons_append]) hv

theorem Clear.concat {c : Char} (h : Clear sep p (c :: rest)) (hc : ¬ sep <+: c :: rest) :
    Clear sep (p ++ [c]) rest := by
  intro u v hp hv
  obtain rfl | ⟨v, d, rfl⟩ := List.eq_nil_or_concat' v
  · exact absurd rfl hv
  rw [← List.append_assoc] at hp
  obtain ⟨rfl, hd⟩ := List.append_inj' hp rfl
  obtain rfl : c = d := by simpa using hd
  by_cases hnil : v = []
  · subst hnil
    exact hc
  · rw [List.append_assoc]
    exact h u v rfl hnil

theorem Clear.not_infix (h : Clear sep p rest) (hsep : sep ≠ []) : ¬ sep <:+: p := by
  rintro ⟨u, v, hp⟩
  refine h u (sep ++ v) (by rw [← hp, List.append_assoc]) (by simp [hsep]) ?_
  exact ⟨v ++ rest, (List.append_assoc ..).symm⟩

theorem cut_piecesFrom (hsep : sep ≠ []) (skip : Nat) (current s : List Char)
    (h : Clear sep current.reverse (s.drop skip)) :
    Cut sep (current.reverse ++ s.drop skip) (piecesFrom sep skip current s) := by
  fun_induction piecesFrom sep skip current s with
  | case1 skip current =>
    rw [List.drop_nil] at h ⊢
    rw [List.append_nil]
    exact .last h
  | case2 skip current c s ih => exact ih h
  | case3 current c s hc ih =>
    have hs : c :: s = sep ++ s.drop (sep.length - 1) := by
      obtain ⟨d, sep, rfl⟩ := List.exists_cons_of_ne_nil hsep
      obtain ⟨tail, ht⟩ := List.isPrefixOf_iff_prefix.1 hc
      obtain ⟨rfl, rfl⟩ := List.cons.inj ht
      simp
    rw [List.drop_zero, hs] at h ⊢
    exact .next h (ih clear_nil)
  | case4 current c s hc ih =>
    simp only [List.drop_zero, List.reverse_cons, List.append_assoc, List.singleton_append] at h ih ⊢
    exact ih (h.concat (mt List.isPrefixOf_iff_prefix.2 hc))

theorem cut_pieces (hsep : sep ≠ []) : Cut sep s (pieces sep s) :=
  cut_piecesFrom hsep 0 [] s clear_nil

namespace Cut

theorem ne_nil (h : Cut sep s parts) : parts ≠ [] := by
  cases h <;> exact List.cons_ne_nil _ _

theorem not_infix (h : Cut sep s parts) (hsep : sep ≠ []) : ∀ p ∈ parts, ¬ sep <:+: p := by
  induction h with
  | last h => simpa using h.not_infix hsep
  | next h t ih => exact List.forall_mem_cons.2 ⟨h.not_infix hsep, ih⟩

theorem intercalate (h : Cut sep s parts) : sep.intercalate parts = s := by
  induction h with
  | last h => exact List.intercalate_singleton
  | next h t ih => rw [List.intercalate_cons_of_ne_nil t.ne_nil, ih, List.append_assoc]

end Cut

variable {old new : List Char}

/-- A text in which no occurrence starts stays as it is. -/
theorem replaceFrom_clear (h : Clear old p rest) :
    replaceFrom old new 0 (p ++ rest) = p ++ replaceFrom old new 0 rest := by
  induction p with
  | nil => rfl
  | cons c p ih =>
    have hc : ¬ old <+: c :: (p ++ rest) := h [] (c :: p) rfl (List.cons_ne_nil _ _)
    rw [List.cons_append, replaceFrom, if_neg (mt List.isPrefixOf_iff_prefix.1 hc), ih h.tail,
      List.cons_append]

theorem replaceFrom_skip (skip : Nat) (s : List Char) :
    replaceFrom old new skip s = replaceFrom old new 0 (s.drop skip) := by
  induction skip generalizing s with
  | zero => rfl
  | succ skip ih =>
    cases s with
    | nil => rfl
    | cons c s => exact ih s

theorem replaceFrom_occurrence (hold : old ≠ []) :
    replaceFrom old new 0 (old ++ rest) = new ++ replaceFrom old new 0 rest := by
  obtain ⟨c, tail, rfl⟩ := List.exists_cons_of_ne_nil hold
  have hfound : (c :: tail).isPrefixOf (c :: (tail ++ rest)) = true :=
    List.isPrefixOf_iff_prefix.2 ⟨rest, rfl⟩
  rw [List.cons_append, replaceFrom, if_pos hfound, replaceFrom_skip]
  simp

theorem Cut.replaced (h : Cut old s parts) (hold : old ≠ []) :
    replaceFrom old new 0 s = new.intercalate parts := by
  induction h with
  | @last p h =>
    have hwhole : replaceFrom old new 0 (p ++ []) = p ++ replaceFrom old new 0 [] :=
      replaceFrom_clear h
    rw [List.append_nil] at hwhole
    rw [hwhole, List.intercalate_singleton, replaceFrom, List.append_nil]
  | next h t ih =>
    rw [replaceFrom_clear h, replaceFrom_occurrence hold, ih,
      List.intercalate_cons_of_ne_nil t.ne_nil, List.append_assoc]

theorem intercalate_chars (s : List Char) : List.intercalate [] (s.map ([·])) = s := by
  induction s with
  | nil => rfl
  | cons c s ih =>
    cases s with
    | nil => rfl
    | cons d s => exact List.intercalate_cons_cons.trans (congrArg (c :: ·) ih)

end Text

/-- The argument at `index` is given, and shows as `text`. -/
def Arguments.Shows (args : Arguments) (index : Nat) (text : String) : Prop :=
  ∃ v, args.get? index = some v ∧ v.output = text

namespace Filter

variable {args : Arguments} {index : Nat} {a b text : String} {input : Value}

theorem textArgument_of_shows (filter : String) (h : args.Shows index text) :
    textArgument filter args index = .ok text := by
  obtain ⟨v, hv, rfl⟩ := h
  rw [textArgument, hv]

theorem getD_of_shows (other : String) (h : args.Shows index text) :
    ((args.get? index).map Value.output).getD other = text := by
  obtain ⟨v, hv, rfl⟩ := h
  rw [hv]
  rfl

theorem split_of_shows (h : args.Shows 0 a) :
    split input args = .ok (.settled (.list
      ((if a.toList.isEmpty then input.output.toList.map ([·])
        else Text.pieces a.toList input.output.toList).map (.text <| String.ofList ·)))) := by
  rw [split, immediate, textArgument_of_shows _ h]
  rfl

theorem join_of_shows (parts : List String) (h : args.Shows 0 a) :
    join (.list (parts.map .text)) args = .ok (.settled (.text (a.intercalate parts))) := by
  have hparts : (parts.map Value.text).map Value.output = parts := by
    rw [List.map_map]
    exact (List.map_congr_left fun p _ => String.empty_append).trans (List.map_id parts)
  simp only [join, immediate, getD_of_shows _ h, hparts]
  rfl

theorem replace_of_shows (h : args.Shows 0 a) (hnew : args.Shows 1 b) :
    replace input args = .ok (.settled (.text
      (String.ofList (Text.replaceAll a.toList b.toList input.output.toList)))) := by
  rw [replace, immediate, textArgument_of_shows _ h, getD_of_shows _ hnew]
  rfl

/-- Cutting at `a`, joining with `a` and replacing `a` agree on where `a` stands: the parts hold no
`a`, they join to the text, and joined with `b` they are the text with `a` replaced. Where `a` is
empty the parts are the characters. -/
theorem split_join_replace (input : Value) {cutting joining replacing filling : Arguments}
    (hcut : cutting.Shows 0 a) (hjoin : joining.Shows 0 a) (hold : replacing.Shows 0 a)
    (hnew : replacing.Shows 1 b) (hfill : filling.Shows 0 b) :
    ∃ parts : List String,
      split input cutting = .ok (.settled (.list (parts.map .text))) ∧
      join (.list (parts.map .text)) joining = .ok (.settled (.text input.output)) ∧
      (a = "" → parts = input.output.toList.map String.singleton) ∧
      (a ≠ "" → (∀ part ∈ parts, ¬ a.toList <:+: part.toList) ∧
        replace input replacing = .ok (.settled (.text (b.intercalate parts))) ∧
        join (.list (parts.map .text)) filling = .ok (.settled (.text (b.intercalate parts)))) := by
  by_cases ha : a = ""
  · subst ha
    have hchars : "".intercalate (input.output.toList.map String.singleton) = input.output := by
      apply String.toList_injective
      simp [String.toList_intercalate, Function.comp_def, Text.intercalate_chars]
    refine ⟨input.output.toList.map String.singleton, ?_, ?_, fun _ => rfl, (absurd rfl ·)⟩
    · rw [split_of_shows hcut]
      simp [Function.comp_def]
    · rw [join_of_shows _ hjoin, hchars]
  · have hne : a.toList ≠ [] := by simpa using ha
    have hcutting := Text.cut_pieces (s := input.output.toList) hne
    generalize hpieces : Text.pieces a.toList input.output.toList = pieces at hcutting
    have hread : (pieces.map String.ofList).map String.toList = pieces := by
      simp [Function.comp_def]
    have hback : a.intercalate (pieces.map String.ofList) = input.output := by
      apply String.toList_injective
      rw [String.toList_intercalate, hread, hcutting.intercalate]
    have hreplaced : String.ofList (Text.replaceAll a.toList b.toList input.output.toList) =
        b.intercalate (pieces.map String.ofList) := by
      apply String.toList_injective
      rw [String.toList_intercalate, hread, String.toList_ofList, Text.replaceAll,
        if_neg (by simpa using ha), hcutting.replaced hne]
    refine ⟨pieces.map String.ofList, ?_, ?_, (absurd · ha), fun _ => ⟨?_, ?_, join_of_shows _ hfill⟩⟩
    · rw [split_of_shows hcut, if_neg (by simpa using ha), hpieces, List.map_map]
      rfl
    · rw [join_of_shows _ hjoin, hback]
    · intro part hpart
      obtain ⟨piece, hpiece, rfl⟩ := List.mem_map.1 hpart
      rw [String.toList_ofList]
      exact hcutting.not_infix hne piece hpiece
    · rw [replace_of_shows hold hnew, hreplaced]

/-- Occurrences do not overlap: the text `aaa` is cut at `aa` once, also where lists show as these
texts. -/
theorem split_join_replace_overlap :
    let at₂ : Arguments := ⟨[.list [.text "a", .text "a"], .text "b"], none⟩
    let with_b : Arguments := ⟨[.text "b"], none⟩
    (at₂.Shows 0 "aa" ∧ at₂.Shows 1 "b" ∧ with_b.Shows 0 "b") ∧
      ∃ parts : List String,
        split (.list [.text "aa", .text "a"]) at₂ = .ok (.settled (.list (parts.map .text))) ∧
        replace (.list [.text "aa", .text "a"]) at₂ =
          .ok (.settled (.text ("b".intercalate parts))) := by
  intro at₂ with_b
  have hold : at₂.Shows 0 "aa" := ⟨_, rfl, rfl⟩
  have hnew : at₂.Shows 1 "b" := ⟨_, rfl, rfl⟩
  have hfill : with_b.Shows 0 "b" := ⟨_, rfl, rfl⟩
  obtain ⟨parts, hsplit, -, -, hrest⟩ := split_join_replace (.list [.text "aa", .text "a"])
    hold hold hold hnew hfill
  exact ⟨⟨hold, hnew, hfill⟩, parts, hsplit, (hrest (by decide)).2.1⟩

end Filter

end Stencil
