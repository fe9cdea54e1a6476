import Stencil.Proofs.Markup.Cutting

/-!
# Sources one behind another

Two sources that lex are lexed in one as they are apart, if no delimiter is made of the end of the
first and the start of the second, and none next to the seam trims across it. Only texts on both sides
of the seam become one.
-/

namespace Stencil.Markup

/-! ## Searches -/

/-- A character that starts no delimiter starts none either if the text behind it goes on. -/
theorem starts_none_append {c : Char} {s : List Char} (ho : ∀ r, c = '{' → s = '{' :: r → False)
    (ht : ∀ r, c = '{' → s = '%' :: r → False) (hs : c = '{' → s ≠ []) {t : List Char} :
    c = '{' → (s ++ t).head? ≠ some '{' ∧ (s ++ t).head? ≠ some '%' := by
  intro hc
  obtain ⟨d, s, rfl⟩ := List.exists_cons_of_ne_nil (hs hc)
  refine ⟨fun hd => ho s hc ?_, fun hd => ht s hc ?_⟩
  · rw [Option.some.inj hd]
  · rw [Option.some.inj hd]

theorem splitOpening_append_of_some {s text rest : List Char} {d : Delimiter}
    (h : splitOpening s = some (text, d, rest)) (t : List Char) :
    splitOpening (s ++ t) = some (text, d, rest ++ t) := by
  fun_induction splitOpening s generalizing text with
  | case1 => cases h
  | case2 | case3 =>
    cases h
    rfl
  | case4 c s ho ht ih =>
    obtain ⟨⟨x, d', r⟩, hs, e⟩ := Option.map_eq_some_iff.1 h
    cases e
    have hn : s ≠ [] := by
      rintro rfl
      cases hs
    have hstart := starts_none_append ho ht (fun _ => hn) (t := t)
    rw [List.cons_append, splitOpening_cons hstart, ih hs, Option.map_some]

/-- No delimiter is found across the end of a text that does not end in a brace. -/
theorem splitOpening_append_of_none {s : List Char} (h : splitOpening s = none)
    (hs : s.getLast? ≠ some '{') (t : List Char) :
    splitOpening (s ++ t) = (splitOpening t).map fun (text, d, rest) => (s ++ text, d, rest) := by
  fun_induction splitOpening s with
  | case1 => simp
  | case2 | case3 => cases h
  | case4 c s ho ht ih =>
    have hn : splitOpening s = none := Option.map_eq_none_iff.1 h
    have hc : c = '{' → s ≠ [] := by
      rintro rfl rfl
      exact hs rfl
    have hl : s.getLast? ≠ some '{' := fun e => hs (by rw [List.getLast?_cons, e]; rfl)
    have hstart := starts_none_append ho ht hc (t := t)
    rw [List.cons_append, splitOpening_cons hstart, ih hn hl, Option.map_map]
    rfl

theorem splitClosing_append_of_some {close : Char × Char} {quote : Option Char}
    {s inner rest : List Char} (h : splitClosing close quote s = some (inner, rest)) (t : List Char) :
    splitClosing close quote (s ++ t) = some (inner, rest ++ t) := by
  fun_induction splitClosing close quote s generalizing inner with
  | case1 | case2 => cases h
  | case3 q d s ih =>
    obtain ⟨⟨x, r⟩, hs, e⟩ := Option.map_eq_some_iff.1 h
    cases e
    simp [splitClosing, ih hs]
  | case4 c s q hb ih =>
    obtain ⟨⟨x, r⟩, hs, e⟩ := Option.map_eq_some_iff.1 h
    cases e
    rw [List.cons_append, splitClosing.eq_def]
    simp only [if_neg hb, ih hs, Option.map_some]
  | case5 c s hq ih =>
    obtain ⟨⟨x, r⟩, hs, e⟩ := Option.map_eq_some_iff.1 h
    cases e
    rw [List.cons_append, splitClosing.eq_def]
    simp only [if_pos hq, ih hs, Option.map_some]
  | case6 c s hq hc =>
    cases h
    obtain ⟨s', rfl⟩ := List.head?_eq_some_iff.1 hc.2
    rw [List.cons_append, splitClosing.eq_def]
    simp [← hc.1, hq]
  | case7 c s hq hc ih =>
    obtain ⟨⟨x, r⟩, hs, e⟩ := Option.map_eq_some_iff.1 h
    cases e
    have hc' : ¬ (c = close.1 ∧ (s ++ t).head? = some close.2) := by
      cases s with
      | nil => cases hs
      | cons d s => exact hc
    rw [List.cons_append, splitClosing.eq_def]
    simp only [if_neg hq, if_neg hc', ih hs, Option.map_some]

section
variable {s rest : List Char} {c : Portion}

theorem cut?_append_of_some (h : cut? s = some (c, rest)) (t : List Char) :
    cut? (s ++ t) = some (c, rest ++ t) := by
  obtain ⟨enclosed, ho, hc⟩ := cut?_eq_some_iff.1 h
  exact cut?_eq_some_iff.2
    ⟨enclosed ++ t, splitOpening_append_of_some ho t, splitClosing_append_of_some hc t⟩

/-- The portion with more text in front. -/
def Portion.extended (s : List Char) (c : Portion) : Portion := { c with text := s ++ c.text }

theorem Portion.start_extended (c : Portion) (s : List Char) (pos : Nat) :
    (c.extended s).start pos = c.start (pos + Text.byteLength s) := by
  simp only [start, extended, Text.byteLength_append, Nat.add_assoc]

theorem Portion.stop_extended (c : Portion) (s : List Char) (pos : Nat) :
    (c.extended s).stop pos = c.stop (pos + Text.byteLength s) := by
  rw [stop, c.start_extended]
  rfl

/-- The first portion behind a text without delimiters takes the text in. -/
theorem cut?_append_of_none (h : splitOpening s = none) (hs : s.getLast? ≠ some '{') {t : List Char}
    (ht : cut? t = some (c, rest)) :
    cut? (s ++ t) = some (c.extended s, rest) := by
  obtain ⟨enclosed, ho, hc⟩ := cut?_eq_some_iff.1 ht
  refine cut?_eq_some_iff.2 ⟨enclosed, ?_, hc⟩
  rw [splitOpening_append_of_none h hs, ho]
  rfl

theorem cut?_suffix (h : cut? s = some (c, rest)) : rest <:+ s := by
  obtain ⟨enclosed, ho, hc⟩ := cut?_eq_some_iff.1 h
  rw [splitOpening_eq ho, splitClosing_eq hc]
  exact (List.suffix_append _ _).trans (List.suffix_append _ _)

end

/-- How a raw body is trimmed shows at the start of the tag that ends it. -/
theorem rawBody_append (trimStart : Bool) (body : List Char) {inside : List Char} (h : inside ≠ [])
    (t : List Char) : rawBody trimStart body ('{' :: '%' :: (inside ++ t)) =
      rawBody trimStart body ('{' :: '%' :: inside) := by
  obtain ⟨d, inside, rfl⟩ := List.exists_cons_of_ne_nil h
  rfl

/-- A tag that is lexed is closed. -/
theorem Cuts.percent_mem {pos : Nat} {trimStart : Bool} {inside : List Char} {lexemes : List Lexeme}
    (h : Cuts pos trimStart ('{' :: '%' :: inside) lexemes) : '%' ∈ inside := by
  have closed {c : Portion} {rest : List Char} (hc : cut? ('{' :: '%' :: inside) = some (c, rest)) :
      '%' ∈ inside := by
    obtain ⟨text, d, marked⟩ := c
    obtain ⟨enclosed, ho, hc⟩ := cut?_eq_some_iff.1 hc
    cases show some ([], Delimiter.tag, inside) = _ from ho
    rw [splitClosing_eq hc]
    simp [Delimiter.closing]
  cases h with
  | last h => cases h
  | next h | raw h => exact closed h

/-! ## Lexemes -/

/-- `c` is made of `a` and then of `b`, or two texts next to the seam became one. -/
inductive Joins {α : Type} (text : String → α) : List α → List α → List α → Prop where
  | apart (a b : List α) : Joins text a b (a ++ b)
  | texts (a b : List α) (s t : String) :
    Joins text (a ++ [text s]) (text t :: b) (a ++ text (s ++ t) :: b)

theorem Joins.behind {α : Type} {text : String → α} {a b c : List α} (h : Joins text a b c)
    (front : List α) : Joins text (front ++ a) b (front ++ c) := by
  cases h with
  | apart =>
    rw [← List.append_assoc]
    exact .apart ..
  | texts =>
    rw [← List.append_assoc, ← List.append_assoc]
    exact .texts ..

theorem textLexeme_untrimmed (s : List Char) :
    textLexeme false false s = if s = [] then [] else [.text (String.ofList s)] := by
  simp [textLexeme]

/-- The text next to the seam is one, if there is any on either side. -/
theorem joins_textLexeme (s t : List Char) (more : List Lexeme) :
    Joins .text (textLexeme false false s) (textLexeme false false t ++ more)
      (textLexeme false false (s ++ t) ++ more) := by
  simp only [textLexeme_untrimmed, List.append_eq_nil_iff]
  by_cases hs : s = []
  · have h : Joins Lexeme.text [] ((if t = [] then [] else [.text (String.ofList t)]) ++ more) _ :=
      .apart ..
    simpa [hs] using h
  · by_cases ht : t = []
    · have h : Joins Lexeme.text [.text (String.ofList s)] more _ := .apart ..
      simpa [hs, ht] using h
    · have h : Joins Lexeme.text ([] ++ [.text (String.ofList s)])
          (.text (String.ofList t) :: more) _ := .texts ..
      simpa [hs, ht] using h

/-- A text takes the first portion's text in if that one is not trimmed. -/
theorem joins_lexemes {c : Portion} (h : c.left = false) (s : List Char) (pos : Nat)
    (more : List Lexeme) :
    Joins .text (textLexeme false false s) (c.lexemes (pos + Text.byteLength s) false ++ more)
      ((c.extended s).lexemes pos false ++ more) := by
  have h' : (c.extended s).left = false := h
  rw [Portion.lexemes, Portion.lexemes, h, h', c.start_extended, List.append_assoc, List.append_assoc]
  exact joins_textLexeme s c.text _

section
variable {pos : Nat} {trimStart : Bool} {s t : List Char} {a b : List Lexeme}

/-- A text without delimiters before a source that does not trim it. -/
theorem Cuts.behind_text (hb : Cuts (pos + Text.byteLength s) false t b) (hs : splitOpening s = none)
    (hl : s.getLast? ≠ some '{') (hfirst : ∀ m ∈ (markers t).head?, m.1 = false) :
    ∃ c, Joins .text (textLexeme false false s) b c ∧ Cuts pos false (s ++ t) c := by
  have unmarked {rest : List Char} {c : Portion} (ht : cut? t = some (c, rest)) : c.left = false :=
    hfirst (c.left, c.right) (by rw [markers_of_some ht]; rfl)
  cases hb with
  | last ht =>
    refine ⟨_, by simpa using joins_textLexeme s t [], .last ?_⟩
    rw [splitOpening_append_of_none hs hl, ht]
    rfl
  | next ht hn hr hm =>
    rw [← Portion.stop_extended] at hm
    exact ⟨_, joins_lexemes (unmarked ht) s pos _, .next (cut?_append_of_none hs hl ht) hn hr hm⟩
  | raw ht hr he hm =>
    rw [← Portion.stop_extended] at hm
    exact ⟨_, joins_lexemes (unmarked ht) s pos _, .raw (cut?_append_of_none hs hl ht) hr he hm⟩

theorem getLast?_of_suffix {s t : List Char} {c : Char} (h : t <:+ s) (ht : t.getLast? = some c) :
    s.getLast? = some c := by
  obtain ⟨front, rfl⟩ := h
  rw [List.getLast?_append, ht]
  rfl

/-- The last marker of a source is that of its first portion only if none follows. -/
theorem elim_getLast?_cons (m : Bool × Bool) (ms : List (Bool × Bool)) (trimStart : Bool) :
    (m :: ms).getLast?.elim trimStart Prod.snd = ms.getLast?.elim m.2 Prod.snd := by
  rw [List.getLast?_cons]
  cases ms.getLast? <;> rfl

/-- **Sources that are joined.** -/
theorem Cuts.append (ha : Cuts pos trimStart s a) (hb : Cuts 0 false t b)
    (hl : s.getLast? ≠ some '{') (hlast : ((markers s).getLast?.elim trimStart Prod.snd) = false)
    (hfirst : ∀ m ∈ (markers t).head?, m.1 = false) :
    ∃ n c, Joins .text a (b.map (moved n)) c ∧ Cuts pos trimStart (s ++ t) c := by
  induction ha with
  | @last pos trimStart s h =>
    have hc : cut? s = none := by simp [cut?, h]
    rw [markers_of_none hc] at hlast
    cases hlast
    obtain ⟨c, hj, hc⟩ := (hb.further (pos + Text.byteLength s)).behind_text h hl hfirst
    exact ⟨_, c, hj, hc⟩
  | @next pos _ s rest c _ h hn hr hm ih =>
    rw [markers_of_some h, elim_getLast?_cons, Portion.behind, if_neg hr] at hlast
    obtain ⟨n, joined, hj, hc⟩ := ih (fun e => hl (getLast?_of_suffix (cut?_suffix h) e)) hlast
    exact ⟨n, _, hj.behind _, .next (cut?_append_of_some h t) hn hr hc⟩
  | @raw pos trimStart s rest body rest' c _ h hr he hm ih =>
    obtain ⟨inside, rfl, -⟩ := splitEndRaw_ends he
    have hi : '%' ∈ inside := hm.percent_mem
    have hlast' : (markers ('{' :: '%' :: inside)).getLast?.elim false Prod.snd = false := by
      rw [markers_of_some h, elim_getLast?_cons, Portion.behind, if_pos hr, he] at hlast
      cases hg : (markers ('{' :: '%' :: inside)).getLast? with
      | none => rfl
      | some m => simpa [hg] using hlast
    have hsuffix : '{' :: '%' :: inside <:+ s :=
      (splitEndRaw_eq he ▸ List.suffix_append body _).trans (cut?_suffix h)
    obtain ⟨n, joined, hj, hc⟩ := ih (fun e => hl (getLast?_of_suffix hsuffix e)) hlast'
    refine ⟨n, _, (hj.behind [.text _]).behind (c.lexemes pos trimStart), ?_⟩
    have hcuts : Cuts pos trimStart (s ++ t) _ :=
      .raw (cut?_append_of_some h t) hr (splitEndRaw_append he hi t) hc
    rw [rawBody_append c.right body (List.ne_nil_of_mem hi) t] at hcuts
    exact hcuts

end

end Stencil.Markup
