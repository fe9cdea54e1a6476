import Stencil.Proofs.Expression.Words
import Stencil.Proofs.Markup.Spelling

/-!
# Lexemes behind a `raw` tag

The lexer takes the body of a `raw` tag for one text and goes on at the tag that ends it. That tag is
found by a search of its own, which looks at the source and not at lexemes; but where the lexer reads
a tag there, it is an `endraw` tag.
-/

namespace Stencil.Markup

open Scanner (Breaks span_iff trimStart_append)

def endraw : List Char := ['e', 'n', 'd', 'r', 'a', 'w']

/-! ## The end of a raw body -/

/-- A tag that ends a raw body reads `endraw` behind dashes and then blanks. -/
theorem endsRaw_iff {s : List Char} : endsRaw s = true ↔
    ∃ dashes blanks more, s = dashes ++ (blanks ++ (endraw ++ more)) ∧ (∀ c ∈ dashes, c = '-') ∧
      (∀ c ∈ blanks, Text.isBlank c = true) ∧ Breaks Text.isWordChar more := by
  constructor
  · intro h
    obtain ⟨hp, hw⟩ := Bool.and_eq_true_iff.1 h
    obtain ⟨blanks, e, hb⟩ := Text.trimStart_eq (s.dropWhile (· == '-'))
    obtain ⟨more, em⟩ := List.isPrefixOf_iff_prefix.1 hp
    rw [← em] at e hw
    obtain ⟨es, hd, -⟩ := span_iff.1 ⟨rfl, e⟩
    exact ⟨_, blanks, more, es, fun c hc => by simpa using hd c hc, hb, by simpa [Breaks] using hw⟩
  · rintro ⟨dashes, blanks, more, rfl, hd, hb, hm⟩
    have hword : Breaks (· == '-') (blanks ++ (endraw ++ more)) := by
      cases blanks with
      | nil => rfl
      | cons c blanks =>
        have hc : c ≠ '-' := by
          rintro rfl
          cases hb '-' List.mem_cons_self
        simpa [Breaks] using hc
    have hs : (dashes ++ (blanks ++ (endraw ++ more))).dropWhile (· == '-') =
        blanks ++ (endraw ++ more) := (span_iff.2 ⟨rfl, fun c hc => by simpa using hd c hc, hword⟩).2
    simp only [endsRaw, hs, trimStart_append hb (rfl : Breaks Text.isBlank (endraw ++ more))]
    simpa [endraw, Breaks] using hm

/-- The character is no dash, no blank and no part of a word. -/
def Parting (c : Char) : Prop := c ≠ '-' ∧ Text.isBlank c = false ∧ Text.isWordChar c = false

instance (c : Char) : Decidable (Parting c) := inferInstanceAs (Decidable (_ ∧ _))

/-- Whether a raw body ends shows in front of any such character. -/
theorem endsRaw_append {c : Char} (hc : Parting c) (s t : List Char) :
    endsRaw (s ++ c :: t) = endsRaw s := by
  rw [Bool.eq_iff_iff, endsRaw_iff, endsRaw_iff]
  constructor
  · rintro ⟨dashes, blanks, more, e, hd, hb, hm⟩
    rw [← List.append_assoc, ← List.append_assoc] at e
    rcases List.append_eq_append_iff.1 e with ⟨x, hx, hy⟩ | ⟨x, hx, hy⟩
    · cases x with
      | nil => exact ⟨dashes, blanks, [], by simpa using hx.symm, hd, hb, rfl⟩
      | cons d x =>
        obtain ⟨rfl, -⟩ := List.cons.inj hy
        have hmem : c ∈ dashes ++ blanks ++ endraw := by simp [hx]
        have hword : ∀ c ∈ endraw, Text.isWordChar c = true := List.all_eq_true.1 (by decide)
        rcases List.mem_append.1 hmem with h | h
        · rcases List.mem_append.1 h with h | h
          · exact absurd (hd c h) hc.1
          · cases hc.2.1.symm.trans (hb c h)
        · cases hc.2.2.symm.trans (hword c h)
    · subst hy
      exact ⟨dashes, blanks, x, by simp [hx], hd, hb, hm.of_append⟩
  · rintro ⟨dashes, blanks, more, rfl, hd, hb, hm⟩
    refine ⟨dashes, blanks, more ++ c :: t, by simp, hd, hb, ?_⟩
    cases more with
    | nil => exact hc.2.2
    | cons => exact hm

theorem endsRaw_congr {c : Char} (hc : Parting c) (s t t' : List Char) :
    endsRaw (s ++ c :: t) = endsRaw (s ++ c :: t') :=
  (endsRaw_append hc s t).trans (endsRaw_append hc s t').symm

/-- A character that starts no tag starts none either if the text behind it goes on. -/
theorem starts_no_tag_append {c : Char} {s t : List Char} (hs : ∀ r, c = '{' → s = '%' :: r → False)
    (ht : s = [] → t.head? ≠ some '%') : c = '{' → (s ++ t).head? ≠ some '%' := by
  intro hc
  cases s with
  | nil => exact ht rfl
  | cons d s =>
    intro hd
    obtain rfl : d = '%' := Option.some.inj hd
    exact hs s hc rfl

/-- The search for the end of a raw body goes over a character that starts no tag. -/
theorem splitEndRaw_cons {c : Char} {s : List Char} (h : c = '{' → s.head? ≠ some '%') :
    splitEndRaw (c :: s) = (splitEndRaw s).map fun (body, rest) => (c :: body, rest) := by
  rw [splitEndRaw.eq_def]
  split
  · cases ‹_ = []›
  · rename_i e
    cases e
    exact absurd rfl (h rfl)
  · rename_i e
    cases e
    rfl

/-- Where a raw body ends does not depend on what follows the tag that ends it. -/
theorem splitEndRaw_append {s body inside : List Char}
    (h : splitEndRaw s = some (body, '{' :: '%' :: inside)) (hi : '%' ∈ inside) (t : List Char) :
    splitEndRaw (s ++ t) = some (body, '{' :: '%' :: (inside ++ t)) := by
  fun_induction splitEndRaw s generalizing body with
  | case1 => cases h
  | case2 s hs =>
    cases h
    obtain ⟨u, v, rfl⟩ := List.append_of_mem hi
    have hs' : endsRaw (u ++ '%' :: v ++ t) = true := by
      rw [List.append_assoc, List.cons_append, endsRaw_congr (by decide) u _ v]
      exact hs
    simp only [List.cons_append, splitEndRaw, if_pos hs']
  | case3 s hs ih =>
    obtain ⟨⟨b, r⟩, hb, e⟩ := Option.map_eq_some_iff.1 h
    cases e
    have hs' : ¬ endsRaw (s ++ t) = true := by
      rw [splitEndRaw_eq hb] at hs ⊢
      rw [List.append_assoc, List.cons_append, endsRaw_congr (by decide) b _ ('%' :: inside)]
      exact hs
    simp only [List.cons_append, splitEndRaw, if_neg hs', ih hb, Option.map_some]
  | case4 c s hn ih =>
    obtain ⟨⟨b, r⟩, hb, e⟩ := Option.map_eq_some_iff.1 h
    cases e
    have hne : s ≠ [] := by
      rintro rfl
      cases hb
    have hc := starts_no_tag_append hn (t := t) fun e => absurd e hne
    rw [List.cons_append, splitEndRaw_cons hc, ih hb, Option.map_some]

/-! ## The name of the tag -/

/-- The word `endraw` behind dashes and blanks. -/
def EndrawWord (s : List Char) : Prop :=
  ∃ front more, s = front ++ (endraw ++ more) ∧ (∀ c ∈ front, c = '-' ∨ Text.isBlank c = true) ∧
    Breaks Text.isWordChar more

theorem endrawWord_of_endsRaw {s : List Char} (h : endsRaw s = true) : EndrawWord s := by
  obtain ⟨dashes, blanks, more, rfl, hd, hb, hm⟩ := endsRaw_iff.1 h
  refine ⟨dashes ++ blanks, more, (List.append_assoc ..).symm, fun c hc => ?_, hm⟩
  exact (List.mem_append.1 hc).imp (hd c) (hb c)

theorem splitEndRaw_ends {s body rest : List Char} (h : splitEndRaw s = some (body, rest)) :
    ∃ inside, rest = '{' :: '%' :: inside ∧ EndrawWord inside := by
  fun_induction splitEndRaw s generalizing body rest with
  | case1 => cases h
  | case2 s hs =>
    cases h
    exact ⟨s, rfl, endrawWord_of_endsRaw hs⟩
  | case3 | case4 =>
    rename_i ih
    obtain ⟨⟨b, r⟩, hb, e⟩ := Option.map_eq_some_iff.1 h
    cases e
    exact ih hb

namespace EndrawWord

variable {s : List Char}

/-- A left marker belongs to what stands before the word. -/
theorem tail (h : EndrawWord s) (hs : s.head? = some '-') : EndrawWord s.tail := by
  obtain ⟨front, more, rfl, hf, hm⟩ := h
  cases front with
  | nil => cases hs
  | cons c front => exact ⟨front, more, rfl, fun d hd => hf d (List.mem_cons_of_mem c hd), hm⟩

/-- A right marker belongs to what follows the word. -/
theorem dropLast (h : EndrawWord s) (hs : s.getLast? = some '-') : EndrawWord s.dropLast := by
  obtain ⟨front, more, rfl, hf, hm⟩ := h
  rcases List.eq_nil_or_concat more with rfl | ⟨more, c, rfl⟩
  · rw [List.append_nil, List.getLast?_append] at hs
    cases hs
  · rw [List.concat_eq_append] at hm ⊢
    refine ⟨front, more, ?_, hf, hm.of_append⟩
    rw [← List.append_assoc, ← List.append_assoc, List.dropLast_concat, List.append_assoc]

theorem splitMarkers (h : EndrawWord s) : EndrawWord (Markup.splitMarkers s).2.1 := by
  have hl : EndrawWord (if s.head? = some '-' then s.tail else s) := by
    split
    · exact h.tail ‹_›
    · exact h
  simp only [Markup.splitMarkers]
  generalize (if s.head? = some '-' then s.tail else s) = body at hl
  split
  · exact hl.dropLast ‹_›
  · exact hl

/-- The inside of a tag that reads so is named `endraw`, if it has a name. -/
theorem name {offset : Nat} {t : TagToken} (h : EndrawWord s) (ht : tagToken? s offset = some t) :
    t.name = "endraw" := by
  obtain ⟨front, more, rfl, hf, hm⟩ := h
  have hw : Text.trimEnd endraw = endraw := by decide
  obtain ⟨blanks, e, hb⟩ := Text.trimStart_eq front
  cases hd : Text.trimStart front with
  | nil =>
    rw [hd, List.append_nil] at e
    subst e
    have htrim : Text.trim (front ++ (endraw ++ more)) = endraw ++ Text.trimEnd more := by
      rw [Text.trim, trimStart_append hb (rfl : Breaks Text.isBlank (endraw ++ more)),
        Text.trimEnd_append hw]
    have hbreaks : Breaks Text.isWordChar (Text.trimEnd more) := by
      obtain ⟨b, e, -⟩ := Text.trimEnd_eq more
      rw [e] at hm
      exact hm.of_append
    have hname : (endraw ++ Text.trimEnd more).takeWhile Text.isWordChar = endraw :=
      (span_iff.2 ⟨rfl, List.all_eq_true.1 (by decide), hbreaks⟩).1
    simp only [tagToken?, htrim, hname] at ht
    cases ht
    rfl
  | cons c dashes =>
    -- a second dash leaves no word at the start
    rw [hd] at e
    have hc : Text.isBlank c = false := by
      have := List.head?_dropWhile_not Text.isBlank front
      rw [show front.dropWhile Text.isBlank = c :: dashes from hd] at this
      simpa using this
    obtain rfl : c = '-' := by
      rcases hf c (by simp [e]) with h | h
      · exact h
      · cases hc.symm.trans h
    have htrim : Text.trim (front ++ (endraw ++ more)) =
        '-' :: Text.trimEnd (dashes ++ (endraw ++ more)) := by
      have hdash : Breaks Text.isBlank ('-' :: dashes ++ (endraw ++ more)) := rfl
      rw [Text.trim, e, List.append_assoc, trimStart_append hb hdash]
      exact Text.trimEnd_append (s := ['-']) (by decide) _
    simp [tagToken?, htrim, show Text.isWordChar '-' = false from rfl] at ht

/-- No quote stands before the word, so the tag closes behind it. -/
theorem splitClosing {inner rest : List Char} (h : EndrawWord s)
    (hc : Markup.splitClosing Delimiter.tag.closing none s = some (inner, rest)) :
    EndrawWord inner := by
  obtain ⟨front, more, rfl, hf, hm⟩ := h
  have hword : Free Delimiter.tag.closing endraw := by decide
  have hfree : Free Delimiter.tag.closing (front ++ endraw) := by
    intro c hc
    rcases List.mem_append.1 hc with hc | hc
    · rcases hf c hc with rfl | hb
      · decide
      · exact ⟨quoteless_isBlank.isQuote hb, by rintro rfl; cases hb⟩
    · exact hword c hc
  rw [← List.append_assoc, Passed.of_free hfree more] at hc
  obtain ⟨⟨inner', rest'⟩, hc', e⟩ := Option.map_eq_some_iff.1 hc
  cases e
  rw [splitClosing_eq hc', List.append_assoc] at hm
  exact ⟨front, inner', List.append_assoc .., hf, hm.of_append⟩

end EndrawWord

/-! ## The lexemes -/

/-- Behind every `raw` tag stand a text and the tag that ends it. -/
def RawEnded (s : List Lexeme) : Prop :=
  ∀ t rest, .tag t :: rest <:+ s → t.name = "raw" →
    ∃ text close more, rest = .text text :: .tag close :: more ∧ close.name = "endraw"

namespace RawEnded

variable {s t : List Lexeme}

theorem suffix (h : RawEnded s) (ht : t <:+ s) : RawEnded t :=
  fun tag rest hs => h tag rest (hs.trans ht)

theorem nil : RawEnded [] := by
  intro t rest hs
  cases List.suffix_nil.1 hs

theorem cons {l : Lexeme} (hl : ∀ t, l = .tag t → t.name = "raw" →
    ∃ text close more, s = .text text :: .tag close :: more ∧ close.name = "endraw")
    (h : RawEnded s) : RawEnded (l :: s) := by
  intro t rest hs
  rcases List.suffix_cons_iff.1 hs with e | hs
  · cases e
    exact hl t rfl
  · exact h t rest hs

theorem textLexeme_append (h : RawEnded s) (trimStart trimEnd : Bool) (text : List Char) :
    RawEnded (textLexeme trimStart trimEnd text ++ s) := by
  rw [textLexeme]
  generalize (if trimEnd = true then _ else _ : List Char) = trimmed
  split
  · exact h
  · exact h.cons fun t e => by cases e

end RawEnded

/-- Where a raw text ends, the lexer reads the tag that ends it. -/
theorem lexFrom_endraw {source : String} {pos : Nat} {trimNext : Bool} {s inside : List Char}
    {lexemes : List Lexeme} (ho : splitOpening s = some ([], .tag, inside))
    (hw : EndrawWord inside) (h : lexFrom source pos trimNext s = .ok lexemes) :
    ∃ close more, lexemes = .tag close :: more ∧ close.name = "endraw" := by
  fun_induction lexFrom source pos trimNext s with
  | case1 pos trimNext s ho' => cases ho.symm.trans ho'
  | case2 => cases h
  | case3 pos trimNext s text s1 start inner s2 left body right hm before after ho' =>
    cases ho.symm.trans ho'
  | case4 | case5 => cases h
  | case6 pos trimNext s text s1 start inner s2 left body right hm before after ho' hc t ht hn =>
    cases ho.symm.trans ho'
    have hword := (hw.splitClosing hc).splitMarkers
    rw [hm] at hword
    have hname := hword.name ht
    exact absurd (hn.symm.trans hname) (by decide)
  | case7 pos trimNext s text s1 start inner s2 left body right hm before after ho' hc t ht =>
    cases ho.symm.trans ho'
    have hword := (hw.splitClosing hc).splitMarkers
    rw [hm] at hword
    obtain ⟨more, -, e⟩ := ok_of_bind h
    cases e
    exact ⟨t, more, by simp [before], hword.name ht⟩

theorem lexFrom_rawEnded {source : String} {pos : Nat} {trimNext : Bool} {s : List Char}
    {lexemes : List Lexeme} (h : lexFrom source pos trimNext s = .ok lexemes) : RawEnded lexemes := by
  fun_induction lexFrom source pos trimNext s generalizing lexemes with
  | case1 =>
    cases h
    simpa using RawEnded.nil.textLexeme_append _ _ _
  | case2 | case4 | case5 => cases h
  | case3 =>
    rename_i ih
    obtain ⟨rest, hr, e⟩ := ok_of_bind h
    cases e
    exact ((ih hr).cons fun t e => by cases e).textLexeme_append _ _ _
  | case6 pos trimNext s text s1 start inner s2 left body right hm before after ho hc t ht hn raw
      s3 hraw =>
    rename_i ih
    obtain ⟨rest, hr, e⟩ := ok_of_bind h
    cases e
    obtain ⟨inside, rfl, hw⟩ := splitEndRaw_ends hraw
    have hrest := ih hr
    obtain ⟨close, more, rfl, hend⟩ := lexFrom_endraw rfl hw hr
    refine RawEnded.textLexeme_append (.cons (fun _ _ _ => ⟨_, close, more, rfl, hend⟩)
      (.cons (fun t e => ?_) hrest)) _ _ _
    cases e
  | case7 pos trimNext s text s1 start inner s2 left body right hm before after ho hc t ht hn =>
    rename_i ih
    obtain ⟨rest, hr, e⟩ := ok_of_bind h
    cases e
    refine RawEnded.textLexeme_append ((ih hr).cons fun t' e => ?_) _ _ _
    cases e
    exact fun hraw => absurd hraw hn

/-- Behind every `raw` tag of a source stand its text and the tag that ends it. -/
theorem lex_rawEnded {source : String} {lexemes : List Lexeme} (h : lex source = .ok lexemes) :
    RawEnded lexemes :=
  lexFrom_rawEnded h

end Stencil.Markup
