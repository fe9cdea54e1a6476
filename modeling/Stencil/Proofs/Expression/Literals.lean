import Stencil.Expression.Span
import Stencil.Text.Class

/-!
# Quoted literals in a text

`Quoting` is the place of a reader that walks a text and looks out for quoted literals: outside of
one, inside one, or inside and after a backslash. A text is `Closed` if a reader that starts outside
ends outside. The readers of literals and spans agree with this walk.
-/

namespace Stencil

inductive Quoting where
  | outside
  | inside (q : Char)
  | escaped (q : Char)
  deriving DecidableEq, Repr

namespace Quoting

def next : Quoting → Char → Quoting
  | outside, c => if Span.isQuote c then inside c else outside
  | inside q, c => if c = '\\' then escaped q else if c = q then outside else inside q
  | escaped q, _ => inside q

/-- The place after a text. -/
def after (place : Quoting) (s : List Char) : Quoting := s.foldl next place

@[simp] theorem after_nil (place : Quoting) : place.after [] = place := rfl

@[simp] theorem after_cons (place : Quoting) (c : Char) (s : List Char) :
    place.after (c :: s) = (place.next c).after s := rfl

@[simp] theorem after_append (place : Quoting) (s t : List Char) :
    place.after (s ++ t) = (place.after s).after t := List.foldl_append

end Quoting

open Quoting

/-- Every literal that opens in the text is closed in it. -/
def Closed (s : List Char) : Prop := outside.after s = outside

/-- No quotes. -/
def Plain (s : List Char) : Prop := ∀ c ∈ s, Span.isQuote c = false

theorem Plain.closed {s : List Char} (h : Plain s) : Closed s := by
  induction s with
  | nil => rfl
  | cons c s ih =>
    have hc : outside.next c = outside := by simp [next, h c]
    rw [Closed, after_cons, hc]
    exact ih fun d hd => h d (List.mem_cons_of_mem _ hd)

namespace Closed

variable {s t : List Char}

theorem nil : Closed [] := rfl

theorem append_iff (h : Closed s) : Closed (s ++ t) ↔ Closed t := by
  rw [Closed, after_append, h, Closed]

theorem append (hs : Closed s) (ht : Closed t) : Closed (s ++ t) := hs.append_iff.2 ht

theorem plain_append_iff (h : Plain s) : Closed (s ++ t) ↔ Closed t := h.closed.append_iff

end Closed

namespace Quoting

/-- Inside a literal, the literal was opened by a quote. -/
def Proper : Quoting → Prop
  | outside => True
  | inside q => Span.isQuote q = true
  | escaped q => Span.isQuote q = true

theorem Proper.next {place : Quoting} (h : place.Proper) (c : Char) : (place.next c).Proper := by
  cases place with
  | outside =>
    simp only [Quoting.next]
    split
    · assumption
    · trivial
  | inside q =>
    simp only [Quoting.next]
    split
    · exact h
    · split
      · trivial
      · exact h
  | escaped q => exact h

theorem Proper.after {place : Quoting} (h : place.Proper) (s : List Char) :
    (place.after s).Proper := by
  induction s generalizing place with
  | nil => exact h
  | cons c s ih => exact ih (h.next c)

/-- Only a quote closes a literal. -/
theorem eq_outside_of_next {place : Quoting} {c : Char} (h : place.Proper)
    (hc : Span.isQuote c = false) (hn : place.next c = outside) : place = outside := by
  cases place with
  | outside => rfl
  | inside q =>
    have hq : c ≠ q := by
      rintro rfl
      simp [Proper, hc] at h
    simp only [next, if_neg hq] at hn
    split at hn <;> cases hn
  | escaped q => cases hn

/-- From inside a literal a text without quotes leads to no place outside. -/
theorem eq_outside_of_after_plain {place : Quoting} {s : List Char} (h : place.Proper)
    (hs : Plain s) (ha : place.after s = outside) : place = outside := by
  induction s generalizing place with
  | nil => exact ha
  | cons c s ih =>
    have hn : place.next c = outside :=
      ih (h.next c) (fun d hd => hs d (List.mem_cons_of_mem _ hd)) ha
    exact eq_outside_of_next h (hs c List.mem_cons_self) hn

end Quoting

/-- A text stays closed when a text without quotes is cut off its end. -/
theorem Closed.of_append_plain {s t : List Char} (ht : Plain t) (h : Closed (s ++ t)) :
    Closed s := by
  rw [Closed, after_append] at h
  have hp : outside.Proper := trivial
  exact eq_outside_of_after_plain (hp.after s) ht h

/-! ## Texts without quotes -/

/-- A class of characters that holds neither quote. -/
def Quoteless (p : Char → Bool) : Prop := p '"' = false ∧ p '\'' = false

instance (p : Char → Bool) : Decidable (Quoteless p) :=
  inferInstanceAs (Decidable (_ ∧ _))

theorem Quoteless.isQuote {p : Char → Bool} (hp : Quoteless p) {c : Char} (h : p c = true) :
    Span.isQuote c = false := by
  rw [Span.isQuote, Bool.or_eq_false_iff, beq_eq_false_iff_ne, beq_eq_false_iff_ne]
  constructor
  · rintro rfl
    rw [hp.1] at h
    cases h
  · rintro rfl
    rw [hp.2] at h
    cases h

theorem quoteless_isBlank : Quoteless Text.isBlank := by decide

theorem quoteless_isWordChar : Quoteless Text.isWordChar := by decide

theorem quoteless_startsName : Quoteless Text.startsName := by decide

theorem quoteless_continuesName : Quoteless Text.continuesName := by decide

theorem quoteless_isDigit : Quoteless Char.isDigit := by decide

namespace Plain

variable {s t : List Char}

theorem nil : Plain [] := fun _ h => nomatch h

theorem cons {c : Char} (hc : Span.isQuote c = false) (hs : Plain s) : Plain (c :: s) := by
  intro d hd
  rcases List.mem_cons.1 hd with rfl | hd
  · exact hc
  · exact hs d hd

theorem singleton {c : Char} (hc : Span.isQuote c = false) : Plain [c] := cons hc nil

theorem append (hs : Plain s) (ht : Plain t) : Plain (s ++ t) := by
  intro c hc
  rcases List.mem_append.1 hc with hc | hc
  · exact hs c hc
  · exact ht c hc

theorem of_all {p : Char → Bool} (hp : Quoteless p) (h : ∀ c ∈ s, p c = true) : Plain s :=
  fun c hc => hp.isQuote (h c hc)

theorem takeWhile {p : Char → Bool} (hp : Quoteless p) : Plain (s.takeWhile p) :=
  of_all hp fun c hc => List.all_eq_true.1 List.all_takeWhile c hc

theorem of_trim (h : Plain (Text.trim s)) : Plain s := by
  obtain ⟨b, b', e, hb, hb'⟩ := Text.trim_eq s
  rw [e]
  exact ((of_all quoteless_isBlank hb).append h).append (of_all quoteless_isBlank hb')

end Plain

/-! ## Cuts -/

/-- `text` is cut out of `whole` at two places where a reader of `whole` is outside. -/
def Cut (whole text : List Char) : Prop :=
  ∃ before after, whole = before ++ text ++ after ∧ Closed before ∧ Closed text

namespace Cut

variable {whole text s t : List Char}

theorem closed (h : Cut whole text) : Closed text := by
  obtain ⟨before, after, -, -, ht⟩ := h
  exact ht

theorem refl (h : Closed s) : Cut s s := ⟨[], [], by simp, Closed.nil, h⟩

theorem trans (h : Cut whole s) (ht : Cut s t) : Cut whole t := by
  obtain ⟨before, after, rfl, hb, -⟩ := h
  obtain ⟨before', after', rfl, hb', ht⟩ := ht
  exact ⟨before ++ before', after' ++ after, by simp, hb.append hb', ht⟩

theorem head (hs : Closed s) : Cut (s ++ t) s := ⟨[], t, by simp, Closed.nil, hs⟩

theorem behind (hs : Closed s) (h : Cut t text) : Cut (s ++ t) text := by
  obtain ⟨before, after, rfl, hb, ht⟩ := h
  exact ⟨s ++ before, after, by simp, hs.append hb, ht⟩

/-- A text is cut out by dropping texts without quotes at its ends. -/
theorem between_plain {before after : List Char} (hb : Plain before) (ha : Plain after)
    (h : Closed (before ++ text ++ after)) : Cut (before ++ text ++ after) text := by
  have ht : Closed (before ++ text) := Closed.of_append_plain ha h
  exact ⟨before, after, rfl, hb.closed, (Closed.plain_append_iff hb).1 ht⟩

theorem drop_plain (hs : Plain s) (h : Closed (s ++ t)) : Cut (s ++ t) t :=
  behind hs.closed (refl ((Closed.plain_append_iff hs).1 h))

theorem dropWhile {p : Char → Bool} (hp : Quoteless p) (h : Closed s) :
    Cut s (s.dropWhile p) := by
  have e : s.takeWhile p ++ s.dropWhile p = s := List.takeWhile_append_dropWhile
  rw [← e] at h
  have hc := drop_plain (Plain.takeWhile hp) h
  rwa [e] at hc

theorem trim (h : Closed s) : Cut s (Text.trim s) := by
  obtain ⟨b, b', e, hb, hb'⟩ := Text.trim_eq s
  rw [e] at h
  have hc := between_plain (Plain.of_all quoteless_isBlank hb) (Plain.of_all quoteless_isBlank hb') h
  rwa [← e] at hc

end Cut

end Stencil
