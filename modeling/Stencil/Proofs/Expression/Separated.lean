import Stencil.Proofs.Expression.Spans
import Stencil.Proofs.Expression.Tokens

/-!
# Values between separators

The two sides of cutting a text at its bars or commas. A search for separators passes over a value as
if it were not there: the value is `Level`. And a value does not see past a separator: the texts that
may follow it are `Alike` if they agree up to their separators, and a value is read in front of all of
them or of none.
-/

namespace Stencil

namespace Span

/-- The characters that a search for separators looks at. -/
def marks : List Char := ['"', '\'', '[', ']', '(', ')', '|', ',']

def Separators (stops : List Char) : Prop := ∀ c ∈ stops, c = '|' ∨ c = ','

instance (stops : List Char) : Decidable (Separators stops) :=
  decidable_of_iff (stops.all (fun c => c == '|' || c == ',') = true) (by simp [Separators])

/-! ## Steps of the search -/

section
variable {stops : List Char} {depth : Nat} {c : Char} {rest : List Char}

theorem seek_literal {body rest' : List Char} (hq : isQuote c = true)
    (hl : literalEnd c rest = some (body, rest')) :
    seek stops depth (c :: rest) = seek stops depth rest' := by
  rw [seek, if_pos hq]
  split
  · rename_i hn
    cases hn.symm.trans hl
  · rename_i hs
    cases hs.symm.trans hl
    rfl

theorem seek_open (hc : c = '[' ∨ c = '(') :
    seek stops depth (c :: rest) = seek stops (depth + 1) rest := by
  have hq : isQuote c = false := by rcases hc with rfl | rfl <;> rfl
  rw [seek, if_neg (by simp [hq]), if_pos hc]

theorem seek_close (hc : c = ']' ∨ c = ')') :
    seek stops depth (c :: rest) = seek stops (depth - 1) rest := by
  have hq : isQuote c = false := by rcases hc with rfl | rfl <;> rfl
  have ho : ¬ (c = '[' ∨ c = '(') := by rcases hc with rfl | rfl <;> decide
  rw [seek, if_neg (by simp [hq]), if_neg ho, if_pos hc]

theorem seek_stop (hs : Separators [c]) : seek [c] 0 (c :: rest) = .ok (c :: rest) := by
  rw [seek]
  rcases hs c List.mem_cons_self with rfl | rfl <;> rfl

theorem seek_pass (hs : Separators stops) (hc : c ∉ marks) :
    seek stops depth (c :: rest) = seek stops depth rest := by
  simp only [marks, List.mem_cons, List.not_mem_nil, or_false, not_or] at hc
  obtain ⟨h₁, h₂, h₃, h₄, h₅, h₆, h₇, h₈⟩ := hc
  have hn : c ∉ stops := by
    intro hm
    rcases hs c hm with e | e
    · exact h₇ e
    · exact h₈ e
  rw [seek, if_neg (by simp [isQuote, h₁, h₂]), if_neg (by simp [h₃, h₅]),
    if_neg (by simp [h₄, h₆]), if_neg (fun h => hn h.2)]

end

/-! ## Level texts -/

/-- A search for separators passes over the text, at any depth. -/
def Level (text : List Char) : Prop :=
  ∀ stops, Separators stops → ∀ depth rest,
    seek stops depth (text ++ rest) = seek stops depth rest

/-- A class of characters that holds no mark. -/
def Markless (p : Char → Bool) : Prop := ∀ c ∈ marks, p c = false

instance (p : Char → Bool) : Decidable (Markless p) :=
  decidable_of_iff (marks.all (fun c => !p c) = true) (by simp [Markless])

theorem Markless.not_mem {p : Char → Bool} (hp : Markless p) {c : Char} (h : p c = true) :
    c ∉ marks := by
  intro hm
  cases (hp c hm).symm.trans h

namespace Level

variable {s t : List Char}

theorem nil : Level [] := fun _ _ _ _ => rfl

theorem append (hs : Level s) (ht : Level t) : Level (s ++ t) := by
  intro stops h depth rest
  rw [List.append_assoc, hs stops h, ht stops h]

theorem cons {c : Char} (hc : c ∉ marks) (hs : Level s) : Level (c :: s) := by
  intro stops h depth rest
  rw [List.cons_append, seek_pass h hc, hs stops h]


theorem of_unmarked (h : ∀ c ∈ s, c ∉ marks) : Level s := by
  induction s with
  | nil => exact nil
  | cons c s ih => exact cons (h c List.mem_cons_self) (ih fun d hd => h d (List.mem_cons_of_mem c hd))

theorem of_all {p : Char → Bool} (hp : Markless p) (h : ∀ c ∈ s, p c = true) : Level s :=
  of_unmarked fun c hc => hp.not_mem (h c hc)

theorem literal {q : Char} {body : List Char} (hq : isQuote q = true)
    (hb : literalEnd q body = some (body, [])) : Level (q :: body) :=
  fun _ _ _ rest => seek_literal hq (literalEnd_append hb rest)

theorem enclosed {o c : Char} (ho : o = '[' ∨ o = '(') (hc : c = ']' ∨ c = ')') (hs : Level s) :
    Level (o :: (s ++ [c])) := by
  intro stops h depth rest
  rw [List.cons_append, List.append_assoc, seek_open ho, hs stops h]
  exact seek_close hc

end Level

/-- A search for these stops passes over the text, at any depth. -/
def Passed (stops text : List Char) : Prop :=
  ∀ depth rest, seek stops depth (text ++ rest) = seek stops depth rest

theorem Level.passed {stops s : List Char} (h : Level s) (hs : Separators stops) : Passed stops s :=
  h stops hs

theorem Passed.append {stops s t : List Char} (hs : Passed stops s) (ht : Passed stops t) :
    Passed stops (s ++ t) := by
  intro depth rest
  rw [List.append_assoc, hs, ht]

/-- A search for bars takes no notice of a comma. -/
theorem Passed.comma : Passed ['|'] [','] := by
  intro depth rest
  rw [List.singleton_append, seek, if_neg (by decide), if_neg (by decide), if_neg (by decide),
    if_neg (by simp)]

/-! ## Texts that agree up to a separator -/

/-- Nothing, or a separator and what follows it. -/
def Mute (s : List Char) : Prop := ∀ c ∈ s.head?, c = '|' ∨ c = ','

theorem Mute.nil : Mute [] := fun _ h => nomatch h

/-- The texts agree up to a place where each is at its end or at a separator. -/
def Alike (s t : List Char) : Prop :=
  ∃ common more more', s = common ++ more ∧ t = common ++ more' ∧ Mute more ∧ Mute more'

namespace Alike

variable {s t : List Char}

theorem append (h : Alike s t) (front : List Char) : Alike (front ++ s) (front ++ t) := by
  obtain ⟨common, more, more', rfl, rfl, hm, hm'⟩ := h
  exact ⟨front ++ common, more, more', by simp, by simp, hm, hm'⟩

theorem cons (h : Alike s t) (c : Char) : Alike (c :: s) (c :: t) := h.append [c]

/-- Past a character that is no separator the texts still agree. -/
theorem of_cons {c : Char} (h : Alike (c :: s) t) (hc : c ≠ '|' ∧ c ≠ ',') :
    ∃ t', t = c :: t' ∧ Alike s t' := by
  obtain ⟨common, more, more', e, rfl, hm, hm'⟩ := h
  cases common with
  | nil =>
    rw [List.nil_append] at e
    subst e
    rcases hm c rfl with e | e
    · exact absurd e hc.1
    · exact absurd e hc.2
  | cons d common =>
    cases e
    exact ⟨_, rfl, common, more, more', rfl, rfl, hm, hm'⟩

/-- The texts share a front in which there is no separator. -/
theorem of_append {front : List Char} (h : Alike (front ++ s) t) (hf : ∀ c ∈ front, c ∉ marks) :
    ∃ t', t = front ++ t' ∧ Alike s t' := by
  induction front generalizing t with
  | nil => exact ⟨t, rfl, h⟩
  | cons c front ih =>
    have hc : c ≠ '|' ∧ c ≠ ',' := by
      have := hf c List.mem_cons_self
      constructor <;> rintro rfl <;> exact this (by decide)
    obtain ⟨t₁, rfl, h₁⟩ := of_cons h hc
    obtain ⟨t', rfl, h'⟩ := ih h₁ fun d hd => hf d (List.mem_cons_of_mem c hd)
    exact ⟨t', rfl, h'⟩

theorem symm (h : Alike s t) : Alike t s := by
  obtain ⟨common, more, more', e, e', hm, hm'⟩ := h
  exact ⟨common, more', more, e', e, hm', hm⟩

end Alike

end Span

namespace Scanner

open Stencil.Span
open Text (startsName continuesName isBlank)

theorem markless_isBlank : Markless isBlank := by decide

theorem markless_startsName : Markless startsName := by decide

theorem markless_continuesName : Markless continuesName := by decide

theorem markless_isDigit : Markless Char.isDigit := by decide

section
variable {s t : List Char}

theorem Breaks.of_mute {p : Char → Bool} (hp : Markless p) (hs : Mute s) : Breaks p s := by
  cases s with
  | nil => rfl
  | cons c s =>
    have hc : c ∈ marks := by
      rcases hs c rfl with rfl | rfl <;> decide
    exact hp c hc

theorem Breaks.alike {p : Char → Bool} (hp : Markless p) (h : Alike s t) (hs : Breaks p s) :
    Breaks p t := by
  obtain ⟨common, more, more', rfl, rfl, hm, hm'⟩ := h
  cases common with
  | nil => exact .of_mute hp hm'
  | cons c common => exact hs

/-- No text of the class follows a point, if one stands first. -/
theorem breaks_point_alike {p : Char → Bool} (hp : Markless p) (h : Alike s t)
    (hs : ∀ r, s = '.' :: r → Breaks p r) : ∀ r, t = '.' :: r → Breaks p r := by
  rintro r rfl
  obtain ⟨r', rfl, hr⟩ := h.symm.of_cons (by decide)
  exact (hs r' rfl).alike hp hr.symm

theorem EndsPath.alike (h : Alike s t) (hs : EndsPath s) : EndsPath t := by
  refine ⟨?_, fun r e => ⟨?_, ?_⟩⟩
  · intro ht
    obtain ⟨t, rfl⟩ := List.head?_eq_some_iff.1 ht
    obtain ⟨r, rfl, -⟩ := h.symm.of_cons (by decide)
    exact hs.1 rfl
  · exact breaks_point_alike markless_startsName h (fun r e => (hs.2 r e).1) r e
  · exact breaks_point_alike markless_isDigit h (fun r e => (hs.2 r e).2) r e

theorem DottedWord.alike {word : List Char} (h : Alike s t) (hw : DottedWord word s) :
    DottedWord word t := by
  rcases hw with ⟨hn, hb⟩ | ⟨hd, hb⟩
  · exact .inl ⟨hn, hb.alike markless_continuesName h⟩
  · exact .inr ⟨hd, hb.alike markless_isDigit h⟩

theorem Numeral.alike {text : List Char} (h : Alike s t) (hn : Numeral text s) :
    Numeral text t := by
  obtain ⟨minus, whole, fraction, e, hm, hw, ⟨hd, hf⟩, hb⟩ := hn
  refine ⟨minus, whole, fraction, e, hm, hw, ⟨hd.alike markless_isDigit h, ?_⟩,
    hb.alike markless_startsName h⟩
  rcases hf with ⟨hf, hp⟩ | hf
  · exact .inl ⟨hf, breaks_point_alike markless_isDigit h hp⟩
  · exact .inr hf

/-- What stands behind a separator has no bearing on a value before it. -/
theorem Reads.alike {part : Part} {text : List Char} (h : Reads part text s) (ht : Alike s t) :
    Reads part text t := by
  induction h generalizing t with
  | quoted hq hb => exact .quoted hq hb
  | number h => exact .number (h.alike ht)
  | range hb₁ hb₂ hb₃ hb₄ _ _ ih₁ ih₂ =>
    have last := (ht.cons ')').append
    refine .range hb₁ hb₂ hb₃ hb₄ (ih₁ ?_) (ih₂ (last _))
    exact (((((last _).append _).append _).cons '.').cons '.').append _
  | path _ hk ih => exact .path (ih ht) hk
  | named hn hb _ ih => exact .named hn (hb.alike markless_continuesName (ht.append _)) (ih ht)
  | bracketed _ _ ih₁ ih₂ => exact .bracketed (ih₁ (ht.append _)) (ih₂ ht)
  | bracket hb hb' _ ih => exact .bracket hb hb' (ih ((ht.cons ']').append _))
  | done h => exact .done (h.alike ht)
  | dotted hw _ ih => exact .dotted (hw.alike (ht.append _)) (ih ht)
  | nested _ _ ih₁ ih₂ => exact .nested (ih₁ (ht.append _)) (ih₂ ht)

end

/-! ## Values are level -/

theorem Blank.unmarked {s : List Char} (h : Blank s) : ∀ c ∈ s, c ∉ marks :=
  fun c hc => markless_isBlank.not_mem (h c hc)

theorem Blank.level {s : List Char} (h : Blank s) : Level s := .of_unmarked h.unmarked

theorem IsDigits.level {s : List Char} (h : IsDigits s) : Level s := .of_all markless_isDigit h.2

theorem IsName.unmarked {s : List Char} (h : IsName s) : ∀ c ∈ s, c ∉ marks :=
  fun c hc => markless_continuesName.not_mem (h.continues c hc)

theorem IsName.level {s : List Char} (h : IsName s) : Level s := .of_unmarked h.unmarked

theorem Numeral.level {text rest : List Char} (h : Numeral text rest) : Level text := by
  obtain ⟨minus, whole, fraction, rfl, hm, hw, ⟨-, hf⟩, -⟩ := h
  have hm : Level minus := by
    rcases hm with rfl | rfl
    · exact .nil
    · exact .cons (by decide) .nil
  have hf : Level fraction := by
    rcases hf with ⟨rfl, -⟩ | ⟨ds, rfl, hd⟩
    · exact .nil
    · exact .cons (by decide) hd.level
  exact (hm.append hw.level).append hf

/-- A search for separators passes over a value: its bars and commas stand in literals, and its
brackets and parentheses close. -/
theorem Reads.level {part : Part} {text rest : List Char} (h : Reads part text rest) :
    Level text := by
  induction h with
  | quoted hq hb => exact .literal hq hb
  | number h => exact h.level
  | @range b₁ v₁ b₂ b₃ v₂ b₄ rest k₁ k₂ hb₁ hb₂ hb₃ hb₄ _ _ ih₁ ih₂ =>
    have points : Level ['.', '.'] := .cons (by decide) (.cons (by decide) .nil)
    have inner : Level (b₁ ++ v₁ ++ b₂ ++ ['.', '.'] ++ b₃ ++ v₂ ++ b₄) :=
      ((((((hb₁.level.append ih₁).append hb₂.level).append points).append hb₃.level).append
        ih₂).append hb₄.level)
    simpa using inner.enclosed (.inr rfl) (.inr rfl)
  | path _ _ ih => exact ih
  | named hn _ _ ih => exact hn.level.append ih
  | bracketed _ _ ih₁ ih₂ => exact ih₁.append ih₂
  | @bracket b v b' rest kind hb hb' _ ih =>
    have inner : Level (b ++ v ++ b') := (hb.level.append ih).append hb'.level
    simpa using inner.enclosed (.inl rfl) (.inl rfl)
  | done => exact .nil
  | dotted hw _ ih =>
    refine .cons (by decide) (Level.append ?_ ih)
    rcases hw with ⟨hn, -⟩ | ⟨hd, -⟩
    · exact hn.level
    · exact hd.level
  | nested _ _ ih₁ ih₂ => exact ih₁.append ih₂

end Scanner

end Stencil
