import Stencil.Expression.Scanner
import Stencil.Proofs.Readers

/-!
# Words and numbers in front of a text

Which names, digits and numbers the scanner cuts off the front of a text: the longest there are. Each
lemma says what a cut takes and what it leaves.
-/

namespace Stencil.Scanner

open Text (startsName continuesName)

/-- The text does not start with a character of the class. -/
def Breaks (p : Char → Bool) (s : List Char) : Prop := s.head?.any p = false

/-- A text is cut at the end of a run of a class exactly if the run ends there. -/
theorem span_iff {p : Char → Bool} {s run rest : List Char} :
    s.takeWhile p = run ∧ s.dropWhile p = rest ↔
      s = run ++ rest ∧ (∀ c ∈ run, p c = true) ∧ Breaks p rest := by
  constructor
  · rintro ⟨rfl, rfl⟩
    refine ⟨List.takeWhile_append_dropWhile.symm, List.all_eq_true.1 List.all_takeWhile, ?_⟩
    have := List.head?_dropWhile_not p s
    cases h : s.dropWhile p with
    | nil => rfl
    | cons c rest =>
      rw [h] at this
      simpa [Breaks] using this
  · rintro ⟨rfl, hr, hb⟩
    have hn : rest.takeWhile p = [] ∧ rest.dropWhile p = rest := by
      cases rest with
      | nil => simp
      | cons c rest =>
        have hc : p c = false := by simpa [Breaks] using hb
        simp [hc]
    rw [List.takeWhile_append_of_pos hr, List.dropWhile_append_of_pos hr, hn.1, hn.2]
    simp

theorem Breaks.of_append {p : Char → Bool} {s t : List Char} (h : Breaks p (s ++ t)) :
    Breaks p s := by
  cases s with
  | nil => rfl
  | cons c s => exact h

theorem trimStart_append {blanks rest : List Char} (hb : ∀ c ∈ blanks, Text.isBlank c = true)
    (hr : Breaks Text.isBlank rest) : Text.trimStart (blanks ++ rest) = rest :=
  (span_iff.2 ⟨rfl, hb, hr⟩).2

theorem trimStart_solid {s : List Char} (h : Breaks Text.isBlank s) : Text.trimStart s = s :=
  (span_iff.2 ⟨(List.nil_append s).symm, (fun _ hc => nomatch hc), h⟩).2

theorem trimStart_blank {s : List Char} (hs : ∀ c ∈ s, Text.isBlank c = true) :
    Text.trimStart s = [] :=
  (span_iff.2 ⟨(List.append_nil s).symm, hs, rfl⟩).2

theorem breaks_trimStart (s : List Char) : Breaks Text.isBlank (Text.trimStart s) :=
  (span_iff.1 ⟨rfl, rfl⟩).2.2

/-! ## Names and digits -/

/-- A letter or `_`, then letters, numerals, `_` and `-`. -/
def IsName (s : List Char) : Prop :=
  ∃ c cs, s = c :: cs ∧ startsName c = true ∧ ∀ d ∈ cs, continuesName d = true

def IsDigits (s : List Char) : Prop := s ≠ [] ∧ ∀ c ∈ s, c.isDigit = true

theorem IsName.continues {s : List Char} (h : IsName s) : ∀ c ∈ s, continuesName c = true := by
  obtain ⟨c, cs, rfl, hc, hcs⟩ := h
  exact List.forall_mem_cons.2 ⟨Text.continuesName_of_startsName hc, hcs⟩

theorem IsName.breaks_isBlank {s : List Char} (h : IsName s) (rest : List Char) :
    Breaks Text.isBlank (s ++ rest) := by
  obtain ⟨c, cs, rfl, hc, -⟩ := h
  exact Text.isBlank_of_startsName hc

theorem splitName_iff {s name rest : List Char} : splitName s = some (name, rest) ↔
    s = name ++ rest ∧ IsName name ∧ Breaks continuesName rest := by
  constructor
  · intro h
    cases s with
    | nil => cases h
    | cons c s =>
      rw [splitName] at h
      split at h
      · rename_i hc
        cases h
        obtain ⟨e, hr, hb⟩ := span_iff.1 ⟨rfl, (rfl : s.dropWhile continuesName = _)⟩
        exact ⟨by rw [List.cons_append, ← e], ⟨c, _, rfl, hc, hr⟩, hb⟩
      · cases h
  · rintro ⟨rfl, ⟨c, cs, rfl, hc, hr⟩, hb⟩
    obtain ⟨ht, hd⟩ := span_iff.2 ⟨rfl, hr, hb⟩
    rw [List.cons_append, splitName, if_pos hc, ht, hd]

theorem splitName_eq_none_iff {s : List Char} : splitName s = none ↔ Breaks startsName s := by
  cases s with
  | nil => exact ⟨fun _ => rfl, fun _ => rfl⟩
  | cons c s => cases h : startsName c <;> simp [splitName, Breaks, h]

theorem splitDigits_iff {s ds rest : List Char} : splitDigits s = some (ds, rest) ↔
    s = ds ++ rest ∧ IsDigits ds ∧ Breaks Char.isDigit rest := by
  rw [splitDigits]
  constructor
  · intro h
    split at h
    · cases h
    · rename_i hn
      cases h
      obtain ⟨e, hr, hb⟩ := span_iff.1 ⟨rfl, (rfl : s.dropWhile Char.isDigit = _)⟩
      exact ⟨e, ⟨by simpa using hn, hr⟩, hb⟩
  · rintro ⟨e, ⟨hn, hr⟩, hb⟩
    obtain ⟨ht, hd⟩ := span_iff.2 ⟨e, hr, hb⟩
    rw [ht, hd, if_neg (by simpa using hn)]

theorem splitDigits_eq_none_iff {s : List Char} :
    splitDigits s = none ↔ Breaks Char.isDigit s := by
  cases s with
  | nil => exact ⟨fun _ => rfl, fun _ => rfl⟩
  | cons c s => cases h : c.isDigit <;> simp [splitDigits, Breaks, h]

theorem toNat_of_isDigit {c : Char} (h : c.isDigit = true) : 48 ≤ c.toNat ∧ c.toNat ≤ 57 := by
  simp only [Char.isDigit, Bool.and_eq_true, decide_eq_true_eq] at h
  exact h

theorem isBlank_of_isDigit {c : Char} (h : c.isDigit = true) : Text.isBlank c = false := by
  cases hb : Text.isBlank c with
  | false => rfl
  | true =>
    have points : ∀ n ∈ Text.blanks.points, ¬ (48 ≤ n ∧ n ≤ 57) := by decide
    exact absurd (toNat_of_isDigit h) (points _ (Text.Ranges.mem_points_of_covers hb))

/-- A digit is no letter. -/
theorem startsName_digit {c : Char} (h : c.isDigit = true) : startsName c = false := by
  have h9 := (toNat_of_isDigit h).2
  have hl : Text.isLetter c = false := by
    unfold Text.isLetter Text.alphabetic Text.Ranges.covers
    rw [if_pos (by omega)]
  have hu : c ≠ '_' := by
    rintro rfl
    cases h
  simp [startsName, hl, hu]

/-- No name goes on with a blank. -/
theorem isBlank_of_continuesName {c : Char} (h : continuesName c = true) : Text.isBlank c = false := by
  cases hb : Text.isBlank c with
  | false => rfl
  | true =>
    have points : ∀ n ∈ Text.blanks.points,
        Text.alphabetic.covers n = false ∧ Text.numeric.covers n = false := by decide +kernel
    obtain ⟨hl, hn⟩ := points _ (Text.Ranges.mem_points_of_covers hb)
    have hc : c ≠ '_' ∧ c ≠ '-' := by constructor <;> (rintro rfl; exact absurd hb (by decide))
    have hl : Text.isLetter c = false := hl
    have hn : Text.isNumeral c = false := hn
    simp [continuesName, Text.isWordChar, hl, hn, hc] at h

theorem continuesName_of_isDigit {c : Char} (h : c.isDigit = true) : continuesName c = true := by
  obtain ⟨h0, h9⟩ := toNat_of_isDigit h
  have hn : Text.isNumeral c = true := by
    unfold Text.isNumeral Text.numeric Text.Ranges.covers
    rw [if_neg (by omega), if_pos (by omega)]
  simp [continuesName, Text.isWordChar, hn]

theorem IsDigits.breaks_startsName {ds : List Char} (h : IsDigits ds) (rest : List Char) :
    Breaks startsName (ds ++ rest) := by
  obtain ⟨hn, hd⟩ := h
  cases ds with
  | nil => exact absurd rfl hn
  | cons c ds => exact startsName_digit (hd c List.mem_cons_self)

/-! ## Dotted segments -/

/-- A name or digits, where `rest` follows. -/
def DottedWord (word rest : List Char) : Prop :=
  IsName word ∧ Breaks continuesName rest ∨ IsDigits word ∧ Breaks Char.isDigit rest

theorem splitDotted_iff {s chunk rest : List Char} : splitDotted s = some (chunk, rest) ↔
    s = chunk ++ rest ∧ ∃ word, chunk = '.' :: word ∧ DottedWord word rest := by
  constructor
  · intro h
    unfold splitDotted at h
    split at h
    · split at h
      · rename_i hn
        cases h
        obtain ⟨e, hw⟩ := splitName_iff.1 hn
        exact ⟨by rw [e]; rfl, _, rfl, .inl hw⟩
      · obtain ⟨⟨ds, r⟩, hd, e⟩ := Option.map_eq_some_iff.1 h
        cases e
        obtain ⟨e, hw⟩ := splitDigits_iff.1 hd
        exact ⟨by rw [e]; rfl, _, rfl, .inr hw⟩
    · cases h
  · rintro ⟨rfl, word, rfl, hw⟩
    rw [List.cons_append, splitDotted]
    rcases hw with ⟨hn, hb⟩ | ⟨hd, hb⟩
    · rw [splitName_iff.2 ⟨rfl, hn, hb⟩]
    · rw [splitName_eq_none_iff.2 (hd.breaks_startsName rest), splitDigits_iff.2 ⟨rfl, hd, hb⟩]
      rfl

theorem splitDotted_eq_none_iff {s : List Char} : splitDotted s = none ↔
    ∀ r, s = '.' :: r → Breaks startsName r ∧ Breaks Char.isDigit r := by
  constructor
  · rintro h r rfl
    rw [splitDotted] at h
    split at h
    · cases h
    · rename_i hn
      exact ⟨splitName_eq_none_iff.1 hn, splitDigits_eq_none_iff.1 (Option.map_eq_none_iff.1 h)⟩
  · intro h
    unfold splitDotted
    split
    · obtain ⟨hn, hd⟩ := h _ rfl
      rw [splitName_eq_none_iff.2 hn, splitDigits_eq_none_iff.2 hd]
      rfl
    · rfl

/-! ## Numbers -/

/-- A point and digits, or nothing if no digits follow a point. -/
def Fraction (fraction rest : List Char) : Prop :=
  Breaks Char.isDigit rest ∧
    (fraction = [] ∧ (∀ r, rest = '.' :: r → Breaks Char.isDigit r) ∨
      ∃ ds, fraction = '.' :: ds ∧ IsDigits ds)

/-- An optional minus, digits and a fraction, with no letter or `_` behind them. -/
def Numeral (text rest : List Char) : Prop :=
  ∃ minus whole fraction, text = minus ++ whole ++ fraction ∧ (minus = [] ∨ minus = ['-']) ∧
    IsDigits whole ∧ Fraction fraction rest ∧ Breaks startsName rest

theorem splitFraction_iff {s fraction rest : List Char} (hs : Breaks Char.isDigit s) :
    splitFraction s = (fraction, rest) ↔ s = fraction ++ rest ∧ Fraction fraction rest := by
  constructor
  · intro h
    unfold splitFraction at h
    split at h
    · split at h
      · rename_i hd
        cases h
        obtain ⟨e, hw, hb⟩ := splitDigits_iff.1 hd
        exact ⟨by rw [e]; rfl, hb, .inr ⟨_, rfl, hw⟩⟩
      · rename_i r hd
        cases h
        refine ⟨rfl, hs, .inl ⟨rfl, ?_⟩⟩
        rintro r' e
        cases e
        exact splitDigits_eq_none_iff.1 hd
    · rename_i hp
      cases h
      exact ⟨rfl, hs, .inl ⟨rfl, fun r e => absurd e (hp r)⟩⟩
  · rintro ⟨rfl, hb, ⟨rfl, hr⟩ | ⟨ds, rfl, hd⟩⟩
    · unfold splitFraction
      rw [List.nil_append]
      split
      · rw [splitDigits_eq_none_iff.2 (hr _ rfl)]
      · rfl
    · rw [List.cons_append, splitFraction, splitDigits_iff.2 ⟨rfl, hd, hb⟩]

theorem splitMinus_digits {minus ds : List Char} (hm : minus = [] ∨ minus = ['-'])
    (hd : IsDigits ds) (rest : List Char) :
    splitMinus (minus ++ (ds ++ rest)) = (minus, ds ++ rest) := by
  rcases hm with rfl | rfl
  · obtain ⟨hn, hd⟩ := hd
    cases ds with
    | nil => exact absurd rfl hn
    | cons c ds =>
      have hc : c ≠ '-' := by
        rintro rfl
        cases hd _ List.mem_cons_self
      unfold splitMinus
      split
      · rename_i e
        exact absurd (List.cons.inj e).1 hc
      · rfl
  · rfl

theorem splitMinus_cases (s : List Char) :
    ∃ minus body, splitMinus s = (minus, body) ∧ s = minus ++ body ∧
      (minus = [] ∨ minus = ['-']) := by
  unfold splitMinus
  split
  · exact ⟨_, _, rfl, rfl, .inr rfl⟩
  · exact ⟨_, _, rfl, rfl, .inl rfl⟩

theorem splitNumber_eq_none {s : List Char} (hm : s.head? ≠ some '-') (hd : Breaks Char.isDigit s) :
    splitNumber s = none := by
  have h : splitMinus s = ([], s) := by
    unfold splitMinus
    split
    · exact absurd rfl hm
    · rfl
  simp only [splitNumber, h, splitDigits_eq_none_iff.2 hd]

theorem splitNumber_iff {s text rest : List Char} : splitNumber s = some (text, rest) ↔
    s = text ++ rest ∧ Numeral text rest := by
  constructor
  · intro h
    obtain ⟨minus, body, hm, rfl, hd⟩ := splitMinus_cases s
    simp only [splitNumber, hm] at h
    split at h
    · cases h
    · rename_i whole rest' hw
      obtain ⟨rfl, hds, hb⟩ := splitDigits_iff.1 hw
      obtain ⟨fraction, rest'', hs⟩ : ∃ f r, splitFraction rest' = (f, r) := ⟨_, _, rfl⟩
      obtain ⟨rfl, hf⟩ := (splitFraction_iff hb).1 hs
      simp only [hs] at h
      split at h
      · cases h
      · rename_i hr
        cases h
        exact ⟨by simp only [List.append_assoc], minus, whole, fraction, rfl, hd, hds, hf,
          Bool.eq_false_iff.2 hr⟩
  · rintro ⟨rfl, minus, whole, fraction, rfl, hm, hw, hf, hr⟩
    have hb : Breaks Char.isDigit (fraction ++ rest) := by
      obtain ⟨hb, ⟨rfl, -⟩ | ⟨ds, rfl, -⟩⟩ := hf
      · exact hb
      · rfl
    rw [List.append_assoc, List.append_assoc, splitNumber, splitMinus_digits hm hw]
    simp only [splitDigits_iff.2 ⟨rfl, hw, hb⟩, (splitFraction_iff hb).2 ⟨rfl, hf⟩]
    rw [if_neg (by rw [hr]; decide), List.append_assoc]

end Stencil.Scanner
