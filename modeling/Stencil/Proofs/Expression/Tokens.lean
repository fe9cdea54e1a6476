import Stencil.Proofs.Expression.Spans
import Stencil.Proofs.Expression.Runs

/-!
# The values that the scanner reads

`Reads part text rest` says that `text`, where `rest` follows, is read as a value of a kind, as a
bracket or as the further segments of a path; what follows belongs to it, since names and numbers are
read to their ends. `value?` reads exactly these values.
-/

namespace Stencil

namespace Scanner

open Text (startsName continuesName isBlank)

/-! ## Spellings where they stand -/

/-- What a text is read as; a path is a name or a bracket, and further segments. -/
inductive Part where
  | value (kind : TokenKind)
  | path
  | bracket
  | segments

/-- No further segment of a path follows. -/
def EndsPath (rest : List Char) : Prop :=
  rest.head? ≠ some '[' ∧ ∀ r, rest = '.' :: r → Breaks startsName r ∧ Breaks Char.isDigit r

/-- The text is read as the part where `rest` follows. -/
inductive Reads : Part → List Char → List Char → Prop where
  | quoted {q : Char} {body rest : List Char} (hq : Span.isQuote q = true)
    (hb : Span.literalEnd q body = some (body, [])) : Reads (.value .quoted) (q :: body) rest
  | number {text rest : List Char} (h : Numeral text rest) : Reads (.value .number) text rest
  | range {b₁ v₁ b₂ b₃ v₂ b₄ rest : List Char} {k₁ k₂ : TokenKind} (hb₁ : Blank b₁) (hb₂ : Blank b₂)
    (hb₃ : Blank b₃) (hb₄ : Blank b₄)
    (first : Reads (.value k₁) v₁ (b₂ ++ '.' :: '.' :: (b₃ ++ (v₂ ++ (b₄ ++ ')' :: rest)))))
    (last : Reads (.value k₂) v₂ (b₄ ++ ')' :: rest)) :
    Reads (.value .range)
      ('(' :: (b₁ ++ (v₁ ++ (b₂ ++ '.' :: '.' :: (b₃ ++ (v₂ ++ (b₄ ++ [')']))))))) rest
  | path {text rest : List Char} {kind : TokenKind} (h : Reads .path text rest)
    (hk : wordKind (String.ofList text) = kind) : Reads (.value kind) text rest
  | named {name more rest : List Char} (hn : IsName name) (hb : Breaks continuesName (more ++ rest))
    (further : Reads .segments more rest) : Reads .path (name ++ more) rest
  | bracketed {start more rest : List Char} (first : Reads .bracket start (more ++ rest))
    (further : Reads .segments more rest) : Reads .path (start ++ more) rest
  | bracket {b v b' rest : List Char} {kind : TokenKind} (hb : Blank b) (hb' : Blank b')
    (inner : Reads (.value kind) v (b' ++ ']' :: rest)) :
    Reads .bracket ('[' :: (b ++ (v ++ (b' ++ [']'])))) rest
  | done {rest : List Char} (h : EndsPath rest) : Reads .segments [] rest
  | dotted {word more rest : List Char} (hw : DottedWord word (more ++ rest))
    (further : Reads .segments more rest) : Reads .segments ('.' :: (word ++ more)) rest
  | nested {start more rest : List Char} (first : Reads .bracket start (more ++ rest))
    (further : Reads .segments more rest) : Reads .segments (start ++ more) rest

theorem Reads.length_pos {start rest : List Char} (h : Reads .bracket start rest) :
    0 < start.length := by
  cases h
  simp

/-! ## The steps of the path reader -/

section
variable (inner : Scan (Option Token)) {s : Scanner} (n : Nat)

theorem segmentsOf_point (h : s.rest.head? = some '.') : segmentsOf inner (n + 1) s =
    (do if (← chunk? splitDotted).isSome then segmentsOf inner n) s := by
  rw [segmentsOf, bind_of_ok (rfl : peek s = .ok s.rest.head? s), h]
  rfl

theorem segmentsOf_open (h : s.rest.head? = some '[') : segmentsOf inner (n + 1) s =
    (do bracket inner; segmentsOf inner n) s := by
  rw [segmentsOf, bind_of_ok (rfl : peek s = .ok s.rest.head? s), h]
  rfl

theorem segmentsOf_end (hp : s.rest.head? ≠ some '.') (ho : s.rest.head? ≠ some '[') :
    segmentsOf inner (n + 1) s = .ok () s := by
  rw [segmentsOf, bind_of_ok (rfl : peek s = .ok s.rest.head? s)]
  refine congrFun (?_ : _ = (pure () : Scan Unit)) s
  split
  · exact absurd ‹_› hp
  · exact absurd ‹_› ho
  · rfl

end

/-! ## What the readers read -/

/-- The value tokens of a reader are read where they stand. -/
def ReadsValues (inner : Scan (Option Token)) : Prop :=
  ∀ s t s', inner s = .ok (some t) s' →
    s.rest = t.text.toList ++ s'.rest ∧ Reads (.value t.kind) t.text.toList s'.rest

section
variable {inner : Scan (Option Token)} (hi : ReadsValues inner) {s s' : Scanner}
include hi

theorem bracket_reads (hs : s.rest.head? = some '[') (h : bracket inner s = .ok () s') :
    ∃ text, s.rest = text ++ s'.rest ∧ Reads .bracket text s'.rest := by
  simp only [bracket, bind_eq_ok_iff] at h
  obtain ⟨_, _, he, _, _, hb, o, _, hv, _, _, hr, _, _, hb', _, _, he', hr'⟩ := h
  have e := eat_head_ok hs he
  obtain ⟨b, hb, e₁, -⟩ := skipBlanks_ok hb
  obtain ⟨hsome, rfl⟩ := require_ok hr
  obtain ⟨t, rfl⟩ := Option.isSome_iff_exists.1 hsome
  obtain ⟨e₂, hv⟩ := hi _ _ _ hv
  obtain ⟨b', hb', e₃, -⟩ := skipBlanks_ok hb'
  obtain ⟨rfl, rfl⟩ := require_ok hr'
  have e₄ := eat_true he'
  rw [e₃, e₄] at hv
  exact ⟨_, by simp [e, e₁, e₂, e₃, e₄], .bracket hb hb' hv⟩

theorem parentheses_reads (hs : s.rest.head? = some '(') (h : parentheses inner s = .ok () s') :
    ∃ text, s.rest = text ++ s'.rest ∧ Reads (.value .range) text s'.rest := by
  simp only [parentheses, bind_eq_ok_iff] at h
  obtain ⟨_, _, he, _, _, hb₁, o₁, _, hv₁, _, _, hr₁, _, _, hb₂, _, _, hd, _, _, hr₂, _, _, hb₃,
    o₂, _, hv₂, _, _, hr₃, _, _, hb₄, _, _, he', hr₄⟩ := h
  have e := eat_head_ok hs he
  obtain ⟨b₁, hb₁, e₁, -⟩ := skipBlanks_ok hb₁
  obtain ⟨hsome, rfl⟩ := require_ok hr₁
  obtain ⟨t₁, rfl⟩ := Option.isSome_iff_exists.1 hsome
  obtain ⟨e₂, hv₁⟩ := hi _ _ _ hv₁
  obtain ⟨b₂, hb₂, e₃, -⟩ := skipBlanks_ok hb₂
  obtain ⟨rfl, rfl⟩ := require_ok hr₂
  have e₄ := eatAll_ok hd
  obtain ⟨b₃, hb₃, e₅, -⟩ := skipBlanks_ok hb₃
  obtain ⟨hsome, rfl⟩ := require_ok hr₃
  obtain ⟨t₂, rfl⟩ := Option.isSome_iff_exists.1 hsome
  obtain ⟨e₆, hv₂⟩ := hi _ _ _ hv₂
  obtain ⟨b₄, hb₄, e₇, -⟩ := skipBlanks_ok hb₄
  obtain ⟨rfl, rfl⟩ := require_ok hr₄
  have e₈ := eat_true he'
  rw [e₇, e₈] at hv₂
  rw [e₃, e₄, e₅, e₆, e₇, e₈] at hv₁
  exact ⟨_, by simp [e, e₁, e₂, e₃, e₄, e₅, e₆, e₇, e₈], .range hb₁ hb₂ hb₃ hb₄ hv₁ hv₂⟩

omit hi in
/-- A path that starts with no bracket starts with a name. -/
theorem not_breaks_of_startsPath {s : List Char} (hs : s.head?.any startsPath = true)
    (ho : s.head? ≠ some '[') : ¬ Breaks startsName s := by
  cases s with
  | nil => cases hs
  | cons c s =>
    have hc : c ≠ '[' := by simpa using ho
    simpa [startsPath, hc, Breaks] using hs

/-- The steps are enough for the characters that are left. -/
theorem segmentsOf_reads (n : Nat) (hn : s.rest.length ≤ n) (h : segmentsOf inner n s = .ok () s') :
    ∃ text, s.rest = text ++ s'.rest ∧ Reads .segments text s'.rest := by
  induction n generalizing s with
  | zero =>
    have e := List.length_eq_zero_iff.1 (Nat.le_zero.1 hn)
    cases h
    exact ⟨[], rfl, .done ⟨by simp [e], fun r er => by cases e.symm.trans er⟩⟩
  | succ n ih =>
    by_cases hp : s.rest.head? = some '.'
    · rw [segmentsOf_point inner n hp] at h
      obtain ⟨o, s₁, hc, hf⟩ := bind_eq_ok_iff.1 h
      rcases chunk_ok hc with ⟨rfl, rfl, hnone⟩ | ⟨chunk, rfl, hs⟩
      · cases hf
        exact ⟨[], rfl, .done ⟨by simp [hp], splitDotted_eq_none_iff.1 hnone⟩⟩
      · obtain ⟨e, word, rfl, hw⟩ := splitDotted_iff.1 hs
        have hl : s₁.rest.length ≤ n := by
          have := congrArg List.length e
          simp at this
          omega
        obtain ⟨more, e', hm⟩ := ih hl hf
        rw [e'] at hw
        exact ⟨_, by simp [e, e'], .dotted hw hm⟩
    by_cases ho : s.rest.head? = some '['
    · rw [segmentsOf_open inner n ho] at h
      obtain ⟨_, s₁, hb, h⟩ := bind_eq_ok_iff.1 h
      obtain ⟨start, e, hb⟩ := bracket_reads hi ho hb
      have hl : s₁.rest.length ≤ n := by
        have := congrArg List.length e
        have := hb.length_pos
        simp at *
        omega
      obtain ⟨more, e', hm⟩ := ih hl h
      rw [e'] at hb
      exact ⟨_, by simp [e, e'], .nested hb hm⟩
    · rw [segmentsOf_end inner n hp ho] at h
      cases h
      exact ⟨[], rfl, .done ⟨ho, fun r e => absurd (by rw [e]; rfl) hp⟩⟩

theorem segmented_reads (hs : s.rest.head?.any startsPath = true)
    (h : segmented inner s = .ok () s') :
    ∃ text, s.rest = text ++ s'.rest ∧ Reads .path text s'.rest := by
  simp only [segmented, bind_eq_ok_iff] at h
  obtain ⟨_, _, hp, h⟩ := h
  cases hp
  split at h
  · rename_i ho
    obtain ⟨_, s₁, hb, h⟩ := bind_eq_ok_iff.1 h
    obtain ⟨_, _, hg, h⟩ := bind_eq_ok_iff.1 h
    cases hg
    obtain ⟨start, e, hb⟩ := bracket_reads hi (by simpa using ho) hb
    obtain ⟨more, e', hm⟩ := segmentsOf_reads hi _ (Nat.le_refl _) h
    rw [e'] at hb
    exact ⟨_, by simp [e, e'], .bracketed hb hm⟩
  · rename_i ho
    obtain ⟨o, s₁, hn, h⟩ := bind_eq_ok_iff.1 h
    obtain ⟨_, _, hg, h⟩ := bind_eq_ok_iff.1 h
    cases hg
    obtain ⟨more, e', hm⟩ := segmentsOf_reads hi _ (Nat.le_refl _) h
    rcases chunk_ok hn with ⟨rfl, rfl, hnone⟩ | ⟨name, rfl, hs'⟩
    · exact absurd (splitName_eq_none_iff.1 hnone) (not_breaks_of_startsPath hs (by simpa using ho))
    · obtain ⟨e, hn, hb⟩ := splitName_iff.1 hs'
      rw [e'] at hb
      exact ⟨_, by simp [e, e'], .named hn hb hm⟩

theorem rangeOf_ok {o : Option String} (h : rangeOf inner s = .ok o s') :
    o = none ∧ s' = s ∧ s.rest.head? ≠ some '(' ∨ ∃ text, o = some (String.ofList text) ∧
      s.rest = text ++ s'.rest ∧ Reads (.value .range) text s'.rest := by
  obtain ⟨_, _, hp, hf⟩ := bind_eq_ok_iff.1 h
  cases hp
  split at hf
  · rename_i ho
    obtain ⟨text, _, ht, hf⟩ := bind_eq_ok_iff.1 hf
    cases hf
    obtain ⟨hr, ht⟩ := taking_ok ht
    obtain ⟨t, e, hr⟩ := parentheses_reads hi (by simpa using ho) hr
    exact .inr ⟨t, by rw [ht t e], e, hr⟩
  · rename_i ho
    cases hf
    exact .inl ⟨rfl, rfl, by simpa using ho⟩

theorem pathOf_ok {o : Option String} (h : pathOf inner s = .ok o s') :
    o = none ∧ s' = s ∨ ∃ text, o = some (String.ofList text) ∧
      s.rest = text ++ s'.rest ∧ Reads .path text s'.rest := by
  obtain ⟨_, _, hp, hf⟩ := bind_eq_ok_iff.1 h
  cases hp
  split at hf
  · rename_i ho
    obtain ⟨text, _, ht, hf⟩ := bind_eq_ok_iff.1 hf
    cases hf
    obtain ⟨hr, ht⟩ := taking_ok ht
    obtain ⟨t, e, hr⟩ := segmented_reads hi ho hr
    exact .inr ⟨t, by rw [ht t e], e, hr⟩
  · cases hf
    exact .inl ⟨rfl, rfl⟩

end

theorem quoted_ok {o : Option String} {s s' : Scanner} (h : quoted? s = .ok o s') :
    o = none ∧ s' = s ∨ ∃ text, o = some (String.ofList text) ∧ s.rest = text ++ s'.rest ∧
      Reads (.value .quoted) text s'.rest := by
  unfold quoted? at h
  split at h
  · cases h
    exact .inl ⟨rfl, rfl⟩
  · rename_i q rest e
    split at h
    · rename_i hq
      split at h
      · rename_i body rest' hl
        cases h
        obtain ⟨e', hb⟩ := Span.literalEnd_iff.1 hl
        exact .inr ⟨q :: body, rfl, by rw [e, e']; rfl, .quoted hq hb⟩
      · cases h
    · cases h
      exact .inl ⟨rfl, rfl⟩

theorem valueAt_reads (depth : Nat) : ReadsValues (valueAt depth) := by
  induction depth with
  | zero =>
    intro s t s' h
    cases h
  | succ depth ih =>
    intro s t s' h
    obtain ⟨quoted, s₁, hq, h₁⟩ := bind_eq_ok_iff.1 h
    rcases quoted_ok hq with ⟨rfl, rfl⟩ | ⟨text, rfl, e, hr⟩
    · obtain ⟨range, s₂, hr, h₂⟩ := bind_eq_ok_iff.1 h₁
      rcases rangeOf_ok ih hr with ⟨rfl, rfl, -⟩ | ⟨text, rfl, e, hr⟩
      · obtain ⟨number, s₃, hn, h₃⟩ := bind_eq_ok_iff.1 h₂
        rcases chunk_ok hn with ⟨rfl, rfl, -⟩ | ⟨text, rfl, hs⟩
        · obtain ⟨path, s₄, hp, h₄⟩ := bind_eq_ok_iff.1 h₃
          rcases pathOf_ok ih hp with ⟨rfl, rfl⟩ | ⟨text, rfl, e, hr⟩
          · cases h₄
          · cases h₄
            simpa using ⟨e, .path hr rfl⟩
        · cases h₃
          obtain ⟨e, hn⟩ := splitNumber_iff.1 hs
          simpa using ⟨e, .number hn⟩
      · cases h₂
        simpa using ⟨e, hr⟩
    · cases h₁
      simpa using ⟨e, hr⟩

theorem value_reads : ReadsValues value? := fun s => valueAt_reads (s.rest.length + 1) s

/-! ## What starts a part -/

/-- The text starts with a character of the class. -/
def Starts (p : Char → Prop) (s : List Char) : Prop := ∃ c cs, s = c :: cs ∧ p c

theorem Starts.append {p : Char → Prop} {s : List Char} (h : Starts p s) (t : List Char) :
    Starts p (s ++ t) := by
  obtain ⟨c, cs, rfl, hc⟩ := h
  exact ⟨c, cs ++ t, rfl, hc⟩

/-- The characters that a part starts with; further segments may be none. -/
def Part.First : Part → Char → Prop
  | .value _, c => isBlank c = false
  | .path, c => startsPath c = true
  | .bracket, c => c = '['
  | .segments, c => c = '.' ∨ c = '['

theorem isBlank_of_isQuote {c : Char} (h : Span.isQuote c = true) : isBlank c = false := by
  rcases (by simpa [Span.isQuote] using h : c = '"' ∨ c = '\'') with rfl | rfl <;> decide

theorem isBlank_of_startsPath {c : Char} (h : startsPath c = true) : isBlank c = false := by
  rcases (by simpa [startsPath] using h : c = '[' ∨ startsName c = true) with rfl | h
  · decide
  · exact Text.isBlank_of_startsName h

theorem Numeral.starts {text rest : List Char} (h : Numeral text rest) :
    Starts (fun c => c = '-' ∨ c.isDigit = true) text := by
  obtain ⟨minus, whole, fraction, rfl, hm, ⟨hn, hd⟩, -⟩ := h
  obtain ⟨c, cs, rfl⟩ := List.exists_cons_of_ne_nil hn
  rcases hm with rfl | rfl
  · exact ⟨c, cs ++ fraction, rfl, .inr (hd c List.mem_cons_self)⟩
  · exact ⟨'-', c :: cs ++ fraction, rfl, .inl rfl⟩

theorem Reads.starts {part : Part} {text rest : List Char} (h : Reads part text rest) :
    Starts part.First text ∨ part = .segments ∧ text = [] := by
  induction h with
  | quoted hq => exact .inl ⟨_, _, rfl, isBlank_of_isQuote hq⟩
  | number h =>
    obtain ⟨c, cs, rfl, hc⟩ := h.starts
    refine .inl ⟨c, cs, rfl, ?_⟩
    rcases hc with rfl | hc
    · exact (by decide : isBlank '-' = false)
    · exact isBlank_of_isDigit hc
  | range => exact .inl ⟨_, _, rfl, (by decide : isBlank '(' = false)⟩
  | path _ _ ih =>
    rcases ih with ⟨c, cs, rfl, hc⟩ | ⟨h, -⟩
    · exact .inl ⟨c, cs, rfl, isBlank_of_startsPath hc⟩
    · cases h
  | named hn =>
    obtain ⟨c, cs, rfl, hc, -⟩ := hn
    exact .inl ⟨c, _, rfl, by simp [Part.First, startsPath, hc]⟩
  | bracketed _ _ ih =>
    rcases ih with ⟨c, cs, rfl, rfl⟩ | ⟨h, -⟩
    · exact .inl ⟨'[', _, rfl, rfl⟩
    · cases h
  | bracket => exact .inl ⟨'[', _, rfl, rfl⟩
  | done => exact .inr ⟨rfl, rfl⟩
  | dotted => exact .inl ⟨'.', _, rfl, .inl rfl⟩
  | nested _ _ ih =>
    rcases ih with ⟨c, cs, rfl, rfl⟩ | ⟨h, -⟩
    · exact .inl ⟨'[', _, rfl, .inr rfl⟩
    · cases h

/-! ## What is read where it stands -/

/-- The reader of a part, in which brackets and ranges nest less than `depth` deep, takes the text
and leaves `rest`. -/
def Part.Taken (part : Part) (text rest : List Char) : Prop :=
  match part with
  | .value kind => ∀ depth, text.length < depth → ∀ s : Scanner, s.rest = text ++ rest →
      Gives (valueAt depth) s (some ⟨kind, String.ofList text⟩) rest
  | .path => ∀ depth, text.length ≤ depth → ∀ s : Scanner, s.rest = text ++ rest →
      Gives (segmented (valueAt depth)) s () rest
  | .bracket => ∀ depth, text.length ≤ depth → ∀ s : Scanner, s.rest = text ++ rest →
      Gives (Scanner.bracket (valueAt depth)) s () rest
  | .segments => ∀ depth n, text.length ≤ depth → text.length ≤ n → ∀ s : Scanner,
      s.rest = text ++ rest → Gives (segmentsOf (valueAt depth) n) s () rest

section
variable {s : Scanner} {inner : Scan (Option Token)} {rest : List Char}

theorem quoted_gives {q : Char} {body : List Char} (hq : Span.isQuote q = true)
    (hb : Span.literalEnd q body = some (body, [])) (hs : s.rest = q :: body ++ rest) :
    Gives quoted? s (some (String.ofList (q :: body))) rest := by
  have hl : Span.literalEnd q (body ++ rest) = some (body, rest) := Span.literalEnd_append hb rest
  unfold Gives quoted?
  rw [hs]
  simp only [List.cons_append, if_pos hq, hl]
  exact ⟨_, rfl, rfl⟩

theorem quoted_misses (h : Breaks Span.isQuote s.rest) : quoted? s = .ok none s := by
  unfold quoted?
  split
  · rfl
  · rename_i q rest e
    rw [if_neg]
    rw [e] at h
    simpa [Breaks] using h

theorem rangeOf_gives {text : List Char} (ho : (text ++ rest).head? = some '(')
    (hs : s.rest = text ++ rest) (h : Gives (parentheses inner) s () rest) :
    Gives (rangeOf inner) s (some (String.ofList text)) rest := by
  rw [rangeOf, Gives, bind_of_ok (rfl : peek s = .ok s.rest.head? s), hs, if_pos (by simp [ho])]
  exact (taking_gives h hs).bind fun s' e => e ▸ .pure

theorem rangeOf_misses (h : s.rest.head? ≠ some '(') : rangeOf inner s = .ok none s := by
  rw [rangeOf, bind_of_ok (rfl : peek s = .ok s.rest.head? s), if_neg (by simpa using h)]
  rfl

theorem pathOf_gives {text : List Char} (ho : (text ++ rest).head?.any startsPath = true)
    (hs : s.rest = text ++ rest) (h : Gives (segmented inner) s () rest) :
    Gives (pathOf inner) s (some (String.ofList text)) rest := by
  rw [pathOf, Gives, bind_of_ok (rfl : peek s = .ok s.rest.head? s), hs, if_pos ho]
  exact (taking_gives h hs).bind fun s' e => e ▸ .pure

end

/-- Blanks before a value are skipped up to it. -/
theorem Reads.breaks_isBlank {kind : TokenKind} {text rest : List Char}
    (h : Reads (.value kind) text rest) (t : List Char) : Breaks isBlank (text ++ t) := by
  rcases h.starts with ⟨c, cs, rfl, hc⟩ | ⟨h, -⟩
  · exact hc
  · cases h

theorem bracket_taken {b v b' rest : List Char} {kind : TokenKind} (hb : Blank b) (hb' : Blank b')
    (hv : Reads (.value kind) v (b' ++ ']' :: rest))
    (ih : Part.Taken (.value kind) v (b' ++ ']' :: rest)) :
    Part.Taken .bracket ('[' :: (b ++ (v ++ (b' ++ [']'])))) rest := by
  intro depth hd s hs
  simp only [List.cons_append, List.append_assoc, List.nil_append] at hs
  have hl : v.length < depth := by
    simp at hd
    omega
  refine (eat_gives hs).bind fun s₁ e₁ => ?_
  refine (skipBlanks_gives e₁ hb (hv.breaks_isBlank _)).bind fun s₂ e₂ => ?_
  refine (ih depth hl s₂ e₂).bind fun s₃ e₃ => ?_
  refine (require_gives rfl).bind fun s₄ e₄ => ?_
  refine (skipBlanks_gives (e₄.trans e₃) hb' rfl).bind fun s₅ e₅ => ?_
  refine (eat_gives e₅).bind fun s₆ e₆ => ?_
  exact e₆ ▸ require_gives rfl

theorem range_taken {b₁ v₁ b₂ b₃ v₂ b₄ rest : List Char} {k₁ k₂ : TokenKind} (hb₁ : Blank b₁)
    (hb₂ : Blank b₂) (hb₃ : Blank b₃) (hb₄ : Blank b₄)
    (first : Reads (.value k₁) v₁ (b₂ ++ '.' :: '.' :: (b₃ ++ (v₂ ++ (b₄ ++ ')' :: rest)))))
    (last : Reads (.value k₂) v₂ (b₄ ++ ')' :: rest))
    (ih₁ : Part.Taken (.value k₁) v₁ (b₂ ++ '.' :: '.' :: (b₃ ++ (v₂ ++ (b₄ ++ ')' :: rest)))))
    (ih₂ : Part.Taken (.value k₂) v₂ (b₄ ++ ')' :: rest)) :
    Part.Taken (.value .range)
      ('(' :: (b₁ ++ (v₁ ++ (b₂ ++ '.' :: '.' :: (b₃ ++ (v₂ ++ (b₄ ++ [')']))))))) rest := by
  intro depth hd s hs
  obtain ⟨depth, rfl⟩ : ∃ d, depth = d + 1 := ⟨depth - 1, by omega⟩
  have hl : v₁.length < depth ∧ v₂.length < depth := by
    simp at hd
    omega
  have hq : quoted? s = .ok none s := quoted_misses (by rw [hs]; rfl)
  rw [Gives, valueAt, bind_of_ok hq]
  refine Gives.bind (rangeOf_gives rfl hs ?_) fun s' e => e ▸ .pure
  simp only [List.cons_append, List.append_assoc, List.nil_append] at hs
  refine (eat_gives hs).bind fun s₁ e₁ => ?_
  refine (skipBlanks_gives e₁ hb₁ (first.breaks_isBlank _)).bind fun s₂ e₂ => ?_
  refine (ih₁ depth hl.1 s₂ e₂).bind fun s₃ e₃ => ?_
  refine (require_gives rfl).bind fun s₄ e₄ => ?_
  refine (skipBlanks_gives (e₄.trans e₃) hb₂ rfl).bind fun s₅ e₅ => ?_
  refine (eatAll_gives e₅).bind fun s₆ e₆ => ?_
  refine (require_gives rfl).bind fun s₇ e₇ => ?_
  refine (skipBlanks_gives (e₇.trans e₆) hb₃ (last.breaks_isBlank _)).bind fun s₈ e₈ => ?_
  refine (ih₂ depth hl.2 s₈ e₈).bind fun s₉ e₉ => ?_
  refine (require_gives rfl).bind fun s₁₀ e₁₀ => ?_
  refine (skipBlanks_gives (e₁₀.trans e₉) hb₄ rfl).bind fun s₁₁ e₁₁ => ?_
  refine (eat_gives e₁₁).bind fun s₁₂ e₁₂ => ?_
  exact e₁₂ ▸ require_gives rfl

/-- The reader of values goes by a path's first character past those of other values. -/
theorem valueAt_path {s : Scanner} {depth : Nat} (hs : s.rest.head?.any startsPath = true) :
    valueAt (depth + 1) s = (pathOf (valueAt depth) >>= fun path => do
      if let some text := path then return some ⟨wordKind text, text⟩
      return none) s := by
  obtain ⟨c, cs, e, hc⟩ : ∃ c cs, s.rest = c :: cs ∧ startsPath c = true := by
    cases e : s.rest with
    | nil => simp [e] at hs
    | cons c cs => exact ⟨c, cs, rfl, by simpa [e] using hs⟩
  have ne (d : Char) (hd : startsPath d = false) : c ≠ d := by
    rintro rfl
    cases hc.symm.trans hd
  have hq : Span.isQuote c = false := by
    simp [Span.isQuote, ne '"' (by decide), ne '\'' (by decide)]
  have hd : c.isDigit = false := by
    cases hd : c.isDigit with
    | false => rfl
    | true =>
      have hb : c ≠ '[' := by
        rintro rfl
        cases hd
      simp [startsPath, hb, startsName_digit hd] at hc
  have hn : splitNumber s.rest = none := by
    rw [e]
    exact splitNumber_eq_none (by simpa using ne '-' (by decide)) hd
  have misses : quoted? s = .ok none s ∧ rangeOf (valueAt depth) s = .ok none s ∧
      number? s = .ok none s :=
    ⟨quoted_misses (by rw [e]; exact hq), rangeOf_misses (by rw [e]; simpa using ne '(' (by decide)),
      chunk_none hn⟩
  rw [valueAt, bind_of_ok misses.1]
  dsimp only
  rw [bind_of_ok misses.2.1]
  dsimp only
  exact (bind_of_ok misses.2.2).trans rfl

theorem Numeral.head {text rest : List Char} (h : Numeral text rest) (t : List Char) :
    Breaks Span.isQuote (text ++ t) ∧ (text ++ t).head? ≠ some '(' := by
  obtain ⟨c, cs, rfl, rfl | hc⟩ := h.starts
  · exact ⟨rfl, by simp⟩
  · refine ⟨quoteless_isDigit.isQuote hc, ?_⟩
    rintro e
    cases e
    cases hc

theorem number_taken {text rest : List Char} (h : Numeral text rest) :
    Part.Taken (.value .number) text rest := by
  intro depth hd s hs
  obtain ⟨depth, rfl⟩ : ∃ d, depth = d + 1 := ⟨depth - 1, by omega⟩
  obtain ⟨hq, ho⟩ := h.head rest
  rw [← hs] at hq ho
  rw [Gives, valueAt, bind_of_ok (quoted_misses hq)]
  dsimp only
  rw [bind_of_ok (rangeOf_misses ho)]
  have hn : splitNumber s.rest = some (text, rest) := splitNumber_iff.2 ⟨hs, h⟩
  exact Gives.bind (chunk_gives hn) fun s' e => e ▸ .pure

theorem quoted_taken {q : Char} {body rest : List Char} (hq : Span.isQuote q = true)
    (hb : Span.literalEnd q body = some (body, [])) :
    Part.Taken (.value .quoted) (q :: body) rest := by
  intro depth hd s hs
  obtain ⟨depth, rfl⟩ : ∃ d, depth = d + 1 := ⟨depth - 1, by omega⟩
  exact (quoted_gives hq hb hs).bind fun s' e => e ▸ .pure

theorem path_taken {text rest : List Char} {kind : TokenKind} (h : Reads .path text rest)
    (hk : wordKind (String.ofList text) = kind) (ih : Part.Taken .path text rest) :
    Part.Taken (.value kind) text rest := by
  intro depth hd s hs
  obtain ⟨depth, rfl⟩ : ∃ d, depth = d + 1 := ⟨depth - 1, by omega⟩
  have hp : (text ++ rest).head?.any startsPath = true := by
    rcases h.starts with ⟨c, cs, rfl, hc⟩ | ⟨h, -⟩
    · exact hc
    · cases h
  rw [Gives, valueAt_path (by rw [hs]; exact hp)]
  refine Gives.bind (pathOf_gives hp hs (ih depth (by omega) s hs)) fun s' e => ?_
  subst hk e
  exact .pure

theorem segmented_named {name more rest : List Char} (hn : IsName name)
    (hb : Breaks continuesName (more ++ rest)) (ih : Part.Taken .segments more rest) :
    Part.Taken .path (name ++ more) rest := by
  intro depth hd s hs
  have hl : more.length ≤ depth := by
    simp at hd
    omega
  rw [List.append_assoc] at hs
  have ho : s.rest.head? ≠ some '[' := by
    obtain ⟨c, cs, rfl, hc, -⟩ := hn
    rw [hs]
    rintro e
    cases e
    exact absurd hc (by decide)
  rw [Gives, segmented, bind_of_ok (rfl : peek s = .ok s.rest.head? s), if_neg (by simpa using ho)]
  refine Gives.bind (chunk_gives (splitName_iff.2 ⟨hs, hn, hb⟩)) fun s₁ e₁ => ?_
  refine get_gives.bind fun s₂ e₂ => ?_
  exact ih depth _ hl (by simp [e₁]) s₂ (e₂.trans e₁)

theorem segmented_bracketed {start more rest : List Char}
    (first : Reads .bracket start (more ++ rest)) (ih₁ : Part.Taken .bracket start (more ++ rest))
    (ih₂ : Part.Taken .segments more rest) : Part.Taken .path (start ++ more) rest := by
  intro depth hd s hs
  have hl : start.length ≤ depth ∧ more.length ≤ depth := by
    simp at hd
    omega
  rw [List.append_assoc] at hs
  have ho : s.rest.head? = some '[' := by
    rcases first.starts with ⟨c, cs, rfl, rfl⟩ | ⟨h, -⟩
    · rw [hs]
      rfl
    · cases h
  rw [Gives, segmented, bind_of_ok (rfl : peek s = .ok s.rest.head? s), if_pos (by simp [ho])]
  refine Gives.bind (ih₁ depth hl.1 s hs) fun s₁ e₁ => ?_
  refine get_gives.bind fun s₂ e₂ => ?_
  exact ih₂ depth _ hl.2 (by simp [e₁]) s₂ (e₂.trans e₁)

theorem segments_done {rest : List Char} (h : EndsPath rest) : Part.Taken .segments [] rest := by
  intro depth n _ _ s hs
  rw [List.nil_append] at hs
  subst hs
  cases n with
  | zero => exact .pure
  | succ n =>
    by_cases hp : s.rest.head? = some '.'
    · rw [Gives, segmentsOf_point _ n hp]
      refine Gives.bind ⟨s, chunk_none (splitDotted_eq_none_iff.2 h.2), rfl⟩ fun s' e => ?_
      exact e ▸ .pure
    · exact ⟨s, segmentsOf_end _ n hp h.1, rfl⟩

theorem segments_dotted {word more rest : List Char} (hw : DottedWord word (more ++ rest))
    (ih : Part.Taken .segments more rest) : Part.Taken .segments ('.' :: (word ++ more)) rest := by
  intro depth n hd hn s hs
  obtain ⟨n, rfl⟩ : ∃ m, n = m + 1 := ⟨n - 1, by simp at hn; omega⟩
  have hl : more.length ≤ depth ∧ more.length ≤ n := by
    simp at hd hn
    omega
  have hp : s.rest.head? = some '.' := by rw [hs]; rfl
  have hc : splitDotted s.rest = some ('.' :: word, more ++ rest) :=
    splitDotted_iff.2 ⟨by simp [hs], word, rfl, hw⟩
  rw [Gives, segmentsOf_point _ n hp]
  exact Gives.bind (chunk_gives hc) fun s' e => ih depth n hl.1 hl.2 s' e

theorem segments_nested {start more rest : List Char}
    (first : Reads .bracket start (more ++ rest)) (ih₁ : Part.Taken .bracket start (more ++ rest))
    (ih₂ : Part.Taken .segments more rest) : Part.Taken .segments (start ++ more) rest := by
  intro depth n hd hn s hs
  have := first.length_pos
  obtain ⟨n, rfl⟩ : ∃ m, n = m + 1 := ⟨n - 1, by simp at hn; omega⟩
  have hl : start.length ≤ depth ∧ more.length ≤ depth ∧ more.length ≤ n := by
    simp at hd hn
    omega
  rw [List.append_assoc] at hs
  have ho : s.rest.head? = some '[' := by
    rcases first.starts with ⟨c, cs, rfl, rfl⟩ | ⟨h, -⟩
    · rw [hs]
      rfl
    · cases h
  rw [Gives, segmentsOf_open _ n ho]
  exact Gives.bind (ih₁ depth hl.1 s hs) fun s' e => ih₂ depth n hl.2.1 hl.2.2 s' e

/-- A part is taken where it stands. -/
theorem Reads.taken {part : Part} {text rest : List Char} (h : Reads part text rest) :
    part.Taken text rest := by
  induction h with
  | quoted hq hb => exact quoted_taken hq hb
  | number h => exact number_taken h
  | range hb₁ hb₂ hb₃ hb₄ first last ih₁ ih₂ =>
    exact range_taken hb₁ hb₂ hb₃ hb₄ first last ih₁ ih₂
  | path h hk ih => exact path_taken h hk ih
  | named hn hb _ ih => exact segmented_named hn hb ih
  | bracketed first _ ih₁ ih₂ => exact segmented_bracketed first ih₁ ih₂
  | bracket hb hb' inner ih => exact bracket_taken hb hb' inner ih
  | done h => exact segments_done h
  | dotted hw _ ih => exact segments_dotted hw ih
  | nested first _ ih₁ ih₂ => exact segments_nested first ih₁ ih₂

/-- `value?` reads exactly the values that stand in front of a text. -/
theorem value_gives_iff {s : Scanner} {t : Token} {rest : List Char} :
    Gives value? s (some t) rest ↔
      s.rest = t.text.toList ++ rest ∧ Reads (.value t.kind) t.text.toList rest := by
  constructor
  · rintro ⟨s', h, rfl⟩
    exact value_reads s t s' h
  · rintro ⟨e, h⟩
    have hn : t.text.toList.length < s.rest.length + 1 := by
      rw [e, List.length_append]
      omega
    have ht := h.taken (s.rest.length + 1) hn s e
    rw [String.ofList_toList] at ht
    exact ht

end Scanner

end Stencil
