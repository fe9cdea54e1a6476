import Stencil.Expression.Basic
import Stencil.Proofs.Expression.Words

/-!
# Runs of scanning readers

`Gives m s a rest` says that a reader ends well from a place, with a value and with `rest` left. Each
basic reader has a lemma that it gives a value, and one that says what a run that ended well has taken.
-/

namespace Stencil

namespace Scanner

open Text (startsName continuesName isBlank)

/-! ## Runs that end well -/

/-- From `s` the reader gives `a` and leaves `rest`. -/
def Gives {α : Type} (m : Scan α) (s : Scanner) (a : α) (rest : List Char) : Prop :=
  ∃ s', m s = .ok a s' ∧ s'.rest = rest

def Blank (s : List Char) : Prop := ∀ c ∈ s, isBlank c = true

instance (s : List Char) : Decidable (Blank s) :=
  decidable_of_iff (s.all isBlank = true) List.all_eq_true

section
variable {α β : Type} {m : Scan α} {f : α → Scan β} {s s' : Scanner} {a : α} {b : β}
  {rest rest' : List Char}

theorem Gives.bind (h : Gives m s a rest) (hf : ∀ s', s'.rest = rest → Gives (f a) s' b rest') :
    Gives (m >>= f) s b rest' := by
  obtain ⟨s₁, hm, hr⟩ := h
  obtain ⟨s₂, hs, hr'⟩ := hf s₁ hr
  exact ⟨s₂, bind_eq_ok_iff.2 ⟨a, s₁, hm, hs⟩, hr'⟩

theorem Gives.eq_of_ok (h : Gives m s a rest) {a' : α} (h' : m s = .ok a' s') :
    a' = a ∧ s'.rest = rest := by
  obtain ⟨s₁, hm, hr⟩ := h
  cases hm.symm.trans h'
  exact ⟨rfl, hr⟩

theorem Gives.pure : Gives (pure a) s a s.rest := ⟨s, rfl, rfl⟩

theorem get_gives : Gives get s s s.rest := ⟨s, rfl, rfl⟩

theorem peek_gives : Gives peek s s.rest.head? s.rest := ⟨s, rfl, rfl⟩

theorem attempt_gives {reader : Scan (Option α)} (h : Gives reader s (some a) rest) :
    Gives (attempt reader) s (some a) rest := by
  obtain ⟨s', hr, e⟩ := h
  refine ⟨s', ?_, e⟩
  rw [attempt, hr]

theorem attempt_misses {reader : Scan (Option α)} (h : Gives reader s none rest) :
    Gives (attempt reader) s none s.rest := by
  obtain ⟨s', hr, -⟩ := h
  refine ⟨s, ?_, rfl⟩
  rw [attempt, hr]

theorem atEnd_gives (h : s.rest = []) : Gives atEnd s true s.rest :=
  ⟨s, by rw [atEnd, h]; rfl, rfl⟩

theorem atEnd_misses {c : Char} (h : s.rest = c :: rest) : Gives atEnd s false s.rest :=
  ⟨s, by rw [atEnd, h]; rfl, rfl⟩

theorem require_gives {condition : Bool} {message : String} (h : condition = true) :
    Gives (require condition message) s () s.rest := by
  rw [require, if_pos h]
  exact .pure

theorem require_ok {condition : Bool} {message : String} {u : Unit}
    (h : require condition message s = .ok u s') : condition = true ∧ s' = s := by
  unfold require at h
  split at h
  · cases h
    exact ⟨‹_›, rfl⟩
  · cases h

theorem lift_gives {r : Except Error α} (h : r = .ok a) : Gives (lift r) s a s.rest := by
  subst h
  exact .pure

theorem lift_ok {r : Except Error α} (h : lift r s = .ok a s') : r = .ok a ∧ s' = s := by
  unfold lift at h
  split at h
  · cases h
    exact ⟨rfl, rfl⟩
  · cases h

theorem eat_gives {c : Char} (h : s.rest = c :: rest) : Gives (eat c) s true rest := by
  unfold Gives eat
  rw [h]
  exact ⟨_, if_pos rfl, rfl⟩

theorem eat_ok {c : Char} {eaten : Bool} (h : eat c s = .ok eaten s') :
    eaten = true ∧ s.rest = c :: s'.rest ∨ eaten = false ∧ s' = s := by
  unfold eat at h
  split at h
  · cases h
    exact .inr ⟨rfl, rfl⟩
  · rename_i d rest e
    split at h
    · rename_i hd
      cases h
      exact .inl ⟨rfl, by rw [e, hd]; rfl⟩
    · cases h
      exact .inr ⟨rfl, rfl⟩

theorem eat_true {c : Char} (h : eat c s = .ok true s') : s.rest = c :: s'.rest := by
  rcases eat_ok h with ⟨-, e⟩ | ⟨h, -⟩
  · exact e
  · cases h

theorem eat_head_ok {c : Char} {eaten : Bool} (hs : s.rest.head? = some c)
    (h : eat c s = .ok eaten s') : s.rest = c :: s'.rest := by
  obtain ⟨rest, e⟩ := List.head?_eq_some_iff.1 hs
  obtain ⟨s₁, h₁, e₁⟩ := eat_gives e
  cases h₁.symm.trans h
  rw [e, e₁]

theorem eat_misses {c : Char} (h : s.rest.head? ≠ some c) : Gives (eat c) s false s.rest := by
  unfold Gives eat
  split
  · exact ⟨s, rfl, rfl⟩
  · rename_i d rest e
    rw [if_neg]
    · exact ⟨s, rfl, rfl⟩
    · rintro rfl
      exact h (by rw [e]; rfl)

theorem eatAll_gives {word : List Char} (h : s.rest = word ++ rest) :
    Gives (eatAll word) s true rest := by
  unfold Gives eatAll
  rw [h, if_pos (List.isPrefixOf_iff_prefix.2 (List.prefix_append _ _))]
  exact ⟨_, rfl, List.drop_left⟩

theorem eatAll_ok {word : List Char} (h : eatAll word s = .ok true s') :
    s.rest = word ++ s'.rest := by
  unfold eatAll at h
  split at h
  · rename_i hp
    cases h
    obtain ⟨rest, e⟩ := List.isPrefixOf_iff_prefix.1 hp
    simp [past, ← e]
  · cases h

theorem skipBlanks_gives {blanks : List Char} (h : s.rest = blanks ++ rest) (hb : Blank blanks)
    (hr : Breaks isBlank rest) : Gives skipBlanks s () rest := by
  obtain ⟨-, hd⟩ := span_iff.2 ⟨h, hb, hr⟩
  exact ⟨_, rfl, hd⟩

theorem skipBlanks_ok {u : Unit} (h : skipBlanks s = .ok u s') :
    ∃ blanks, Blank blanks ∧ s.rest = blanks ++ s'.rest ∧ Breaks isBlank s'.rest := by
  cases h
  obtain ⟨e, hb, hr⟩ := span_iff.1 ⟨rfl, (rfl : s.rest.dropWhile isBlank = _)⟩
  exact ⟨_, hb, e, hr⟩

theorem chunk_gives {split : List Char → Option (List Char × List Char)} {chunk : List Char}
    (h : split s.rest = some (chunk, rest)) :
    Gives (chunk? split) s (some (String.ofList chunk)) rest := by
  unfold Gives chunk?
  rw [h]
  exact ⟨_, rfl, rfl⟩

theorem chunk_none {split : List Char → Option (List Char × List Char)} (h : split s.rest = none) :
    chunk? split s = .ok none s := by
  unfold chunk?
  rw [h]

theorem chunk_misses {split : List Char → Option (List Char × List Char)} (h : split s.rest = none) :
    Gives (chunk? split) s none s.rest := ⟨s, chunk_none h, rfl⟩

theorem chunk_ok {split : List Char → Option (List Char × List Char)} {o : Option String}
    (h : chunk? split s = .ok o s') : o = none ∧ s' = s ∧ split s.rest = none ∨
      ∃ chunk, o = some (String.ofList chunk) ∧ split s.rest = some (chunk, s'.rest) := by
  unfold chunk? at h
  split at h
  · rename_i hn
    cases h
    exact .inl ⟨rfl, rfl, hn⟩
  · rename_i chunk rest hs
    cases h
    exact .inr ⟨chunk, rfl, hs⟩

theorem taking_gives {reader : Scan Unit} {text : List Char} (h : Gives reader s () rest)
    (hs : s.rest = text ++ rest) : Gives (taking reader) s (String.ofList text) rest := by
  obtain ⟨s', hr, rfl⟩ := h
  refine ⟨s', ?_, rfl⟩
  rw [taking, hr]
  simp [hs]

theorem taking_ok {reader : Scan Unit} {text : String} (h : taking reader s = .ok text s') :
    reader s = .ok () s' ∧ ∀ t, s.rest = t ++ s'.rest → text = String.ofList t := by
  unfold taking at h
  split at h
  · rename_i hr
    cases h
    exact ⟨hr, fun t e => by simp [e]⟩
  · cases h

theorem skipTo_gives {stops : List Char} (h : Span.seek stops 0 s.rest = .ok rest) :
    Gives (skipTo stops) s rest.head? rest := by
  unfold Gives skipTo
  rw [h]
  exact ⟨_, rfl, rfl⟩

theorem skipTo_ok {stops : List Char} {o : Option Char} (h : skipTo stops s = .ok o s') :
    Span.seek stops 0 s.rest = .ok s'.rest := by
  unfold skipTo at h
  split at h
  · rename_i hk
    cases h
    exact hk
  · cases h

theorem outcome_eq_ok_iff {r : EStateM.Result Error Scanner α} :
    outcome r = .ok a ↔ ∃ s', r = .ok a s' := by
  cases r with
  | ok b s₁ => simp [outcome]
  | error e s₁ => simp [outcome]

end

end Scanner

theorem Expression.readIn_eq_ok_iff {α : Type} {reader : Scan α} {text : List Char} {a : α} :
    readIn reader text = .ok a ↔ ∃ s', reader (Scanner.ofChars text) = .ok a s' :=
  Scanner.outcome_eq_ok_iff

theorem Expression.readIn_of_gives {α : Type} {reader : Scan α} {text rest : List Char} {a : α}
    (h : Scanner.Gives reader (Scanner.ofChars text) a rest) : readIn reader text = .ok a := by
  obtain ⟨s', hr, -⟩ := h
  exact readIn_eq_ok_iff.2 ⟨s', hr⟩

end Stencil
