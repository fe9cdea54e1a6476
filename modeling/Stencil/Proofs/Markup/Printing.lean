import Mathlib
import Stencil.Proofs.Markup.Spelling

/-!
# Printed markup

A template is written down as a list of pieces: texts, and outputs and tags between delimiters with
their trim markers. `lexemesFrom` says which lexemes the pieces stand for, each by the pieces before
and after it. Lexing what was printed gives these lexemes back.
-/

namespace Stencil.Markup

/-- A part of a template as it is written. -/
inductive Piece where
  | text (s : List Char)
  /-- An output or a tag; `left` and `right` tell whether there is a trim marker. -/
  | delimited (d : Delimiter) (left : Bool) (inner : List Char) (right : Bool)

def Delimiter.close (d : Delimiter) : List Char := [d.closing.1, d.closing.2]

def marker (shown : Bool) : List Char := if shown then ['-'] else []

namespace Piece

def print : Piece → List Char
  | text s => s
  | delimited d left inner right => d.opening ++ (marker left ++ inner ++ marker right) ++ d.close

def isText : Piece → Bool
  | text _ => true
  | delimited .. => false

/-- The piece trims the end of the text before it. -/
def trimsBefore : Piece → Bool
  | text _ => false
  | delimited _ left _ _ => left

/-- The piece trims the start of the text after it. -/
def trimsAfter : Piece → Bool
  | text _ => false
  | delimited _ _ _ right => right

end Piece

def print (pieces : List Piece) : List Char := pieces.flatMap Piece.print

/-! ## The lexemes of pieces -/

/-- The word that the inside of a tag starts with. -/
def tagName (inner : List Char) : List Char := (Text.trim inner).takeWhile Text.isWordChar

/-- What follows the name inside a tag. -/
def tagArguments (inner : List Char) : List Char :=
  Text.trim ((Text.trim inner).dropWhile Text.isWordChar)

def delimitedLexeme (d : Delimiter) (inner : List Char) (offset : Nat) : Lexeme :=
  match d with
  | .output => .output (String.ofList inner) offset
  | .tag => .tag ⟨String.ofList (tagName inner), String.ofList (tagArguments inner), offset⟩

/-- A text without the blanks that the pieces before and after it trim. -/
def kept (trimStart trimEnd : Bool) (s : List Char) : List Char :=
  match trimStart, trimEnd with
  | false, false => s
  | true, false => Text.trimStart s
  | false, true => Text.trimEnd s
  | true, true => Text.trim s

/-- The lexeme of a piece between the pieces before and after it; none for a text of which nothing is
left. -/
def Piece.lexemes (before : List Piece) (p : Piece) (after : List Piece) : List Lexeme :=
  match p with
  | .text s =>
    match kept (before.getLast?.any trimsAfter) (after.head?.any trimsBefore) s with
    | [] => []
    | c :: s => [.text (String.ofList (c :: s))]
  | .delimited d _ inner _ => [delimitedLexeme d inner (Text.byteLength (Markup.print before))]

/-- The lexemes of pieces that follow the pieces `before`. -/
def lexemesFrom (before : List Piece) : List Piece → List Lexeme
  | [] => []
  | p :: after => p.lexemes before after ++ lexemesFrom (before ++ [p]) after

/-! ## Pieces that can be told apart -/

/-- No opening delimiter occurs in the text, nor starts at its end. -/
def Unopened (s : List Char) : Prop :=
  (∀ d : Delimiter, ¬ d.opening <:+: s) ∧ s.getLast? ≠ some '{'

/-- Outside of literals the closing delimiter first occurs right after the text. -/
def Delimiter.ClosesAfter (d : Delimiter) (inner : List Char) : Prop :=
  Closed inner ∧
    ∀ before after, inner ++ d.close = before ++ d.close ++ after → Closed before → after = []

/-- The inside of a tag other than `raw`. -/
def NamesTag (inner : List Char) : Prop :=
  (Text.trim inner).head?.any Text.isWordChar = true ∧ tagName inner ≠ ['r', 'a', 'w']

def Piece.Printable : Piece → Prop
  | text s => s ≠ [] ∧ Unopened s
  | delimited d _ inner _ => inner ≠ [] ∧ inner.head? ≠ some '-' ∧ inner.getLast? ≠ some '-' ∧
      d.ClosesAfter inner ∧ (d = .tag → NamesTag inner)

/-- No two texts side by side. -/
def apart : List Piece → Bool
  | [] => true
  | p :: rest => !(p.isText && rest.head?.any Piece.isText) && apart rest

/-- Pieces that can be told apart in their print. -/
structure Printable (pieces : List Piece) : Prop where
  each : ∀ p ∈ pieces, p.Printable
  apart : apart pieces = true

/-! ### Deciding it -/

theorem unopened_iff {s : List Char} : Unopened s ↔
    (¬ Delimiter.output.opening <:+: s ∧ ¬ Delimiter.tag.opening <:+: s) ∧
      s.getLast? ≠ some '{' := by
  constructor
  · exact fun h => ⟨⟨h.1 .output, h.1 .tag⟩, h.2⟩
  · rintro ⟨⟨ho, ht⟩, hl⟩
    refine ⟨fun d => ?_, hl⟩
    cases d with
    | output => exact ho
    | tag => exact ht

/-- It is enough to look at the places inside the text. -/
theorem closesAfter_iff {d : Delimiter} {inner : List Char} : d.ClosesAfter inner ↔
    Closed inner ∧ ∀ k < inner.length, ((inner ++ d.close).drop k).take 2 = d.close →
      ¬ Closed (inner.take k) := by
  have hd : d.close.length = 2 := rfl
  refine and_congr_right fun _ => ⟨fun h k hk he hc => ?_, fun h before after e hb => ?_⟩
  · have ht : (inner ++ d.close).take k = inner.take k :=
      List.take_append_of_le_length (Nat.le_of_lt hk)
    have e : inner ++ d.close = inner.take k ++ d.close ++ ((inner ++ d.close).drop k).drop 2 := by
      calc inner ++ d.close = (inner ++ d.close).take k ++ (inner ++ d.close).drop k :=
            (List.take_append_drop ..).symm
        _ = inner.take k ++ (((inner ++ d.close).drop k).take 2 ++
              ((inner ++ d.close).drop k).drop 2) := by rw [ht, List.take_append_drop]
        _ = _ := by rw [he, List.append_assoc]
    have hl := congrArg List.length e
    rw [h _ _ e hc] at hl
    simp [hd] at hl
    omega
  · have hl := congrArg List.length e
    simp only [List.length_append, hd] at hl
    rcases Nat.lt_or_ge before.length inner.length with hk | hk
    · have ht : (inner ++ d.close).take before.length = inner.take before.length :=
        List.take_append_of_le_length (Nat.le_of_lt hk)
      rw [e, List.append_assoc, List.take_left] at ht
      refine absurd (ht ▸ hb) (h before.length hk ?_)
      rw [e, List.append_assoc, List.drop_left]
      rfl
    · exact List.length_eq_zero_iff.1 (by omega)

instance (s : List Char) : Decidable (Closed s) := inferInstanceAs (Decidable (_ = _))

instance (s : List Char) : Decidable (Unopened s) := decidable_of_iff _ unopened_iff.symm

instance (d : Delimiter) (inner : List Char) : Decidable (d.ClosesAfter inner) :=
  decidable_of_iff _ closesAfter_iff.symm

instance (inner : List Char) : Decidable (NamesTag inner) := inferInstanceAs (Decidable (_ ∧ _))

instance : DecidablePred Piece.Printable
  | .text _ => inferInstanceAs (Decidable (_ ∧ _))
  | .delimited .. => inferInstanceAs (Decidable (_ ∧ _))

instance (pieces : List Piece) : Decidable (Printable pieces) :=
  decidable_of_iff ((∀ p ∈ pieces, p.Printable) ∧ apart pieces = true)
    ⟨fun h => ⟨h.1, h.2⟩, fun h => ⟨h.1, h.2⟩⟩

/-! ## Delimiters -/

theorem Unopened.nil : Unopened [] := by
  constructor
  · intro d h
    cases d <;> cases List.infix_nil.1 h
  · simp

theorem Unopened.tail {c : Char} {s : List Char} (h : Unopened (c :: s)) : Unopened s := by
  refine ⟨fun d hd => h.1 d (hd.trans (List.suffix_cons c s).isInfix), fun hl => h.2 ?_⟩
  rw [List.getLast?_cons, hl]
  rfl

/-- In an unopened text a brace is followed by a character that makes no delimiter with it. -/
theorem Unopened.second {s : List Char} (h : Unopened ('{' :: s)) :
    ∃ c rest, s = c :: rest ∧ c ≠ '{' ∧ c ≠ '%' := by
  cases s with
  | nil => exact absurd rfl h.2
  | cons c rest =>
    refine ⟨c, rest, rfl, ?_, ?_⟩
    · rintro rfl
      exact h.1 .output ⟨[], rest, rfl⟩
    · rintro rfl
      exact h.1 .tag ⟨[], rest, rfl⟩

/-- The search for an opening delimiter goes over a character that starts none. -/
theorem splitOpening_cons {c : Char} {s : List Char}
    (h : c = '{' → s.head? ≠ some '{' ∧ s.head? ≠ some '%') :
    splitOpening (c :: s) = (splitOpening s).map fun (text, d, rest) => (c :: text, d, rest) := by
  rw [splitOpening.eq_def]
  split
  · cases ‹_ = []›
  · rename_i e
    cases e
    exact absurd rfl (h rfl).1
  · rename_i e
    cases e
    exact absurd rfl (h rfl).2
  · rename_i e
    cases e
    rfl

theorem splitOpening_opening (d : Delimiter) (rest : List Char) :
    splitOpening (d.opening ++ rest) = some ([], d, rest) := by
  cases d <;> rfl

theorem Unopened.starts_none {c : Char} {s : List Char} (h : Unopened (c :: s)) (rest : List Char) :
    c = '{' → (s ++ rest).head? ≠ some '{' ∧ (s ++ rest).head? ≠ some '%' := by
  rintro rfl
  obtain ⟨d, s, rfl, h₁, h₂⟩ := h.second
  simpa using ⟨h₁, h₂⟩

theorem splitOpening_append {s : List Char} (h : Unopened s) (d : Delimiter) (rest : List Char) :
    splitOpening (s ++ d.opening ++ rest) = some (s, d, rest) := by
  induction s with
  | nil => exact splitOpening_opening d rest
  | cons c s ih =>
    rw [List.append_assoc] at ih ⊢
    rw [List.cons_append, splitOpening_cons (h.starts_none _), ih h.tail]
    rfl

theorem splitOpening_unopened {s : List Char} (h : Unopened s) : splitOpening s = none := by
  induction s with
  | nil => rfl
  | cons c s ih =>
    have hc := h.starts_none []
    rw [List.append_nil] at hc
    rw [splitOpening_cons hc, ih h.tail]
    rfl

/-- Outside of literals no closing delimiter starts before the end of the text, from a place on. -/
def ClosesLate (close : Char × Char) (place : Quoting) (inner : List Char) : Prop :=
  ∀ before after, inner ++ [close.1, close.2] = before ++ [close.1, close.2] ++ after →
    place.after before = .outside → after = []

theorem ClosesLate.tail {close : Char × Char} {place : Quoting} {c : Char} {inner : List Char}
    (h : ClosesLate close place (c :: inner)) : ClosesLate close (place.next c) inner := by
  intro before after e hb
  exact h (c :: before) after (by simp [e]) hb

/-- Where a delimiter could start inside the text, what follows does not complete it. -/
theorem ClosesLate.ne_close {close : Char × Char} {c : Char} {inner tail : List Char}
    (h : ClosesLate close .outside (c :: inner))
    (ht : tail.head? = some close.1 ∨ tail.head? ≠ some close.2) :
    ¬ (c = close.1 ∧ (inner ++ tail).head? = some close.2) := by
  rintro ⟨rfl, hs⟩
  cases inner with
  | nil =>
    have he : close.1 = close.2 := by
      rcases ht with ht | ht
      · exact Option.some.inj (ht.symm.trans hs)
      · exact absurd hs ht
    have := h [] [close.2] (by simp [he]) rfl
    cases this
  | cons d inner =>
    have hd : d = close.2 := by simpa using hs
    have := h [] (inner ++ [close.1, close.2]) (by simp [hd]) rfl
    simp at this

/-- From a place on, the text closes its literals, and a closing delimiter comes only behind it. -/
structure Encloses (close : Char × Char) (place : Quoting) (inner : List Char) : Prop where
  closed : place.after inner = .outside
  late : ClosesLate close place inner

theorem Encloses.next {close : Char × Char} {place place' : Quoting} {c : Char} {inner : List Char}
    (h : Encloses close place (c :: inner)) (hn : place.next c = place') :
    Encloses close place' inner := by
  subst hn
  exact ⟨h.closed, h.late.tail⟩

/-- The search for the closing delimiter goes over a text in which none starts outside of literals,
whatever follows that does not complete one. -/
theorem splitClosing_append {close : Char × Char} {tail : List Char}
    (ht : tail.head? = some close.1 ∨ tail.head? ≠ some close.2) :
    ∀ (quote : Option Char) (inner : List Char), Encloses close (Quoting.within quote) inner →
      splitClosing close quote (inner ++ tail) =
        (splitClosing close none tail).map fun (i, rest) => (inner ++ i, rest)
  | none, [], _ => by simp
  | some q, [], h => by cases h.closed
  | none, c :: inner, h => by
    rw [List.cons_append, splitClosing.eq_def]
    by_cases hq : Span.isQuote c = true
    · have hi : Encloses close (Quoting.within (some c)) inner :=
        h.next (by simp [Quoting.within, Quoting.next, hq])
      simp only [hq, if_true, splitClosing_append ht (some c) inner hi, Option.map_map]
      rfl
    · have hi : Encloses close (Quoting.within none) inner :=
        h.next (by simp [Quoting.within, Quoting.next, hq])
      simp only [hq, if_neg (h.late.ne_close ht), splitClosing_append ht none inner hi,
        Option.map_map]
      rfl
  | some q, c :: inner, h => by
    rw [List.cons_append, splitClosing.eq_def]
    by_cases hb : c = '\\'
    · have he : Encloses close (.escaped q) inner :=
        h.next (by simp [Quoting.within, Quoting.next, hb])
      cases inner with
      | nil => cases he.closed
      | cons d inner =>
        have hi : Encloses close (Quoting.within (some q)) inner := he.next rfl
        rw [List.cons_append]
        simp only [if_pos hb, splitClosing_append ht (some q) inner hi, Option.map_map]
        rfl
    · have hi : Encloses close (Quoting.within (if c = q then none else some q)) inner :=
        h.next (by rw [Quoting.within, Quoting.next, if_neg hb]; split <;> rfl)
      simp only [if_neg hb, splitClosing_append ht _ inner hi, Option.map_map]
      rfl

theorem passed_marker (d : Delimiter) (shown : Bool) : Passed d.closing (marker shown) :=
  .of_free (by cases d <;> cases shown <;> decide)

theorem splitClosing_close (d : Delimiter) (rest : List Char) :
    splitClosing d.closing none (d.close ++ rest) = some ([], rest) := by
  cases d <;> rfl

theorem splitClosing_inside {d : Delimiter} {inner : List Char} (h : d.ClosesAfter inner)
    (left right : Bool) (rest : List Char) :
    splitClosing d.closing none (marker left ++ inner ++ marker right ++ (d.close ++ rest)) =
      some (marker left ++ inner ++ marker right, rest) := by
  have ht : (marker right ++ (d.close ++ rest)).head? = some d.closing.1 ∨
      (marker right ++ (d.close ++ rest)).head? ≠ some d.closing.2 := by
    cases right with
    | false => exact .inl rfl
    | true => exact .inr (by cases d <;> simp [marker, Delimiter.closing])
  rw [List.append_assoc, List.append_assoc, passed_marker,
    splitClosing_append ht none inner ⟨h.1, h.2⟩, passed_marker, splitClosing_close]
  simp

theorem splitMarkers_marked {inner : List Char} (hn : inner ≠ []) (hh : inner.head? ≠ some '-')
    (hl : inner.getLast? ≠ some '-') (left right : Bool) :
    splitMarkers (marker left ++ inner ++ marker right) = (left, inner, right) := by
  obtain ⟨c, cs, rfl⟩ := List.exists_cons_of_ne_nil hn
  have hc : c ≠ '-' := by simpa using hh
  have hd : ((c :: cs) ++ ['-']).getLast? = some '-' := List.getLast?_concat
  have hi : ((c :: cs) ++ ['-']).dropLast = c :: cs := List.dropLast_concat
  rw [List.cons_append] at hd hi
  cases left <;> cases right <;> simp [splitMarkers, marker, hc, hl, hd, hi]

/-! ## Lexemes -/

theorem textLexeme_eq (trimStart trimEnd : Bool) (s : List Char) :
    textLexeme trimStart trimEnd s =
      match kept trimStart trimEnd s with
      | [] => []
      | c :: s => [.text (String.ofList (c :: s))] := by
  have e : kept trimStart trimEnd s =
      (if trimEnd then Text.trimEnd (if trimStart then Text.trimStart s else s)
        else if trimStart then Text.trimStart s else s) := by
    cases trimStart <;> cases trimEnd <;> rfl
  rw [textLexeme, ← e]
  cases kept trimStart trimEnd s <;> rfl

theorem tagToken?_eq {inner : List Char} {offset : Nat} : tagToken? inner offset =
    if tagName inner = [] then none
    else some ⟨String.ofList (tagName inner), String.ofList (tagArguments inner), offset⟩ := by
  simp only [tagToken?, List.isEmpty_iff]
  rfl

theorem tagToken?_eq_some_iff {inner : List Char} {offset : Nat} {t : TagToken} :
    tagToken? inner offset = some t ↔ tagName inner ≠ [] ∧
      t = ⟨String.ofList (tagName inner), String.ofList (tagArguments inner), offset⟩ := by
  rw [tagToken?_eq, Option.ite_none_left_eq_some, Option.some.injEq]
  exact and_congr_right fun _ => eq_comm

theorem namesTag_iff {inner : List Char} :
    NamesTag inner ↔ tagName inner ≠ [] ∧ tagName inner ≠ ['r', 'a', 'w'] := by
  refine and_congr_left fun _ => ?_
  unfold tagName
  cases Text.trim inner with
  | nil => simp
  | cons c s => by_cases hc : Text.isWordChar c = true <;> simp [hc]

theorem lexFrom_last {source : String} {pos : Nat} {trimNext : Bool} {s : List Char}
    (h : splitOpening s = none) : lexFrom source pos trimNext s = .ok (textLexeme trimNext false s) := by
  rw [lexFrom]
  split
  · rfl
  · rename_i h'
    cases h.symm.trans h'

theorem lexFrom_unopened {source : String} {pos : Nat} {trimNext : Bool} {s : List Char}
    (h : Unopened s) : lexFrom source pos trimNext s = .ok (textLexeme trimNext false s) :=
  lexFrom_last (splitOpening_unopened h)

/-- A step of the lexer over the text before an opening delimiter and what the delimiters enclose. -/
theorem lexFrom_step {source : String} {pos : Nat} {trimNext left right : Bool} {d : Delimiter}
    {s text enclosed marked inner rest : List Char} (ho : splitOpening s = some (text, d, enclosed))
    (hc : splitClosing d.closing none enclosed = some (marked, rest))
    (hm : splitMarkers marked = (left, inner, right)) (ht : d = .tag → NamesTag inner) :
    lexFrom source pos trimNext s =
      (lexFrom source (pos + Text.byteLength text + 4 + Text.byteLength marked) right rest).map
        fun more => textLexeme trimNext left text ++
          delimitedLexeme d inner (pos + Text.byteLength text) :: more := by
  rw [lexFrom]
  split
  · rename_i h
    cases ho.symm.trans h
  · rename_i h
    cases ho.symm.trans h
    dsimp only
    split
    · rename_i h
      cases hc.symm.trans h
    · rename_i h
      cases hc.symm.trans h
      rw [hm]
      cases d with
      | output =>
        cases lexFrom source (pos + Text.byteLength text + 4 + Text.byteLength marked) right rest <;>
          rfl
      | tag =>
        obtain ⟨hname, hne⟩ := namesTag_iff.1 (ht rfl)
        have hraw : String.ofList (tagName inner) ≠ "raw" := fun e =>
          hne (String.ofList_injective e)
        dsimp only
        rw [tagToken?_eq, if_neg hname]
        dsimp only
        rw [if_neg hraw]
        cases lexFrom source (pos + Text.byteLength text + 4 + Text.byteLength marked) right rest <;>
          rfl

/-- The lexer takes an unopened text and a delimited piece, and goes on behind them. -/
theorem lexFrom_delimited {source : String} {pos : Nat} {trimNext left right : Bool} {d : Delimiter}
    {s inner : List Char} (hs : Unopened s)
    (hp : (Piece.delimited d left inner right).Printable) (rest : List Char) :
    lexFrom source pos trimNext (s ++ (Piece.delimited d left inner right).print ++ rest) =
      (lexFrom source (pos + Text.byteLength (s ++ (Piece.delimited d left inner right).print)) right
        rest).map fun more => textLexeme trimNext left s ++
          delimitedLexeme d inner (pos + Text.byteLength s) :: more := by
  obtain ⟨hn, hh, hl, hc, ht⟩ := hp
  have ho := splitOpening_append hs d (marker left ++ inner ++ marker right ++ (d.close ++ rest))
  have hb : Text.byteLength d.opening = 2 ∧ Text.byteLength d.close = 2 := by cases d <;> decide
  have hpos : pos + Text.byteLength (s ++ (Piece.delimited d left inner right).print) =
      pos + Text.byteLength s + 4 + Text.byteLength (marker left ++ inner ++ marker right) := by
    simp only [Piece.print, Text.byteLength_append, hb]
    omega
  have e : s ++ (Piece.delimited d left inner right).print ++ rest =
      s ++ d.opening ++ (marker left ++ inner ++ marker right ++ (d.close ++ rest)) := by
    simp [Piece.print]
  rw [hpos, e]
  exact lexFrom_step ho (splitClosing_inside hc left right rest)
    (splitMarkers_marked hn hh hl left right) ht

/-! ## Templates -/

theorem print_snoc (before : List Piece) (p : Piece) :
    print (before ++ [p]) = print before ++ p.print := by simp [print]

theorem trimsAfter_snoc (before : List Piece) (p : Piece) :
    (before ++ [p]).getLast?.any Piece.trimsAfter = p.trimsAfter := by simp

theorem Printable.tail {p : Piece} {pieces : List Piece} (h : Printable (p :: pieces)) :
    Printable pieces where
  each q hq := h.each q (List.mem_cons_of_mem _ hq)
  apart := (Bool.and_eq_true_iff.1 h.apart).2

/-- The lexer is behind the pieces `before`; the rest of the source is the print of `after`. -/
theorem lexFrom_print (source : String) : ∀ (before after : List Piece), Printable after →
    lexFrom source (Text.byteLength (print before)) (before.getLast?.any Piece.trimsAfter)
      (print after) = .ok (lexemesFrom before after)
  | before, [], _ => by
    change lexFrom _ _ _ [] = _
    rw [lexFrom_unopened Unopened.nil, textLexeme_eq]
    cases before.getLast?.any Piece.trimsAfter <;> rfl
  | before, .delimited d left inner right :: after, h => by
    have hp := h.each _ List.mem_cons_self
    have ih := lexFrom_print source
      (before ++ [.delimited d left inner right]) after h.tail
    rw [print_snoc, trimsAfter_snoc, Text.byteLength_append] at ih
    change lexFrom _ _ _ ([] ++ (Piece.delimited d left inner right).print ++ print after) = _
    rw [lexFrom_delimited Unopened.nil hp, List.nil_append, textLexeme_eq]
    simp only [Piece.trimsAfter] at ih
    rw [ih, lexemesFrom]
    cases before.getLast?.any Piece.trimsAfter <;> cases left <;> rfl
  | before, [.text s], h => by
    obtain ⟨-, hs⟩ := h.each _ List.mem_cons_self
    have e : print [.text s] = s := List.append_nil s
    rw [e, lexFrom_unopened hs, textLexeme_eq]
    simp [lexemesFrom, Piece.lexemes]
  | before, .text s :: .delimited d left inner right :: after, h => by
    obtain ⟨-, hs⟩ := h.each _ List.mem_cons_self
    have hp := h.tail.each _ List.mem_cons_self
    have ih := lexFrom_print source
      (before ++ [.text s] ++ [.delimited d left inner right]) after h.tail.tail
    rw [print_snoc, print_snoc, trimsAfter_snoc, List.append_assoc, Text.byteLength_append] at ih
    change lexFrom _ _ _ (s ++ ((Piece.delimited d left inner right).print ++ print after)) = _
    rw [← List.append_assoc, lexFrom_delimited hs hp, textLexeme_eq]
    simp only [Piece.trimsAfter, Piece.print] at ih ⊢
    rw [ih, lexemesFrom, lexemesFrom]
    simp only [Piece.lexemes, print_snoc, Text.byteLength_append]
    rfl
  | before, .text s :: .text t :: after, h => by cases h.apart

theorem lex_print {pieces : List Piece} (h : Printable pieces) :
    lex (String.ofList (print pieces)) = .ok (lexemesFrom [] pieces) := by
  have hl := lexFrom_print (String.ofList (print pieces)) [] pieces h
  rw [lex, String.toList_ofList]
  exact hl

/-- Closing delimiters and markers inside literals, a text of blanks between two markers, and a
character of two bytes before the first delimiter. -/
theorem lex_print_marked :
    let pieces : List Piece := [
      .text ['é', ' '],
      .delimited .output true ['\'', '-', '}', '}', '\'', ' '] true,
      .text [' ', '\n'],
      .delimited .tag true [' ', 'i', 'f', ' ', ' ', 'x'] false,
      .text [' ', '!']]
    Printable pieces ∧ lex (String.ofList (print pieces)) = .ok [
      .text "é", .output "'-\x7d\x7d' " 3, .tag ⟨"if", "x", 17⟩, .text " !"] := by
  have h : Printable [
      .text ['é', ' '],
      .delimited .output true ['\'', '-', '}', '}', '\'', ' '] true,
      .text [' ', '\n'],
      .delimited .tag true [' ', 'i', 'f', ' ', ' ', 'x'] false,
      .text [' ', '!']] := by decide
  exact ⟨h, (lex_print h).trans (by cbv)⟩

end Stencil.Markup
