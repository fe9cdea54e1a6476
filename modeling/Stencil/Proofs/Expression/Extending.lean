import Stencil.Proofs.Decimal.Integers
import Stencil.Proofs.Expression.Agreement

/-!
# Paths that go on

A path with more steps behind it is a path with the segments of these steps behind its own
(`Expression.PathText.extended`). So a property with a name may as well be read by the name in a
bracket, as a literal, and an item by its index in a bracket.
-/

namespace Stencil

open Scanner

-- Powers are those of the natural numbers and integers, whatever algebra is imported.
attribute [local instance (high)] instPowNat

/-! ## Steps one behind another -/

def Steps.append : Steps → Steps → Steps
  | .none, more => more
  | .name n further, more => .name n (further.append more)
  | .index ds further, more => .index ds (further.append more)
  | .bracket next further, more => .bracket next (further.append more)

theorem Steps.spelling_append (more steps : Steps) :
    (steps.append more).spelling = steps.spelling ++ more.spelling := by
  fun_induction steps.append more with
  | case1 => rfl
  | case2 more name further ih => rw [spelling, spelling, ih, List.cons_append, List.append_assoc]
  | case3 more ds further ih => rw [spelling, spelling, ih, List.cons_append, List.append_assoc]
  | case4 more next further ih => rw [spelling, spelling, ih, List.append_assoc]

theorem Steps.segments_append (more steps : Steps) :
    (steps.append more).segments = steps.segments ++ more.segments := by
  fun_induction steps.append more with
  | case1 => rfl
  | case2 more name further ih => rw [segments, segments, ih, List.cons_append]
  | case3 more ds further ih => rw [segments, segments, ih, List.cons_append]
  | case4 more next further ih => rw [segments, segments, ih, List.cons_append]

theorem Steps.fits_append {more steps : Steps} (hm : more.Fits) (hs : steps.Fits) :
    (steps.append more).Fits := by
  fun_induction steps.append more with
  | case1 => exact hm
  | case2 more name further ih => exact ih hm hs
  | case3 more ds further ih => exact ⟨hs.1, ih hm hs.2⟩
  | case4 more next further ih => exact ⟨hs.1, ih hm hs.2⟩

/-- A word with a step behind it is a name. -/
theorem word?_append (name : String) (steps : Steps) {more : Steps} (h : more ≠ .none) :
    word? name (steps.append more) = none := by
  cases steps with
  | none =>
    cases more with
    | none => exact absurd rfl h
    | name | index | bracket => rfl
  | name | index | bracket => rfl

/-! ## Terms that go on -/

namespace Term

/-- A token makes no expression but that of its term, and only if everything in it fits. -/
theorem fits_of_ofToken {t : Term} {e : Expression} (h : Expression.ofToken t.token = .ok e) :
    t.Fits ∧ t.expression = e := by
  have hl := t.ofToken_limited
  rw [h] at hl
  cases hl with
  | ok hf => exact ⟨hf, rfl⟩

/-- The segments of a term that more steps may follow. -/
def segments? : Term → Option (List Segment)
  | .named name further => some (.key (String.ofList name) :: further.segments)
  | .bracketed start further => some (start.segment :: further.segments)
  | _ => none

/-- With more steps a term that may go on stands for a path with more segments. -/
theorem ofChars_extended {t : Term} {segments : List Segment} (ht : t.Fits)
    (h : t.segments? = some segments) {more : Steps} (hm : more ≠ .none) (hfits : more.Fits) :
    Expression.ofChars (t.spelling ++ more.spelling) =
      .ok (.path (String.ofList (t.spelling ++ more.spelling)) (segments ++ more.segments)) := by
  cases t with
  | string | number | range => cases h
  | named name further =>
    obtain rfl := Option.some.inj h
    have hp := ofChars_spelling (t := .named name (further.append more))
      (Steps.fits_append hfits ht)
    rw [expression, word?_append _ _ hm] at hp
    simpa [spelling, Steps.spelling_append, Steps.segments_append] using hp
  | bracketed start further =>
    obtain rfl := Option.some.inj h
    have hp := ofChars_spelling (t := .bracketed start (further.append more))
      ⟨ht.1, Steps.fits_append hfits ht.2⟩
    rw [expression] at hp
    simpa [spelling, Steps.spelling_append, Steps.segments_append] using hp

end Term

/-! ## Texts of paths -/

namespace Expression

/-- The text is parsed as the path of these segments. -/
def IsPath (text : String) (segments : List Segment) : Prop :=
  parse text = .ok (.path text segments)

/-- The text of a path that more steps may follow, and its segments. Alone the four words are
literals, and start paths like other names. -/
inductive PathText : String → List Segment → Prop where
  | path {text : String} {segments : List Segment} (h : IsPath text segments) :
    PathText text segments
  | word {text : String} (h : text ∈ ["true", "false", "nil", "null"]) : PathText text [.key text]

theorem isName_word : ∀ text ∈ ["true", "false", "nil", "null"], IsName text.toList := by
  simp only [List.forall_mem_cons]
  exact ⟨⟨'t', _, rfl, by decide, List.all_eq_true.1 (by decide)⟩,
    ⟨'f', _, rfl, by decide, List.all_eq_true.1 (by decide)⟩,
    ⟨'n', _, rfl, by decide, List.all_eq_true.1 (by decide)⟩,
    ⟨'n', _, rfl, by decide, List.all_eq_true.1 (by decide)⟩,
    List.forall_mem_nil _⟩

/-- The text of a path is the spelling of a term that may go on. -/
theorem PathText.term {text : String} {segments : List Segment} (h : PathText text segments) :
    ∃ t : Term, t.spelling = text.toList ∧ t.Fits ∧ t.segments? = some segments := by
  cases h with
  | word h =>
    have hname : IsName text.toList := isName_word text h
    exact ⟨.named ⟨text.toList, hname⟩ .none, by simp [Term.spelling, Steps.spelling], trivial,
      by simp [Term.segments?, Steps.segments]⟩
  | path h =>
    obtain ⟨t, -, ho⟩ := term_of_ofChars h
    obtain ⟨hfits, he⟩ := t.fits_of_ofToken ho
    have hs : String.ofList t.spelling = text := by
      rw [← t.spelling_expression, he]
      rfl
    refine ⟨t, by rw [← hs, String.toList_ofList], hfits, ?_⟩
    cases t with
    | string | number | range => cases he
    | named name further =>
      rw [Term.expression] at he
      split at he
      · cases he
      · exact congrArg some (Expression.path.inj he).2
    | bracketed start further => exact congrArg some (Expression.path.inj he).2

/-- More steps behind the text of a path are more segments. -/
theorem PathText.extended {text : String} {segments : List Segment} (h : PathText text segments)
    (more : Steps) (hm : more ≠ .none) (hfits : more.Fits) {s : String}
    (hs : s.toList = text.toList ++ more.spelling) : IsPath s (segments ++ more.segments) := by
  obtain ⟨t, ht, hf, hseg⟩ := h.term
  have hp := Term.ofChars_extended hf hseg hm hfits
  rw [ht, ← hs, String.ofList_toList] at hp
  exact hp

end Expression

/-! ## Names and indices in brackets -/

section
variable {s : List Char}

theorem Quotable.of_plain {q : Char} (h : ∀ c ∈ s, c ≠ q ∧ c ≠ '\\') : Quotable q s := by
  induction s with
  | nil => exact .nil
  | cons c s ih =>
    obtain ⟨⟨hq, hb⟩, hs⟩ := List.forall_mem_cons.1 h
    exact .plain hq hb (ih hs)

theorem Expression.unescape_of_plain (h : ∀ c ∈ s, c ≠ '\\') : unescape s = s := by
  induction s with
  | nil => rfl
  | cons c s ih =>
    obtain ⟨hc, hs⟩ := List.forall_mem_cons.1 h
    rw [unescape.eq_def]
    simp [hc, ih hs]

/-- A name holds no quote and no backslash. -/
theorem Scanner.IsName.plain (h : IsName s) : ∀ c ∈ s, c ≠ '"' ∧ c ≠ '\\' := by
  have quote : Text.continuesName '"' = false := by decide
  have backslash : Text.continuesName '\\' = false := by decide
  intro c hc
  constructor
  · rintro rfl
    cases quote.symm.trans (h.continues _ hc)
  · rintro rfl
    cases backslash.symm.trans (h.continues _ hc)

end

/-- No blanks. -/
def Blanks.empty : Blanks := ⟨[], List.forall_mem_nil _⟩

@[simp] theorem Blanks.val_empty : Blanks.empty.val = [] := rfl

def NumberLiteral.ofDigits (ds : Digits) : NumberLiteral := ⟨false, ds, none⟩

theorem NumberLiteral.int64?_ofDigits (ds : Digits) (h : Decimal.digitsValue ds < 2 ^ (63 : Nat)) :
    (ofDigits ds).int64? = some (Decimal.digitsValue ds : Int) := by
  have h64 : Decimal.IsInt64 (Decimal.digitsValue ds) := ⟨by omega, by omega⟩
  exact Decimal.int64?_of_isInt64 h64

theorem NumberLiteral.value_ofDigits (ds : Digits) (h : Decimal.digitsValue ds < 2 ^ (63 : Nat)) :
    (ofDigits ds).value = .int (Decimal.digitsValue ds) := by
  rw [value, int64?_ofDigits ds h]

theorem Expression.bracketSegment_int (spelling : String) {n : Int} (h : Decimal.IsInt64 n) :
    bracketSegment (.literal spelling (.int n)) = .index n := by
  have hn : (Number.int n).int64? = some n := Decimal.int64?_of_isInt64 h
  rw [Value.int, bracketSegment, hn]

/-- Digits in a bracket are the index that they make. -/
theorem Bracket.segment_digits (ds : Digits) (h : Decimal.digitsValue ds < 2 ^ (63 : Nat))
    (b b' : Blanks) : (Bracket.mk b (.number (.ofDigits ds)) b').segment =
      .index (Decimal.digitsValue ds) := by
  have h64 : Decimal.IsInt64 (Decimal.digitsValue ds) := ⟨by omega, by omega⟩
  have hv := NumberLiteral.value_ofDigits ds h
  rw [Bracket.segment, Term.expression, hv]
  exact Expression.bracketSegment_int _ h64

namespace Expression.PathText

variable {text : String} {segments : List Segment} (h : PathText text segments)
include h

/-- A name behind a point, and in a bracket as a literal. -/
theorem extended_key {k : String} (hk : IsName k.toList) :
    IsPath (text ++ "." ++ k) (segments ++ [.key k]) ∧
    IsPath (text ++ "[\"" ++ k ++ "\"]") (segments ++ [.key k]) := by
  let name : Name := ⟨k.toList, hk⟩
  let literal : Term := .string '"' k.toList rfl (.of_plain hk.plain)
  have hsegment : (Bracket.mk .empty literal .empty).segment = .key k := by
    simp [Bracket.segment, literal, Term.expression, bracketSegment,
      unescape_of_plain fun c hc => (hk.plain c hc).2]
  constructor
  · have hp := h.extended (.name name .none) (by simp) trivial (s := text ++ "." ++ k)
      (by simp [Steps.spelling, name])
    simpa [Steps.segments, name] using hp
  · have hp := h.extended (.bracket (.mk .empty literal .empty) .none) (by simp)
      ⟨trivial, trivial⟩ (s := text ++ "[\"" ++ k ++ "\"]")
      (by simp [Steps.spelling, Bracket.spelling, Term.spelling, literal])
    simpa [Steps.segments, hsegment] using hp

/-- Digits behind a point, and in a bracket as a number. -/
theorem extended_index {n : String} (hn : IsDigits n.toList)
    (hfits : Decimal.digitsValue n.toList < 2 ^ (63 : Nat)) :
    IsPath (text ++ "." ++ n) (segments ++ [.index (Decimal.digitsValue n.toList)]) ∧
    IsPath (text ++ "[" ++ n ++ "]") (segments ++ [.index (Decimal.digitsValue n.toList)]) := by
  let ds : Digits := ⟨n.toList, hn⟩
  have hint : (NumberLiteral.ofDigits ds).int64? = some (Decimal.digitsValue n.toList : Int) :=
    NumberLiteral.int64?_ofDigits ds hfits
  have hsegment := Bracket.segment_digits ds hfits .empty .empty
  constructor
  · have hp := h.extended (.index ds .none) (by simp) ⟨hfits, trivial⟩ (s := text ++ "." ++ n)
      (by simp [Steps.spelling, ds])
    simpa [Steps.segments, ds] using hp
  · have hp := h.extended (.bracket (.mk .empty (.number (.ofDigits ds)) .empty) .none) (by simp)
      ⟨.inl (by rw [hint]; rfl), trivial⟩ (s := text ++ "[" ++ n ++ "]")
      (by simp [Steps.spelling, Bracket.spelling, Term.spelling, NumberLiteral.spelling,
        NumberLiteral.ofDigits, NumberLiteral.sign, NumberLiteral.point, ds])
    simpa [Steps.segments, hsegment] using hp

end Expression.PathText

end Stencil
