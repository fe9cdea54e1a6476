import Stencil.Proofs.Markup.Printing
import Stencil.Proofs.Markup.RawTags

/-!
# How the lexer cuts a source

In one step the lexer takes a `Portion` off the source: a text, and what stands between the delimiters
behind it. `Cuts` says which lexemes the steps give; it holds of exactly the lexemes of a source
without faults. Positions show in the offsets of lexemes alone.
-/

namespace Stencil.Markup

structure Portion where
  /-- What stands before the opening delimiter. -/
  text : List Char
  delimiter : Delimiter
  /-- What stands between the delimiters, with its trim markers. -/
  marked : List Char

namespace Portion

variable (c : Portion)

def left : Bool := (splitMarkers c.marked).1

def inner : List Char := (splitMarkers c.marked).2.1

def right : Bool := (splitMarkers c.marked).2.2

/-- A raw body follows. -/
def IsRaw : Prop := c.delimiter = .tag ∧ tagName c.inner = ['r', 'a', 'w']

instance : Decidable c.IsRaw := inferInstanceAs (Decidable (_ ∧ _))

/-- An output, or a tag that has a name. -/
def Named : Prop := c.delimiter = .tag → tagName c.inner ≠ []

/-- Where the opening delimiter stands if the portion starts at `pos`. -/
def start (pos : Nat) : Nat := pos + Text.byteLength c.text

/-- Where the source goes on behind the closing delimiter. -/
def stop (pos : Nat) : Nat := c.start pos + 4 + Text.byteLength c.marked

def lexemes (pos : Nat) (trimStart : Bool) : List Lexeme :=
  textLexeme trimStart c.left c.text ++ [delimitedLexeme c.delimiter c.inner (c.start pos)]

end Portion

/-- The first portion of a source, and what follows it. -/
def cut? (s : List Char) : Option (Portion × List Char) :=
  (splitOpening s).bind fun (text, d, enclosed) =>
    (splitClosing d.closing none enclosed).map fun (marked, rest) => (⟨text, d, marked⟩, rest)

/-- The lexer cuts `s` into the lexemes. The source goes on at `pos`, and the start of its next text is
trimmed if `trimStart` says so. -/
inductive Cuts : Nat → Bool → List Char → List Lexeme → Prop where
  | last {pos : Nat} {trimStart : Bool} {s : List Char} (h : splitOpening s = none) :
    Cuts pos trimStart s (textLexeme trimStart false s)
  | next {pos : Nat} {trimStart : Bool} {s rest : List Char} {c : Portion} {more : List Lexeme}
    (h : cut? s = some (c, rest)) (hn : c.Named) (hr : ¬ c.IsRaw)
    (hm : Cuts (c.stop pos) c.right rest more) : Cuts pos trimStart s (c.lexemes pos trimStart ++ more)
  | raw {pos : Nat} {trimStart : Bool} {s rest body rest' : List Char} {c : Portion}
    {more : List Lexeme}
    (h : cut? s = some (c, rest)) (hr : c.IsRaw) (he : splitEndRaw rest = some (body, rest'))
    (hm : Cuts (c.stop pos + Text.byteLength body) false rest' more) :
    Cuts pos trimStart s
      (c.lexemes pos trimStart ++ .text (String.ofList (rawBody c.right body rest')) :: more)

theorem cut?_eq_some_iff {s rest : List Char} {c : Portion} : cut? s = some (c, rest) ↔
    ∃ enclosed, splitOpening s = some (c.text, c.delimiter, enclosed) ∧
      splitClosing c.delimiter.closing none enclosed = some (c.marked, rest) := by
  unfold cut?
  constructor
  · intro h
    obtain ⟨⟨text, d, enclosed⟩, ho, h⟩ := Option.bind_eq_some_iff.1 h
    obtain ⟨⟨marked, rest⟩, hc, e⟩ := Option.map_eq_some_iff.1 h
    cases e
    exact ⟨enclosed, ho, hc⟩
  · rintro ⟨enclosed, ho, hc⟩
    simp [ho, hc]

section
variable {source : String} {pos : Nat} {trimStart : Bool} {s rest : List Char} {c : Portion}
  {lexemes : List Lexeme}

theorem lexFrom_next (h : cut? s = some (c, rest)) (hn : c.Named) (hr : ¬ c.IsRaw) :
    lexFrom source pos trimStart s =
      (lexFrom source (c.stop pos) c.right rest).map (c.lexemes pos trimStart ++ ·) := by
  obtain ⟨enclosed, ho, hc⟩ := cut?_eq_some_iff.1 h
  have hm : splitMarkers c.marked = (c.left, c.inner, c.right) := rfl
  have ht (e : c.delimiter = .tag) : NamesTag c.inner := namesTag_iff.2 ⟨hn e, fun e' => hr ⟨e, e'⟩⟩
  rw [lexFrom_step ho hc hm ht]
  simp only [Portion.lexemes, List.append_assoc, List.singleton_append]
  rfl

theorem lexFrom_raw {body rest' : List Char} (h : cut? s = some (c, rest)) (hr : c.IsRaw)
    (he : splitEndRaw rest = some (body, rest')) : lexFrom source pos trimStart s =
      (lexFrom source (c.stop pos + Text.byteLength body) false rest').map
        (c.lexemes pos trimStart ++ .text (String.ofList (rawBody c.right body rest')) :: ·) := by
  obtain ⟨hd, hname⟩ := hr
  obtain ⟨enclosed, ho, hc⟩ := cut?_eq_some_iff.1 h
  rw [hd] at ho hc
  have hm : splitMarkers c.marked = (c.left, c.inner, c.right) := rfl
  have ht (offset : Nat) : tagToken? c.inner offset =
      some ⟨"raw", String.ofList (tagArguments c.inner), offset⟩ := by
    rw [tagToken?_eq, hname]
    rfl
  rw [lexFrom]
  split
  · rename_i h
    cases ho.symm.trans h
  · rename_i h
    cases ho.symm.trans h
    dsimp only
    split
    · rename_i h
      cases hc.symm.trans h
    · rename_i h
      cases hc.symm.trans h
      rw [hm]
      dsimp only
      rw [ht]
      dsimp only
      rw [if_pos rfl]
      split
      · rename_i h
        cases he.symm.trans h
      · rename_i h
        cases he.symm.trans h
        rw [Portion.lexemes, hd, delimitedLexeme, hname, Portion.stop, Portion.start]
        simp only [List.append_assoc, List.singleton_append]
        cases lexFrom source (pos + Text.byteLength c.text + 4 + Text.byteLength c.marked +
          Text.byteLength body) false rest' <;> rfl

theorem cuts_cons {more : List Lexeme}
    (h : Cuts pos trimStart s (c.lexemes pos trimStart ++ more)) :
    Cuts pos trimStart s (textLexeme trimStart c.left c.text ++
      delimitedLexeme c.delimiter c.inner (c.start pos) :: more) := by
  simpa [Portion.lexemes] using h

/-- The lexer reads a source to its end if the source can be cut, and gives the lexemes of the cuts. -/
theorem lexFrom_eq_ok_iff :
    lexFrom source pos trimStart s = .ok lexemes ↔ Cuts pos trimStart s lexemes := by
  constructor
  · intro h
    fun_induction lexFrom source pos trimStart s generalizing lexemes with
    | case1 pos trimStart s ho =>
      cases h
      exact .last ho
    | case2 | case4 | case5 => cases h
    | case3 pos trimStart s text s1 start inner s2 left body right hm before after ho hc =>
      rename_i ih
      let c : Portion := ⟨text, .output, inner⟩
      have hcut : cut? s = some (c, s2) := cut?_eq_some_iff.2 ⟨s1, ho, hc⟩
      cases show (c.left, c.inner, c.right) = (left, body, right) from hm
      obtain ⟨more, hr, e⟩ := ok_of_bind h
      cases e
      have hn : c.delimiter ≠ .tag := by rintro ⟨⟩
      exact cuts_cons (.next hcut (fun h => absurd h hn) (fun h => hn h.1) (ih hr))
    | case6 pos trimStart s text s1 start inner s2 left body right hm before after ho hc t ht hn raw
        s3 hraw =>
      rename_i ih
      let c : Portion := ⟨text, .tag, inner⟩
      have hcut : cut? s = some (c, s2) := cut?_eq_some_iff.2 ⟨s1, ho, hc⟩
      cases show (c.left, c.inner, c.right) = (left, body, right) from hm
      obtain ⟨hne, rfl⟩ := tagToken?_eq_some_iff.1 ht
      obtain ⟨more, hr, e⟩ := ok_of_bind h
      cases e
      exact cuts_cons (.raw hcut ⟨rfl, String.ofList_injective hn⟩ hraw (ih hr))
    | case7 pos trimStart s text s1 start inner s2 left body right hm before after ho hc t ht hn =>
      rename_i ih
      let c : Portion := ⟨text, .tag, inner⟩
      have hcut : cut? s = some (c, s2) := cut?_eq_some_iff.2 ⟨s1, ho, hc⟩
      cases show (c.left, c.inner, c.right) = (left, body, right) from hm
      obtain ⟨hne, rfl⟩ := tagToken?_eq_some_iff.1 ht
      obtain ⟨more, hr, e⟩ := ok_of_bind h
      cases e
      exact cuts_cons (.next hcut (fun _ => hne) (fun hr => hn (congrArg String.ofList hr.2)) (ih hr))
  · intro h
    induction h with
    | last h => exact lexFrom_last h
    | next h hn hr _ ih =>
      rw [lexFrom_next h hn hr, ih]
      rfl
    | raw h hr he _ ih =>
      rw [lexFrom_raw h hr he, ih]
      rfl

end

/-! ## Positions -/

/-- The tag as it is `n` bytes further on. -/
def movedTag (n : Nat) (t : TagToken) : TagToken := { t with offset := n + t.offset }

/-- The lexeme as it is `n` bytes further on. -/
def moved (n : Nat) : Lexeme → Lexeme
  | .text s => .text s
  | .output s offset => .output s (n + offset)
  | .tag t => .tag (movedTag n t)

theorem map_moved_textLexeme (n : Nat) (trimStart trimEnd : Bool) (s : List Char) :
    (textLexeme trimStart trimEnd s).map (moved n) = textLexeme trimStart trimEnd s := by
  rw [textLexeme_eq]
  split <;> rfl

theorem Portion.start_add (c : Portion) (n pos : Nat) : c.start (n + pos) = n + c.start pos :=
  Nat.add_assoc ..

theorem Portion.stop_add (c : Portion) (n pos : Nat) : c.stop (n + pos) = n + c.stop pos := by
  simp only [Portion.stop, Portion.start_add, Nat.add_assoc]

theorem Portion.map_moved_lexemes (c : Portion) (n pos : Nat) (trimStart : Bool) :
    (c.lexemes pos trimStart).map (moved n) = c.lexemes (n + pos) trimStart := by
  rw [lexemes, List.map_append, map_moved_textLexeme, lexemes, c.start_add]
  cases c.delimiter <;> rfl

/-- Further on in a source the lexemes are the same but for their offsets. -/
theorem Cuts.further {pos : Nat} {trimStart : Bool} {s : List Char} {lexemes : List Lexeme}
    (h : Cuts pos trimStart s lexemes) (n : Nat) :
    Cuts (n + pos) trimStart s (lexemes.map (moved n)) := by
  induction h with
  | last h =>
    rw [map_moved_textLexeme]
    exact .last h
  | @next pos _ _ _ c _ h hn hr _ ih =>
    rw [List.map_append, c.map_moved_lexemes]
    rw [← c.stop_add] at ih
    exact .next h hn hr ih
  | @raw pos _ _ _ _ _ c _ h hr he _ ih =>
    rw [List.map_append, c.map_moved_lexemes]
    rw [← Nat.add_assoc, ← c.stop_add] at ih
    exact .raw h hr he ih

/-! ## Markers -/

theorem cut?_length {s rest : List Char} {c : Portion} (h : cut? s = some (c, rest)) :
    rest.length < s.length := by
  obtain ⟨enclosed, ho, hc⟩ := cut?_eq_some_iff.1 h
  have := splitOpening_length ho
  have := splitClosing_length hc
  omega

/-- Where the lexer goes on behind a portion: behind the tag of a raw text at the tag that ends it. -/
def Portion.behind (c : Portion) (rest : List Char) : List Char :=
  if c.IsRaw then ((splitEndRaw rest).map Prod.snd).getD [] else rest

theorem Portion.length_behind_le (c : Portion) (rest : List Char) :
    (c.behind rest).length ≤ rest.length := by
  rw [behind]
  split
  · cases h : splitEndRaw rest with
    | none => exact Nat.zero_le _
    | some p => exact splitEndRaw_length h
  · exact Nat.le_refl _

/-- The trim markers inside the delimiters of a source, as the lexer takes them: for each pair of
delimiters whether the opening one has a marker, and whether the closing one has. -/
def markers (s : List Char) : List (Bool × Bool) :=
  match h : cut? s with
  | none => []
  | some (c, rest) =>
    have := cut?_length h
    have := c.length_behind_le rest
    (c.left, c.right) :: markers (c.behind rest)
termination_by s.length

section
variable {s rest : List Char} {c : Portion}

theorem markers_of_none (h : cut? s = none) : markers s = [] := by
  rw [markers]
  split
  · rfl
  · rename_i h'
    cases h.symm.trans h'

theorem markers_of_some (h : cut? s = some (c, rest)) :
    markers s = (c.left, c.right) :: markers (c.behind rest) := by
  rw [markers]
  split
  · rename_i h'
    cases h.symm.trans h'
  · rename_i h'
    cases h.symm.trans h'
    rfl

end

end Stencil.Markup
