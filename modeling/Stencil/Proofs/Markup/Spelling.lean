import Stencil.Markup.Lexeme
import Stencil.Proofs.Expression.Reading

/-!
# Where lexemes stand

A delimited lexeme stands in its source between its delimiters; `Spelled` says so, and that the
text inside is closed. Every lexeme of a source is a text or is spelled so, and every fault of the
lexer stands at an opening delimiter.
-/

namespace Stencil

open Quoting

/-- The place of a reader inside the literal of a quote, if there is one. -/
def Quoting.within : Option Char → Quoting
  | none => outside
  | some q => inside q

/-- An opening delimiter stands in the source at a byte offset. -/
def Markup.Opens (source : List Char) (d : Markup.Delimiter) (offset : Nat) : Prop :=
  ∃ before after, source = before ++ d.opening ++ after ∧ Text.byteLength before = offset

/-- A fault of the markup at an opening delimiter of the source. -/
def Error.AtDelimiter (source : String) (e : Error) : Prop :=
  ∃ d offset message, Markup.Opens source.toList d offset ∧ e = .markupAt source offset message

namespace Markup

/-! ## Delimiters -/

/-- The closing delimiter stands where the walk over the text is outside of literals. -/
theorem splitClosing_after {close : Char × Char} {quote : Option Char} {s inner rest : List Char}
    (h : splitClosing close quote s = some (inner, rest)) : (within quote).after inner = outside := by
  fun_induction splitClosing close quote s generalizing inner rest with
  | case1 => simp at h
  | case2 => simp at h
  | case3 q d s ih =>
    obtain ⟨⟨t, r⟩, ht, e⟩ := Option.map_eq_some_iff.1 h
    cases e
    simpa [within, next] using ih ht
  | case4 c s q hb ih =>
    obtain ⟨⟨t, r⟩, ht, e⟩ := Option.map_eq_some_iff.1 h
    cases e
    have hn : (within (some q)).next c = within (if c = q then none else some q) := by
      rw [within, next, if_neg hb]
      split <;> rfl
    rw [after_cons, hn]
    exact ih ht
  | case5 c s hq ih =>
    obtain ⟨⟨t, r⟩, ht, e⟩ := Option.map_eq_some_iff.1 h
    cases e
    simpa [within, next, hq] using ih ht
  | case6 =>
    cases h
    rfl
  | case7 c s hq hc ih =>
    obtain ⟨⟨t, r⟩, ht, e⟩ := Option.map_eq_some_iff.1 h
    cases e
    simpa [within, next, hq] using ih ht

/-- Inside a literal the lexer goes on to where a reader of the literal ends. -/
theorem splitClosing_literal (close : Char × Char) (q : Char) (s : List Char) :
    splitClosing close (some q) s = (Span.literalEnd q s).bind fun (body, rest) =>
      (splitClosing close none rest).map fun (inner, rest) => (body ++ inner, rest) := by
  fun_induction Span.literalEnd q s with
  | case1 => simp [splitClosing]
  | case2 => simp [splitClosing]
  | case3 d s ih =>
    rw [splitClosing, if_pos rfl]
    dsimp only
    rw [ih]
    cases Span.literalEnd q s <;> simp [Function.comp_def]
  | case4 s hq =>
    rw [splitClosing.eq_def]
    simp [hq]
  | case5 c s hb hq ih =>
    rw [splitClosing.eq_def]
    dsimp only
    rw [if_neg hb, if_neg hq, ih]
    cases Span.literalEnd q s <;> simp [Function.comp_def]

/-- The text has neither quotes nor the first character of a closing delimiter. -/
def Free (close : Char × Char) (text : List Char) : Prop :=
  ∀ c ∈ text, Span.isQuote c = false ∧ c ≠ close.1

instance (close : Char × Char) (text : List Char) : Decidable (Free close text) :=
  decidable_of_iff (text.all (fun c => !Span.isQuote c && c != close.1) = true) (by simp [Free])

/-- The search for a closing delimiter passes over the text. -/
def Passed (close : Char × Char) (text : List Char) : Prop :=
  ∀ rest, splitClosing close none (text ++ rest) =
    (splitClosing close none rest).map fun (inner, rest) => (text ++ inner, rest)

namespace Passed

variable {close : Char × Char} {s t : List Char}

theorem nil : Passed close [] := fun rest => by simp

theorem of_free (h : Free close s) : Passed close s := by
  induction s with
  | nil => exact nil
  | cons c s ih =>
    intro rest
    have hs := ih (fun d hd => h d (List.mem_cons_of_mem c hd)) rest
    rw [List.cons_append, splitClosing.eq_def]
    simp [h c List.mem_cons_self, hs, Function.comp_def]

theorem append (hs : Passed close s) (ht : Passed close t) : Passed close (s ++ t) := by
  intro rest
  rw [List.append_assoc, hs, ht]
  simp [Function.comp_def]

theorem flatMap {α : Type} {f : α → List Char} (hf : ∀ a, Passed close (f a)) :
    ∀ as : List α, Passed close (as.flatMap f)
  | [] => nil
  | a :: as => (hf a).append (flatMap hf as)

theorem literal {q : Char} {body : List Char} (hq : Span.isQuote q = true)
    (hb : Span.literalEnd q body = some (body, [])) : Passed close (q :: body) := by
  intro rest
  have hl := splitClosing_literal close q (body ++ rest)
  rw [Span.literalEnd_append hb] at hl
  rw [List.cons_append, splitClosing.eq_def]
  simp [hq, hl, Function.comp_def]

end Passed

/-! ## Lexemes -/

/-- `inner` stands between delimiters in the source, the first at a byte offset, and every literal
in it is closed. -/
def Delimited (source : List Char) (d : Delimiter) (offset : Nat) (inner : List Char) : Prop :=
  ∃ before after, source = before ++ d.opening ++ inner ++ [d.closing.1, d.closing.2] ++ after ∧
    Text.byteLength before = offset ∧ Closed inner

theorem Delimited.opens {source inner : List Char} {d : Delimiter} {offset : Nat}
    (h : Delimited source d offset inner) : Opens source d offset := by
  obtain ⟨before, after, e, ho, -⟩ := h
  exact ⟨before, inner ++ [d.closing.1, d.closing.2] ++ after, by simp [e], ho⟩

/-- The source spells the lexeme by a text between delimiters. -/
inductive Spelled (source : List Char) : Lexeme → List Char → Prop where
  | output {offset : Nat} {inner : List Char} (h : Delimited source .output offset inner) :
      Spelled source (.output (String.ofList (splitMarkers inner).2.1) offset) inner
  | tag {t : TagToken} {inner : List Char} (h : Delimited source .tag t.offset inner)
      (ht : tagToken? (splitMarkers inner).2.1 t.offset = some t) :
      Spelled source (.tag t) inner

theorem Spelled.closed {source inner : List Char} {l : Lexeme} (h : Spelled source l inner) :
    Closed inner := by
  cases h with
  | output h => obtain ⟨_, _, -, -, hc⟩ := h; exact hc
  | tag h => obtain ⟨_, _, -, -, hc⟩ := h; exact hc

/-- A lexeme is a text, or the source spells it. -/
def Stands (source : List Char) (l : Lexeme) : Prop :=
  (∃ s, l = .text s) ∨ ∃ inner, Spelled source l inner

@[simp] theorem textLexeme_nil (trimStart trimEnd : Bool) : textLexeme trimStart trimEnd [] = [] := by
  cases trimStart <;> cases trimEnd <;> rfl

theorem textLexeme_stands {source : List Char} {trimStart trimEnd : Bool} {s : List Char} :
    ∀ l ∈ textLexeme trimStart trimEnd s, Stands source l := by
  intro l hl
  rw [textLexeme] at hl
  generalize (if trimEnd = true then _ else _ : List Char) = trimmed at hl
  split at hl
  · cases hl
  · exact .inl ⟨_, List.mem_singleton.1 hl⟩

theorem offset_of_tagToken {inner : List Char} {offset : Nat} {t : TagToken}
    (h : tagToken? inner offset = some t) : t.offset = offset := by
  simp only [tagToken?] at h
  split at h
  · cases h
  · cases h
    rfl

theorem opens_of_split {source taken s text s1 : List Char} {d : Delimiter}
    (hs : source = taken ++ s) (ho : splitOpening s = some (text, d, s1)) :
    Opens source d (Text.byteLength taken + Text.byteLength text) :=
  ⟨taken ++ text, s1, by simp [hs, splitOpening_eq ho], by simp⟩

/-- What two cuts take off the front of the source stands between delimiters. -/
theorem delimited_of_split {source taken s text s1 inner s2 : List Char} {d : Delimiter}
    (hs : source = taken ++ s) (ho : splitOpening s = some (text, d, s1))
    (hc : splitClosing d.closing none s1 = some (inner, s2)) :
    Delimited source d (Text.byteLength taken + Text.byteLength text) inner ∧
      ∃ taken', source = taken' ++ s2 ∧ Text.byteLength taken' =
        Text.byteLength taken + Text.byteLength text + 4 + Text.byteLength inner := by
  have e : source = taken ++ text ++ d.opening ++ inner ++ [d.closing.1, d.closing.2] ++ s2 := by
    simp [hs, splitOpening_eq ho, splitClosing_eq hc]
  refine ⟨⟨taken ++ text, s2, e, by simp, splitClosing_after hc⟩, _, e, ?_⟩
  have hb : Text.byteLength d.opening = 2 ∧ Text.byteLength [d.closing.1, d.closing.2] = 2 := by
    cases d <;> decide
  simp only [Text.byteLength_append, hb]
  omega

theorem stands_of_tagToken {source inner : List Char} {offset : Nat} {t : TagToken}
    (hd : Delimited source .tag offset inner)
    (ht : tagToken? (splitMarkers inner).2.1 offset = some t) : Stands source (.tag t) := by
  obtain rfl := offset_of_tagToken ht
  exact .inr ⟨inner, .tag hd ht⟩

theorem ok_of_bind {α β : Type} {r : Except Error α} {f : α → Except Error β} {b : β}
    (h : (r >>= f) = .ok b) : ∃ a, r = .ok a ∧ f a = .ok b := by
  cases r with
  | ok a => exact ⟨a, rfl, h⟩
  | error e => cases h

theorem error_of_bind {α β : Type} {r : Except Error α} {g : α → β} {e : Error}
    (h : (r >>= fun a => .ok (g a)) = .error e) : r = .error e := by
  cases r with
  | ok a => cases h
  | error e' =>
    cases h
    rfl

theorem stands_append {source : List Char} {before rest : List Lexeme} {l : Lexeme}
    (hb : ∀ k ∈ before, Stands source k) (hl : Stands source l) (hr : ∀ k ∈ rest, Stands source k) :
    ∀ k ∈ before ++ l :: rest, Stands source k := by
  intro k hk
  rcases List.mem_append.1 hk with hk | hk
  · exact hb k hk
  · rcases List.mem_cons.1 hk with rfl | hk
    · exact hl
    · exact hr k hk

theorem lexFrom_stands {source : String} {pos : Nat} {trimNext : Bool} {taken s : List Char}
    {lexemes : List Lexeme} (hs : source.toList = taken ++ s) (hp : Text.byteLength taken = pos)
    (h : lexFrom source pos trimNext s = .ok lexemes) :
    ∀ l ∈ lexemes, Stands source.toList l := by
  -- `taken` is what stands before the place, so its byte length is the position
  fun_induction lexFrom source pos trimNext s generalizing taken lexemes with
  | case1 =>
    cases h
    exact textLexeme_stands
  | case2 => cases h
  | case3 pos trimNext s text s1 start inner s2 left body right hm before after ho hc =>
    rename_i ih
    subst hp
    obtain ⟨hd, taken', hs', hp'⟩ := delimited_of_split hs ho hc
    obtain ⟨rest, hr, e⟩ := ok_of_bind h
    cases e
    have hl := Spelled.output hd
    rw [hm] at hl
    exact stands_append textLexeme_stands (.inr ⟨inner, hl⟩) (ih hs' hp' hr)
  | case4 => cases h
  | case5 => cases h
  | case6 pos trimNext s text s1 start inner s2 left body right hm before after ho hc t ht hn raw
      s3 hraw =>
    rename_i ih
    subst hp
    obtain ⟨hd, taken', hs', hp'⟩ := delimited_of_split hs ho hc
    obtain ⟨rest, hr, e⟩ := ok_of_bind h
    cases e
    rw [splitEndRaw_eq hraw, ← List.append_assoc] at hs'
    have hrest := ih hs' (by rw [Text.byteLength_append, hp']) hr
    have hl := stands_of_tagToken hd (by rw [hm]; exact ht)
    exact stands_append textLexeme_stands hl fun k hk => by
      rcases List.mem_cons.1 hk with rfl | hk
      · exact .inl ⟨_, rfl⟩
      · exact hrest k hk
  | case7 pos trimNext s text s1 start inner s2 left body right hm before after ho hc t ht =>
    rename_i ih
    subst hp
    obtain ⟨hd, taken', hs', hp'⟩ := delimited_of_split hs ho hc
    obtain ⟨rest, hr, e⟩ := ok_of_bind h
    cases e
    have hl := stands_of_tagToken hd (by rw [hm]; exact ht)
    exact stands_append textLexeme_stands hl (ih hs' hp' hr)

theorem lex_stands {source : String} {lexemes : List Lexeme} (h : lex source = .ok lexemes) :
    ∀ l ∈ lexemes, Stands source.toList l :=
  lexFrom_stands (List.nil_append _).symm Text.byteLength_nil h

/-- The faults of the lexer stand at opening delimiters. -/
theorem lexFrom_faults {source : String} {pos : Nat} {trimNext : Bool} {taken s : List Char}
    {e : Error} (hs : source.toList = taken ++ s) (hp : Text.byteLength taken = pos)
    (h : lexFrom source pos trimNext s = .error e) : e.AtDelimiter source := by
  fun_induction lexFrom source pos trimNext s generalizing taken with
  | case1 => cases h
  | case2 | case4 | case5 =>
    subst hp
    cases h
    exact ⟨_, _, _, opens_of_split hs ‹splitOpening _ = some _›, rfl⟩
  | case3 pos trimNext s text s1 start inner s2 left body right hm before after ho hc =>
    rename_i ih
    subst hp
    obtain ⟨-, taken', hs', hp'⟩ := delimited_of_split hs ho hc
    exact ih hs' hp' (error_of_bind h)
  | case6 pos trimNext s text s1 start inner s2 left body right hm before after ho hc t ht hn raw
      s3 hraw =>
    rename_i ih
    subst hp
    obtain ⟨-, taken', hs', hp'⟩ := delimited_of_split hs ho hc
    rw [splitEndRaw_eq hraw, ← List.append_assoc] at hs'
    exact ih hs' (by rw [Text.byteLength_append, hp']) (error_of_bind h)
  | case7 pos trimNext s text s1 start inner s2 left body right hm before after ho hc t ht =>
    rename_i ih
    subst hp
    obtain ⟨-, taken', hs', hp'⟩ := delimited_of_split hs ho hc
    exact ih hs' hp' (error_of_bind h)

theorem lex_faults {source : String} {e : Error} (h : lex source = .error e) :
    e.AtDelimiter source :=
  lexFrom_faults (List.nil_append _).symm Text.byteLength_nil h

end Markup

end Stencil
