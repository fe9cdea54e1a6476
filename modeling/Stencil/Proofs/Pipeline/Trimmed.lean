import Stencil.Proofs.Expression.Agreement
import Stencil.Proofs.Pipeline.Arguments

/-!
# Blanks at the end of a pipeline

A value stays what it is when the text behind it is cut short (`Reads.of_append`), and it does not end with
a blank. So a pipeline is read from its text without the blanks at the end: `Pipeline.ofChars_trimEnd`.
-/

namespace Stencil

open Scanner
open Text (isBlank)

/-! ## Blanks at the end of a text -/

namespace Text

/-- A text that ends with no blank has a last character. -/
theorem exists_solid_end {s : List Char} (hne : s ≠ []) (h : trimEnd s = s) :
    ∃ t c, s = t ++ [c] ∧ isBlank c = false := by
  rcases List.eq_nil_or_concat s with rfl | ⟨t, c, rfl⟩
  · exact absurd rfl hne
  · rw [List.concat_eq_append] at h ⊢
    refine ⟨t, c, rfl, Bool.eq_false_iff.2 fun hc => ?_⟩
    have hlength := congrArg List.length h
    have hle := trimStart_length_le t.reverse
    simp [trimEnd, hc] at hlength
    simp [trimStart] at hle
    omega

/-- Blanks at the end of a text stand behind every character that is none. -/
theorem blanks_behind {s b front rest : List Char} {c : Char} (hb : Blank b)
    (h : s ++ b = front ++ c :: rest) (hc : isBlank c = false) :
    ∃ rest', rest = rest' ++ b ∧ s = front ++ c :: rest' := by
  have hmem : c ∉ b := fun hm => nomatch (hb c hm).symm.trans hc
  rcases List.append_eq_append_iff.1 h with ⟨x, -, rfl⟩ | ⟨x, rfl, hx⟩
  · exact absurd (List.mem_append_right x List.mem_cons_self) hmem
  · cases x with
    | nil =>
      rw [List.nil_append] at hx
      exact absurd (hx ▸ List.mem_cons_self) hmem
    | cons d x =>
      obtain ⟨rfl, rfl⟩ := List.cons.inj hx
      exact ⟨x, rfl, rfl⟩

end Text

/-! ## Values in front of a shorter text -/

namespace Scanner

variable {s more : List Char}

theorem EndsPath.of_append (h : EndsPath (s ++ more)) : EndsPath s := by
  refine ⟨fun hs => ?_, ?_⟩
  · obtain ⟨t, rfl⟩ := List.head?_eq_some_iff.1 hs
    exact h.1 rfl
  · rintro r rfl
    obtain ⟨hn, hd⟩ := h.2 (r ++ more) rfl
    exact ⟨hn.of_append, hd.of_append⟩

theorem DottedWord.of_append {word : List Char} (h : DottedWord word (s ++ more)) :
    DottedWord word s :=
  h.imp (fun ⟨hn, hb⟩ => ⟨hn, hb.of_append⟩) fun ⟨hd, hb⟩ => ⟨hd, hb.of_append⟩

theorem Numeral.of_append {text : List Char} (h : Numeral text (s ++ more)) : Numeral text s := by
  obtain ⟨minus, whole, fraction, e, hm, hw, ⟨hd, hf⟩, hb⟩ := h
  refine ⟨minus, whole, fraction, e, hm, hw, ⟨hd.of_append, ?_⟩, hb.of_append⟩
  rcases hf with ⟨hf, hp⟩ | hf
  · refine .inl ⟨hf, ?_⟩
    rintro r rfl
    exact (hp (r ++ more) rfl).of_append
  · exact .inr hf

/-- What stands behind a value may be cut short. -/
theorem Reads.of_append {part : Part} {text rest more : List Char}
    (h : Reads part text (rest ++ more)) : Reads part text rest := by
  generalize hwhole : rest ++ more = whole at h
  induction h generalizing rest with
  | quoted hq hb => exact .quoted hq hb
  | number h =>
    subst hwhole
    exact .number h.of_append
  | range hb₁ hb₂ hb₃ hb₄ _ _ ih₁ ih₂ =>
    exact .range hb₁ hb₂ hb₃ hb₄ (ih₁ (by simp [← hwhole])) (ih₂ (by simp [← hwhole]))
  | path _ hk ih => exact .path (ih hwhole) hk
  | named hn hb _ ih =>
    subst hwhole
    rw [← List.append_assoc] at hb
    exact .named hn hb.of_append (ih rfl)
  | bracketed _ _ ih₁ ih₂ => exact .bracketed (ih₁ (by simp [← hwhole])) (ih₂ hwhole)
  | bracket hb hb' _ ih => exact .bracket hb hb' (ih (by simp [← hwhole]))
  | done h =>
    subst hwhole
    exact .done h.of_append
  | dotted hw _ ih =>
    subst hwhole
    rw [← List.append_assoc] at hw
    exact .dotted hw.of_append (ih rfl)
  | nested _ _ ih₁ ih₂ => exact .nested (ih₁ (by simp [← hwhole])) (ih₂ hwhole)

end Scanner

/-! ## Pieces -/

namespace Span

variable {stops : List Char} {sep : Char} {depth : Nat} {s rest : List Char}

/-- A search that stops in a text stops there in every longer one, and else goes on behind it. -/
theorem seek_append (t : List Char) (h : seek stops depth s = .ok rest) :
    rest = [] ∧ (∃ depth', seek stops depth (s ++ t) = seek stops depth' t) ∨
      rest ≠ [] ∧ seek stops depth (s ++ t) = .ok (rest ++ t) := by
  fun_induction seek stops depth s with
  | case1 depth =>
    cases h
    exact .inl ⟨rfl, depth, rfl⟩
  | case2 => cases h
  | case3 depth c s hq body rest' hl _ ih =>
    rw [List.cons_append, seek_literal hq (literalEnd_append hl t)]
    exact ih h
  | case4 depth c s hq ho ih =>
    rw [List.cons_append, seek_open ho]
    exact ih h
  | case5 depth c s hq ho hc ih =>
    rw [List.cons_append, seek_close hc]
    exact ih h
  | case6 depth c s hq ho hc hd =>
    cases h
    refine .inr ⟨by simp, ?_⟩
    rw [List.cons_append, seek, if_neg hq, if_neg ho, if_neg hc, if_pos hd]
  | case7 depth c s hq ho hc hd ih =>
    rw [List.cons_append, seek, if_neg hq, if_neg ho, if_neg hc, if_neg hd]
    exact ih h

/-- Only a closed text can be cut. -/
theorem closed_of_piecesAtTop {pieces : List (List Char)} (h : piecesAtTop sep s = .ok pieces) :
    Closed s := by
  induction pieces generalizing s with
  | nil => exact absurd h piecesAtTop_ne_nil
  | cons piece pieces ih =>
    rcases piecesAtTop_cases h with ⟨hk, -⟩ | ⟨chunk, rest, more, hk, -, hm, e⟩
    · obtain ⟨chunk, e, hc, -⟩ := seek_ok hk
      rw [List.append_nil] at e
      exact e ▸ hc
    · cases e
      obtain ⟨chunk, e, hc, hn⟩ := seek_ok hk
      have hsep : Plain [sep] := (hn sep rfl).2
      rw [e]
      exact hc.append (hsep.closed.append (ih hm))

/-- Blanks at the end of a text belong to its last piece. -/
theorem piecesAtTop_of_append_blank {b : List Char} {pieces : List (List Char)}
    (hs : Separators [sep]) (hb : Blank b) (h : piecesAtTop sep (s ++ b) = .ok pieces) :
    ∃ init last, pieces = init ++ [last ++ b] ∧ piecesAtTop sep s = .ok (init ++ [last]) := by
  induction pieces generalizing s with
  | nil => exact absurd h piecesAtTop_ne_nil
  | cons piece pieces ih =>
    have hclosed : Closed s := (closed_of_piecesAtTop h).of_append_plain (.of_all quoteless_isBlank hb)
    obtain ⟨rest, hrest⟩ := seek_of_closed [sep] 0 hclosed
    have hend (depth' : Nat) : seek [sep] depth' b = .ok [] := by
      have hlevel := hb.level [sep] hs depth' []
      rwa [List.append_nil, seek] at hlevel
    rcases piecesAtTop_cases h with ⟨hk, e⟩ | ⟨chunk, rest', more, hk, e, hm, e'⟩
    · cases e
      rcases seek_append b hrest with ⟨rfl, -⟩ | ⟨hne, happend⟩
      · exact ⟨[], s, rfl, piecesAtTop_of_end hrest⟩
      · exact absurd (Except.ok.inj (happend.symm.trans hk)) (by simp [hne])
    · cases e'
      have hsep : isBlank sep = false := by
        rcases hs sep List.mem_cons_self with rfl | rfl <;> decide
      obtain ⟨rest'', rfl, rfl⟩ := Text.blanks_behind hb e hsep
      obtain ⟨init, last, rfl, hlast⟩ := ih hm
      rcases seek_append b hrest with ⟨-, depth', happend⟩ | ⟨-, happend⟩
      · rw [hend] at happend
        cases happend.symm.trans hk
      · obtain rfl : rest = sep :: rest'' :=
          List.append_cancel_right (Except.ok.inj (happend.symm.trans hk))
        refine ⟨piece :: init, last, rfl, ?_⟩
        rw [piecesAtTop_of_stop hrest rfl, hlast]
        rfl

end Span

/-! ## Values and arguments -/

/-- Blanks at the end of the text stand behind the value that it begins with. -/
theorem Expression.Begins.of_append_blank {text b rest : List Char} {e : Expression} (hb : Blank b)
    (h : Begins (text ++ b) e rest) : ∃ rest', rest = rest' ++ b ∧ Begins text e rest' := by
  obtain ⟨b₀, t, hb₀, htext, hr, ho⟩ := begins_iff.1 h
  obtain ⟨term, rfl⟩ := hr.term
  rw [Term.token, String.toList_ofList] at htext hr
  obtain ⟨front, c, hspelling, hc⟩ :=
    Text.exists_solid_end term.spelling_ne_nil term.trimEnd_spelling
  have hsplit : text ++ b = (b₀ ++ front) ++ c :: rest := by simp [htext, hspelling]
  obtain ⟨rest', rfl, rfl⟩ := Text.blanks_behind hb hsplit hc
  refine ⟨rest', rfl, begins_iff.2 ⟨b₀, term.token, hb₀, ?_, ?_, ho⟩⟩
  · simp [Term.token, hspelling]
  · rw [Term.token, String.toList_ofList]
    exact hr.of_append

namespace Argument

variable {text b : List Char}

theorem Leads.of_append_blank {a : Argument} {rest : List Char} (hb : Blank b)
    (h : Leads (text ++ b) a rest) : ∃ rest', Leads text a rest' := by
  cases h with
  | @named key more rest e hk hv =>
    obtain ⟨hname, b₁, hb₁, htrim⟩ := hk
    obtain ⟨b₀, htext, hb₀⟩ := Text.trimStart_eq (text ++ b)
    rw [htrim] at htext
    have hsplit : text ++ b = (b₀ ++ (key ++ b₁)) ++ ':' :: more := by simp [htext]
    obtain ⟨more', rfl, rfl⟩ := Text.blanks_behind hb hsplit (by decide)
    obtain ⟨rest', -, hv'⟩ := hv.of_append_blank hb
    refine ⟨rest', .named ⟨hname, b₁, hb₁, ?_⟩ hv'⟩
    simpa using trimStart_append hb₀ (hname.breaks_isBlank (b₁ ++ ':' :: more'))
  | positional hk hv =>
    obtain ⟨rest', -, hv'⟩ := hv.of_append_blank hb
    refine ⟨rest', .positional (fun key more h => ?_) hv'⟩
    obtain ⟨front, rfl, -, hkeyed⟩ := h.split
    refine hk key (more ++ b) ?_
    rw [List.append_assoc]
    exact hkeyed (more ++ b)

theorem Listed.of_append_blank {init : List (List Char)} {last : List Char}
    {arguments : List Argument} (hb : Blank b) (h : Listed (init ++ [last ++ b]) arguments) :
    Listed (init ++ [last]) arguments := by
  induction init generalizing arguments with
  | nil =>
    cases h with
    | blank h => exact .blank fun c hc => h c (List.mem_append_left b hc)
    | cons h further =>
      cases further
      obtain ⟨rest, hleads⟩ := h.of_append_blank hb
      exact .cons hleads .nil
  | cons piece init ih =>
    rw [List.cons_append] at h ⊢
    generalize hpieces : init ++ [last ++ b] = pieces at h
    cases h with
    | blank => simp at hpieces
    | cons h further => exact .cons h (ih (hpieces ▸ further))

end Argument

/-! ## Filters -/

/-- A filter is read from its text without blanks at the end. -/
theorem Invocation.ofChars_of_append_blank {text b : List Char} {f : Invocation} (hb : Blank b)
    (h : ofChars (text ++ b) = .ok f) : ofChars text = .ok f := by
  obtain ⟨fname, arguments⟩ := f
  obtain ⟨name, rfl, ⟨⟨hname, b₁, b₂, hb₁, hb₂, htext⟩, rfl⟩ | ⟨tail, pieces, hh, hp, hl⟩⟩ :=
    ofChars_cases h
  · have hne : name ≠ [] := by
      obtain ⟨c, cs, rfl, -⟩ := hname
      simp
    obtain ⟨front, c, rfl, hc⟩ := Text.exists_solid_end hne hname.trimEnd
    have hsplit : text ++ b = (b₁ ++ front) ++ c :: b₂ := by simp [htext]
    obtain ⟨b₃, rfl, rfl⟩ := Text.blanks_behind hb hsplit hc
    have hb₃ : Blank b₃ := fun d hd => hb₂ d (List.mem_append_left b hd)
    exact ofChars_of_bare ⟨hname, b₁, b₃, hb₁, hb₃, by simp⟩
  · obtain ⟨hname, b₁, b₂, sep, hb₁, hb₂, hsep, htext⟩ := hh
    have hsolid : isBlank sep = false := by rcases hsep with rfl | rfl <;> decide
    have hsplit : text ++ b = (b₁ ++ (name ++ b₂)) ++ sep :: tail := by simp [htext]
    obtain ⟨tail, rfl, rfl⟩ := Text.blanks_behind hb hsplit hsolid
    obtain ⟨init, last, rfl, hp'⟩ := Span.piecesAtTop_of_append_blank separators_comma hb hp
    exact ofChars_of_headed ⟨hname, b₁, b₂, sep, hb₁, hb₂, hsep, by simp⟩ hp' (hl.of_append_blank hb)

theorem Invocation.mapM_of_append_blank {init : List (List Char)} {last b : List Char}
    {filters : List Invocation} (hb : Blank b)
    (h : (init ++ [last ++ b]).mapM ofChars = .ok filters) :
    (init ++ [last]).mapM ofChars = .ok filters := by
  rw [List.mapM_append, List.mapM_cons] at h ⊢
  cases hinit : init.mapM ofChars with
  | error e =>
    rw [hinit] at h
    cases h
  | ok first =>
    cases hlast : ofChars (last ++ b) with
    | error e =>
      rw [hinit, hlast] at h
      cases h
    | ok f =>
      rw [hinit, hlast] at h
      rw [ofChars_of_append_blank hb hlast]
      exact h

/-! ## Pipelines -/

namespace Pipeline

variable {text b : List Char} {p : Pipeline}

theorem ofChars_iff_pieces : ofChars text = .ok p ↔ ∃ first pieces rest,
    Span.piecesAtTop '|' text = .ok (first :: pieces) ∧ Expression.Begins first p.initial rest ∧
      pieces.mapM Invocation.ofChars = .ok p.filters := by
  have h := parse_iff_pieces (String.ofList text) p
  rw [parse, String.toList_ofList] at h
  rw [h]
  constructor
  · rintro ⟨first, pieces, hp, ⟨t, rest, hv, ho⟩, hm⟩
    exact ⟨first, pieces, rest, splitAtTop_ok.1 hp, ⟨t, hv, ho⟩, hm⟩
  · rintro ⟨first, pieces, rest, hp, ⟨t, hv, ho⟩, hm⟩
    exact ⟨first, pieces, splitAtTop_ok.2 hp, ⟨t, rest, hv, ho⟩, hm⟩

theorem closed_of_ofChars (h : ofChars text = .ok p) : Closed text := by
  obtain ⟨first, pieces, rest, hp, -⟩ := ofChars_iff_pieces.1 h
  exact Span.closed_of_piecesAtTop hp

/-- Blanks at the front have no bearing on a pipeline. -/
theorem ofChars_blank_append (hb : Blank b) (h : ofChars text = .ok p) :
    ofChars (b ++ text) = .ok p := by
  obtain ⟨first, pieces, rest, hp, ⟨t, hv, ho⟩, hm⟩ := ofChars_iff_pieces.1 h
  refine ofChars_iff_pieces.2 ⟨b ++ first, pieces, rest,
    (Span.piecesAtTop_level separators_bar hb.level).2 hp, ⟨t, ?_, ho⟩, hm⟩
  rw [Text.trimStart, List.dropWhile_append_of_pos hb]
  exact hv

theorem ofChars_of_append_blank (hb : Blank b) (h : ofChars (text ++ b) = .ok p) :
    ofChars text = .ok p := by
  obtain ⟨first, pieces, rest, hp, hbegins, hm⟩ := ofChars_iff_pieces.1 h
  obtain ⟨init, last, e, hp'⟩ := Span.piecesAtTop_of_append_blank separators_bar hb hp
  cases init with
  | nil =>
    cases e
    obtain ⟨rest', -, hbegins'⟩ := hbegins.of_append_blank hb
    exact ofChars_iff_pieces.2 ⟨last, [], rest', hp', hbegins', hm⟩
  | cons piece init =>
    rw [List.cons_append] at e
    obtain ⟨rfl, rfl⟩ := List.cons.inj e
    exact ofChars_iff_pieces.2
      ⟨first, init ++ [last], rest, hp', hbegins, Invocation.mapM_of_append_blank hb hm⟩

/-- **Blanks at the end of a pipeline.** A pipeline is read from its text without them. -/
theorem ofChars_trimEnd (h : ofChars text = .ok p) : ofChars (Text.trimEnd text) = .ok p := by
  obtain ⟨b, e, hb⟩ := Text.trimEnd_eq text
  rw [e] at h
  exact ofChars_of_append_blank hb h

end Pipeline

end Stencil
