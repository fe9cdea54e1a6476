import Mathlib
import Stencil.Proofs.Pipeline.Arguments
import Stencil.Proofs.Expression.Rereading

/-!
# Canonical printing

`print` writes a pipeline with one blank around each bar, behind each colon and behind each comma, and
every value as it was spelt. `parse_print` says that what is printed for a pipeline that was parsed is
parsed as that pipeline again, however the source was laid out.
-/

namespace Stencil

open Scanner
open Text (startsName continuesName isBlank)

/-! ## Printing -/

def Argument.print (a : Argument) : String :=
  match a.key with
  | some key => key ++ ": " ++ a.value.spelling
  | none => a.value.spelling

def Argument.printAll (arguments : List Argument) : String :=
  ", ".intercalate (arguments.map print)

def Invocation.print (f : Invocation) : String :=
  if f.arguments.isEmpty then f.name else f.name ++ ": " ++ Argument.printAll f.arguments

def Pipeline.print (p : Pipeline) : String :=
  p.initial.spelling ++ String.join (p.filters.map fun f => " | " ++ f.print)

/-! ## What is parsed -/

/-- The expression is that of a term in which everything fits. -/
def Expression.Derived (e : Expression) : Prop := ∃ t : Term, t.Fits ∧ t.expression = e

def Argument.Derived (a : Argument) : Prop :=
  (∀ key ∈ a.key, IsName key.toList) ∧ a.value.Derived

def Invocation.Derived (f : Invocation) : Prop :=
  IsName f.name.toList ∧ ∀ a ∈ f.arguments, a.Derived

def Pipeline.Derived (p : Pipeline) : Prop :=
  p.initial.Derived ∧ ∀ f ∈ p.filters, f.Derived

theorem Expression.derived_of_reads {t : Token} {rest : List Char} {e : Expression}
    (hr : Reads (.value t.kind) t.text.toList rest) (ho : Expression.ofToken t = .ok e) :
    e.Derived := by
  obtain ⟨term, rfl⟩ := hr.term
  have hl := term.ofToken_limited
  rw [ho] at hl
  cases hl with
  | ok hf => exact ⟨term, hf, rfl⟩

theorem Expression.Begins.derived {text rest : List Char} {e : Expression} (h : Begins text e rest) :
    e.Derived := by
  obtain ⟨b, t, -, -, hr, ho⟩ := begins_iff.1 h
  exact derived_of_reads hr ho

namespace Argument

variable {text rest : List Char} {a : Argument}

theorem Leads.derived (h : Leads text a rest) : a.Derived := by
  cases h with
  | @named key _ _ _ hk hv =>
    refine ⟨fun key' hm => ?_, hv.derived⟩
    obtain rfl : String.ofList key = key' := Option.some.inj hm
    rw [String.toList_ofList]
    exact hk.1
  | positional _ hv => exact ⟨fun _ hm => (nomatch hm), hv.derived⟩

theorem Listed.derived {pieces : List (List Char)} {arguments : List Argument}
    (h : Listed pieces arguments) : ∀ a ∈ arguments, a.Derived := by
  induction h with
  | nil | blank =>
    intro a hm
    cases hm
  | cons hl _ ih =>
    intro a hm
    rcases List.mem_cons.1 hm with rfl | hm
    · exact hl.derived
    · exact ih a hm

end Argument

theorem Invocation.derived_of_ofChars {text : List Char} {f : Invocation}
    (h : ofChars text = .ok f) : f.Derived := by
  obtain ⟨name, hf, ⟨⟨hname, -⟩, ha⟩ | ⟨tail, pieces, ⟨hname, -⟩, -, hl⟩⟩ := ofChars_cases h
  · refine ⟨by rwa [hf, String.toList_ofList], fun a hm => ?_⟩
    rw [ha] at hm
    cases hm
  · exact ⟨by rwa [hf, String.toList_ofList], hl.derived⟩

theorem mem_of_mapM {ε α β : Type} {f : α → Except ε β} {as : List α} {bs : List β}
    (h : as.mapM f = .ok bs) : ∀ b ∈ bs, ∃ a, f a = .ok b := by
  induction as generalizing bs with
  | nil =>
    cases h
    intro b hb
    cases hb
  | cons a as ih =>
    rw [List.mapM_cons] at h
    cases ha : f a with
    | error e =>
      rw [ha] at h
      cases h
    | ok b =>
      cases hr : as.mapM f with
      | error e =>
        rw [ha, hr] at h
        cases h
      | ok more =>
        rw [ha, hr] at h
        cases h
        intro b' hb
        rcases List.mem_cons.1 hb with rfl | hb
        · exact ⟨a, ha⟩
        · exact ih hr b' hb

theorem Pipeline.derived_of_ofChars {text : List Char} {p : Pipeline} (h : ofChars text = .ok p) :
    p.Derived := by
  obtain ⟨s, first, pieces, hl, -, hm⟩ := filters_of_ofChars h
  obtain ⟨blanks, t, -, -, hr, ho⟩ := leading_ok hl
  refine ⟨Expression.derived_of_reads hr ho, fun f hf => ?_⟩
  obtain ⟨piece, hp⟩ := mem_of_mapM hm f hf
  exact Invocation.derived_of_ofChars hp

/-! ## What is printed is read -/

theorem Term.begins {t : Term} (hf : t.Fits) {b rest : List Char} (hb : Blank b) (h : Ends rest) :
    Expression.Begins (b ++ (t.spelling ++ rest)) t.expression rest := by
  refine Expression.begins_iff.2 ⟨b, t.token, hb, ?_, ?_, Term.ofToken_of_fits hf⟩
  · rw [Term.token, String.toList_ofList]
  · rw [Term.token, String.toList_ofList]
    exact t.reads h

theorem Term.named_or_breaks (t : Term) (rest : List Char) :
    (∃ name further, t = .named name further) ∨ Breaks startsName (t.spelling ++ rest) := by
  cases t with
  | named name further => exact .inl ⟨name, further, rfl⟩
  | string q body hq _ =>
    refine .inr ?_
    rcases (by simpa [Span.isQuote] using hq : q = '"' ∨ q = '\'') with rfl | rfl <;> rfl
  | number n =>
    refine .inr ?_
    obtain ⟨c, cs, e, rfl | hc⟩ := (n.numeral Ends.nil).starts
    · rw [Term.spelling, e]
      rfl
    · rw [Term.spelling, e]
      exact startsName_digit hc
  | range => exact .inr rfl
  | bracketed start => cases start; exact .inr rfl

/-- What goes on behind a name, or the blanks behind it, is no colon. -/
theorem Steps.no_colon (steps : Steps) {b : List Char} (hb : Blank b) :
    (Text.trimStart (steps.spelling ++ b)).head? ≠ some ':' := by
  cases steps with
  | none =>
    rw [Steps.spelling, List.nil_append, trimStart_blank hb]
    simp
  | name | index =>
    rw [Steps.spelling, List.cons_append, Text.trimStart_cons_solid (by decide)]
    simp
  | bracket next =>
    cases next
    rw [Steps.spelling, Bracket.spelling, List.cons_append, List.cons_append,
      Text.trimStart_cons_solid (by decide)]
    simp

/-- No term is taken for a key: no colon follows the name that it may start with. -/
theorem Term.not_keyed (t : Term) {b b' : List Char} (hb : Blank b) (hb' : Blank b')
    (key more : List Char) : ¬ Argument.Keyed (b ++ (t.spelling ++ b')) key more := by
  have htrim := trimStart_append hb (t.breaks_isBlank b')
  rcases t.named_or_breaks b' with ⟨name, further, rfl⟩ | hn
  · rintro ⟨hk, c, hc, e⟩
    rw [htrim] at e
    have hs := splitName_iff.2 ⟨e, hk, Argument.breaks_colon hc more⟩
    have hs' : splitName ((Term.named name further).spelling ++ b') =
        some (name.val, further.spelling ++ b') := by
      refine splitName_iff.2 ⟨by rw [Term.spelling, List.append_assoc], name.2, ?_⟩
      exact further.breaks (by decide) (by decide) (Ends.of_blank hb').name
    obtain ⟨-, hr⟩ := Prod.mk.inj (Option.some.inj (hs.symm.trans hs'))
    have colon : Breaks isBlank (':' :: more) := rfl
    apply further.no_colon hb'
    rw [← hr, trimStart_append hc colon, List.head?_cons]
  · exact Argument.not_keyed_of_breaks (by rwa [htrim])

namespace Argument

variable {a : Argument} {b b' : List Char}

/-- A printed argument is read with its key and its value wherever blanks stand around it. -/
theorem Derived.leads (h : a.Derived) (hb : Blank b) (hb' : Blank b') :
    Leads (b ++ (a.print.toList ++ b')) a b' := by
  obtain ⟨key, value⟩ := a
  obtain ⟨hkey, t, hf, he⟩ := h
  dsimp only at he
  subst he
  cases key with
  | none =>
    rw [print, t.spelling_expression, String.toList_ofList]
    exact .positional (t.not_keyed hb hb') (t.begins hf hb (.of_blank hb'))
  | some key =>
    have hname := hkey key rfl
    have htext : (print ⟨some key, t.expression⟩).toList =
        key.toList ++ ':' :: ([' '] ++ t.spelling) := by
      simp [print, t.spelling_expression]
    have hkeyed : Keyed (b ++ (key.toList ++ ':' :: ([' '] ++ (t.spelling ++ b')))) key.toList
        ([' '] ++ (t.spelling ++ b')) :=
      ⟨hname, [], by decide, trimStart_append hb (hname.breaks_isBlank _)⟩
    have hleads := Leads.named hkeyed (t.begins hf (by decide) (.of_blank hb'))
    rw [String.ofList_toList] at hleads
    simpa [htext] using hleads

theorem Derived.level (h : a.Derived) : Span.Level a.print.toList := by
  have hblank : Blank [] := by decide
  obtain ⟨front, e, hl, -⟩ := leads_local a _ _ (h.leads hblank hblank)
  rw [List.nil_append] at e
  rwa [List.append_cancel_right e]

theorem printAll_singleton (a : Argument) : printAll [a] = a.print := by
  simp [printAll]

theorem printAll_cons (a a' : Argument) (more : List Argument) :
    printAll (a :: a' :: more) = a.print ++ ", " ++ printAll (a' :: more) := by
  simp [printAll]

/-- The pieces of what is printed for arguments spell these arguments. -/
theorem pieces_of_printAll {a : Argument} {more : List Argument}
    (h : ∀ a' ∈ a :: more, a'.Derived) (hb : Blank b) : ∃ pieces,
      Span.piecesAtTop ',' ([' '] ++ ((printAll (a :: more)).toList ++ b)) = .ok pieces ∧
        Listed pieces (a :: more) := by
  have hspace : Blank [' '] := by decide
  have ha := h a List.mem_cons_self
  induction more generalizing a with
  | nil =>
    rw [printAll_singleton]
    refine ⟨_, Span.piecesAtTop_alone ?_, .cons (ha.leads hspace hb) .nil⟩
    exact (hspace.level.append (ha.level.append hb.level)).passed Invocation.separators_comma
  | cons a' more ih =>
    obtain ⟨pieces, hp, hl⟩ := ih (fun a'' hm => h a'' (List.mem_cons_of_mem a hm))
      (h a' (List.mem_cons_of_mem a List.mem_cons_self))
    have hleads := ha.leads hspace (by decide : Blank [])
    rw [List.append_nil] at hleads
    have hlevel := hspace.level.append ha.level
    have hcut := Span.piecesAtTop_cons Invocation.separators_comma
      (hlevel.passed Invocation.separators_comma) hp
    refine ⟨_, ?_, .cons hleads hl⟩
    rw [← hcut, printAll_cons]
    simp

/-- The commas between the arguments are no separators to the search for a bar. -/
theorem passed_printAll {arguments : List Argument} (h : ∀ a ∈ arguments, a.Derived) :
    Span.Passed ['|'] (printAll arguments).toList := by
  induction arguments with
  | nil => exact fun _ _ => rfl
  | cons a more ih =>
    have ha := (h a List.mem_cons_self).level.passed Pipeline.separators_bar
    cases more with
    | nil => rwa [printAll_singleton]
    | cons a' more =>
      have hspace : Span.Passed ['|'] [' '] :=
        (Blank.level (by decide)).passed Pipeline.separators_bar
      have hmore := ih fun a'' hm => h a'' (List.mem_cons_of_mem a hm)
      rw [printAll_cons, String.toList_append, String.toList_append]
      exact (ha.append (Span.Passed.comma.append hspace)).append hmore

end Argument

namespace Invocation

variable {f : Invocation} {b : List Char}

theorem Derived.ofChars (h : f.Derived) (hb : Blank b) :
    ofChars ([' '] ++ (f.print.toList ++ b)) = .ok f := by
  obtain ⟨name, arguments⟩ := f
  obtain ⟨hname, ha⟩ := h
  have hspace : Blank [' '] := by decide
  cases arguments with
  | nil =>
    have hread := ofChars_of_bare ⟨hname, [' '], b, hspace, hb, rfl⟩
    rwa [String.ofList_toList] at hread
  | cons a more =>
    obtain ⟨pieces, hp, hl⟩ := Argument.pieces_of_printAll ha hb
    have htext : (print ⟨name, a :: more⟩).toList =
        name.toList ++ ':' :: ([' '] ++ (Argument.printAll (a :: more)).toList) := by
      simp [print]
    have hread := ofChars_of_headed
      ⟨hname, [' '], [], ':', hspace, by decide, .inl rfl, rfl⟩ hp hl
    rw [String.ofList_toList] at hread
    simpa [htext] using hread

theorem Derived.passed (h : f.Derived) : Span.Passed ['|'] f.print.toList := by
  obtain ⟨name, arguments⟩ := f
  obtain ⟨hname, ha⟩ := h
  have hlevel := hname.level.passed Pipeline.separators_bar
  cases arguments with
  | nil => exact hlevel
  | cons a more =>
    have hcolon : Span.Level [':', ' '] := .cons (by decide) (.cons (by decide) .nil)
    have hargs := Argument.passed_printAll ha
    have htext : (print ⟨name, a :: more⟩).toList =
        name.toList ++ ([':', ' '] ++ (Argument.printAll (a :: more)).toList) := by
      simp [print]
    rw [htext]
    exact hlevel.append ((hcolon.passed Pipeline.separators_bar).append hargs)

end Invocation

namespace Pipeline

def printFilters (filters : List Invocation) : List Char :=
  filters.flatMap fun f => [' ', '|', ' '] ++ f.print.toList

theorem toList_print (p : Pipeline) :
    p.print.toList = p.initial.spelling.toList ++ printFilters p.filters := by
  simp [print, printFilters, List.flatMap_map]

theorem ends_printFilters (filters : List Invocation) : Ends (printFilters filters) := by
  cases filters with
  | nil => exact .nil
  | cons f filters =>
    have hbar : Ends ('|' :: [' '] ++ f.print.toList ++ printFilters filters) :=
      .of_head (by decide) (by decide) (by decide)
    simpa [printFilters] using hbar.blanks (by decide : Blank [' '])

/-- The pieces of what is printed for filters are read as these filters. The text stands for what is
printed before them: the blank in front of the next bar is a part of its piece. -/
theorem pieces_of_printFilters {filters : List Invocation} (h : ∀ f ∈ filters, f.Derived)
    {text : List Char} (ht : Span.Passed ['|'] text) : ∃ b pieces, Blank b ∧
      Span.piecesAtTop '|' (text ++ printFilters filters) = .ok ((text ++ b) :: pieces) ∧
        pieces.mapM Invocation.ofChars = .ok filters := by
  induction filters generalizing text with
  | nil => exact ⟨[], [], by decide, by simpa [printFilters] using Span.piecesAtTop_alone ht, rfl⟩
  | cons f filters ih =>
    have hf := h f List.mem_cons_self
    have hspace : Span.Passed ['|'] [' '] := (Blank.level (by decide)).passed separators_bar
    obtain ⟨b, pieces, hb, hp, hm⟩ := ih (fun f' hf' => h f' (List.mem_cons_of_mem f hf'))
      (hspace.append hf.passed)
    refine ⟨[' '], ([' '] ++ f.print.toList ++ b) :: pieces, by decide, ?_, ?_⟩
    · have hcut := Span.piecesAtTop_cons separators_bar (ht.append hspace) hp
      rw [← hcut]
      simp [printFilters]
    · rw [List.mapM_cons, List.append_assoc, hf.ofChars hb, hm]
      rfl

theorem Derived.ofChars {p : Pipeline} (h : p.Derived) : ofChars p.print.toList = .ok p := by
  obtain ⟨initial, filters⟩ := p
  obtain ⟨⟨t, hfits, he⟩, hfilters⟩ := h
  dsimp only at he hfilters
  subst he
  have htext : (print ⟨t.expression, filters⟩).toList = [] ++ (t.token.text.toList ++
      printFilters filters) := by
    rw [toList_print, t.spelling_expression]
    rfl
  have hreads : Reads (.value t.token.kind) t.token.text.toList (printFilters filters) := by
    rw [Term.token, String.toList_ofList]
    exact t.reads (ends_printFilters filters)
  have hempty : Span.Passed ['|'] [] := fun _ _ => rfl
  obtain ⟨s, hl, hs⟩ := leading_gives (s := Scanner.ofChars (print ⟨t.expression, filters⟩).toList)
    htext (by decide) hreads (Term.ofToken_of_fits hfits)
  obtain ⟨b, pieces, -, hp, hm⟩ := pieces_of_printFilters hfilters hempty
  rw [ofChars_of_leading hl (hs ▸ hp), hm]
  rfl

/-- **Canonical printing is undone by parsing.** What a parse gives is printed as a text that is parsed
as the same pipeline. -/
theorem parse_print {text : String} {p : Pipeline} (h : parse text = .ok p) :
    parse p.print = .ok p :=
  (derived_of_ofChars h).ofChars

set_option maxRecDepth 2000 in
/-- A key that is spelt like a value, marks in a literal, and texts that are skipped. -/
theorem parse_print_keyed :
    let text := " a no|f:nil :'|,' x,(1 ..2)|g"
    ∃ p, parse text = .ok p ∧ p.print = "a | f: nil: '|,', (1 ..2) | g" ∧ parse p.print = .ok p := by
  intro text
  have h : parse text = .ok ⟨.path "a" [.key "a"],
    [⟨"f", [⟨some "nil", .literal "'|,'" (.text "|,")⟩,
      ⟨none, .range "(1 ..2)" (.literal "1" (.int 1)) (.literal "2" (.int 2))⟩]⟩, ⟨"g", []⟩]⟩ := by
    cbv
  exact ⟨_, h, by cbv, parse_print h⟩

end Pipeline

end Stencil
