import Stencil.Proofs.Markup.Parsing
import Stencil.Proofs.Markup.Printing
import Stencil.Proofs.Pipeline.Trimmed

/-!
# Tags that bind a name

Templates that bind a name to the value of a text and write the name. `parse_assigning` and
`parse_looping` say what they are parsed as, for all names that the tags take but the four words that
are literals, and for all texts in which nothing closes the tag.
-/

namespace Stencil

open Scanner
open Text (isBlank)

/-- A level text closes its literals. -/
theorem Span.Level.closed {s : List Char} (h : Level s) : Closed s := by
  have hk : seek ['|'] 0 (s ++ []) = .ok [] := by
    rw [h ['|'] Pipeline.separators_bar, seek]
  rw [List.append_nil] at hk
  obtain ⟨chunk, e, hc, -⟩ := seek_ok hk
  rw [List.append_nil] at e
  exact e ▸ hc

namespace Text

variable {s : List Char}

/-- Trimming the end again changes nothing. -/
theorem trimEnd_trimEnd (s : List Char) : trimEnd (trimEnd s) = trimEnd s := by
  simp [trimEnd, List.dropWhile_idempotent]

/-- The front of a text that ends with no blank does not matter to its end. -/
theorem trimEnd_behind (front : List Char) (hne : s ≠ []) (h : trimEnd s = s) :
    trimEnd (front ++ s) = front ++ s := by
  obtain ⟨t, c, rfl, hc⟩ := exists_solid_end hne h
  rw [← List.append_assoc, trimEnd_concat _ hc]

end Text

namespace Markup

/-! ## Closing delimiters -/

/-- No closing delimiter stands in the text outside of literals. -/
def Delimiter.Absent (d : Delimiter) (s : List Char) : Prop :=
  ∀ before after, s = before ++ d.close ++ after → ¬ Closed before

section
variable {d : Delimiter} {s front : List Char}

/-- It is enough to look at the places inside the text. -/
theorem absent_iff : d.Absent s ↔
    ∀ k ≤ s.length, d.close <+: s.drop k → ¬ Closed (s.take k) := by
  constructor
  · rintro h k - ⟨after, e⟩
    exact h (s.take k) after (by rw [List.append_assoc, e, List.take_append_drop])
  · rintro h before after rfl hb
    rw [List.append_assoc] at h
    refine h before.length (by simp) ?_ (by rwa [List.take_left])
    rw [List.drop_left]
    exact ⟨after, rfl⟩

instance (d : Delimiter) (s : List Char) : Decidable (d.Absent s) :=
  decidable_of_iff _ absent_iff.symm

theorem Free.closed {close : Char × Char} (h : Free close s) : Closed s :=
  Plain.closed fun c hc => (h c hc).1

theorem Free.append {close : Char × Char} (hf : Free close front) (h : Free close s) :
    Free close (front ++ s) := List.forall_mem_append.2 ⟨hf, h⟩

namespace Delimiter.Absent

theorem nil : d.Absent [] := by
  intro before after e
  simp [Delimiter.close] at e

theorem behind (hf : Free d.closing front) (h : d.Absent s) : d.Absent (front ++ s) := by
  intro before after e hb
  rw [List.append_assoc] at e
  rcases List.append_eq_append_iff.1 e with ⟨x, rfl, hs⟩ | ⟨x, rfl, hx⟩
  · exact h x after (by rw [hs, List.append_assoc]) (hf.closed.append_iff.1 hb)
  · cases x with
    | nil => exact h [] after (by simpa using hx.symm) .nil
    | cons c x =>
      obtain rfl : d.closing.1 = c := (List.cons.inj hx).1
      exact (hf d.closing.1 (by simp)).2 rfl

theorem of_free (h : Free d.closing s) : d.Absent s := by
  simpa using nil.behind h

theorem concat {c : Char} (h : d.Absent s) (hc : c ≠ d.closing.2) : d.Absent (s ++ [c]) := by
  intro before after e
  rcases List.eq_nil_or_concat after with rfl | ⟨after, c', rfl⟩
  · rw [List.append_nil, Delimiter.close, List.append_cons before] at e
    exact absurd (List.singleton_inj.1 (List.append_inj' e rfl).2) hc
  · rw [List.concat_eq_append, ← List.append_assoc] at e
    exact h before after (List.append_inj' e rfl).1

/-- A text that does not end with the start of a closing delimiter is closed right behind it. -/
theorem closesAfter (h : d.Absent s) (hs : Closed s) (hl : s.getLast? ≠ some d.closing.1) :
    d.ClosesAfter s := by
  refine ⟨hs, fun before after e hb => ?_⟩
  rcases List.eq_nil_or_concat after with rfl | ⟨after, c, rfl⟩
  · rfl
  rw [Delimiter.close, List.append_cons s, List.concat_eq_append, ← List.append_assoc] at e
  have e := (List.append_inj' e rfl).1
  rcases List.eq_nil_or_concat after with rfl | ⟨after, c', rfl⟩
  · rw [List.append_nil, List.append_cons before] at e
    refine absurd ?_ hl
    rw [(List.append_inj' e rfl).1, List.getLast?_concat]
  · rw [List.concat_eq_append, ← List.append_assoc] at e
    exact absurd hb (h before after (List.append_inj' e rfl).1)

end Delimiter.Absent

/-- No name has a quote or the start of a closing delimiter. -/
theorem free_of_isName {name : List Char} (h : IsName name) (d : Delimiter) :
    Free d.closing name := by
  refine fun x hx => ⟨quoteless_continuesName.isQuote (h.continues x hx), ?_⟩
  rintro rfl
  have hclosing := h.continues _ hx
  cases d with
  | output => exact absurd hclosing (by decide)
  | tag => exact absurd hclosing (by decide)

end

/-! ## Names that tags take -/

theorem variableName?_eq_some_iff {s : List Char} {name : String} :
    variableName? s = some name ↔ IsName name.toList ∧ Text.trim s = name.toList := by
  constructor
  · intro h
    unfold variableName? at h
    split at h
    · rename_i chunk hs
      obtain ⟨e, hn, -⟩ := splitName_iff.1 hs
      cases h
      rw [String.toList_ofList]
      exact ⟨hn, by simpa using e⟩
    · cases h
  · rintro ⟨hn, hs⟩
    unfold variableName?
    have hsplit : splitName (Text.trim s) = some (name.toList, []) :=
      splitName_iff.2 ⟨by rw [hs, List.append_nil], hn, rfl⟩
    rw [hsplit]
    exact congrArg some String.ofList_toList

/-- A loop binds a name. -/
theorem isName_of_header {args : String} {header : LoopHeader} (h : header? args = some header) :
    IsName header.item.toList := by
  have hread : Expression.readIn (loopHeader (.malformedIn args.toList)) args.toList = .ok header :=
    readIn_loopHeader_iff.2 h
  obtain ⟨s', h⟩ := Expression.readIn_eq_ok_iff.1 hread
  obtain ⟨o, s₁, hitem, h⟩ := bind_eq_ok_iff.1 h
  rcases chunk_ok hitem with ⟨rfl, -, -⟩ | ⟨name, rfl, hs⟩
  · cases h
  obtain ⟨-, hname, -⟩ := splitName_iff.1 hs
  obtain ⟨_, _, -, h⟩ := bind_eq_ok_iff.1 h
  obtain ⟨word, _, -, h⟩ := bind_eq_ok_iff.1 h
  split at h
  · obtain ⟨_, _, -, h⟩ := bind_eq_ok_iff.1 h
    obtain ⟨token, _, -, h⟩ := bind_eq_ok_iff.1 h
    cases token with
    | none => cases h
    | some t =>
      obtain ⟨_, _, -, h⟩ := bind_eq_ok_iff.1 h
      obtain ⟨_, _, -, h⟩ := bind_eq_ok_iff.1 h
      obtain ⟨_, _, -, h⟩ := bind_eq_ok_iff.1 h
      cases h
      rwa [String.toList_ofList]
  · cases h

/-! ## What the tags read -/

theorem assigns_of_ofChars {name : String} (hn : IsName name.toList) {v : List Char} {p : Pipeline}
    (hv : Pipeline.ofChars v = .ok p) :
    Assigns (String.ofList (name.toList ++ ([' ', '='] ++ v))) name p := by
  have hplain : ∀ c ∈ name.toList ++ [' '], (c != '=') = true := by
    intro x hx
    rcases List.mem_append.1 hx with hx | hx
    · have hne : x ≠ '=' := by
        rintro rfl
        exact absurd (hn.continues '=' hx) (by decide)
      simpa using hne
    · rw [List.mem_singleton.1 hx]
      rfl
  have hsplit : name.toList ++ ([' ', '='] ++ v) = (name.toList ++ [' ']) ++ '=' :: v := by simp
  refine ⟨name.toList ++ [' '], v, ?_, ?_, hv⟩
  · rw [String.toList_ofList, hsplit, splitAt?, List.dropWhile_append_of_pos hplain,
      List.takeWhile_append_of_pos hplain]
    simp
  · refine variableName?_eq_some_iff.2 ⟨hn, ?_⟩
    exact Text.trim_between (List.forall_mem_nil _) (by decide) (hn.breaks_isBlank [' ']) hn.trimEnd

/-- No word follows at the end of the text. -/
theorem loopFlags_end (faultOf : String → Error) (reversed : Bool) (n : Nat) {s : Scanner}
    (h : s.rest = []) : Gives (loopFlags faultOf reversed (n + 1)) s reversed [] := by
  have hnone (s : Scanner) (h : s.rest = []) : splitName s.rest = none := by
    rw [h]
    rfl
  have hend : Gives skipBlanks s () [] :=
    skipBlanks_gives (by rw [h, List.append_nil]) (List.forall_mem_nil _) rfl
  refine hend.bind fun s₁ e₁ => ?_
  refine (chunk_misses (hnone s₁ e₁)).bind fun s₂ e₂ => ?_
  refine (atEnd_gives (e₂.trans e₁)).bind fun s₃ e₃ => ?_
  exact ⟨s₃, rfl, (e₃.trans e₂).trans e₁⟩

theorem header?_of_term {name : String} (hn : IsName name.toList) {b : List Char} (hb : Blank b)
    {t : Term} (ht : t.Fits) :
    header? (String.ofList (name.toList ++ (' ' :: 'i' :: 'n' :: ' ' :: (b ++ t.spelling)))) =
      some ⟨name, t.expression, false⟩ := by
  have hin : IsName ['i', 'n'] := ⟨'i', ['n'], rfl, by decide, List.all_eq_true.1 (by decide)⟩
  have hblank : Blank (' ' :: b) := List.forall_mem_cons.2 ⟨by decide, hb⟩
  have hitem : splitName (name.toList ++ (' ' :: 'i' :: 'n' :: ' ' :: (b ++ t.spelling))) =
      some (name.toList, ' ' :: 'i' :: 'n' :: ' ' :: (b ++ t.spelling)) :=
    splitName_iff.2 ⟨rfl, hn, rfl⟩
  have hword : splitName ('i' :: 'n' :: ' ' :: (b ++ t.spelling)) =
      some (['i', 'n'], ' ' :: b ++ t.spelling) :=
    splitName_iff.2 ⟨rfl, hin, rfl⟩
  have hsolid : Breaks isBlank t.spelling := (t.breaks_isBlank []).of_append
  refine readIn_loopHeader_iff.1 (?_ : Expression.readIn (loopHeader (.malformedIn [])) _ = _)
  rw [String.toList_ofList]
  refine Expression.readIn_of_gives (?_ : Gives _ _ _ [])
  refine (chunk_gives hitem).bind fun s₁ e₁ => ?_
  have hspace : s₁.rest = [' '] ++ 'i' :: 'n' :: ' ' :: (b ++ t.spelling) := e₁
  refine (skipBlanks_gives hspace (by decide) rfl).bind fun s₂ e₂ => ?_
  refine (chunk_gives (by rw [e₂]; exact hword)).bind fun s₃ e₃ => ?_
  refine (skipBlanks_gives e₃ hblank hsolid).bind fun s₄ e₄ => ?_
  have hvalue : s₄.rest = t.spelling ++ [] := e₄.trans (List.append_nil _).symm
  refine (t.value_gives hvalue .nil).bind fun s₅ e₅ => ?_
  refine (lift_gives (t.ofToken_of_fits ht)).bind fun s₆ e₆ => ?_
  refine get_gives.bind fun s₇ e₇ => ?_
  refine (loopFlags_end _ false _ ((e₇.trans e₆).trans e₅)).bind fun s₈ e₈ => ?_
  rw [String.ofList_toList]
  exact ⟨s₈, rfl, e₈⟩

/-! ## The tags -/

/-- A tag `word` binds a name, and `link` stands between the name and the text of the value. -/
structure Binder (word link : List Char) : Prop where
  isWord : ∀ c ∈ word, Text.isWordChar c = true
  named : word ≠ [] ∧ word ≠ ['r', 'a', 'w']
  solid : Breaks isBlank word
  free : Free Delimiter.tag.closing word
  link_free : Free Delimiter.tag.closing link

namespace Binder

theorem assign : Binder "assign".toList ['='] :=
  ⟨List.all_eq_true.1 (by decide), by decide, rfl, by decide, by decide⟩

theorem loop : Binder "for".toList ['i', 'n'] :=
  ⟨List.all_eq_true.1 (by decide), by decide, rfl, by decide, by decide⟩

/-- What follows the word of the tag. -/
def arguments (name link text : List Char) : List Char := name ++ ' ' :: (link ++ ' ' :: text)

/-- What stands between the delimiters of the tag. -/
def inner (word name link text : List Char) : List Char :=
  ' ' :: (word ++ ' ' :: (arguments name link text ++ [' ']))

variable {word link name text : List Char}

/-- The tag trims the end of the text. -/
theorem trim_inner (h : Binder word link) (hne : Text.trimEnd text ≠ []) :
    Text.trim (inner word name link text) =
      word ++ ' ' :: arguments name link (Text.trimEnd text) := by
  have hend : Text.trimEnd (Text.trimEnd text) = Text.trimEnd text := Text.trimEnd_trimEnd text
  obtain ⟨b, e, hb⟩ := Text.trimEnd_eq text
  generalize Text.trimEnd text = t at hne hend e ⊢
  subst e
  have hinner : inner word name link (t ++ b) =
      [' '] ++ ((word ++ ' ' :: arguments name link t) ++ (b ++ [' '])) := by
    simp [inner, arguments]
  have hspace : Blank [' '] := by decide
  have hbreaks : Breaks isBlank ((word ++ ' ' :: arguments name link t) ++ (b ++ [' '])) := by
    obtain ⟨c, cs, hword⟩ := List.exists_cons_of_ne_nil h.named.1
    have hsolid := h.solid
    rw [hword] at hsolid ⊢
    exact hsolid
  have harguments : word ++ ' ' :: arguments name link t =
      (word ++ ' ' :: (name ++ ' ' :: (link ++ [' ']))) ++ t := by simp [arguments]
  rw [hinner]
  refine Text.trim_between hspace (List.forall_mem_append.2 ⟨hb, hspace⟩) hbreaks ?_
  rw [harguments]
  exact Text.trimEnd_behind _ hne hend

section
variable (h : Binder word link) (hn : IsName name) (hne : Text.trimEnd text ≠ [])
include h hne

theorem tagName_inner : tagName (inner word name link text) = word := by
  have hend : Breaks Text.isWordChar (' ' :: arguments name link (Text.trimEnd text)) := rfl
  rw [tagName, h.trim_inner hne]
  exact (span_iff.2 ⟨rfl, h.isWord, hend⟩).1

include hn

theorem tagArguments_inner : tagArguments (inner word name link text) =
    arguments name link (Text.trimEnd text) := by
  have hend : Breaks Text.isWordChar (' ' :: arguments name link (Text.trimEnd text)) := rfl
  have harguments : arguments name link (Text.trimEnd text) =
      (name ++ ' ' :: (link ++ [' '])) ++ Text.trimEnd text := by simp [arguments]
  have hspace : Blank [' '] := by decide
  have hsolid : Breaks isBlank (arguments name link (Text.trimEnd text) ++ []) := by
    rw [List.append_nil]
    exact hn.breaks_isBlank _
  have htrim : Text.trimEnd (arguments name link (Text.trimEnd text)) =
      arguments name link (Text.trimEnd text) := by
    rw [harguments]
    exact Text.trimEnd_behind _ hne (Text.trimEnd_trimEnd text)
  have hall := Text.trim_between hspace (List.forall_mem_nil _) hsolid htrim
  rw [List.append_nil] at hall
  rw [tagArguments, h.trim_inner hne, (span_iff.2 ⟨rfl, h.isWord, hend⟩).2]
  exact hall

theorem printable (hs : Closed text) (ha : Delimiter.tag.Absent text) :
    (Piece.delimited .tag false (inner word name link text) false).Printable := by
  have hinner : inner word name link text =
      (' ' :: (word ++ ' ' :: (name ++ ' ' :: (link ++ [' '])))) ++ (text ++ [' ']) := by
    simp [inner, arguments]
  have hspace : Free Delimiter.tag.closing [' '] := by decide
  have hfront : Free Delimiter.tag.closing
      (' ' :: (word ++ ' ' :: (name ++ ' ' :: (link ++ [' '])))) :=
    hspace.append (h.free.append (hspace.append ((free_of_isName hn .tag).append
      (hspace.append (h.link_free.append hspace)))))
  have hlast : (inner word name link text).getLast? = some ' ' := by
    rw [hinner, ← List.append_assoc, List.getLast?_concat]
  have hclosed : Closed (inner word name link text) := by
    rw [hinner]
    exact hfront.closed.append (hs.append hspace.closed)
  have habsent : Delimiter.tag.Absent (inner word name link text) := by
    rw [hinner]
    exact (ha.concat (by decide)).behind hfront
  refine ⟨by simp [inner], by simp [inner], by simp [hlast], ?_, fun _ => ?_⟩
  · exact habsent.closesAfter hclosed (by rw [hlast]; decide)
  · rw [namesTag_iff, h.tagName_inner hne]
    exact h.named

end

end Binder

/-- An output of a name. -/
theorem printable_name {name : List Char} (hn : IsName name) :
    (Piece.delimited .output false (' ' :: (name ++ [' '])) false).Printable := by
  have hspace : Free Delimiter.output.closing [' '] := by decide
  have hfree : Free Delimiter.output.closing (' ' :: (name ++ [' '])) :=
    hspace.append ((free_of_isName hn .output).append hspace)
  have hlast : (' ' :: (name ++ [' '])).getLast? = some ' ' := by
    rw [← List.cons_append, List.getLast?_concat]
  refine ⟨by simp, by simp, by simp [hlast], ?_, nofun⟩
  exact (Delimiter.Absent.of_free hfree).closesAfter hfree.closed (by rw [hlast]; decide)

/-! ## The templates -/

/-- A template that assigns the value of a text to a name and writes the name. -/
def assigning (name text : String) : String :=
  "\x7b% assign " ++ name ++ " = " ++ text ++ " %\x7d\x7b\x7b " ++ name ++ " \x7d\x7d"

/-- A template that writes a name for each item of the value of a text. -/
def looping (name text : String) : String :=
  "\x7b% for " ++ name ++ " in " ++ text ++ " %\x7d\x7b\x7b " ++ name ++ " \x7d\x7d\x7b% endfor %\x7d"

theorem assigning_eq (name text : String) : assigning name text = String.ofList (print [
    .delimited .tag false (Binder.inner "assign".toList name.toList ['='] text.toList) false,
    .delimited .output false (' ' :: (name.toList ++ [' '])) false]) := by
  rw [← String.toList_inj]
  simp [assigning, print, Piece.print, marker, Delimiter.opening, Delimiter.close, Delimiter.closing,
    Binder.inner, Binder.arguments]

theorem looping_eq (name text : String) : looping name text = String.ofList (print [
    .delimited .tag false (Binder.inner "for".toList name.toList ['i', 'n'] text.toList) false,
    .delimited .output false (' ' :: (name.toList ++ [' '])) false,
    .delimited .tag false " endfor ".toList false]) := by
  rw [← String.toList_inj]
  simp [looping, print, Piece.print, marker, Delimiter.opening, Delimiter.close, Delimiter.closing,
    Binder.inner, Binder.arguments]

end Markup

/-! ## Reading the templates -/

/-- The name is none of the four words that are literals. -/
def Unreserved (name : String) : Prop := name ∉ ["true", "false", "nil", "null"]

instance (name : String) : Decidable (Unreserved name) := inferInstanceAs (Decidable (¬_))

theorem Pipeline.ne_nil_of_ofChars {text : List Char} {p : Pipeline} (h : ofChars text = .ok p) :
    text ≠ [] := by
  rintro rfl
  have hparse : parse "" = .ok p := h
  cases not_blank_of_parse hparse

/-- The value of a variable. -/
def Pipeline.variable (name : String) : Pipeline := ⟨.path name [.key name], []⟩

/-- A name is read as the variable, if it is none of the four words. -/
theorem Pipeline.parse_name {name : String} (hn : IsName name.toList) (hu : Unreserved name) :
    Pipeline.parse (String.ofList (' ' :: (name.toList ++ [' ']))) = .ok (.variable name) := by
  have hspace : Blank [' '] := by decide
  let t : Term := .named ⟨name.toList, hn⟩ .none
  have hspelling : t.spelling = name.toList := by simp [t, Term.spelling, Steps.spelling]
  have hexpression : t.expression = .path name [.key name] := by
    obtain ⟨h₁, h₂, h₃, h₄⟩ : name ≠ "true" ∧ name ≠ "false" ∧ name ≠ "nil" ∧ name ≠ "null" := by
      simpa [Unreserved] using hu
    simp [t, Term.expression, word?, h₁, h₂, h₃, h₄, Term.spelling, Steps.spelling, Steps.segments]
  have hlevel : Span.Level (' ' :: (name.toList ++ [' '])) :=
    hspace.level.append (hn.level.append hspace.level)
  have hreads : Reads (.value t.token.kind) t.token.text.toList [' '] := by
    rw [Term.token, String.toList_ofList]
    exact t.reads (.of_blank hspace)
  rw [Pipeline.parse, String.toList_ofList]
  refine Pipeline.ofChars_iff_pieces.2 ⟨_, [], [' '],
    Span.piecesAtTop_alone (hlevel.passed Pipeline.separators_bar), ?_, rfl⟩
  refine Expression.begins_iff.2 ⟨[' '], t.token, hspace, ?_, hreads, ?_⟩
  · rw [Term.token, String.toList_ofList, hspelling]
    rfl
  · rw [t.ofToken_of_fits trivial, hexpression]
    rfl

namespace Template

open Markup

section
variable {name text : String} (hn : IsName name.toList) (hu : Unreserved name)
  (ha : Delimiter.tag.Absent text.toList)
include hn hu ha

theorem parse_assigning {p : Pipeline} (hp : Pipeline.parse text = .ok p) :
    Template.parse .builtin (assigning name text) =
      .ok ⟨none, [.assign name p, .output (.variable name)]⟩ := by
  have hclosed : Closed text.toList := Pipeline.closed_of_ofChars hp
  have htrimmed : Pipeline.ofChars (Text.trimEnd text.toList) = .ok p := Pipeline.ofChars_trimEnd hp
  have hne : Text.trimEnd text.toList ≠ [] := Pipeline.ne_nil_of_ofChars htrimmed
  have hprintable : Printable [
      .delimited .tag false (Binder.inner "assign".toList name.toList ['='] text.toList) false,
      .delimited .output false (' ' :: (name.toList ++ [' '])) false] := by
    refine ⟨?_, rfl⟩
    simp only [List.forall_mem_cons]
    exact ⟨Binder.assign.printable hn hne hclosed ha, printable_name hn, List.forall_mem_nil _⟩
  have hlex := lex_print hprintable
  rw [← assigning_eq] at hlex
  simp only [lexemesFrom, Piece.lexemes, delimitedLexeme, Binder.assign.tagName_inner hne,
    Binder.assign.tagArguments_inner hn hne, List.append_nil, List.cons_append, List.nil_append] at hlex
  have hassigns : Assigns (String.ofList (Binder.arguments name.toList ['=']
      (Text.trimEnd text.toList))) name p :=
    assigns_of_ofChars hn (Pipeline.ofChars_blank_append (b := [' ']) (by decide) htrimmed)
  refine (parse_eq_ok_iff hlex).2
    ⟨[.tagged _ (.assign name p), .output _ _ (.variable name)], ⟨?_, rfl⟩, rfl⟩
  exact ⟨⟨rfl, hassigns⟩, Pipeline.parse_name hn hu, trivial⟩

/-- What a loop over the expression of the text is parsed as. -/
theorem parse_looping {e : Expression} (hp : Expression.parse text = .ok e) :
    Template.parse .builtin (looping name text) =
      .ok ⟨none, [.loop ⟨name, e, false⟩ [.output (.variable name)] []]⟩ := by
  obtain ⟨t, hspelling, hfits, rfl⟩ := (Expression.parse_iff_term _ _).1 hp
  obtain ⟨b, b', e, hb, hb'⟩ := Text.trim_eq text.toList
  rw [← hspelling] at e
  have htrim : Text.trimEnd text.toList = b ++ t.spelling := by
    rw [e, Text.trimEnd_append (Text.trimEnd_behind b t.spelling_ne_nil t.trimEnd_spelling),
      Text.trimEnd_blank hb', List.append_nil]
  have hne : Text.trimEnd text.toList ≠ [] := by
    rw [htrim]
    exact List.append_ne_nil_of_right_ne_nil b t.spelling_ne_nil
  have hclosed : Closed text.toList := by
    rw [e]
    exact (((Blank.level hb).append (t.reads .nil).level).append (Blank.level hb')).closed
  have hprintable : Printable [
      .delimited .tag false (Binder.inner "for".toList name.toList ['i', 'n'] text.toList) false,
      .delimited .output false (' ' :: (name.toList ++ [' '])) false,
      .delimited .tag false " endfor ".toList false] := by
    refine ⟨?_, rfl⟩
    simp only [List.forall_mem_cons]
    exact ⟨Binder.loop.printable hn hne hclosed ha, printable_name hn, by decide,
      List.forall_mem_nil _⟩
  have hlex := lex_print hprintable
  rw [← looping_eq] at hlex
  simp only [lexemesFrom, Piece.lexemes, delimitedLexeme, Binder.loop.tagName_inner hne,
    Binder.loop.tagArguments_inner hn hne, htrim, List.append_nil, List.cons_append,
    List.nil_append] at hlex
  have hheader : header? (String.ofList (Binder.arguments name.toList ['i', 'n']
      (b ++ t.spelling))) = some ⟨name, t.expression, false⟩ := header?_of_term hn hb hfits
  refine (parse_eq_ok_iff hlex).2 ⟨[.tagged _ (.loop ⟨name, t.expression, false⟩
    [.output _ _ (.variable name)] (.close _))], ⟨?_, rfl⟩, rfl⟩
  exact ⟨⟨rfl, hheader, ⟨Pipeline.parse_name hn hu, trivial⟩, rfl⟩, trivial⟩

end

end Template

end Stencil
