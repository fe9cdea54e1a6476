import Stencil.Filter.Builtin
import Stencil.Proofs.Expression.Escaping
import Stencil.Proofs.Markup.Printing
import Stencil.Proofs.Markup.Steps
import Stencil.Proofs.Pipeline.Arguments
import Stencil.Proofs.Render.Prompt

/-!
# Literals that are appended

A template that writes a literal and appends further literals to it. Whatever characters the texts
hold, no stage from the lexer to the filters takes one of them for a delimiter or a separator, so the
template writes the texts one after another.
-/

namespace Stencil

open Scanner

/-! ## Reading the filters -/

/-- The filter that appends the text of a literal. -/
def Literal.appending (l : Literal) : Invocation := ⟨"append", [⟨none, l.expression⟩]⟩

namespace Invocation

/-- A name and one literal. -/
theorem ofChars_literal {name : List Char} (hn : IsName name) (l : Literal) :
    ofChars ([' '] ++ (name ++ ([':', ' '] ++ (l.print ++ [' '])))) =
      .ok ⟨String.ofList name, [⟨none, l.expression⟩]⟩ := by
  have hspace : Blank [' '] := by decide
  have hv : Reads (.value l.token.kind) l.token.text.toList [' '] := by
    rw [Literal.token, String.toList_ofList]
    exact l.reads [' ']
  have hbegins : Expression.Begins ([' '] ++ (l.print ++ [' '])) l.expression [' '] := by
    refine Expression.begins_iff.2 ⟨[' '], l.token, hspace, ?_, hv, l.ofToken_token⟩
    rw [Literal.token, String.toList_ofList]
  have hkey (key more : List Char) : ¬ Argument.Keyed ([' '] ++ (l.print ++ [' '])) key more := by
    refine Argument.not_keyed_of_breaks ?_
    rw [trimStart_append hspace ((l.reads []).breaks_isBlank _)]
    exact l.startsName_quote
  have hlevel : Span.Level ([' '] ++ (l.print ++ [' '])) :=
    hspace.level.append ((l.reads []).level.append hspace.level)
  have hhead : Headed ([' '] ++ (name ++ ([':', ' '] ++ (l.print ++ [' '])))) name
      ([' '] ++ (l.print ++ [' '])) := ⟨hn, [' '], [], ':', hspace, by decide, .inl rfl, rfl⟩
  exact ofChars_of_headed hhead (Span.piecesAtTop_alone (hlevel.passed separators_comma))
    (.cons (.positional hkey hbegins) .nil)

end Invocation

/-! ## Reading the pipeline -/

namespace Literal

/-- What follows a bar. -/
def filterText (l : Literal) : List Char :=
  [' '] ++ ("append".toList ++ ([':', ' '] ++ (l.print ++ [' '])))

theorem isName_append : IsName "append".toList :=
  ⟨'a', _, rfl, by decide, List.all_eq_true.1 (by decide)⟩

theorem level_filterText (l : Literal) : Span.Level l.filterText := by
  have name : Span.Level "append".toList := isName_append.level
  have colon : Span.Level [':', ' '] := .cons (by decide) (.cons (by decide) .nil)
  have blank : Span.Level [' '] := .cons (by decide) .nil
  exact blank.append (name.append (colon.append (l.level.append blank)))

theorem ofChars_filterText (l : Literal) : Invocation.ofChars l.filterText = .ok l.appending :=
  Invocation.ofChars_literal isName_append l

theorem mapM_filterText (more : List Literal) :
    (more.map filterText).mapM Invocation.ofChars = .ok (more.map appending) := by
  induction more with
  | nil => rfl
  | cons l more ih =>
    rw [List.map_cons, List.mapM_cons, ofChars_filterText, ih]
    rfl

/-- Literals behind a first one, each appended to what stands before it. -/
def appended (more : List Literal) : List Char :=
  more.flatMap fun l => " | append: ".toList ++ l.print

/-- The same text cut at its bars. -/
theorem appended_blank (more : List Literal) :
    appended more ++ [' '] = [' '] ++ (more.map filterText).flatMap ('|' :: ·) := by
  induction more with
  | nil => rfl
  | cons l more ih =>
    have e : appended (l :: more) ++ [' '] =
        " | append: ".toList ++ l.print ++ (appended more ++ [' ']) := by
      rw [appended, List.flatMap_cons, List.append_assoc]
      rfl
    rw [e, ih]
    simp [filterText]

end Literal

namespace Pipeline

theorem ofChars_appended (first : Literal) (more : List Literal) :
    ofChars ([' '] ++ (first.print ++ (Literal.appended more ++ [' ']))) =
      .ok ⟨first.expression, more.map Literal.appending⟩ := by
  have hv : Reads (.value first.token.kind) first.token.text.toList
      (Literal.appended more ++ [' ']) := by
    rw [Literal.token, String.toList_ofList]
    exact first.reads _
  have ht : first.token.text.toList = first.print := String.toList_ofList
  obtain ⟨s', hl, e⟩ := leading_gives
    (s := Scanner.ofChars ([' '] ++ (first.print ++ (Literal.appended more ++ [' ']))))
    (by rw [ht]; rfl) (by decide) hv first.ofToken_token
  have hp : Span.piecesAtTop '|' s'.rest = .ok ([' '] :: more.map Literal.filterText) := by
    rw [e, Literal.appended_blank]
    refine Span.piecesAtTop_joined separators_bar (.cons (by decide) .nil) ?_
    intro piece hm
    obtain ⟨l, -, rfl⟩ := List.mem_map.1 hm
    exact l.level_filterText
  rw [ofChars_of_leading hl hp, Literal.mapM_filterText]
  rfl

end Pipeline

/-! ## Lexing -/

namespace Markup

variable (first : Literal) (more : List Literal)

/-- A template that writes the first literal and appends the others to it. -/
def appending : List Char :=
  ['{', '{', ' '] ++ first.print ++ Literal.appended more ++ [' ', '}', '}']

/-- The text between the delimiters. -/
def appendingText : List Char := [' '] ++ (first.print ++ (Literal.appended more ++ [' ']))

theorem appending_eq : appending first more =
    Delimiter.output.opening ++ (appendingText first more ++ (Delimiter.output.close ++ [])) := by
  simp [appending, appendingText, Delimiter.opening, Delimiter.close, Delimiter.closing]

theorem passed_appendingText : Passed Delimiter.output.closing (appendingText first more) := by
  have hb : Passed Delimiter.output.closing [' '] := .of_free (by decide)
  have hw : Passed Delimiter.output.closing " | append: ".toList := .of_free (by decide)
  have hl (l : Literal) : Passed Delimiter.output.closing l.print :=
    .literal l.isQuote l.literalEnd_body
  have ha : Passed Delimiter.output.closing (Literal.appended more) :=
    .flatMap (fun l => hw.append (hl l)) more
  exact hb.append ((hl first).append (ha.append hb))

theorem lex_appending : lex (String.ofList (appending first more)) =
    .ok [.output (String.ofList (appendingText first more)) 0] := by
  have ho : splitOpening (appending first more) =
      some ([], .output, appendingText first more ++ (Delimiter.output.close ++ [])) := by
    rw [appending_eq]
    exact splitOpening_opening .output _
  have hc : splitClosing Delimiter.output.closing none
      (appendingText first more ++ (Delimiter.output.close ++ [])) =
      some (appendingText first more, []) := by
    rw [passed_appendingText, splitClosing_close]
    simp
  have hlast : (appendingText first more).getLast? = some ' ' := by
    have e : appendingText first more =
        [' '] ++ first.print ++ Literal.appended more ++ [' '] := by simp [appendingText]
    rw [e, List.getLast?_concat]
  have hm : splitMarkers (appendingText first more) = (false, appendingText first more, false) := by
    have hn : appendingText first more ≠ [] := by simp [appendingText]
    have hh : (appendingText first more).head? ≠ some '-' := by simp [appendingText]
    have h := splitMarkers_marked hn hh (by rw [hlast]; decide) false false
    simpa [marker] using h
  have ht (e : Delimiter.output = .tag) : NamesTag (appendingText first more) := by cases e
  rw [lex, String.toList_ofList, lexFrom_step ho hc hm ht, lexFrom_unopened Unopened.nil]
  rfl

/-- A template of one output. -/
theorem parse_output {tags : TagTable} {source text : String} {offset : Nat} {p : Pipeline}
    (hl : lex source = .ok [.output text offset]) (hb : text.toList.all Text.isBlank = false)
    (hp : Pipeline.parse text = .ok p) : Template.parse tags source = .ok ⟨none, [.output p]⟩ := by
  have hn : nodesUntil ⟨source, tags⟩ [] [.output text offset] = .ok ([.output p], none) [] :=
    (nodesWithin_output_iff hb).2 ⟨p, [], hp, nodesWithin_nil, rfl⟩
  exact Template.parse_of_nodes hl hn

end Markup

/-! ## Rendering -/

@[simp] theorem Value.output_text (s : String) : (Value.text s).output = s := by
  simp [Value.output, Value.writeOutput]

theorem Filter.append_text (s t : String) :
    Filter.append (.text s) ⟨[.text t], none⟩ = .ok (.settled (.text (s ++ t))) := by
  simp only [Filter.append, Filter.immediate, Filter.textArgument, Arguments.get?,
    List.getElem?_cons_zero, Value.output_text]
  rfl

section
variable (mode : Mode) (ctx : Context) (history : List Event)

/-- A filter that settles at once is called, and nothing is awaited. -/
theorem Interpreter.call_settled {i : Interpreter} {name : String} {filter : Filter}
    {input v : Value} {args : Arguments} (h : filter input args = .ok (.settled v)) :
    i.call name filter input args history = .done (.ok v (.call name input args :: history)) := by
  unfold call
  rw [h]
  rfl

theorem Interpreter.apply_appending (s : String) (l : Literal) :
    Interpreter.apply ⟨.builtin, mode⟩ ctx (.text s) l.appending history =
      .done (.ok (.text (s ++ l.text))
        (.call "append" (.text s) ⟨[.text l.text], none⟩ :: history)) := by
  have hf : FilterTable.builtin.find l.appending.name = .ok Filter.append := rfl
  unfold Interpreter.apply
  rw [hf]
  exact Interpreter.call_settled history (Filter.append_text s l.text)

/-- The texts come to stand one after another. -/
theorem Interpreter.applyAll_appending (more : List Literal) (s : String) :
    ∃ history', Interpreter.applyAll ⟨.builtin, mode⟩ ctx (.text s) (more.map Literal.appending)
      history = .done (.ok (.text ((more.map Literal.text).foldl (· ++ ·) s)) history') := by
  induction more generalizing s history with
  | nil => exact ⟨history, rfl⟩
  | cons l more ih =>
    obtain ⟨history', h⟩ := ih (.call "append" (.text s) ⟨[.text l.text], none⟩ :: history)
      (s ++ l.text)
    refine ⟨history', ?_⟩
    rw [List.map_cons, applyAll]
    change (Interpreter.apply _ _ _ _ history).bind _ = _
    rw [Interpreter.apply_appending]
    exact h

end

/-- A template of one output writes its value. -/
theorem Template.render_output {i : Interpreter} {ctx : Context} {p : Pipeline} {v : Value}
    {history : List Event} (h : p.eval i ctx [] = .done (.ok v history)) :
    (Template.render i ⟨none, [.output p]⟩ ctx).result = .ok v.output := by
  have ht : Template.Builtin ⟨none, [.output p]⟩ := ⟨trivial, trivial⟩
  rw [Template.render_eq_ofEnding ht, renderNodes, renderNodes, Node.render]
  simp only [Rendering.evaluating, Rendering.print, bind, h]
  rfl

/-- **Literals go through every stage unharmed.** Whatever texts are spelt as literals, and with
whichever quotes, the template that appends them to one another is read with the built-in tags and
writes the texts one after another, in every context and both modes. -/
theorem Template.render_appending (first : Literal) (more : List Literal) :
    ∃ t, Template.parse .builtin (String.ofList (Markup.appending first more)) = .ok t ∧
      ∀ mode ctx, (t.render ⟨.builtin, mode⟩ ctx).result =
        .ok (String.join ((first :: more).map Literal.text)) := by
  have hb : (String.ofList (Markup.appendingText first more)).toList.all Text.isBlank = false := by
    rw [String.toList_ofList, List.all_eq_false]
    refine ⟨first.quote, by simp [Markup.appendingText, Literal.print], ?_⟩
    simp [isBlank_of_isQuote first.isQuote]
  have hp : Pipeline.parse (String.ofList (Markup.appendingText first more)) =
      .ok ⟨first.expression, more.map Literal.appending⟩ := by
    rw [Pipeline.parse, String.toList_ofList]
    exact Pipeline.ofChars_appended first more
  refine ⟨_, Markup.parse_output (Markup.lex_appending first more) hb hp, fun mode ctx => ?_⟩
  obtain ⟨history, hv⟩ := Interpreter.applyAll_appending mode ctx [] more first.text
  have he : Pipeline.eval ⟨.builtin, mode⟩ ctx ⟨first.expression, more.map Literal.appending⟩ [] =
      .done (.ok (.text ((more.map Literal.text).foldl (· ++ ·) first.text)) history) := by
    unfold Pipeline.eval
    rw [Literal.expression, Expression.eval]
    exact hv
  rw [Template.render_output he, Value.output_text, String.join, List.map_cons, List.foldl_cons,
    String.empty_append]

end Stencil
