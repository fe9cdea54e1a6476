import Mathlib
import Stencil.Markup.Tree
import Stencil.Proofs.Markup.Spelling
import Stencil.Proofs.Pipeline

/-!
# Literals in markup

What a lexeme hands on to the readers of expressions is cut out of its inside where no literal is
open. So these readers, which the tree of nodes is built with, meet no literal that is not closed.
The builders of the tree fail as these readers do, or at an opening delimiter.
-/

namespace Stencil

open Scanner

/-- The text of the value that the arguments of an `assign` tag give to a name. -/
def TagToken.assigned? (t : TagToken) : Option (List Char) := do
  let (name, value) ← Markup.splitAt? '=' t.args.toList
  let _ ← Markup.variableName? name
  return value

namespace Lexeme

/-- The texts that a lexeme hands on: an output's text, a tag's arguments and an assigned value. -/
def readings : Lexeme → List (List Char)
  | .text _ => []
  | .output s _ => [s.toList]
  | .tag t => t.args.toList :: t.assigned?.toList

/-- The readings of a lexeme and the filter spans of each. -/
def handedOn (l : Lexeme) : List (List Char) := l.readings ++ l.readings.flatMap Pipeline.spans

/-- Every text of the lexeme that is read is closed. -/
def Readable (l : Lexeme) : Prop := ∀ text ∈ l.readings, Closed text

end Lexeme

namespace Markup

/-! ## Lexemes -/

theorem splitMarkers_cut {inner : List Char} (h : Closed inner) :
    Cut inner (splitMarkers inner).2.1 := by
  have dash : Plain ['-'] := Plain.singleton (by decide)
  have left : Cut inner (if inner.head? = some '-' then inner.tail else inner) := by
    split
    · rename_i hd
      obtain ⟨rest, rfl⟩ := List.head?_eq_some_iff.1 hd
      exact Cut.drop_plain dash h
    · exact Cut.refl h
  simp only [splitMarkers]
  refine left.trans ?_
  have hc := left.closed
  generalize (if inner.head? = some '-' then inner.tail else inner) = body at hc
  split
  · rename_i hd
    obtain ⟨rest, rfl⟩ := List.getLast?_eq_some_iff.1 hd
    rw [List.dropLast_concat]
    exact Cut.head (Closed.of_append_plain dash hc)
  · exact Cut.refl hc

theorem tagToken_cut {inner : List Char} {offset : Nat} {t : TagToken}
    (h : tagToken? inner offset = some t) (hc : Closed inner) : Cut inner t.args.toList := by
  simp only [tagToken?] at h
  split at h
  · cases h
  · cases h
    have hn := (Cut.trim hc).trans (Cut.dropWhile quoteless_isWordChar (Cut.trim hc).closed)
    simpa using hn.trans (Cut.trim hn.closed)

theorem variableName_plain {s : List Char} {name : String} (h : variableName? s = some name) :
    Plain s := by
  unfold variableName? at h
  split at h
  · rename_i chunk hs
    obtain ⟨e, hp⟩ := splitName_cutsPlain _ _ _ hs
    rw [List.append_nil] at e
    exact Plain.of_trim (e ▸ hp)
  · cases h

theorem splitAt_eq {c : Char} {s before after : List Char} (h : splitAt? c s = some (before, after)) :
    s = before ++ c :: after := by
  unfold splitAt? at h
  split at h
  · cases h
  · rename_i d rest hd
    cases h
    have hc : d = c := by
      have hn := List.head?_dropWhile_not (· != c) s
      simpa [hd] using hn
    subst hc
    rw [← hd]
    exact List.takeWhile_append_dropWhile.symm

theorem assigned_cut {t : TagToken} {value : List Char} (h : t.assigned? = some value)
    (hc : Closed t.args.toList) : Cut t.args.toList value := by
  obtain ⟨⟨name, value'⟩, hs, h⟩ := Option.bind_eq_some_iff.1 h
  obtain ⟨word, hv, h⟩ := Option.bind_eq_some_iff.1 h
  cases h
  have hp : Plain (name ++ ['=']) := (variableName_plain hv).append (Plain.singleton (by decide))
  have e : t.args.toList = (name ++ ['=']) ++ value := by rw [splitAt_eq hs]; simp
  rw [e] at hc ⊢
  exact Cut.drop_plain hp hc

/-- What a lexeme reads is cut out of the text that spells it. -/
theorem readings_cut {source inner : List Char} {l : Lexeme} (h : Spelled source l inner) :
    ∀ text ∈ l.readings, Cut inner text := by
  have hc := h.closed
  have hb := splitMarkers_cut hc
  cases h with
  | output h =>
    intro text hm
    rw [Lexeme.readings, List.mem_singleton, String.toList_ofList] at hm
    rw [hm]
    exact hb
  | tag h ht =>
    rename_i t
    have ha := hb.trans (tagToken_cut ht hb.closed)
    intro text hm
    rcases List.mem_cons.1 hm with rfl | hm
    · exact ha
    · exact ha.trans (assigned_cut (Option.mem_toList.1 hm) ha.closed)

theorem handedOn_cut {source inner : List Char} {l : Lexeme} (h : Spelled source l inner) :
    ∀ text ∈ l.handedOn, Cut inner text := by
  intro text hm
  rcases List.mem_append.1 hm with hm | hm
  · exact readings_cut h text hm
  · obtain ⟨reading, hr, hs⟩ := List.mem_flatMap.1 hm
    have hcut := readings_cut h reading hr
    exact hcut.trans (Pipeline.spans_cut hcut.closed text hs)

theorem Stands.readable {source : List Char} {l : Lexeme} (h : Stands source l) : l.Readable := by
  rcases h with ⟨s, rfl⟩ | ⟨inner, h⟩
  · intro text hm
    cases hm
  · exact fun text hm => (readings_cut h text hm).closed

/-! ## The tree -/

/-- The builders over lexemes of a source. They fail as readers of closed texts do, or at an opening
delimiter. -/
def overSource (source : String) : Discipline Error (List Lexeme) where
  Good lexemes := ∀ l ∈ lexemes, Stands source.toList l
  Moves lexemes rest := rest <:+ lexemes
  Fails e := e.OfClosed ∨ e.AtDelimiter source
  refl := List.suffix_refl
  trans h h' := h'.trans h
  good hs h l hl := hs l (h.subset hl)

/-- A tag that ends a body stands in the source. -/
def EndStands (source : String) (r : List Node × Option TagToken) : Prop :=
  ∀ t ∈ r.2, Stands source.toList (.tag t)

theorem Stands.atDelimiter {source message : String} {t : TagToken}
    (h : Stands source.toList (.tag t)) :
    (Error.markupAt source t.offset message).AtDelimiter source := by
  rcases h with ⟨s, e⟩ | ⟨inner, h⟩
  · cases e
  · cases h with
    | tag hd => exact ⟨.tag, t.offset, message, hd.opens, rfl⟩

section
variable {α : Type} {Q : α → Prop} {m : Markup} {source : String} {t opening : TagToken}

theorem fault_overSource {message : String} (ht : Stands m.source.toList (.tag t)) :
    Obeys (overSource m.source) (m.fault t.offset message) Q :=
  Obeys.throw (.inr ht.atDelimiter)

theorem neverClosed_overSource (ho : Stands m.source.toList (.tag opening)) :
    Obeys (overSource m.source) (m.neverClosed opening) Q := fault_overSource ho

theorem lift_overSource {r : Except Error α}
    (h : ∀ e, r = .error e → e.OfClosed ∨ e.AtDelimiter source) :
    Obeys (overSource source) (lift r) fun _ => True := by
  intro s _
  cases r with
  | ok a => exact .stay trivial
  | error e => exact h e rfl

theorem lift_of_terminated {r : Except Error α} (h : Terminated r) :
    Obeys (overSource source) (lift r) fun _ => True :=
  lift_overSource fun e he => .inl (h e he)

theorem next_overSource :
    Obeys (overSource source) next? fun l => ∀ l' ∈ l, Stands source.toList l' := by
  intro s hs
  cases s with
  | nil => exact .stay (by simp)
  | cons l rest => exact ⟨List.suffix_cons l rest, by simpa using hs l List.mem_cons_self⟩

theorem text_overSource : Obeys (overSource source) text? fun _ => True := by
  intro s _
  unfold text?
  split
  · exact ⟨List.suffix_cons _ _, trivial⟩
  · exact .stay trivial

theorem skipTo_suffix {name : String} {lexemes rest : List Lexeme}
    (h : skipTo name lexemes = some rest) : rest <:+ lexemes := by
  fun_induction skipTo name lexemes with
  | case1 => cases h
  | case2 t rest' hn =>
    cases h
    exact List.suffix_cons _ _
  | case3 t rest' hn ih => exact (ih h).trans (List.suffix_cons _ _)
  | case4 l rest' hn ih => exact (ih h).trans (List.suffix_cons _ _)

theorem skipBlock_overSource {name : String} (ho : Stands m.source.toList (.tag opening)) :
    Obeys (overSource m.source) (m.skipBlock opening name) fun _ => True := by
  intro s hs
  unfold skipBlock
  split
  · rename_i rest hr
    exact ⟨skipTo_suffix hr, trivial⟩
  · exact .inr ho.atDelimiter

theorem condition_overSource (ht : Stands m.source.toList (.tag t)) :
    Obeys (overSource m.source) (m.condition t) fun _ => True := by
  have hp : Terminated (Pipeline.parse t.args) :=
    Pipeline.ofChars_terminated (ht.readable _ List.mem_cons_self)
  unfold condition
  split
  · exact Obeys.bind_of_fails (fault_overSource ht)
  · exact lift_of_terminated hp

/-! ## Loop headers -/

section
variable {faultOf : String → Error} {F : Error → Prop} (hc : ∀ e : Error, e.OfClosed → F e)
  (hf : ∀ message, F (faultOf message))
include hc hf

theorem loopFlags_failing (reversed : Bool) (n : Nat) :
    Obeys (overClosed.failing F) (loopFlags faultOf reversed n) fun _ => True := by
  induction n generalizing reversed with
  | zero => exact Obeys.pure trivial
  | succ n ih =>
    have unexpected : Obeys (overClosed.failing F) (do
        let rest := (← get).rest
        throw (faultOf ("unexpected '" ++ String.ofList (Text.trim rest) ++ "' in 'for'")))
        fun _ : Bool => True :=
      Obeys.get.bind fun s _ => Obeys.throw (hf _)
    unfold loopFlags
    refine (skipBlanks_overClosed.failing hc).bind fun _ _ => ?_
    refine (name_overClosed.failing hc).bind fun word _ => ?_
    split
    · split
      · exact ih true
      · exact unexpected
    · refine (atEnd_overClosed.failing hc).bind fun ended _ => ?_
      split
      · exact Obeys.pure trivial
      · exact unexpected

theorem loopHeader_failing : Obeys (overClosed.failing F) (loopHeader faultOf) fun _ => True := by
  unfold loopHeader
  refine (name_overClosed.failing hc).bind fun item _ => ?_
  split
  · refine (skipBlanks_overClosed.failing hc).bind fun _ _ => ?_
    refine (name_overClosed.failing hc).bind fun word _ => ?_
    dsimp only
    split
    · refine (skipBlanks_overClosed.failing hc).bind fun _ _ => ?_
      refine (value_overClosed.failing hc).bind fun token ht => ?_
      split
      · have hcollection := lift_overClosed (Expression.ofToken_terminated (ht _ rfl))
        refine (hcollection.failing hc).bind fun collection _ => ?_
        refine Obeys.get.bind fun s _ => ?_
        exact (loopFlags_failing hc hf false _).bind fun _ _ => Obeys.pure trivial
      · exact Obeys.throw (hf _)
    · exact Obeys.bind_of_fails (Obeys.throw (hf _))
  · exact Obeys.throw (hf _)

end

/-! ## Blocks -/

section
variable {untilTag : List String → Build (List Node × Option TagToken)}
  (hu : ∀ ends, Obeys (overSource m.source) (untilTag ends) (EndStands m.source))
include hu

theorem block_overSource (ho : Stands m.source.toList (.tag opening)) (ends : List String) :
    Obeys (overSource m.source) (m.block untilTag opening ends) fun r =>
      Stands m.source.toList (.tag r.2) := by
  unfold block
  refine (hu ends).bind fun r hr => ?_
  split
  · exact Obeys.pure (hr _ rfl)
  · exact neverClosed_overSource ho

theorem branches_overSource (ho : Stands m.source.toList (.tag opening)) (negate : Bool)
    (condition : Pipeline) (n : Nat) :
    Obeys (overSource m.source) (m.branches untilTag opening negate condition n) fun _ => True := by
  induction n generalizing condition with
  | zero => exact Obeys.pure trivial
  | succ n ih =>
    unfold branches
    refine (block_overSource hu ho _).bind fun r hr => ?_
    dsimp only
    split
    · refine (condition_overSource hr).bind fun next _ => ?_
      exact (ih next).bind fun _ _ => Obeys.pure trivial
    · split
      · exact (block_overSource hu ho _).bind fun _ _ => Obeys.pure trivial
      · exact Obeys.pure trivial

theorem tagNode_overSource (ht : Stands m.source.toList (.tag t)) (rule : TagRule) :
    Obeys (overSource m.source) (m.tagNode untilTag t rule) fun _ => True := by
  have ha : Closed t.args.toList := ht.readable _ List.mem_cons_self
  cases rule with
  | assign =>
    rw [tagNode]
    split
    · exact fault_overSource ht
    · rename_i name value hs
      split
      · exact fault_overSource ht
      · rename_i word hw
        have hv : t.assigned? = some value := by
          simp [TagToken.assigned?, hs, hw]
        have hc : Closed value := (assigned_cut hv ha).closed
        refine (lift_of_terminated (Pipeline.ofChars_terminated hc)).bind fun _ _ => ?_
        exact Obeys.pure trivial
  | capture =>
    rw [tagNode]
    split
    · exact fault_overSource ht
    · exact (block_overSource hu ht _).bind fun _ _ => Obeys.pure trivial
  | conditional negate =>
    rw [tagNode]
    refine (condition_overSource ht).bind fun first _ => ?_
    refine Obeys.get.bind fun lexemes _ => ?_
    exact (branches_overSource hu ht negate first _).bind fun _ _ => Obeys.pure trivial
  | loop =>
    rw [tagNode]
    have hh : Obeys (overClosed.failing (overSource m.source).Fails)
        (loopHeader (.markupAt m.source t.offset)) fun _ => True :=
      loopHeader_failing (fun _ => .inl) fun _ => .inr ht.atDelimiter
    refine (lift_overSource (Expression.fails_of_readIn hh ha)).bind fun header _ => ?_
    refine (block_overSource hu ht _).bind fun r _ => ?_
    dsimp only
    split
    · exact (block_overSource hu ht _).bind fun _ _ => Obeys.pure trivial
    · exact Obeys.pure trivial
  | comment =>
    rw [tagNode]
    exact (skipBlock_overSource ht).bind fun _ _ => Obeys.pure trivial
  | raw =>
    rw [tagNode]
    refine text_overSource.bind fun text _ => ?_
    exact (block_overSource hu ht _).bind fun _ _ => Obeys.pure trivial
  | custom tag =>
    rw [tagNode]
    split
    · exact Obeys.pure trivial
    · exact (block_overSource hu ht _).bind fun _ _ => Obeys.pure trivial

end

theorem nodesWithin_overSource (n : Nat) (ends : List String) :
    Obeys (overSource m.source) (m.nodesWithin n ends) (EndStands m.source) := by
  induction n generalizing ends with
  | zero => exact Obeys.pure (by simp [EndStands])
  | succ n ih =>
    have more (node : Node) : Obeys (overSource m.source)
        (m.nodesWithin n ends >>= fun r => pure (node :: r.1, r.2)) (EndStands m.source) :=
      (ih ends).bind fun r hr => Obeys.pure hr
    unfold nodesWithin
    refine next_overSource.bind fun l hl => ?_
    split
    · exact Obeys.pure (by simp [EndStands])
    · exact more _
    · split
      · exact ih ends
      · rename_i s offset _
        have hc : Closed s.toList := (hl (.output s offset) rfl).readable _ List.mem_cons_self
        exact (lift_of_terminated (Pipeline.ofChars_terminated hc)).bind fun _ _ => more _
    · rename_i t
      have ht : Stands m.source.toList (.tag t) := hl _ rfl
      split
      · exact Obeys.pure (by simpa [EndStands] using ht)
      · split
        · exact (tagNode_overSource ih ht _).bind fun _ _ => more _
        · split
          · exact fault_overSource ht
          · exact fault_overSource ht

end

end Markup

/-- A template that does not compile fails as readers of closed texts do, or at an opening delimiter. -/
theorem Template.parse_fails {tags : TagTable} {source : String} {e : Error}
    (h : Template.parse tags source = .error e) : e.OfClosed ∨ e.AtDelimiter source := by
  cases hl : Markup.lex source with
  | error e' =>
    unfold Template.parse at h
    rw [hl] at h
    cases h
    exact .inr (Markup.lex_faults hl)
  | ok lexemes =>
    have hn := Markup.nodesWithin_overSource (m := { source, tags }) (lexemes.length + 1) []
      lexemes (Markup.lex_stands hl)
    cases he : Markup.nodesUntil { source, tags } [] lexemes with
    | ok r rest =>
      rw [parse_of_nodes hl he] at h
      cases h
    | error e' rest =>
      rw [parse_of_fault hl he] at h
      cases h
      rw [Markup.nodesUntil] at he
      rw [he] at hn
      exact hn

theorem Template.parse_terminated (tags : TagTable) (source : String) (e : Error)
    (h : Template.parse tags source = .error e) : ¬ e.Unterminated := by
  rcases Template.parse_fails h with h | ⟨d, offset, message, -, rfl⟩
  · exact h.not_unterminated
  · rintro ⟨expression, h⟩
    cases h

/-- Lexer and scanner agree on literals. Inside a literal the lexer goes on to where the scanner's
reader ends; all that a lexeme hands on is cut out of its inside where no literal is open; and no
source fails with a literal that nothing closes. -/
theorem Template.parse_outside_literals (source : String) :
    (∀ close q s, Markup.splitClosing close (some q) s =
      (Span.literalEnd q s).bind fun (body, rest) =>
        (Markup.splitClosing close none rest).map fun (inner, rest) => (body ++ inner, rest)) ∧
    (∀ lexemes, Markup.lex source = .ok lexemes → ∀ l ∈ lexemes, ∀ text ∈ l.handedOn,
      ∃ inner, Markup.Spelled source.toList l inner ∧ Cut inner text) ∧
    ∀ expression, Template.parse .builtin source ≠
      .error (.malformed expression "unterminated string literal") := by
  refine ⟨Markup.splitClosing_literal, ?_, ?_⟩
  · intro lexemes hl l hm text ht
    rcases Markup.lex_stands hl l hm with ⟨s, rfl⟩ | ⟨inner, h⟩
    · cases ht
    · exact ⟨inner, h, Markup.handedOn_cut h text ht⟩
  · intro expression he
    exact Template.parse_terminated .builtin source _ he ⟨expression, rfl⟩

/-- An escaped quote, a closing delimiter and a bar, all inside literals. -/
theorem Template.parse_outside_literals_escaped :
    Markup.lex "\x7b\x7b 'it\\'s \x7d\x7d' | append: \"|\" \x7d\x7d" =
        .ok [.output " 'it\\'s \x7d\x7d' | append: \"|\" " 0] ∧
      ∃ inner, Markup.Spelled "\x7b\x7b 'it\\'s \x7d\x7d' | append: \"|\" \x7d\x7d".toList
          (.output " 'it\\'s \x7d\x7d' | append: \"|\" " 0) inner ∧
        Cut inner " 'it\\'s \x7d\x7d' | append: \"|\" ".toList := by
  have hl : Markup.lex "\x7b\x7b 'it\\'s \x7d\x7d' | append: \"|\" \x7d\x7d" =
      .ok [.output " 'it\\'s \x7d\x7d' | append: \"|\" " 0] := by cbv
  exact ⟨hl, (Template.parse_outside_literals _).2.1 _ hl _ List.mem_cons_self _
    List.mem_cons_self⟩

end Stencil
