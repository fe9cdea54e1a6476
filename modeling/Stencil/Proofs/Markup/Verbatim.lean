import Stencil.Proofs.Markup.Cutting
import Stencil.Proofs.Markup.Parsing
import Stencil.Proofs.Render.Prompt

/-!
# Raw bodies

Between `raw` and `endraw` a text stands for itself, whatever delimiters, tags and quotes are in it, as
long as nothing in it reads as the tag that ends it. The markers of the two tags trim the text.
-/

namespace Stencil

namespace Markup

/-- In the text stands a tag that would end a raw body. -/
def HoldsEndraw (b : List Char) : Prop :=
  ∃ before dashes blanks more,
    b = before ++ '{' :: '%' :: (dashes ++ (blanks ++ (endraw ++ more))) ∧ (∀ c ∈ dashes, c = '-') ∧
      (∀ c ∈ blanks, Text.isBlank c = true) ∧ more.head?.any Text.isWordChar = false

theorem holdsEndraw_iff {b : List Char} :
    HoldsEndraw b ↔ ∃ s, '{' :: '%' :: s <:+ b ∧ endsRaw s = true := by
  constructor
  · rintro ⟨before, dashes, blanks, more, rfl, hd, hb, hm⟩
    exact ⟨_, List.suffix_append _ _, endsRaw_iff.2 ⟨dashes, blanks, more, rfl, hd, hb, hm⟩⟩
  · rintro ⟨s, ⟨before, rfl⟩, hs⟩
    obtain ⟨dashes, blanks, more, rfl, hd, hb, hm⟩ := endsRaw_iff.1 hs
    exact ⟨before, dashes, blanks, more, rfl, hd, hb, hm⟩

instance (b : List Char) : Decidable (HoldsEndraw b) :=
  decidable_of_iff (∃ t ∈ b.tails, t.take 2 = ['{', '%'] ∧ endsRaw (t.drop 2) = true) <| by
    rw [holdsEndraw_iff]
    constructor
    · rintro ⟨t, ht, h2, hs⟩
      have e : '{' :: '%' :: t.drop 2 = t := by
        rw [← List.take_append_drop 2 t, h2]
        rfl
      exact ⟨t.drop 2, e ▸ (List.mem_tails t b).1 ht, hs⟩
    · rintro ⟨s, hb, hs⟩
      exact ⟨'{' :: '%' :: s, (List.mem_tails _ b).2 hb, rfl, hs⟩

theorem HoldsEndraw.suffix {b s : List Char} (h : HoldsEndraw s) (hs : s <:+ b) : HoldsEndraw b := by
  obtain ⟨x, hx, he⟩ := holdsEndraw_iff.1 h
  exact holdsEndraw_iff.2 ⟨x, hx.trans hs, he⟩

/-- A raw body that holds no tag to end it ends at the first such tag behind it. A delimiter that only
starts in the body is none, as the brace that follows the body does not complete it. -/
theorem splitEndRaw_body {b s : List Char} (hb : ¬ HoldsEndraw b) (hs : endsRaw s = true) :
    splitEndRaw (b ++ '{' :: '%' :: s) = some (b, '{' :: '%' :: s) := by
  fun_induction splitEndRaw b with
  | case1 => simp only [List.nil_append, splitEndRaw, if_pos hs]
  | case2 b he => exact absurd (holdsEndraw_iff.2 ⟨b, List.suffix_refl _, he⟩) hb
  | case3 b he ih =>
    have he' : ¬ endsRaw (b ++ '{' :: '%' :: s) = true := by
      rw [endsRaw_append (by decide)]
      exact he
    have hb' : ¬ HoldsEndraw b := fun h => hb (h.suffix ⟨['{', '%'], rfl⟩)
    simp only [List.cons_append, splitEndRaw, if_neg he', ih hb', Option.map_some]
  | case4 c b hn ih =>
    have hs' : ('{' :: '%' :: s).head? ≠ some '%' := by simp
    have hc := starts_no_tag_append hn (t := '{' :: '%' :: s) fun _ => hs'
    have hb' : ¬ HoldsEndraw b := fun h => hb (h.suffix (List.suffix_cons c b))
    rw [List.cons_append, splitEndRaw_cons hc, ih hb', Option.map_some]

/-! ## Lexing -/

/-- Delimiters and what they enclose, in front of a source. -/
theorem cut?_delimited {d : Delimiter} {inner : List Char} (h : d.ClosesAfter inner)
    (left right : Bool) (rest : List Char) :
    cut? ((Piece.delimited d left inner right).print ++ rest) =
      some (⟨[], d, marker left ++ inner ++ marker right⟩, rest) := by
  have e : (Piece.delimited d left inner right).print ++ rest =
      d.opening ++ (marker left ++ inner ++ marker right ++ (d.close ++ rest)) := by
    simp [Piece.print]
  rw [e]
  exact cut?_eq_some_iff.2 ⟨_, splitOpening_opening d _, splitClosing_inside h left right rest⟩

/-- The inside of the tag of a raw text. -/
def rawInner : List Char := [' ', 'r', 'a', 'w', ' ']

/-- The inside of the tag that ends it. -/
def endrawInner : List Char := [' '] ++ endraw ++ [' ']

def endrawTag (trimEnd : Bool) : List Char :=
  (Piece.delimited .tag trimEnd endrawInner false).print

/-- A text between the tags, trimmed as the flags say. -/
def rawSource (trimStart trimEnd : Bool) (b : List Char) : List Char :=
  (Piece.delimited .tag false rawInner trimStart).print ++ (b ++ endrawTag trimEnd)

theorem rawBody_endrawTag (trimStart trimEnd : Bool) (b : List Char) :
    rawBody trimStart b (endrawTag trimEnd) = kept trimStart trimEnd b := by
  cases trimStart <;> cases trimEnd <;> rfl

theorem cuts_endrawTag (pos : Nat) (trimEnd : Bool) :
    ∃ offset, Cuts pos false (endrawTag trimEnd) [.tag ⟨"endraw", "", offset⟩] := by
  let c : Portion := ⟨[], .tag, marker trimEnd ++ endrawInner ++ marker false⟩
  have hcut : cut? (endrawTag trimEnd) = some (c, []) := by
    have h : cut? (endrawTag trimEnd ++ []) = some (c, []) :=
      cut?_delimited (d := .tag) (by decide) trimEnd false []
    rwa [List.append_nil] at h
  have hinner : c.inner = endrawInner := by cases trimEnd <;> rfl
  have hname : tagName endrawInner = endraw := by decide
  have hargs : tagArguments endrawInner = [] := by decide
  have hnamed : c.Named := fun _ => by rw [hinner, hname]; decide
  have hraw : ¬ c.IsRaw := fun h => absurd h.2 (by rw [hinner, hname]; decide)
  have hlexemes : c.lexemes pos false = [.tag ⟨"endraw", "", c.start pos⟩] := by
    rw [Portion.lexemes, hinner, textLexeme_nil, List.nil_append, delimitedLexeme, hname, hargs]
    rfl
  have h : Cuts pos false (endrawTag trimEnd) _ := .next hcut hnamed hraw (.last rfl)
  rw [hlexemes, textLexeme_nil] at h
  exact ⟨_, h⟩

theorem cuts_rawSource (trimStart trimEnd : Bool) {b : List Char} (hb : ¬ HoldsEndraw b) :
    ∃ offset, Cuts 0 false (rawSource trimStart trimEnd b)
      [.tag ⟨"raw", "", 0⟩, .text (String.ofList (kept trimStart trimEnd b)),
        .tag ⟨"endraw", "", offset⟩] := by
  let c : Portion := ⟨[], .tag, marker false ++ rawInner ++ marker trimStart⟩
  have hcut : cut? (rawSource trimStart trimEnd b) = some (c, b ++ endrawTag trimEnd) :=
    cut?_delimited (d := .tag) (by decide) false trimStart _
  have hsplit : splitEndRaw (b ++ endrawTag trimEnd) = some (b, endrawTag trimEnd) :=
    splitEndRaw_body hb (by cases trimEnd <;> decide)
  have hraw : c.IsRaw := ⟨rfl, by cases trimStart <;> decide⟩
  have hright : c.right = trimStart := by cases trimStart <;> rfl
  have hlexemes : c.lexemes 0 false = [.tag ⟨"raw", "", 0⟩] := by cases trimStart <;> decide
  obtain ⟨offset, hend⟩ := cuts_endrawTag (c.stop 0 + Text.byteLength b) trimEnd
  have h : Cuts 0 false (rawSource trimStart trimEnd b) _ := .raw hcut hraw hsplit hend
  rw [hlexemes, hright, rawBody_endrawTag] at h
  exact ⟨offset, h⟩

end Markup

open Markup

/-- A template of one fixed text writes it and does nothing else. -/
theorem Template.render_literal (s : String) (i : Interpreter) (ctx : Context) :
    Template.render i ⟨none, [.literal s]⟩ ctx = ⟨.ok s, ctx, []⟩ := by
  have ht : Template.Builtin ⟨none, [.literal s]⟩ := ⟨trivial, trivial⟩
  rw [Template.render_eq_ofEnding ht, renderNodes, renderNodes, Node.render]
  exact congrArg (fun out => Rendered.mk (.ok out) ctx []) String.empty_append

/-- **Raw bodies stay as they are.** A text that holds no tag to end it is written as it stands between
`raw` and `endraw`, trimmed on the sides where the tags have markers, and nothing else happens. -/
theorem Template.render_raw (b : String) (hb : ¬ HoldsEndraw b.toList) (trimStart trimEnd : Bool) :
    ∃ t, Template.parse .builtin
        ((if trimStart then "\x7b% raw -%\x7d" else "\x7b% raw %\x7d") ++ b ++
          (if trimEnd then "\x7b%- endraw %\x7d" else "\x7b% endraw %\x7d")) = .ok t ∧
      ∀ i ctx, t.render i ctx = ⟨.ok (String.ofList (kept trimStart trimEnd b.toList)), ctx, []⟩ := by
  obtain ⟨offset, hc⟩ := cuts_rawSource trimStart trimEnd hb
  refine ⟨_, (parse_eq_ok_iff (lexFrom_eq_ok_iff.2 ?_)).2
    ⟨[.tagged ⟨"raw", "", 0⟩ (.raw _ ⟨"endraw", "", offset⟩)], ⟨⟨⟨rfl, rfl⟩, trivial⟩, rfl⟩, rfl⟩,
    fun i ctx => Template.render_literal _ i ctx⟩
  rw [String.toList_append, String.toList_append, List.append_assoc]
  cases trimStart <;> cases trimEnd <;> exact hc

/-- A body with delimiters and a quote that are not closed, a tag that only starts like the one that
ends the body, and half a delimiter at its end. -/
theorem Template.render_raw_delimiters :
    let b := "\x7b\x7b 'x -%\x7d \x7b%- endrawer %\x7d\x7b% \x7b"
    ¬ HoldsEndraw b.toList ∧ ∃ t, Template.parse .builtin
        ("\x7b% raw %\x7d" ++ b ++ "\x7b%- endraw %\x7d") = .ok t ∧
      ∀ i ctx, t.render i ctx = ⟨.ok b, ctx, []⟩ := by
  have hb : ¬ HoldsEndraw "\x7b\x7b 'x -%\x7d \x7b%- endrawer %\x7d\x7b% \x7b".toList := by decide
  exact ⟨hb, Template.render_raw _ hb false true⟩

end Stencil
