import Stencil.Markup.Tree
import Stencil.Proofs.Pipeline.Pieces

/-!
# Steps of the tree reader

What a run of the tree reader that ends well did in its first step, for each kind of lexeme and each
tag, and that such a run ends well. A loop header is read alike whatever its faults would be.
-/

namespace Stencil

open Scanner

/-- A text that is read as a pipeline holds a value. -/
theorem Pipeline.not_blank_of_parse {text : String} {p : Pipeline} (h : parse text = .ok p) :
    text.toList.all Text.isBlank = false := by
  obtain ⟨s', hr⟩ := Expression.readIn_eq_ok_iff.1 h
  obtain ⟨s₁, first, pieces, hl, -⟩ := reader_ok hr
  obtain ⟨blanks, t, e, -, hv, -⟩ := leading_ok hl
  obtain ⟨c, cs, ht, hc⟩ : Starts (Part.value t.kind).First t.text.toList := by
    rcases hv.starts with h | ⟨h, -⟩
    · exact h
    · cases h
  have e : text.toList = blanks ++ (t.text.toList ++ s₁.rest) := e
  have hc : Text.isBlank c = false := hc
  rw [e, ht]
  simp [hc]

/-! ## Loop headers -/

namespace Scanner

/-- The readers end well alike. -/
def Agree {α : Type} (m m' : Scan α) : Prop := ∀ s a s', m s = .ok a s' ↔ m' s = .ok a s'

namespace Agree

variable {α β : Type} {m m' : Scan α} {f f' : α → Scan β}

theorem refl (m : Scan α) : Agree m m := fun _ _ _ => Iff.rfl

theorem throw (e e' : Error) : Agree (throw e : Scan α) (throw e') :=
  fun _ _ _ => ⟨nofun, nofun⟩

/-- What would follow a fault is not reached. -/
theorem throw_bind (e e' : Error) (f f' : α → Scan β) :
    Agree ((MonadExcept.throw e : Scan α) >>= f) ((MonadExcept.throw e' : Scan α) >>= f') :=
  fun _ _ _ => ⟨nofun, nofun⟩

theorem bind (hm : Agree m m') (hf : ∀ a, Agree (f a) (f' a)) : Agree (m >>= f) (m' >>= f') := by
  intro s b s'
  rw [bind_eq_ok_iff, bind_eq_ok_iff]
  exact exists_congr fun a => exists_congr fun s₁ => and_congr (hm s a s₁) (hf a s₁ b s')

theorem after (m : Scan α) (hf : ∀ a, Agree (f a) (f' a)) : Agree (m >>= f) (m >>= f') :=
  (refl m).bind hf

end Agree

end Scanner

namespace Markup

theorem loopFlags_agree (faultOf faultOf' : String → Error) (reversed : Bool) (n : Nat) :
    Agree (loopFlags faultOf reversed n) (loopFlags faultOf' reversed n) := by
  induction n generalizing reversed with
  | zero => exact .refl _
  | succ n ih =>
    unfold loopFlags
    refine .after _ fun _ => .after _ fun word => ?_
    cases word with
    | some word =>
      dsimp only
      split
      · exact ih true
      · exact .after _ fun _ => .throw _ _
    | none =>
      refine .after _ fun ended => ?_
      split
      · exact .refl _
      · exact .after _ fun _ => .throw _ _

theorem loopHeader_agree (faultOf faultOf' : String → Error) :
    Agree (loopHeader faultOf) (loopHeader faultOf') := by
  unfold loopHeader
  refine .after _ fun item => ?_
  cases item with
  | none => exact .throw _ _
  | some item =>
    refine .after _ fun _ => .after _ fun word => ?_
    dsimp only
    split
    · refine .after _ fun _ => .after _ fun token => ?_
      cases token with
      | none => exact .throw _ _
      | some token =>
        refine .after _ fun _ => .after _ fun s => ?_
        exact (loopFlags_agree faultOf faultOf' false _).bind fun _ => .refl _
    · exact .throw_bind _ _ _ _

/-- The header that the text after `for` spells. -/
def header? (args : String) : Option LoopHeader :=
  (Expression.readIn (loopHeader (.malformedIn args.toList)) args.toList).toOption

theorem readIn_loopHeader_iff {faultOf : String → Error} {args : String} {header : LoopHeader} :
    Expression.readIn (loopHeader faultOf) args.toList = .ok header ↔ header? args = some header := by
  have h := exists_congr fun s' => loopHeader_agree faultOf (.malformedIn args.toList)
    (Scanner.ofChars args.toList) header s'
  rw [← Expression.readIn_eq_ok_iff, ← Expression.readIn_eq_ok_iff] at h
  rw [h, header?]
  cases Expression.readIn (loopHeader (.malformedIn args.toList)) args.toList with
  | ok header => simp [Except.toOption]
  | error e => simp [Except.toOption]

/-! ## Parts of a step -/

section
variable {α : Type} {m : Markup} {s s' : List Lexeme} {t : TagToken} {node : Node}

theorem lift_eq_ok_iff {r : Except Error α} {a : α} :
    Markup.lift r s = .ok a s' ↔ r = .ok a ∧ s' = s := by
  cases r with
  | ok b => exact ⟨fun h => by cases h; exact ⟨rfl, rfl⟩, by rintro ⟨⟨⟩, rfl⟩; rfl⟩
  | error e => exact ⟨nofun, nofun⟩

theorem pure_eq_ok_iff {a b : α} : (pure a : Build α) s = .ok b s' ↔ b = a ∧ s' = s :=
  ⟨fun h => by cases h; exact ⟨rfl, rfl⟩, by rintro ⟨rfl, rfl⟩; rfl⟩

theorem condition_eq_ok_iff {p : Pipeline} :
    m.condition t s = .ok p s' ↔ Pipeline.parse t.args = .ok p ∧ s' = s := by
  unfold condition
  by_cases h : t.args.isEmpty = true
  · rw [if_pos h]
    refine ⟨nofun, fun hp => ?_⟩
    have hb := Pipeline.not_blank_of_parse hp.1
    rw [String.isEmpty_iff.1 h] at hb
    cases hb
  · rw [if_neg h]
    exact lift_eq_ok_iff

variable {untilTag : List String → Build (List Node × Option TagToken)}

theorem block_eq_ok_iff {opening : TagToken} {ends : List String} {nodes : List Node} :
    m.block untilTag opening ends s = .ok (nodes, t) s' ↔
      untilTag ends s = .ok (nodes, some t) s' := by
  unfold block
  rw [bind_eq_ok_iff]
  constructor
  · rintro ⟨⟨nodes', o⟩, s₁, hu, h⟩
    cases o with
    | none => cases h
    | some t' =>
      cases h
      exact hu
  · exact fun h => ⟨_, _, h, rfl⟩

/-! ## Tags -/

theorem tagNode_assign_iff : m.tagNode untilTag t .assign s = .ok node s' ↔
    ∃ target text name value, splitAt? '=' t.args.toList = some (target, text) ∧
      variableName? target = some name ∧ Pipeline.ofChars text = .ok value ∧
      node = .assign name value ∧ s' = s := by
  rw [tagNode]
  cases hs : splitAt? '=' t.args.toList with
  | none => exact ⟨nofun, by rintro ⟨_, _, _, _, ⟨⟩, -⟩⟩
  | some p =>
    obtain ⟨target, text⟩ := p
    dsimp only
    cases hn : variableName? target with
    | none =>
      refine ⟨nofun, ?_⟩
      rintro ⟨_, _, _, _, ⟨⟩, h, -⟩
      cases hn.symm.trans h
    | some name =>
      simp only [bind_eq_ok_iff, lift_eq_ok_iff, pure_eq_ok_iff]
      constructor
      · rintro ⟨value, _, ⟨hv, rfl⟩, rfl, rfl⟩
        exact ⟨_, _, _, _, rfl, hn, hv, rfl, rfl⟩
      · rintro ⟨_, _, _, value, ⟨⟩, h, hv, rfl, rfl⟩
        cases hn.symm.trans h
        exact ⟨value, _, ⟨hv, rfl⟩, rfl, rfl⟩

theorem tagNode_capture_iff : m.tagNode untilTag t .capture s = .ok node s' ↔
    ∃ name body close, variableName? t.args.toList = some name ∧
      untilTag ["endcapture"] s = .ok (body, some close) s' ∧ node = .capture name body := by
  rw [tagNode]
  cases hn : variableName? t.args.toList with
  | none => exact ⟨nofun, by rintro ⟨_, _, _, ⟨⟩, -⟩⟩
  | some name =>
    simp only [bind_eq_ok_iff, pure_eq_ok_iff]
    constructor
    · rintro ⟨⟨body, close⟩, _, hb, rfl, rfl⟩
      exact ⟨_, _, _, rfl, block_eq_ok_iff.1 hb, rfl⟩
    · rintro ⟨_, body, close, ⟨⟩, hb, rfl⟩
      exact ⟨(body, close), _, block_eq_ok_iff.2 hb, rfl, rfl⟩

theorem tagNode_conditional_iff {negate : Bool} :
    m.tagNode untilTag t (.conditional negate) s = .ok node s' ↔
      ∃ condition branches otherwise, Pipeline.parse t.args = .ok condition ∧
        m.branches untilTag t negate condition (s.length + 1) s = .ok (branches, otherwise) s' ∧
        node = .conditional negate branches otherwise := by
  rw [tagNode]
  simp only [bind_eq_ok_iff, condition_eq_ok_iff]
  constructor
  · rintro ⟨condition, _, ⟨hc, rfl⟩, _, _, hg, ⟨branches, otherwise⟩, _, hb, h⟩
    cases hg
    cases h
    exact ⟨_, _, _, hc, hb, rfl⟩
  · rintro ⟨condition, branches, otherwise, hc, hb, rfl⟩
    exact ⟨condition, s, ⟨hc, rfl⟩, s, s, rfl, (branches, otherwise), s', hb, rfl⟩

theorem tagNode_loop_iff : m.tagNode untilTag t .loop s = .ok node s' ↔
    ∃ header body close s₁, header? t.args = some header ∧
      untilTag ["else", "endfor"] s = .ok (body, some close) s₁ ∧
      ((close.name = "else" ∧ ∃ otherwise close',
          untilTag ["endfor"] s₁ = .ok (otherwise, some close') s' ∧
          node = .loop header body otherwise) ∨
        close.name ≠ "else" ∧ s' = s₁ ∧ node = .loop header body []) := by
  rw [tagNode]
  simp only [bind_eq_ok_iff, lift_eq_ok_iff, readIn_loopHeader_iff]
  constructor
  · rintro ⟨header, _, ⟨hh, rfl⟩, ⟨body, close⟩, s₁, hb, h⟩
    refine ⟨header, body, close, s₁, hh, block_eq_ok_iff.1 hb, ?_⟩
    by_cases hc : close.name = "else"
    · simp only [if_pos hc, bind_eq_ok_iff, pure_eq_ok_iff] at h
      obtain ⟨⟨otherwise, close'⟩, _, ho, rfl, rfl⟩ := h
      exact .inl ⟨hc, otherwise, close', block_eq_ok_iff.1 ho, rfl⟩
    · simp only [if_neg hc, pure_eq_ok_iff] at h
      exact .inr ⟨hc, h.2, h.1⟩
  · rintro ⟨header, body, close, s₁, hh, hb, h⟩
    refine ⟨header, s, ⟨hh, rfl⟩, (body, close), s₁, block_eq_ok_iff.2 hb, ?_⟩
    rcases h with ⟨hc, otherwise, close', ho, rfl⟩ | ⟨hc, rfl, rfl⟩
    · simp only [if_pos hc, bind_eq_ok_iff, pure_eq_ok_iff]
      exact ⟨(otherwise, close'), s', block_eq_ok_iff.2 ho, rfl, rfl⟩
    · simp only [if_neg hc, pure_eq_ok_iff, and_self]

theorem tagNode_comment_iff : m.tagNode untilTag t .comment s = .ok node s' ↔
    skipTo "endcomment" s = some s' ∧ node = .literal "" := by
  rw [tagNode]
  simp only [bind_eq_ok_iff, pure_eq_ok_iff, skipBlock]
  cases skipTo "endcomment" s with
  | none => exact ⟨by rintro ⟨_, _, ⟨⟩, -⟩, by rintro ⟨⟨⟩, -⟩⟩
  | some rest =>
    constructor
    · rintro ⟨_, _, ⟨⟩, rfl, rfl⟩
      exact ⟨rfl, rfl⟩
    · rintro ⟨⟨⟩, rfl⟩
      exact ⟨(), _, rfl, rfl, rfl⟩

theorem tagNode_raw_iff {text : String} : m.tagNode untilTag t .raw (.text text :: s) = .ok node s' ↔
    ∃ nodes close, untilTag ["endraw"] s = .ok (nodes, some close) s' ∧ node = .literal text := by
  rw [tagNode, bind_of_ok (rfl : text? (.text text :: s) = .ok (some text) s)]
  simp only [bind_eq_ok_iff, pure_eq_ok_iff]
  constructor
  · rintro ⟨⟨nodes, close⟩, _, hb, rfl, rfl⟩
    exact ⟨nodes, close, block_eq_ok_iff.1 hb, rfl⟩
  · rintro ⟨nodes, close, hb, rfl⟩
    exact ⟨(nodes, close), s', block_eq_ok_iff.2 hb, rfl, rfl⟩

/-- The tag that closes an `if` or, with `negate`, an `unless`. -/
def conditionalClose (negate : Bool) : String := if negate then "endunless" else "endif"

/-- The tags that end a branch; only an `if` has further conditions. -/
def branchEnds (negate : Bool) : List String :=
  if negate then ["else", conditionalClose negate] else ["elsif", "else", conditionalClose negate]

/-- A condition's body goes up to a tag that opens another branch, opens the last body, or closes
the block. -/
theorem branches_succ_iff {negate : Bool} {condition : Pipeline} {n : Nat} {branches : List Branch}
    {otherwise : List Node} :
    m.branches untilTag t negate condition (n + 1) s = .ok (branches, otherwise) s' ↔
      ∃ body tag s₁,
        untilTag (branchEnds negate) s = .ok (body, some tag) s₁ ∧
        ((tag.name = "elsif" ∧ ∃ next rest, Pipeline.parse tag.args = .ok next ∧
            m.branches untilTag t negate next n s₁ = .ok (rest, otherwise) s' ∧
            branches = .mk condition body :: rest) ∨
          (tag.name = "else" ∧ ∃ close,
            untilTag [conditionalClose negate] s₁ = .ok (otherwise, some close) s' ∧
            branches = [.mk condition body]) ∨
          (tag.name ≠ "elsif" ∧ tag.name ≠ "else" ∧ s' = s₁ ∧ branches = [.mk condition body] ∧
            otherwise = [])) := by
  rw [Markup.branches]
  simp only [bind_eq_ok_iff]
  constructor
  · rintro ⟨⟨body, tag⟩, s₁, hb, h⟩
    refine ⟨body, tag, s₁, block_eq_ok_iff.1 hb, ?_⟩
    by_cases hi : tag.name = "elsif"
    · simp only [if_pos hi, bind_eq_ok_iff, condition_eq_ok_iff] at h
      obtain ⟨next, _, ⟨hn, rfl⟩, ⟨rest, otherwise'⟩, _, hr, h⟩ := h
      cases h
      exact .inl ⟨hi, next, rest, hn, hr, rfl⟩
    by_cases he : tag.name = "else"
    · simp only [if_neg hi, if_pos he, bind_eq_ok_iff] at h
      obtain ⟨⟨otherwise', close⟩, _, ho, h⟩ := h
      cases h
      exact .inr (.inl ⟨he, close, block_eq_ok_iff.1 ho, rfl⟩)
    · simp only [if_neg hi, if_neg he] at h
      cases h
      exact .inr (.inr ⟨hi, he, rfl, rfl, rfl⟩)
  · rintro ⟨body, tag, s₁, hb, h⟩
    refine ⟨(body, tag), s₁, block_eq_ok_iff.2 hb, ?_⟩
    rcases h with ⟨hi, next, rest, hn, hr, rfl⟩ | ⟨he, close, ho, rfl⟩ | ⟨hi, he, rfl, rfl, rfl⟩
    · simp only [if_pos hi, bind_eq_ok_iff, condition_eq_ok_iff]
      exact ⟨next, s₁, ⟨hn, rfl⟩, (rest, otherwise), s', hr, rfl⟩
    · have hi : tag.name ≠ "elsif" := by simp [he]
      simp only [if_neg hi, if_pos he, bind_eq_ok_iff]
      exact ⟨(otherwise, close), s', block_eq_ok_iff.2 ho, rfl⟩
    · simp only [if_neg hi, if_neg he]
      rfl

end

/-! ## Lexemes -/

section
variable {m : Markup} {n : Nat} {ends : List String} {s s' : List Lexeme} {t : TagToken}
  {r : List Node × Option TagToken}

theorem next_cons (l : Lexeme) : next? (l :: s) = .ok (some l) s := rfl

theorem nodesWithin_nil : m.nodesWithin (n + 1) ends [] = .ok ([], none) [] := rfl

theorem nodesWithin_end (h : t.name ∈ ends) :
    m.nodesWithin (n + 1) ends (.tag t :: s) = .ok ([], some t) s := by
  rw [nodesWithin, bind_of_ok (next_cons _)]
  dsimp only
  rw [if_pos h]
  rfl

/-- The node of the first lexeme goes before the nodes that follow. -/
theorem more_eq_ok_iff {node : Node} :
    (do
      let (nodes, tag) ← m.nodesWithin n ends
      return (node :: nodes, tag) : Build (List Node × Option TagToken)) s = .ok r s' ↔
      ∃ nodes, m.nodesWithin n ends s = .ok (nodes, r.2) s' ∧ r.1 = node :: nodes := by
  rw [bind_eq_ok_iff]
  constructor
  · rintro ⟨⟨nodes, tag⟩, s₁, hn, h⟩
    cases h
    exact ⟨nodes, hn, rfl⟩
  · rintro ⟨nodes, hn, e⟩
    refine ⟨(nodes, r.2), s', hn, ?_⟩
    obtain ⟨nodes', tag⟩ := r
    cases e
    rfl

theorem nodesWithin_text_iff {text : String} :
    m.nodesWithin (n + 1) ends (.text text :: s) = .ok r s' ↔
      ∃ nodes, m.nodesWithin n ends s = .ok (nodes, r.2) s' ∧ r.1 = .text text :: nodes := by
  rw [nodesWithin, bind_of_ok (next_cons _)]
  exact more_eq_ok_iff

theorem nodesWithin_blank {text : String} {offset : Nat} (h : text.toList.all Text.isBlank = true) :
    m.nodesWithin (n + 1) ends (.output text offset :: s) = m.nodesWithin n ends s := by
  rw [nodesWithin, bind_of_ok (next_cons _)]
  dsimp only
  rw [if_pos h]

theorem nodesWithin_output_iff {text : String} {offset : Nat}
    (h : text.toList.all Text.isBlank = false) :
    m.nodesWithin (n + 1) ends (.output text offset :: s) = .ok r s' ↔
      ∃ p nodes, Pipeline.parse text = .ok p ∧ m.nodesWithin n ends s = .ok (nodes, r.2) s' ∧
        r.1 = .output p :: nodes := by
  rw [nodesWithin, bind_of_ok (next_cons _)]
  dsimp only
  rw [if_neg (by simp [h]), bind_eq_ok_iff]
  constructor
  · rintro ⟨p, s₁, hp, hm⟩
    obtain ⟨hp', rfl⟩ := lift_eq_ok_iff.1 hp
    obtain ⟨nodes, hn, e⟩ := more_eq_ok_iff.1 hm
    exact ⟨p, nodes, hp', hn, e⟩
  · rintro ⟨p, nodes, hp, hn, e⟩
    exact ⟨p, s, lift_eq_ok_iff.2 ⟨hp, rfl⟩, more_eq_ok_iff.2 ⟨nodes, hn, e⟩⟩

theorem nodesWithin_tag_iff (h : t.name ∉ ends) :
    m.nodesWithin (n + 1) ends (.tag t :: s) = .ok r s' ↔
      ∃ rule node s₁ nodes, m.tags.lookup t.name = some rule ∧
        m.tagNode (m.nodesWithin n) t rule s = .ok node s₁ ∧
        m.nodesWithin n ends s₁ = .ok (nodes, r.2) s' ∧ r.1 = node :: nodes := by
  rw [nodesWithin, bind_of_ok (next_cons _)]
  dsimp only
  rw [if_neg h]
  cases m.tags.lookup t.name with
  | none =>
    refine ⟨fun hr => ?_, by rintro ⟨_, _, _, _, ⟨⟩, -⟩⟩
    dsimp only at hr
    split at hr <;> cases hr
  | some rule =>
    dsimp only
    rw [bind_eq_ok_iff]
    constructor
    · rintro ⟨node, s₁, ht, hm⟩
      obtain ⟨nodes, hn, e⟩ := more_eq_ok_iff.1 hm
      exact ⟨rule, node, s₁, nodes, rfl, ht, hn, e⟩
    · rintro ⟨_, node, s₁, nodes, ⟨⟩, ht, hn, e⟩
      exact ⟨node, s₁, ht, more_eq_ok_iff.2 ⟨nodes, hn, e⟩⟩

end

end Markup

end Stencil
