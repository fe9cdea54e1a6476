import Mathlib
import Stencil.Proofs.Markup.Grammar
import Stencil.Proofs.Markup.RawTags

/-!
# Templates and their derivations

The tree reader reads exactly the lists of lexemes that the grammar of blocks derives, and gives the
tree of the derivation. A block tag reads its bodies with the reader of the enclosing text, so one
induction, on the steps that the reader may take, covers all nestings.
-/

namespace Stencil

namespace Markup

/-- The rules of the built-in tags. -/
theorem builtin_lookup {name : String} {rule : TagRule}
    (h : TagTable.builtin.lookup name = some rule) :
    (name, rule) ∈ [("assign", TagRule.assign), ("capture", .capture), ("if", .conditional false),
      ("unless", .conditional true), ("for", .loop), ("comment", .comment), ("raw", .raw)] := by
  simp only [TagTable.builtin, TagTable.ofList, List.foldl_cons, List.foldl_nil,
    TagTable.register, TagTable.empty] at h
  repeat' split at h
  all_goals cases h
  all_goals simp [*]

theorem name_of_raw {name : String} (h : TagTable.builtin.lookup name = some .raw) :
    name = "raw" := by
  simpa using builtin_lookup h

theorem builtin_ne_custom {name : String} (tag : CustomTag) :
    TagTable.builtin.lookup name ≠ some (.custom tag) := by
  intro h
  simpa using builtin_lookup h

/-! ## Reading and deriving -/

/-- Where a body ends: at the end of the lexemes, or at a tag with one of the names. -/
inductive Stops (ends : List String) : List Lexeme → Option TagToken → List Lexeme → Prop where
  | atEnd : Stops ends [] none []
  | atTag {t : TagToken} {s : List Lexeme} (h : t.name ∈ ends) : Stops ends (.tag t :: s) (some t) s

/-- A front of the lexemes has a derivation, and what follows it ends a body. -/
def Derived (ends : List String) (s : List Lexeme) (r : List Node × Option TagToken)
    (s' : List Lexeme) : Prop :=
  ∃ items stop, ItemsValid items ∧ s = itemsLexemes items ++ stop ∧ r.1 = itemsNodes items ∧
    Stops ends stop r.2 s'

/-- Lexemes that a reader of so many steps may read. -/
structure Within (n : Nat) (s : List Lexeme) : Prop where
  length_lt : s.length < n
  rawEnded : RawEnded s

theorem Within.suffix {n : Nat} {s t : List Lexeme} (h : Within n s) (ht : t <:+ s) : Within n t :=
  ⟨Nat.lt_of_le_of_lt ht.length_le h.length_lt, h.rawEnded.suffix ht⟩

/-- Behind a body and the tag that ends it. -/
theorem Within.behind {n : Nat} {body s : List Lexeme} {t : TagToken}
    (h : Within n (body ++ .tag t :: s)) : Within n s :=
  h.suffix ⟨body ++ [.tag t], by simp⟩

theorem Within.tail {n : Nat} {l : Lexeme} {s : List Lexeme} (h : Within (n + 1) (l :: s)) :
    Within n s :=
  ⟨Nat.lt_of_succ_lt_succ h.length_lt, h.rawEnded.suffix (List.suffix_cons l s)⟩

theorem lt_behind {k : Nat} {body s : List Lexeme} {t : TagToken}
    (h : (body ++ .tag t :: s).length < k + 1) : s.length < k := by
  rw [List.length_append, List.length_cons] at h
  omega

/-- In so many steps the reader of bodies reads what has a derivation. -/
def ReadsDerived (untilTag : List String → Build (List Node × Option TagToken)) (n : Nat) : Prop :=
  ∀ ends s r s', (∀ e ∈ ends, TagTable.builtin.lookup e = none) → Within n s →
    (untilTag ends s = .ok r s' ↔ Derived ends s r s')

/-- Behind a tag of the rule stands a block, and the node is its node. -/
def BlockDerived (rule : TagRule) (args : String) (s : List Lexeme) (node : Node)
    (s' : List Lexeme) : Prop :=
  ∃ block : Block, block.rule = rule ∧ block.Valid args ∧ node = block.node ∧
    s = block.lexemes ++ s'

/-- One item after another, up to where the body ends. -/
theorem derived_iff {ends : List String} {s s' : List Lexeme} {r : List Node × Option TagToken} :
    Derived ends s r s' ↔ (r.1 = [] ∧ Stops ends s r.2 s') ∨
      ∃ (item : Item) (rest : List Lexeme) (nodes : List Node), item.Valid ∧
        s = item.lexemes ++ rest ∧ r.1 = item.nodes ++ nodes ∧ Derived ends rest (nodes, r.2) s' := by
  constructor
  · rintro ⟨items, stop, hv, rfl, hr, hs⟩
    cases items with
    | nil => exact .inl ⟨hr, hs⟩
    | cons item items =>
      refine .inr ⟨item, itemsLexemes items ++ stop, itemsNodes items, hv.1, ?_, hr,
        items, stop, hv.2, rfl, rfl, hs⟩
      rw [itemsLexemes, List.append_assoc]
  · rintro (⟨hr, hs⟩ | ⟨item, rest, nodes, hv, rfl, hr, items, stop, hvs, rfl, hn, hs⟩)
    · exact ⟨[], s, trivial, rfl, hr, hs⟩
    · refine ⟨item :: items, stop, ⟨hv, hvs⟩, ?_, ?_, hs⟩
      · rw [itemsLexemes, List.append_assoc]
      · rw [hr, itemsNodes]
        exact congrArg _ hn

section
variable {ends : List String} {s s' : List Lexeme} {r : List Node × Option TagToken} {t : TagToken}
  {text : String} {offset : Nat}

theorem derived_nil_iff : Derived ends [] r s' ↔ r = ([], none) ∧ s' = [] := by
  rw [derived_iff]
  constructor
  · rintro (⟨hr, h⟩ | ⟨item, rest, _, -, e, -⟩)
    · obtain ⟨nodes, tag⟩ := r
      cases h
      cases hr
      exact ⟨rfl, rfl⟩
    · cases item <;> cases e
  · rintro ⟨rfl, rfl⟩
    exact .inl ⟨rfl, .atEnd⟩

theorem derived_text_iff : Derived ends (.text text :: s) r s' ↔
    ∃ nodes, Derived ends s (nodes, r.2) s' ∧ r.1 = .text text :: nodes := by
  rw [derived_iff]
  constructor
  · rintro (⟨-, ⟨⟩⟩ | ⟨item, rest, nodes, -, e, hr, hd⟩)
    cases item with
    | text =>
      cases e
      exact ⟨nodes, hd, hr⟩
    | _ => cases e
  · rintro ⟨nodes, hd, hr⟩
    exact .inr ⟨.text text, s, nodes, trivial, rfl, hr, hd⟩

theorem derived_blank_iff (hb : text.toList.all Text.isBlank = true) :
    Derived ends (.output text offset :: s) r s' ↔ Derived ends s r s' := by
  rw [derived_iff]
  constructor
  · rintro (⟨-, ⟨⟩⟩ | ⟨item, rest, nodes, hv, e, hr, hd⟩)
    cases item with
    | blank =>
      cases e
      obtain ⟨_, tag⟩ := r
      cases hr
      exact hd
    | output =>
      cases e
      cases hb.symm.trans (Pipeline.not_blank_of_parse hv)
    | _ => cases e
  · exact fun hd => .inr ⟨.blank text offset, s, r.1, hb, rfl, rfl, hd⟩

theorem derived_output_iff (hb : text.toList.all Text.isBlank = false) :
    Derived ends (.output text offset :: s) r s' ↔ ∃ p nodes, Pipeline.parse text = .ok p ∧
      Derived ends s (nodes, r.2) s' ∧ r.1 = .output p :: nodes := by
  rw [derived_iff]
  constructor
  · rintro (⟨-, ⟨⟩⟩ | ⟨item, rest, nodes, hv, e, hr, hd⟩)
    cases item with
    | output _ _ p =>
      cases e
      exact ⟨p, nodes, hv, hd, hr⟩
    | blank =>
      cases e
      cases hb.symm.trans hv
    | _ => cases e
  · rintro ⟨p, nodes, hp, hd, hr⟩
    exact .inr ⟨.output text offset p, s, nodes, hp, rfl, hr, hd⟩

theorem derived_end_iff (he : ∀ e ∈ ends, TagTable.builtin.lookup e = none) (hm : t.name ∈ ends) :
    Derived ends (.tag t :: s) r s' ↔ r = ([], some t) ∧ s' = s := by
  rw [derived_iff]
  constructor
  · rintro (⟨hr, h⟩ | ⟨item, rest, nodes, hv, e, hr, hd⟩)
    · obtain ⟨nodes, tag⟩ := r
      cases h
      cases hr
      exact ⟨rfl, rfl⟩
    · cases item with
      | tagged =>
        cases e
        cases hv.1.symm.trans (he _ hm)
      | _ => cases e
  · rintro ⟨rfl, rfl⟩
    exact .inl ⟨rfl, .atTag hm⟩

theorem derived_tagged_iff (hm : t.name ∉ ends) : Derived ends (.tag t :: s) r s' ↔
    ∃ (block : Block) (rest : List Lexeme) (nodes : List Node),
      TagTable.builtin.lookup t.name = some block.rule ∧ block.Valid t.args ∧
      s = block.lexemes ++ rest ∧ Derived ends rest (nodes, r.2) s' ∧ r.1 = block.node :: nodes := by
  rw [derived_iff]
  constructor
  · rintro (⟨-, h⟩ | ⟨item, rest, nodes, hv, e, hr, hd⟩)
    · obtain ⟨nodes, tag⟩ := r
      cases h with
      | atTag h => exact absurd h hm
    · cases item with
      | tagged t' block =>
        obtain ⟨⟨⟩, rfl⟩ := List.cons.inj e
        exact ⟨block, rest, nodes, hv.1, hv.2, rfl, hd, hr⟩
      | _ => cases e
  · rintro ⟨block, rest, nodes, hl, hv, rfl, hd, hr⟩
    exact .inr ⟨.tagged t block, rest, nodes, ⟨hl, hv⟩, rfl, hr, hd⟩

end

theorem derived_tag_iff {ends : List String} {s s' : List Lexeme} {nodes : List Node}
    {t : TagToken} : Derived ends s (nodes, some t) s' ↔ ∃ items, ItemsValid items ∧
      s = itemsLexemes items ++ .tag t :: s' ∧ nodes = itemsNodes items ∧ t.name ∈ ends := by
  constructor
  · rintro ⟨items, stop, hv, rfl, hr, hs⟩
    cases hs with
    | atTag h => exact ⟨items, hv, rfl, hr, h⟩
  · rintro ⟨items, hv, rfl, hr, h⟩
    exact ⟨items, _, hv, rfl, hr, .atTag h⟩

theorem skipTo_eq_some_iff {name : String} {s s' : List Lexeme} : skipTo name s = some s' ↔
    ∃ skipped close, s = skipped ++ .tag close :: s' ∧ (∀ t, .tag t ∈ skipped → t.name ≠ name) ∧
      close.name = name := by
  constructor
  · intro h
    induction s with
    | nil => cases h
    | cons l rest ih =>
      by_cases hl : ∃ t, l = .tag t ∧ t.name = name
      · obtain ⟨t, rfl, hn⟩ := hl
        rw [skipTo, if_pos hn] at h
        cases h
        exact ⟨[], t, rfl, nofun, hn⟩
      · have hr : skipTo name rest = some s' := by
          cases l with
          | text | output => exact h
          | tag t => rwa [skipTo, if_neg fun hn => hl ⟨t, rfl, hn⟩] at h
        obtain ⟨skipped, close, rfl, hs, hc⟩ := ih hr
        refine ⟨l :: skipped, close, rfl, fun t ht hn => ?_, hc⟩
        rcases List.mem_cons.1 ht with e | ht
        · exact hl ⟨t, e.symm, hn⟩
        · exact hs t ht hn
  · rintro ⟨skipped, close, rfl, hs, hc⟩
    induction skipped with
    | nil => rw [List.nil_append, skipTo, if_pos hc]
    | cons l skipped ih =>
      have ih := ih fun t ht => hs t (List.mem_cons_of_mem l ht)
      cases l with
      | text | output => exact ih
      | tag t =>
        rw [List.cons_append, skipTo, if_neg (hs t List.mem_cons_self)]
        exact ih

theorem mem_branchEnds {negate : Bool} {name : String} : name ∈ branchEnds negate ↔
    negate = false ∧ name = "elsif" ∨ name = "else" ∨ name = conditionalClose negate := by
  cases negate <;> simp [branchEnds]

theorem opens_branchEnds (negate : Bool) :
    ∀ e ∈ branchEnds negate, TagTable.builtin.lookup e = none := by
  intro e he
  rcases mem_branchEnds.1 he with ⟨-, rfl⟩ | rfl | rfl
  · rfl
  · rfl
  · exact (closing_conditional negate).opens

theorem opens_loopEnds : ∀ e ∈ ["else", "endfor"], TagTable.builtin.lookup e = none := by
  intro e he
  rcases List.mem_pair.1 he with rfl | rfl <;> rfl

/-! ## Blocks -/

section
variable {source : String} {untilTag : List String → Build (List Node × Option TagToken)} {n : Nat}
  {t : TagToken} {s s' : List Lexeme} {node : Node}

theorem assign_iff : tagNode ⟨source, .builtin⟩ untilTag t .assign s = .ok node s' ↔
    BlockDerived .assign t.args s node s' := by
  rw [tagNode_assign_iff]
  constructor
  · rintro ⟨target, text, name, value, hp, hn, hv, rfl, rfl⟩
    exact ⟨.assign name value, rfl, ⟨target, text, hp, hn, hv⟩, rfl, rfl⟩
  · rintro ⟨block, hr, hv, rfl, rfl⟩
    cases block with
    | assign name value =>
      obtain ⟨target, text, hp, hn, hv⟩ := hv
      exact ⟨target, text, name, value, hp, hn, hv, rfl, rfl⟩
    | _ => cases hr

theorem comment_iff : tagNode ⟨source, .builtin⟩ untilTag t .comment s = .ok node s' ↔
    BlockDerived .comment t.args s node s' := by
  rw [tagNode_comment_iff, skipTo_eq_some_iff]
  constructor
  · rintro ⟨⟨skipped, close, rfl, hk, hc⟩, rfl⟩
    exact ⟨.comment skipped close, rfl, ⟨hk, hc⟩, rfl, by simp [Block.lexemes]⟩
  · rintro ⟨block, hr, hv, rfl, e⟩
    cases block with
    | comment skipped close =>
      exact ⟨⟨skipped, close, by simpa [Block.lexemes] using e, hv⟩, rfl⟩
    | _ => cases hr

variable (hu : ReadsDerived untilTag n)
include hu

/-- A body up to a tag with one of the names. -/
theorem ReadsDerived.body_iff {ends : List String} {nodes : List Node}
    (he : ∀ e ∈ ends, TagTable.builtin.lookup e = none) (hw : Within n s) :
    untilTag ends s = .ok (nodes, some t) s' ↔ ∃ items, ItemsValid items ∧
      s = itemsLexemes items ++ .tag t :: s' ∧ nodes = itemsNodes items ∧ t.name ∈ ends :=
  (hu ends s _ s' he hw).trans derived_tag_iff

/-- A last body up to the tag that closes the block. -/
theorem ReadsDerived.closed_iff {closing : String} {nodes : List Node} (hc : Closing closing)
    (hw : Within n s) :
    untilTag [closing] s = .ok (nodes, some t) s' ↔ ∃ items, ItemsValid items ∧
      s = itemsLexemes items ++ .tag t :: s' ∧ nodes = itemsNodes items ∧ t.name = closing := by
  rw [hu.body_iff (fun e he => List.mem_singleton.1 he ▸ hc.opens) hw]
  simp only [List.mem_singleton]

theorem capture_iff (hw : Within n s) :
    tagNode ⟨source, .builtin⟩ untilTag t .capture s = .ok node s' ↔
      BlockDerived .capture t.args s node s' := by
  rw [tagNode_capture_iff]
  constructor
  · rintro ⟨name, _, close, hp, hb, rfl⟩
    obtain ⟨body, hv, rfl, rfl, hc⟩ := (hu.closed_iff closing_capture hw).1 hb
    exact ⟨.capture name body close, rfl, ⟨hp, hv, hc⟩, rfl, by simp [Block.lexemes]⟩
  · rintro ⟨block, hr, hv, rfl, e⟩
    cases block with
    | capture name body close =>
      obtain ⟨hp, hv, hc⟩ := hv
      have e : s = itemsLexemes body ++ .tag close :: s' := by simpa [Block.lexemes] using e
      have hb := (hu.closed_iff closing_capture hw).2 ⟨body, hv, e, rfl, hc⟩
      exact ⟨name, _, close, hp, hb, rfl⟩
    | _ => cases hr

/-- The branches of a conditional, by induction on the steps that are left for them. -/
theorem branches_iff {negate : Bool} {condition : Pipeline} {k : Nat} {branches : List Branch}
    {otherwise : List Node} (hk : s.length < k) (hw : Within n s) :
    Markup.branches ⟨source, .builtin⟩ untilTag t negate condition k s = .ok (branches, otherwise) s' ↔
      ∃ (body : List Item) (tail : Tail), ItemsValid body ∧
        tail.Valid (!negate) (conditionalClose negate) ∧
        s = itemsLexemes body ++ (tail.lexemes ++ s') ∧
        branches = .mk condition (itemsNodes body) :: tail.branches ∧ otherwise = tail.lastBody := by
  have hc := closing_conditional negate
  have hends := opens_branchEnds negate
  induction k generalizing condition s branches otherwise with
  | zero => cases hk
  | succ k ih =>
    rw [branches_succ_iff]
    constructor
    · rintro ⟨_, tag, s₁, hb, h⟩
      obtain ⟨body, hv, rfl, rfl, hm⟩ := (hu.body_iff hends hw).1 hb
      rcases h with ⟨hi, next, rest, hp, hr, rfl⟩ | ⟨he, close, ho, rfl⟩ | ⟨hi, he, rfl, rfl, rfl⟩
      · obtain ⟨body', tail, hv', ht, rfl, rfl, rfl⟩ := (ih (lt_behind hk) hw.behind).1 hr
        have hb : (!negate) = true := by
          rcases mem_branchEnds.1 hm with ⟨h, -⟩ | h | h
          · rw [h]
            rfl
          · exact absurd (hi.symm.trans h) (by decide)
          · exact absurd (h.symm.trans hi) hc.ne_elsif
        exact ⟨body, .branch tag next body' tail, hv, ⟨hb, hi, hp, hv', ht⟩,
          by simp [Tail.lexemes], rfl, rfl⟩
      · obtain ⟨last, hv', rfl, rfl, hn⟩ := (hu.closed_iff hc hw.behind).1 ho
        exact ⟨body, .otherwise tag last close, hv, ⟨he, hv', hn⟩, by simp [Tail.lexemes], rfl, rfl⟩
      · have ht : tag.name = conditionalClose negate := by
          simpa [hi, he] using mem_branchEnds.1 hm
        exact ⟨body, .close tag, hv, ht, rfl, rfl, rfl⟩
    · rintro ⟨body, tail, hv, ht, e, rfl, rfl⟩
      cases tail with
      | close tag =>
        have hb := (hu.body_iff hends hw).2 ⟨body, hv, e, rfl, mem_branchEnds.2 (.inr (.inr ht))⟩
        have hi : tag.name ≠ "elsif" := fun h => hc.ne_elsif (ht.symm.trans h)
        have he : tag.name ≠ "else" := fun h => hc.ne_else (ht.symm.trans h)
        exact ⟨_, tag, s', hb, .inr (.inr ⟨hi, he, rfl, rfl, rfl⟩)⟩
      | otherwise tag last close =>
        obtain ⟨he, hv', hn⟩ := ht
        obtain rfl : s = itemsLexemes body ++ .tag tag :: (itemsLexemes last ++ .tag close :: s') := by
          simp [e, Tail.lexemes]
        have hb := (hu.body_iff hends hw).2 ⟨body, hv, rfl, rfl, mem_branchEnds.2 (.inr (.inl he))⟩
        have ho := (hu.closed_iff hc hw.behind).2 ⟨last, hv', rfl, rfl, hn⟩
        exact ⟨_, tag, _, hb, .inr (.inl ⟨he, close, ho, rfl⟩)⟩
      | branch tag next body' tail =>
        obtain ⟨hn, hi, hp, hv', ht⟩ := ht
        obtain rfl : s = itemsLexemes body ++
            .tag tag :: (itemsLexemes body' ++ (tail.lexemes ++ s')) := by
          simp [e, Tail.lexemes]
        have hb := (hu.body_iff hends hw).2
          ⟨body, hv, rfl, rfl, mem_branchEnds.2 (.inl ⟨by simpa using hn, hi⟩)⟩
        refine ⟨_, tag, _, hb, .inl ⟨hi, next, _, hp, ?_, rfl⟩⟩
        exact (ih (lt_behind hk) hw.behind).2 ⟨body', tail, hv', ht, rfl, rfl, rfl⟩

theorem conditional_iff {negate : Bool} (hw : Within n s) :
    tagNode ⟨source, .builtin⟩ untilTag t (.conditional negate) s = .ok node s' ↔
      BlockDerived (.conditional negate) t.args s node s' := by
  rw [tagNode_conditional_iff]
  constructor
  · rintro ⟨condition, _, _, hp, hb, rfl⟩
    obtain ⟨body, tail, hv, ht, e, rfl, rfl⟩ := (branches_iff hu (Nat.lt_succ_self _) hw).1 hb
    exact ⟨.conditional negate condition body tail, rfl, ⟨hp, hv, ht⟩, rfl,
      by simp [Block.lexemes, e]⟩
  · rintro ⟨block, hr, hv, rfl, e⟩
    cases block with
    | conditional negate' condition body tail =>
      cases hr
      obtain ⟨hp, hv, ht⟩ := hv
      have e : s = itemsLexemes body ++ (tail.lexemes ++ s') := by simp [e, Block.lexemes]
      refine ⟨condition, _, _, hp, ?_, rfl⟩
      exact (branches_iff hu (Nat.lt_succ_self _) hw).2 ⟨body, tail, hv, ht, e, rfl, rfl⟩
    | _ => cases hr

theorem loop_iff (hw : Within n s) :
    tagNode ⟨source, .builtin⟩ untilTag t .loop s = .ok node s' ↔
      BlockDerived .loop t.args s node s' := by
  rw [tagNode_loop_iff]
  constructor
  · rintro ⟨header, _, tag, s₁, hh, hb, h⟩
    obtain ⟨body, hv, rfl, rfl, hm⟩ := (hu.body_iff opens_loopEnds hw).1 hb
    rcases h with ⟨he, _, close, ho, rfl⟩ | ⟨he, rfl, rfl⟩
    · obtain ⟨last, hv', rfl, rfl, hn⟩ := (hu.closed_iff closing_loop hw.behind).1 ho
      exact ⟨.loop header body (.otherwise tag last close), rfl, ⟨hh, hv, he, hv', hn⟩, rfl,
        by simp [Block.lexemes, Tail.lexemes]⟩
    · have hn : tag.name = "endfor" := by simpa [he] using hm
      exact ⟨.loop header body (.close tag), rfl, ⟨hh, hv, hn⟩, rfl,
        by simp [Block.lexemes, Tail.lexemes]⟩
  · rintro ⟨block, hr, hv, rfl, e⟩
    cases block with
    | loop header body tail =>
      obtain ⟨hh, hv, ht⟩ := hv
      cases tail with
      | close tag =>
        have hn : tag.name = "endfor" := ht
        have e : s = itemsLexemes body ++ .tag tag :: s' := by
          simp [e, Block.lexemes, Tail.lexemes]
        have hb := (hu.body_iff opens_loopEnds hw).2 ⟨body, hv, e, rfl, by simp [hn]⟩
        have he : tag.name ≠ "else" := fun h => closing_loop.ne_else (hn.symm.trans h)
        exact ⟨header, _, tag, s', hh, hb, .inr ⟨he, rfl, rfl⟩⟩
      | otherwise tag last close =>
        obtain ⟨he, hv', hn⟩ := ht
        obtain rfl : s = itemsLexemes body ++ .tag tag :: (itemsLexemes last ++ .tag close :: s') := by
          simp [e, Block.lexemes, Tail.lexemes]
        have hb := (hu.body_iff opens_loopEnds hw).2 ⟨body, hv, rfl, rfl, by simp [he]⟩
        have ho := (hu.closed_iff closing_loop hw.behind).2 ⟨last, hv', rfl, rfl, hn⟩
        exact ⟨header, _, tag, _, hh, hb, .inl ⟨he, _, close, ho, rfl⟩⟩
      | branch => cases ht.1
    | _ => cases hr

/-- The tag that ends a raw text starts no item, so no other body is read. -/
theorem raw_iff {text : String} {close : TagToken} {more : List Lexeme}
    (hc : close.name = "endraw") (hw : Within n (.tag close :: more)) :
    tagNode ⟨source, .builtin⟩ untilTag t .raw (.text text :: .tag close :: more) = .ok node s' ↔
      BlockDerived .raw t.args (.text text :: .tag close :: more) node s' := by
  rw [tagNode_raw_iff]
  constructor
  · rintro ⟨_, close', hb, rfl⟩
    obtain ⟨items, hv, e, rfl, hc'⟩ := (hu.closed_iff closing_raw hw).1 hb
    obtain ⟨rfl, e'⟩ := items_unique [] items trivial hv (.of_close closing_raw hc more)
      (.of_close closing_raw hc' s') e
    cases e'
    exact ⟨.raw text close, rfl, hc, rfl, rfl⟩
  · rintro ⟨block, hr, hv, rfl, e⟩
    cases block with
    | raw text' close' =>
      cases e
      have hb := (hu.closed_iff closing_raw hw).2 ⟨[], trivial, rfl, rfl, hc⟩
      exact ⟨_, close, hb, rfl⟩
    | _ => cases hr

theorem tagNode_iff {rule : TagRule} (ht : TagTable.builtin.lookup t.name = some rule)
    (hs : RawEnded (.tag t :: s)) (hw : Within n s) :
    tagNode ⟨source, .builtin⟩ untilTag t rule s = .ok node s' ↔
      BlockDerived rule t.args s node s' := by
  cases rule with
  | assign => exact assign_iff
  | capture => exact capture_iff hu hw
  | conditional negate => exact conditional_iff hu hw
  | loop => exact loop_iff hu hw
  | comment => exact comment_iff
  | raw =>
    obtain ⟨text, close, more, rfl, hc⟩ := hs t s (List.suffix_refl _) (name_of_raw ht)
    exact raw_iff hu hc (hw.suffix (List.suffix_cons _ _))
  | custom c => exact absurd ht (builtin_ne_custom c)

end

/-- The reader reads what has a derivation: both take the first lexeme alike, and go on behind it. -/
theorem nodesWithin_readsDerived (source : String) (n : Nat) :
    ReadsDerived (nodesWithin ⟨source, .builtin⟩ n) n := by
  induction n with
  | zero =>
    intro ends s r s' _ hw
    cases hw.length_lt
  | succ n ih =>
    intro ends s r s' he hw
    cases s with
    | nil =>
      rw [nodesWithin_nil, derived_nil_iff]
      exact ⟨fun h => by cases h; exact ⟨rfl, rfl⟩, by rintro ⟨rfl, rfl⟩; rfl⟩
    | cons l s =>
      have rest (nodes : List Node) := ih ends s (nodes, r.2) s' he hw.tail
      cases l with
      | text text =>
        rw [nodesWithin_text_iff, derived_text_iff]
        exact exists_congr fun nodes => and_congr_left fun _ => rest nodes
      | output text offset =>
        cases hb : text.toList.all Text.isBlank with
        | true =>
          rw [nodesWithin_blank hb, derived_blank_iff hb]
          exact rest r.1
        | false =>
          rw [nodesWithin_output_iff hb, derived_output_iff hb]
          exact exists_congr fun p => exists_congr fun nodes => and_congr_right fun _ =>
            and_congr_left fun _ => rest nodes
      | tag t =>
        by_cases hm : t.name ∈ ends
        · rw [nodesWithin_end hm, derived_end_iff he hm]
          exact ⟨fun h => by cases h; exact ⟨rfl, rfl⟩, by rintro ⟨rfl, rfl⟩; rfl⟩
        · rw [nodesWithin_tag_iff hm, derived_tagged_iff hm]
          have behind (block : Block) (s₁ : List Lexeme) (nodes : List Node)
              (e : s = block.lexemes ++ s₁) :=
            ih ends s₁ (nodes, r.2) s' he (hw.tail.suffix (e ▸ List.suffix_append _ _))
          constructor
          · rintro ⟨rule, node, s₁, nodes, hl, ht, hr, e⟩
            obtain ⟨block, rfl, hv, rfl, hb⟩ := (tagNode_iff ih hl hw.rawEnded hw.tail).1 ht
            exact ⟨block, s₁, nodes, hl, hv, hb, (behind block s₁ nodes hb).1 hr, e⟩
          · rintro ⟨block, s₁, nodes, hl, hv, hb, hd, e⟩
            refine ⟨block.rule, block.node, s₁, nodes, hl, ?_, (behind block s₁ nodes hb).2 hd, e⟩
            exact (tagNode_iff ih hl hw.rawEnded hw.tail).2 ⟨block, rfl, hv, rfl, hb⟩

/-- The reader of a whole source reads what has a derivation. -/
theorem nodesUntil_end_iff {source : String} {s s' : List Lexeme} {nodes : List Node}
    {tag : Option TagToken} (hs : RawEnded s) :
    nodesUntil ⟨source, .builtin⟩ [] s = .ok (nodes, tag) s' ↔
      (∃ items, Derives items s ∧ nodes = itemsNodes items) ∧ tag = none ∧ s' = [] := by
  rw [nodesUntil, nodesWithin_readsDerived source _ [] s _ s' nofun ⟨Nat.lt_succ_self _, hs⟩]
  constructor
  · rintro ⟨items, stop, hv, rfl, rfl, h⟩
    cases h with
    | atEnd => exact ⟨⟨items, ⟨hv, (List.append_nil _).symm⟩, rfl⟩, rfl, rfl⟩
    | atTag h => cases h
  · rintro ⟨⟨items, ⟨hv, rfl⟩, rfl⟩, rfl, rfl⟩
    exact ⟨items, [], hv, (List.append_nil _).symm, rfl, .atEnd⟩

end Markup

namespace Template

open Markup

theorem parse_eq_ok_iff {source : String} {lexemes : List Lexeme} (h : lex source = .ok lexemes)
    {t : Template} : Template.parse .builtin source = .ok t ↔
      ∃ items, Derives items lexemes ∧ t = ⟨none, itemsNodes items⟩ := by
  have hs := lex_rawEnded h
  constructor
  · intro ht
    cases hr : nodesUntil ⟨source, .builtin⟩ [] lexemes with
    | ok r s' =>
      cases (parse_of_nodes h hr).symm.trans ht
      obtain ⟨⟨items, hd, e⟩, -⟩ := (nodesUntil_end_iff hs).1 hr
      exact ⟨items, hd, by rw [e]⟩
    | error e s' => cases (parse_of_fault h hr).symm.trans ht
  · rintro ⟨items, hd, rfl⟩
    exact parse_of_nodes h ((nodesUntil_end_iff hs).2 ⟨⟨items, hd, rfl⟩, rfl, rfl⟩)

/-- A source that lexes is a template exactly if its lexemes have a derivation in the grammar of
blocks. The derivation is unique, and the template is its tree. -/
theorem parse_iff_derives {source : String} {lexemes : List Lexeme}
    (h : lex source = .ok lexemes) :
    (∀ t, Template.parse .builtin source = .ok t ↔
      ∃ items, Derives items lexemes ∧ t = ⟨none, itemsNodes items⟩) ∧
    ∀ items items', Derives items lexemes → Derives items' lexemes → items = items' := by
  refine ⟨fun t => parse_eq_ok_iff h, fun items items' hd hd' => ?_⟩
  have e : itemsLexemes items ++ [] = itemsLexemes items' ++ [] := by
    rw [hd.lexemes, hd'.lexemes]
  exact (items_unique items items' hd.valid hd'.valid .atEnd .atEnd e).1

set_option maxRecDepth 2000 in
/-- An `else` belongs to the innermost block. -/
theorem parse_iff_derives_nested :
    let source := "\x7b% if a %\x7d\x7b% for b in c %\x7dx\x7b% else %\x7dy\x7b% endfor %\x7d\x7b% endif %\x7d"
    let lexemes : List Lexeme := [.tag ⟨"if", "a", 0⟩, .tag ⟨"for", "b in c", 10⟩, .text "x",
      .tag ⟨"else", "", 27⟩, .text "y", .tag ⟨"endfor", "", 38⟩, .tag ⟨"endif", "", 50⟩]
    let items : List Item := [
      .tagged ⟨"if", "a", 0⟩ (.conditional false ⟨.path "a" [.key "a"], []⟩ [
          .tagged ⟨"for", "b in c", 10⟩ (.loop ⟨"b", .path "c" [.key "c"], false⟩ [.text "x"]
            (.otherwise ⟨"else", "", 27⟩ [.text "y"] ⟨"endfor", "", 38⟩))]
        (.close ⟨"endif", "", 50⟩))]
    lex source = .ok lexemes ∧ Template.parse .builtin source = .ok ⟨none, itemsNodes items⟩ ∧
      ∀ items', Derives items' lexemes → items' = items := by
  intro source lexemes items
  have hl : lex source = .ok lexemes := by cbv
  have hd : Derives items lexemes :=
    ⟨⟨⟨rfl, by cbv, ⟨⟨rfl, by cbv, ⟨trivial, trivial⟩, rfl, ⟨trivial, trivial⟩, rfl⟩, trivial⟩, rfl⟩,
      trivial⟩, rfl⟩
  have h := parse_iff_derives hl
  exact ⟨hl, (h.1 _).2 ⟨items, hd, rfl⟩, fun items' hd' => h.2 items' items hd' hd⟩

end Template

end Stencil
