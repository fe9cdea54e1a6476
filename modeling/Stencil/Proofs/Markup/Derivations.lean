import Stencil.Proofs.Markup.Builtin
import Stencil.Proofs.Markup.Joining
import Stencil.Proofs.Markup.Parsing

/-!
# Derivations that are moved and joined

The offsets of tags do not matter to a derivation, and derivations of two lists of lexemes make one of
the lists in one. So a source that is joined of two templates is a template.
-/

namespace Stencil

namespace Markup

/-! ## Moved derivations -/

mutual

/-- The derivation of the lexemes as they are `n` bytes further on. -/
def Item.moved (n : Nat) : Item → Item
  | .text s => .text s
  | .blank s offset => .blank s (n + offset)
  | .output s offset value => .output s (n + offset) value
  | .tagged tag block => .tagged (movedTag n tag) (block.moved n)

def Block.moved (n : Nat) : Block → Block
  | .assign name value => .assign name value
  | .capture name body close => .capture name (itemsMoved n body) (movedTag n close)
  | .conditional negate condition body tail =>
    .conditional negate condition (itemsMoved n body) (tail.moved n)
  | .loop header body tail => .loop header (itemsMoved n body) (tail.moved n)
  | .comment skipped close => .comment (skipped.map (Markup.moved n)) (movedTag n close)
  | .raw text close => .raw text (movedTag n close)

def Tail.moved (n : Nat) : Tail → Tail
  | .close tag => .close (movedTag n tag)
  | .otherwise tag body close => .otherwise (movedTag n tag) (itemsMoved n body) (movedTag n close)
  | .branch tag condition body tail =>
    .branch (movedTag n tag) condition (itemsMoved n body) (tail.moved n)

def itemsMoved (n : Nat) : List Item → List Item
  | [] => []
  | item :: rest => item.moved n :: itemsMoved n rest

end

mutual

theorem Item.lexemes_moved (n : Nat) : ∀ item : Item,
    (item.moved n).lexemes = item.lexemes.map (Markup.moved n)
  | .text _ | .blank _ _ | .output _ _ _ => rfl
  | .tagged tag block => congrArg (Lexeme.tag (movedTag n tag) :: ·) (Block.lexemes_moved n block)

theorem Block.lexemes_moved (n : Nat) : ∀ block : Block,
    (block.moved n).lexemes = block.lexemes.map (Markup.moved n)
  | .assign _ _ | .raw _ _ => rfl
  | .comment _ _ => by simp [Block.moved, Block.lexemes, Markup.moved]
  | .capture _ body _ => by
    simp [Block.moved, Block.lexemes, Markup.moved, itemsLexemes_moved n body]
  | .conditional _ _ body tail | .loop _ body tail => by
    simp [Block.moved, Block.lexemes, itemsLexemes_moved n body, Tail.lexemes_moved n tail]

theorem Tail.lexemes_moved (n : Nat) : ∀ tail : Tail,
    (tail.moved n).lexemes = tail.lexemes.map (Markup.moved n)
  | .close _ => rfl
  | .otherwise _ body _ => by
    simp [Tail.moved, Tail.lexemes, Markup.moved, itemsLexemes_moved n body]
  | .branch _ _ body tail => by
    simp [Tail.moved, Tail.lexemes, Markup.moved, itemsLexemes_moved n body, Tail.lexemes_moved n tail]

theorem itemsLexemes_moved (n : Nat) : ∀ items : List Item,
    itemsLexemes (itemsMoved n items) = (itemsLexemes items).map (Markup.moved n)
  | [] => rfl
  | item :: rest => by
    simp [itemsMoved, itemsLexemes, Item.lexemes_moved n item, itemsLexemes_moved n rest]

end

mutual

theorem Item.nodes_moved (n : Nat) : ∀ item : Item, (item.moved n).nodes = item.nodes
  | .text _ | .blank _ _ | .output _ _ _ => rfl
  | .tagged _ block => congrArg ([·]) (Block.node_moved n block)

theorem Block.node_moved (n : Nat) : ∀ block : Block, (block.moved n).node = block.node
  | .assign _ _ | .raw _ _ | .comment _ _ => rfl
  | .capture name body _ => congrArg (Node.capture name) (itemsNodes_moved n body)
  | .conditional _ _ body tail => by
    simp [Block.moved, Block.node, itemsNodes_moved n body, Tail.branches_moved n tail,
      Tail.lastBody_moved n tail]
  | .loop _ body tail => by
    simp [Block.moved, Block.node, itemsNodes_moved n body, Tail.lastBody_moved n tail]

theorem Tail.branches_moved (n : Nat) : ∀ tail : Tail, (tail.moved n).branches = tail.branches
  | .close _ | .otherwise _ _ _ => rfl
  | .branch _ _ body tail => by
    simp [Tail.moved, Tail.branches, itemsNodes_moved n body, Tail.branches_moved n tail]

theorem Tail.lastBody_moved (n : Nat) : ∀ tail : Tail, (tail.moved n).lastBody = tail.lastBody
  | .close _ => rfl
  | .otherwise _ body _ => itemsNodes_moved n body
  | .branch _ _ _ tail => Tail.lastBody_moved n tail

theorem itemsNodes_moved (n : Nat) : ∀ items : List Item,
    itemsNodes (itemsMoved n items) = itemsNodes items
  | [] => rfl
  | item :: rest => by
    simp [itemsMoved, itemsNodes, Item.nodes_moved n item, itemsNodes_moved n rest]

end

theorem Block.rule_moved (n : Nat) (block : Block) : (block.moved n).rule = block.rule := by
  cases block <;> rfl

mutual

theorem Item.Valid.moved (n : Nat) : ∀ {item : Item}, item.Valid → (item.moved n).Valid
  | .text _, h | .blank _ _, h | .output _ _ _, h => h
  | .tagged _ block, ⟨hl, hv⟩ => ⟨hl.trans (congrArg some (block.rule_moved n).symm), hv.moved n⟩

theorem Block.Valid.moved (n : Nat) {args : String} : ∀ {block : Block}, block.Valid args →
    (block.moved n).Valid args
  | .assign _ _, h | .raw _ _, h => h
  | .comment skipped _, ⟨hs, hc⟩ => by
    refine ⟨fun t ht => ?_, hc⟩
    obtain ⟨l, hl, e⟩ := List.mem_map.1 ht
    cases l <;> cases e
    have hname := hs _ hl
    exact hname
  | .capture _ _ _, ⟨hn, hb, hc⟩ => ⟨hn, hb.moved n, hc⟩
  | .conditional _ _ _ _, ⟨hp, hb, ht⟩ | .loop _ _ _, ⟨hp, hb, ht⟩ => ⟨hp, hb.moved n, ht.moved n⟩

theorem Tail.Valid.moved (n : Nat) {branching : Bool} {closing : String} : ∀ {tail : Tail},
    tail.Valid branching closing → (tail.moved n).Valid branching closing
  | .close _, h => h
  | .otherwise _ _ _, ⟨ht, hb, hc⟩ => ⟨ht, hb.moved n, hc⟩
  | .branch _ _ _ _, ⟨hn, hi, hp, hb, ht⟩ => ⟨hn, hi, hp, hb.moved n, ht.moved n⟩

theorem ItemsValid.moved (n : Nat) : ∀ {items : List Item}, ItemsValid items →
    ItemsValid (itemsMoved n items)
  | [], _ => trivial
  | _ :: _, ⟨hi, hr⟩ => ⟨hi.moved n, hr.moved n⟩

end

theorem Derives.moved {items : List Item} {lexemes : List Lexeme} (h : Derives items lexemes)
    (n : Nat) : Derives (itemsMoved n items) (lexemes.map (Markup.moved n)) where
  valid := h.valid.moved n
  lexemes := by rw [itemsLexemes_moved, h.lexemes]

/-! ## Joined derivations -/

theorem itemsLexemes_append (a b : List Item) :
    itemsLexemes (a ++ b) = itemsLexemes a ++ itemsLexemes b := by
  induction a with
  | nil => rfl
  | cons item a ih => simp [itemsLexemes, ih]

theorem itemsNodes_append (a b : List Item) : itemsNodes (a ++ b) = itemsNodes a ++ itemsNodes b := by
  induction a with
  | nil => rfl
  | cons item a ih => simp [itemsNodes, ih]

theorem itemsValid_append {a b : List Item} :
    ItemsValid (a ++ b) ↔ ItemsValid a ∧ ItemsValid b := by
  induction a with
  | nil => simp [ItemsValid]
  | cons item a ih => simp [ItemsValid, ih, and_assoc]

/-- A tail ends with a tag. -/
theorem Tail.getLast?_lexemes : ∀ tail : Tail, ∃ last, tail.lexemes.getLast? = some (.tag last)
  | .close tag => ⟨tag, rfl⟩
  | .otherwise _ _ last => ⟨last, by simp [Tail.lexemes, List.getLast?_cons]⟩
  | .branch _ _ _ tail => by
    obtain ⟨last, h⟩ := tail.getLast?_lexemes
    exact ⟨last, by simp [Tail.lexemes, List.getLast?_cons, h]⟩

/-- Only a text ends with a text. -/
theorem Item.eq_text_of_getLast? {item : Item} {s : String}
    (h : item.lexemes.getLast? = some (.text s)) : item = .text s := by
  cases item with
  | text => cases h; rfl
  | blank | output => cases h
  | tagged tag block =>
    cases block with
    | assign => cases h
    | raw => cases h
    | capture | comment => simp [Item.lexemes, Block.lexemes, List.getLast?_cons] at h
    | conditional _ _ _ tail =>
      obtain ⟨close, hc⟩ := tail.getLast?_lexemes
      simp [Item.lexemes, Block.lexemes, List.getLast?_cons, hc] at h
    | loop _ _ tail =>
      obtain ⟨close, hc⟩ := tail.getLast?_lexemes
      simp [Item.lexemes, Block.lexemes, List.getLast?_cons, hc] at h

theorem Item.lexemes_ne_nil (item : Item) : item.lexemes ≠ [] := by
  cases item <;> simp [Item.lexemes]

/-- If the lexemes end with a text, so do the items. -/
theorem eq_append_text {items : List Item} {a : List Lexeme} {s : String}
    (h : itemsLexemes items = a ++ [.text s]) :
    ∃ front, items = front ++ [.text s] ∧ itemsLexemes front = a := by
  rcases List.eq_nil_or_concat items with rfl | ⟨front, item, rfl⟩
  · simp [itemsLexemes] at h
  · rw [List.concat_eq_append] at h ⊢
    rw [itemsLexemes_append, itemsLexemes, itemsLexemes, List.append_nil] at h
    have hlast : item.lexemes.getLast? = some (.text s) := by
      have := congrArg List.getLast? h
      rw [List.getLast?_append_of_ne_nil _ item.lexemes_ne_nil] at this
      simpa using this
    obtain rfl := Item.eq_text_of_getLast? hlast
    exact ⟨front, rfl, (List.append_inj_left' h rfl)⟩

theorem eq_text_cons {items : List Item} {b : List Lexeme} {s : String}
    (h : itemsLexemes items = .text s :: b) :
    ∃ rest, items = .text s :: rest ∧ itemsLexemes rest = b := by
  cases items with
  | nil => cases h
  | cons item rest =>
    cases item with
    | text => cases h; exact ⟨rest, rfl, rfl⟩
    | blank | output | tagged => cases h

/-- Derivations of the parts make one of the whole, and its tree is made of theirs. -/
theorem Derives.joins {ia ib : List Item} {a b c : List Lexeme} (ha : Derives ia a)
    (hb : Derives ib b) (h : Joins .text a b c) :
    ∃ items, Derives items c ∧ Joins .text (itemsNodes ia) (itemsNodes ib) (itemsNodes items) := by
  cases h with
  | apart =>
    refine ⟨ia ++ ib, ⟨itemsValid_append.2 ⟨ha.valid, hb.valid⟩, ?_⟩, ?_⟩
    · rw [itemsLexemes_append, ha.lexemes, hb.lexemes]
    · rw [itemsNodes_append]
      exact .apart ..
  | texts a b s t =>
    obtain ⟨front, rfl, rfl⟩ := eq_append_text ha.lexemes
    obtain ⟨rest, rfl, rfl⟩ := eq_text_cons hb.lexemes
    refine ⟨front ++ .text (s ++ t) :: rest,
      ⟨itemsValid_append.2 ⟨(itemsValid_append.1 ha.valid).1, trivial, hb.valid.2⟩, ?_⟩, ?_⟩
    · rw [itemsLexemes_append]
      rfl
    · rw [itemsNodes_append, itemsNodes_append]
      exact .texts ..

/-! ## The tree of a derivation -/

theorem nodesBuiltin_append {a b : List Node} :
    NodesBuiltin (a ++ b) ↔ NodesBuiltin a ∧ NodesBuiltin b := by
  induction a with
  | nil => simp [NodesBuiltin]
  | cons n a ih => simp [NodesBuiltin, ih, and_assoc]

mutual

theorem Item.builtin_nodes : ∀ item : Item, NodesBuiltin item.nodes
  | .text _ | .output _ _ _ => ⟨trivial, trivial⟩
  | .blank _ _ => trivial
  | .tagged _ block => ⟨block.builtin_node, trivial⟩

theorem Block.builtin_node : ∀ block : Block, block.node.Builtin
  | .assign _ _ | .comment _ _ | .raw _ _ => trivial
  | .capture _ body _ => builtin_itemsNodes body
  | .conditional _ _ body tail =>
    ⟨⟨builtin_itemsNodes body, tail.builtin_branches⟩, tail.builtin_lastBody⟩
  | .loop _ body tail => ⟨builtin_itemsNodes body, tail.builtin_lastBody⟩

theorem Tail.builtin_branches : ∀ tail : Tail, BranchesBuiltin tail.branches
  | .close _ | .otherwise _ _ _ => trivial
  | .branch _ _ body tail => ⟨builtin_itemsNodes body, tail.builtin_branches⟩

theorem Tail.builtin_lastBody : ∀ tail : Tail, NodesBuiltin tail.lastBody
  | .close _ => trivial
  | .otherwise _ body _ => builtin_itemsNodes body
  | .branch _ _ _ tail => tail.builtin_lastBody

theorem builtin_itemsNodes : ∀ items : List Item, NodesBuiltin (itemsNodes items)
  | [] => trivial
  | item :: rest => nodesBuiltin_append.2 ⟨item.builtin_nodes, builtin_itemsNodes rest⟩

end

end Markup

open Markup

theorem Template.derives_of_parse {source : String} {t : Template}
    (h : Template.parse .builtin source = .ok t) : ∃ lexemes items, lex source = .ok lexemes ∧
      Derives items lexemes ∧ t = ⟨none, itemsNodes items⟩ := by
  obtain ⟨lexemes, hl, -⟩ := ok_of_bind h
  obtain ⟨items, hd, rfl⟩ := (parse_eq_ok_iff hl).1 h
  exact ⟨lexemes, items, hl, hd, rfl⟩

theorem Template.builtin_of_parse {source : String} {t : Template}
    (h : Template.parse .builtin source = .ok t) : t.Builtin := by
  obtain ⟨_, items, -, -, rfl⟩ := derives_of_parse h
  exact builtin_itemsNodes items

/-- The source of two templates in one is a template of the nodes of both. -/
theorem Template.parse_append {a b : String} {ta tb : Template}
    (ha : Template.parse .builtin a = .ok ta) (hb : Template.parse .builtin b = .ok tb)
    (hl : a.toList.getLast? ≠ some '{') (hlast : ∀ m ∈ (markers a.toList).getLast?, m.2 = false)
    (hfirst : ∀ m ∈ (markers b.toList).head?, m.1 = false) :
    ∃ nodes, Template.parse .builtin (a ++ b) = .ok ⟨none, nodes⟩ ∧
      Joins .text ta.nodes tb.nodes nodes := by
  obtain ⟨la, ia, hla, hda, rfl⟩ := derives_of_parse ha
  obtain ⟨lb, ib, hlb, hdb, rfl⟩ := derives_of_parse hb
  have hlast' : (markers a.toList).getLast?.elim false Prod.snd = false := by
    cases h : (markers a.toList).getLast? with
    | none => rfl
    | some m => exact hlast m h
  obtain ⟨n, lexemes, hj, hc⟩ :=
    (lexFrom_eq_ok_iff.1 hla).append (lexFrom_eq_ok_iff.1 hlb) hl hlast' hfirst
  obtain ⟨items, hd, hn⟩ := hda.joins (hdb.moved n) hj
  rw [itemsNodes_moved] at hn
  rw [← String.toList_append] at hc
  exact ⟨_, (parse_eq_ok_iff (lexFrom_eq_ok_iff.2 hc)).2 ⟨items, hd, rfl⟩, hn⟩

end Stencil
