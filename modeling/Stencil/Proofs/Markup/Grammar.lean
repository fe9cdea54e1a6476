import Stencil.Proofs.Markup.Steps

/-!
# The grammar of blocks

A derivation of a list of lexemes is a list of `Item`s. The item of a tag has the `Block` of the tag's
rule, which owns the items of its bodies; what follows the first body up to the closing tag is a
`Tail`. `lexemes` gives back the lexemes of a derivation, `nodes` is the tree that it stands for, and
`Valid` says that its tags have the names that the grammar asks for and that their texts are read as
what the derivation says. A list of lexemes has at most one derivation.
-/

namespace Stencil.Markup

mutual

inductive Item where
  | text (s : String)
  /-- An output of blanks, which stands for no node. -/
  | blank (s : String) (offset : Nat)
  | output (s : String) (offset : Nat) (value : Pipeline)
  | tagged (tag : TagToken) (block : Block)

inductive Block where
  | assign (name : String) (value : Pipeline)
  | capture (name : String) (body : List Item) (close : TagToken)
  | conditional (negate : Bool) (condition : Pipeline) (body : List Item) (tail : Tail)
  | loop (header : LoopHeader) (body : List Item) (tail : Tail)
  | comment (skipped : List Lexeme) (close : TagToken)
  | raw (text : String) (close : TagToken)

inductive Tail where
  | close (tag : TagToken)
  | otherwise (tag : TagToken) (body : List Item) (close : TagToken)
  | branch (tag : TagToken) (condition : Pipeline) (body : List Item) (tail : Tail)

end

/-! ## Lexemes -/

mutual

def Item.lexemes : Item → List Lexeme
  | .text s => [.text s]
  | .blank s offset => [.output s offset]
  | .output s offset _ => [.output s offset]
  | .tagged tag block => .tag tag :: block.lexemes

/-- The lexemes behind the tag of the block. -/
def Block.lexemes : Block → List Lexeme
  | .assign _ _ => []
  | .capture _ body close => itemsLexemes body ++ [.tag close]
  | .conditional _ _ body tail => itemsLexemes body ++ tail.lexemes
  | .loop _ body tail => itemsLexemes body ++ tail.lexemes
  | .comment skipped close => skipped ++ [.tag close]
  | .raw text close => [.text text, .tag close]

def Tail.lexemes : Tail → List Lexeme
  | .close tag => [.tag tag]
  | .otherwise tag body close => .tag tag :: (itemsLexemes body ++ [.tag close])
  | .branch tag _ body tail => .tag tag :: (itemsLexemes body ++ tail.lexemes)

def itemsLexemes : List Item → List Lexeme
  | [] => []
  | item :: rest => item.lexemes ++ itemsLexemes rest

end

/-! ## Nodes -/

mutual

def Item.nodes : Item → List Node
  | .text s => [.text s]
  | .blank _ _ => []
  | .output _ _ value => [.output value]
  | .tagged _ block => [block.node]

def Block.node : Block → Node
  | .assign name value => .assign name value
  | .capture name body _ => .capture name (itemsNodes body)
  | .conditional negate condition body tail =>
    .conditional negate (.mk condition (itemsNodes body) :: tail.branches) tail.lastBody
  | .loop header body tail => .loop header (itemsNodes body) tail.lastBody
  | .comment _ _ => .literal ""
  | .raw text _ => .literal text

/-- The branches behind the first one. -/
def Tail.branches : Tail → List Branch
  | .close _ => []
  | .otherwise _ _ _ => []
  | .branch _ condition body tail => .mk condition (itemsNodes body) :: tail.branches

def Tail.lastBody : Tail → List Node
  | .close _ => []
  | .otherwise _ body _ => itemsNodes body
  | .branch _ _ _ tail => tail.lastBody

def itemsNodes : List Item → List Node
  | [] => []
  | item :: rest => item.nodes ++ itemsNodes rest

end

/-! ## Validity -/

def Block.rule : Block → TagRule
  | .assign _ _ => .assign
  | .capture _ _ _ => .capture
  | .conditional negate _ _ _ => .conditional negate
  | .loop _ _ _ => .loop
  | .comment _ _ => .comment
  | .raw _ _ => .raw

/-- The text is a variable's name, `=`, and a pipeline. -/
def Assigns (args name : String) (value : Pipeline) : Prop :=
  ∃ target text, splitAt? '=' args.toList = some (target, text) ∧
    variableName? target = some name ∧ Pipeline.ofChars text = .ok value

mutual

def Item.Valid : Item → Prop
  | .text _ => True
  | .blank s _ => s.toList.all Text.isBlank = true
  | .output s _ value => Pipeline.parse s = .ok value
  | .tagged tag block => TagTable.builtin.lookup tag.name = some block.rule ∧ block.Valid tag.args

/-- The block of a tag with the arguments. -/
def Block.Valid (args : String) : Block → Prop
  | .assign name value => Assigns args name value
  | .capture name body close =>
    variableName? args.toList = some name ∧ ItemsValid body ∧ close.name = "endcapture"
  | .conditional negate condition body tail =>
    Pipeline.parse args = .ok condition ∧ ItemsValid body ∧
      tail.Valid (!negate) (conditionalClose negate)
  | .loop header body tail =>
    header? args = some header ∧ ItemsValid body ∧ tail.Valid false "endfor"
  | .comment skipped close =>
    (∀ t, .tag t ∈ skipped → t.name ≠ "endcomment") ∧ close.name = "endcomment"
  | .raw _ close => close.name = "endraw"

/-- The tail of a block that is closed by the tag of a name and may have further branches. -/
def Tail.Valid (branching : Bool) (closing : String) : Tail → Prop
  | .close tag => tag.name = closing
  | .otherwise tag body close => tag.name = "else" ∧ ItemsValid body ∧ close.name = closing
  | .branch tag condition body tail =>
    branching = true ∧ tag.name = "elsif" ∧ Pipeline.parse tag.args = .ok condition ∧
      ItemsValid body ∧ tail.Valid branching closing

def ItemsValid : List Item → Prop
  | [] => True
  | item :: rest => item.Valid ∧ ItemsValid rest

end

/-- The items are a derivation of the lexemes. -/
structure Derives (items : List Item) (lexemes : List Lexeme) : Prop where
  valid : ItemsValid items
  lexemes : itemsLexemes items = lexemes

/-! ## Uniqueness -/

/-- No item starts here: the lexemes end, or a tag follows that opens nothing. -/
inductive Ended : List Lexeme → Prop where
  | atEnd : Ended []
  | atTag {t : TagToken} {rest : List Lexeme} (h : TagTable.builtin.lookup t.name = none) :
    Ended (.tag t :: rest)

theorem Item.not_ended {item : Item} (h : item.Valid) (rest : List Lexeme) :
    ¬ Ended (item.lexemes ++ rest) := by
  cases item with
  | text | blank | output => nofun
  | tagged tag block =>
    intro he
    cases he with
    | atTag h' => cases h.1.symm.trans h'

theorem skipped_unique {name : String} {skipped skipped' r r' : List Lexeme} {close close' : TagToken}
    (hs : ∀ t, .tag t ∈ skipped → t.name ≠ name) (hc : close.name = name)
    (hs' : ∀ t, .tag t ∈ skipped' → t.name ≠ name) (hc' : close'.name = name)
    (e : skipped ++ .tag close :: r = skipped' ++ .tag close' :: r') :
    skipped = skipped' ∧ close = close' ∧ r = r' := by
  induction skipped generalizing skipped' with
  | nil =>
    cases skipped' with
    | nil =>
      cases e
      exact ⟨rfl, rfl, rfl⟩
    | cons l skipped' =>
      cases e
      exact absurd hc (hs' close List.mem_cons_self)
  | cons l skipped ih =>
    cases skipped' with
    | nil =>
      cases e
      exact absurd hc' (hs close' List.mem_cons_self)
    | cons l' skipped' =>
      obtain ⟨rfl, e'⟩ := List.cons.inj e
      obtain ⟨rfl, h⟩ := ih (fun t ht => hs t (List.mem_cons_of_mem _ ht))
        (fun t ht => hs' t (List.mem_cons_of_mem _ ht)) e'
      exact ⟨rfl, h⟩

theorem Assigns.unique {args name name' : String} {value value' : Pipeline}
    (h : Assigns args name value) (h' : Assigns args name' value') :
    name = name' ∧ value = value' := by
  obtain ⟨target, text, hs, hn, hv⟩ := h
  obtain ⟨target', text', hs', hn', hv'⟩ := h'
  cases hs.symm.trans hs'
  exact ⟨Option.some.inj (hn.symm.trans hn'), Except.ok.inj (hv.symm.trans hv')⟩

/-- The tag of the name closes a block and does nothing else. -/
structure Closing (name : String) : Prop where
  opens : TagTable.builtin.lookup name = none
  ne_else : name ≠ "else"
  ne_elsif : name ≠ "elsif"

theorem closing_conditional (negate : Bool) : Closing (conditionalClose negate) := by
  cases negate with
  | false => exact ⟨rfl, by decide, by decide⟩
  | true => exact ⟨rfl, by decide, by decide⟩

theorem closing_capture : Closing "endcapture" := ⟨rfl, by decide, by decide⟩

theorem closing_loop : Closing "endfor" := ⟨rfl, by decide, by decide⟩

theorem closing_raw : Closing "endraw" := ⟨rfl, by decide, by decide⟩

theorem Ended.of_close {close : TagToken} {closing : String} (h : Closing closing)
    (hc : close.name = closing) (rest : List Lexeme) : Ended (.tag close :: rest) :=
  .atTag (hc ▸ h.opens)

/-- A tail starts with the tag that closes the block or opens another branch. -/
theorem Tail.ended {tail : Tail} {branching : Bool} {closing : String} (hc : Closing closing)
    (h : tail.Valid branching closing) (rest : List Lexeme) : Ended (tail.lexemes ++ rest) := by
  cases tail with
  | close tag => exact .of_close hc h rest
  | otherwise tag body close => exact .atTag (h.1 ▸ rfl)
  | branch tag condition body tail => exact .atTag (h.2.1 ▸ rfl)

mutual

theorem Item.unique : ∀ (item item' : Item) {r r' : List Lexeme}, item.Valid → item'.Valid →
    item.lexemes ++ r = item'.lexemes ++ r' → item = item' ∧ r = r'
  | .text _, .text _, _, _, _, _, e => by
    cases e
    exact ⟨rfl, rfl⟩
  | .blank _ _, .blank _ _, _, _, _, _, e => by
    cases e
    exact ⟨rfl, rfl⟩
  | .output _ _ value, .output _ _ value', _, _, h, h', e => by
    obtain ⟨⟨⟩, rfl⟩ := List.cons.inj e
    exact ⟨by rw [Except.ok.inj (h.symm.trans h')], rfl⟩
  | .blank s _, .output _ _ _, _, _, h, h', e => by
    obtain ⟨⟨⟩, rfl⟩ := List.cons.inj e
    cases h.symm.trans (Pipeline.not_blank_of_parse h')
  | .output s _ _, .blank _ _, _, _, h, h', e => by
    obtain ⟨⟨⟩, rfl⟩ := List.cons.inj e
    cases h'.symm.trans (Pipeline.not_blank_of_parse h)
  | .tagged tag block, .tagged tag' block', _, _, h, h', e => by
    obtain ⟨⟨⟩, e'⟩ := List.cons.inj e
    have hr := Option.some.inj (h.1.symm.trans h'.1)
    obtain ⟨rfl, rfl⟩ := Block.unique block block' hr h.2 h'.2 e'
    exact ⟨rfl, rfl⟩

/-- The rule of a block is the rule of its tag, so the blocks are of one kind. -/
theorem Block.unique : ∀ (block block' : Block) {args : String} {r r' : List Lexeme},
    block.rule = block'.rule → block.Valid args → block'.Valid args →
    block.lexemes ++ r = block'.lexemes ++ r' → block = block' ∧ r = r'
  | .assign _ _, .assign _ _, _, _, _, _, h, h', e => by
    obtain ⟨rfl, rfl⟩ := Assigns.unique h h'
    exact ⟨rfl, e⟩
  | .capture _ body close, .capture _ body' close', _, _, _, _, h, h', e => by
    obtain ⟨hn, hb, hc⟩ := h
    obtain ⟨hn', hb', hc'⟩ := h'
    simp only [Block.lexemes, List.append_assoc] at e
    obtain ⟨rfl, e'⟩ := items_unique body body' hb hb' (.of_close closing_capture hc _)
      (.of_close closing_capture hc' _) e
    cases e'
    cases hn.symm.trans hn'
    exact ⟨rfl, rfl⟩
  | .conditional negate _ body tail, .conditional _ _ body' tail', _, _, _, hr, h, h', e => by
    cases hr
    obtain ⟨hp, hb, ht⟩ := h
    obtain ⟨hp', hb', ht'⟩ := h'
    have closing := closing_conditional negate
    simp only [Block.lexemes, List.append_assoc] at e
    obtain ⟨rfl, e'⟩ := items_unique body body' hb hb' (tail.ended closing ht _)
      (tail'.ended closing ht' _) e
    obtain ⟨rfl, rfl⟩ := Tail.unique tail tail' closing ht ht' e'
    cases hp.symm.trans hp'
    exact ⟨rfl, rfl⟩
  | .loop _ body tail, .loop _ body' tail', _, _, _, _, h, h', e => by
    obtain ⟨hh, hb, ht⟩ := h
    obtain ⟨hh', hb', ht'⟩ := h'
    simp only [Block.lexemes, List.append_assoc] at e
    obtain ⟨rfl, e'⟩ := items_unique body body' hb hb' (tail.ended closing_loop ht _)
      (tail'.ended closing_loop ht' _) e
    obtain ⟨rfl, rfl⟩ := Tail.unique tail tail' closing_loop ht ht' e'
    cases hh.symm.trans hh'
    exact ⟨rfl, rfl⟩
  | .comment skipped close, .comment skipped' close', _, _, _, _, h, h', e => by
    simp only [Block.lexemes, List.append_assoc] at e
    obtain ⟨rfl, rfl, rfl⟩ := skipped_unique h.1 h.2 h'.1 h'.2 e
    exact ⟨rfl, rfl⟩
  | .raw _ _, .raw _ _, _, _, _, _, _, _, e => by
    cases e
    exact ⟨rfl, rfl⟩

theorem Tail.unique : ∀ (tail tail' : Tail) {branching : Bool} {closing : String}
    {r r' : List Lexeme}, Closing closing → tail.Valid branching closing →
    tail'.Valid branching closing → tail.lexemes ++ r = tail'.lexemes ++ r' → tail = tail' ∧ r = r'
  | .close _, .close _, _, _, _, _, _, _, _, e => by
    cases e
    exact ⟨rfl, rfl⟩
  | .otherwise _ body close, .otherwise _ body' close', _, _, _, _, hc, h, h', e => by
    obtain ⟨-, hb, hn⟩ := h
    obtain ⟨-, hb', hn'⟩ := h'
    obtain ⟨⟨⟩, e'⟩ := List.cons.inj e
    simp only [List.append_eq, List.append_assoc] at e'
    obtain ⟨rfl, e''⟩ := items_unique body body' hb hb' (.of_close hc hn _) (.of_close hc hn' _) e'
    cases e''
    exact ⟨rfl, rfl⟩
  | .branch _ _ body tail, .branch _ _ body' tail', _, _, _, _, hc, h, h', e => by
    obtain ⟨-, -, hp, hb, ht⟩ := h
    obtain ⟨-, -, hp', hb', ht'⟩ := h'
    obtain ⟨⟨⟩, e'⟩ := List.cons.inj e
    simp only [List.append_eq, List.append_assoc] at e'
    obtain ⟨rfl, e''⟩ := items_unique body body' hb hb' (tail.ended hc ht _) (tail'.ended hc ht' _) e'
    obtain ⟨rfl, rfl⟩ := Tail.unique tail tail' hc ht ht' e''
    cases hp.symm.trans hp'
    exact ⟨rfl, rfl⟩
  | .close _, .otherwise _ _ _, _, _, _, _, hc, h, h', e => by
    obtain ⟨⟨⟩, -⟩ := List.cons.inj e
    exact absurd (h.symm.trans h'.1) hc.ne_else
  | .otherwise _ _ _, .close _, _, _, _, _, hc, h, h', e => by
    obtain ⟨⟨⟩, -⟩ := List.cons.inj e
    exact absurd (h'.symm.trans h.1) hc.ne_else
  | .close _, .branch _ _ _ _, _, _, _, _, hc, h, h', e => by
    obtain ⟨⟨⟩, -⟩ := List.cons.inj e
    exact absurd (h.symm.trans h'.2.1) hc.ne_elsif
  | .branch _ _ _ _, .close _, _, _, _, _, hc, h, h', e => by
    obtain ⟨⟨⟩, -⟩ := List.cons.inj e
    exact absurd (h'.symm.trans h.2.1) hc.ne_elsif
  | .otherwise _ _ _, .branch _ _ _ _, _, _, _, _, _, h, h', e => by
    obtain ⟨⟨⟩, -⟩ := List.cons.inj e
    exact absurd (h.1.symm.trans h'.2.1) (by decide)
  | .branch _ _ _ _, .otherwise _ _ _, _, _, _, _, _, h, h', e => by
    obtain ⟨⟨⟩, -⟩ := List.cons.inj e
    exact absurd (h.2.1.symm.trans h'.1) (by decide)

theorem items_unique : ∀ (items items' : List Item) {r r' : List Lexeme}, ItemsValid items →
    ItemsValid items' → Ended r → Ended r' →
    itemsLexemes items ++ r = itemsLexemes items' ++ r' → items = items' ∧ r = r'
  | [], [], _, _, _, _, _, _, e => ⟨rfl, e⟩
  | [], item :: rest, _, _, _, h', hr, _, e => by
    rw [itemsLexemes, itemsLexemes, List.nil_append, List.append_assoc] at e
    exact absurd (e ▸ hr) (item.not_ended h'.1 _)
  | item :: rest, [], _, _, h, _, _, hr', e => by
    rw [itemsLexemes, itemsLexemes, List.nil_append, List.append_assoc] at e
    exact absurd (e ▸ hr') (item.not_ended h.1 _)
  | item :: rest, item' :: rest', _, _, h, h', hr, hr', e => by
    rw [itemsLexemes, itemsLexemes, List.append_assoc, List.append_assoc] at e
    obtain ⟨rfl, e'⟩ := Item.unique item item' h.1 h'.1 e
    obtain ⟨rfl, rfl⟩ := items_unique rest rest' h.2 h'.2 hr hr' e'
    exact ⟨rfl, rfl⟩

end

end Stencil.Markup
