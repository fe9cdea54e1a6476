import Stencil.Proofs.Markup.Derivations
import Stencil.Proofs.Render.Endings
import Stencil.Proofs.Render.Visits

/-!
# Conditionals

An `elsif` is an `if` in an `else`, and an `unless` is an `if` with its bodies exchanged.
`renderNodes_nestedIfs` says so of nodes, whose bodies may hold tags of the host too, and
`Markup.Tail.Nests` compares derivations, for the sources.
-/

namespace Stencil

/-! ## Nodes -/

/-- Each branch as an `if` of its own, which stands in the last body of the one before it. -/
def nestedIfs : List Branch → List Node → List Node
  | [], otherwise => otherwise
  | b :: rest, otherwise => [.conditional false [b] (nestedIfs rest otherwise)]

section
variable (i : Interpreter)

theorem renderBranches_nestedIfs (branches : List Branch) (otherwise : List Node) :
    renderBranches i false branches (renderNodes i otherwise) =
      renderNodes i (nestedIfs branches otherwise) := by
  induction branches with
  | nil => rw [nestedIfs, renderBranches]
  | cons b rest ih =>
    obtain ⟨c, body⟩ := b
    rw [nestedIfs, renderNodes_singleton, Node.render]
    simp only [renderBranches, ih]

theorem renderNodes_nestedIfs (branches : List Branch) (otherwise : List Node) :
    renderNodes i [.conditional false branches otherwise] =
      renderNodes i (nestedIfs branches otherwise) := by
  rw [renderNodes_singleton, Node.render, renderBranches_nestedIfs]

theorem renderNodes_unless (c : Pipeline) (body otherwise : List Node) :
    renderNodes i [.conditional true [.mk c body] otherwise] =
      renderNodes i [.conditional false [.mk c otherwise] body] := by
  rw [renderNodes_singleton, renderNodes_singleton, Node.render, Node.render]
  simp only [renderBranches]
  refine congrArg (_ >>= ·) (funext fun v => ?_)
  cases v.truthy <;> rfl

end

/-- What follows an evaluation starts from its value and in the state that it leaves. -/
theorem Pipeline.Yields.result_bind {i : Interpreter} {p : Pipeline} {st st' : RenderState} {v : Value}
    (h : p.Yields i st v st') (next : Value → Rendering Unit) :
    ((Rendering.evaluating (fun ctx => p.eval i ctx) >>= next) st).result = (next v st').result := by
  unfold Yields at h
  rw [Coroutine.result_bind, h]

/-- The conditions of the branches, evaluated one after another, have false values. -/
inductive BranchesDecline (i : Interpreter) : List Branch → RenderState → RenderState → Prop
  | none (st : RenderState) : BranchesDecline i [] st st
  | next {c : Pipeline} {body : List Node} {rest : List Branch} {st st₁ st₂ : RenderState}
    {v : Value} (value : c.Yields i st v st₁) (falsy : v.truthy = false) (later : BranchesDecline i rest st₁ st₂) :
    BranchesDecline i (.mk c body :: rest) st st₂

/-- The branches behind the first true condition make no difference. -/
theorem renderBranches_taken {i : Interpreter} {before after : List Branch} {c : Pipeline}
    {body : List Node} {st st₁ st₂ : RenderState} {v : Value} (declined : BranchesDecline i before st st₁)
    (value : c.Yields i st₁ v st₂) (truthy : v.truthy = true) (otherwise : Rendering Unit) :
    (renderBranches i false (before ++ .mk c body :: after) otherwise st).result =
      (renderNodes i body st₂).result := by
  induction declined with
  | none st =>
    rw [List.nil_append, renderBranches, value.result_bind]
    simp [truthy]
  | next value' falsy later ih =>
    rw [List.cons_append, renderBranches, value'.result_bind]
    simpa [falsy] using ih value

/-! ## Sources -/

namespace Markup

/-- The source is one tag with this block. -/
def Spells (source : String) (block : Block) : Prop :=
  ∃ lexemes tag, lex source = .ok lexemes ∧ Derives [.tagged tag block] lexemes

/-- The second tail has, for each further condition of the first, an `else` with an `if` in it. The
bodies have the same nodes. -/
inductive Tail.Nests : Tail → Tail → Prop
  | last {tail tail' : Tail} (h : tail.branches = []) (h' : tail'.branches = [])
    (same : tail.lastBody = tail'.lastBody) : Nests tail tail'
  | branch {c : Pipeline} {body body' : List Item} {tail tail' : Tail}
    (same : itemsNodes body = itemsNodes body') (inside : tail.Nests tail')
    (elsif otherwise opening close : TagToken) :
    Nests (.branch elsif c body tail)
      (.otherwise otherwise [.tagged opening (.conditional false c body' tail')] close)

theorem Spells.parse {source : String} {block : Block} (h : Spells source block) :
    Template.parse .builtin source = .ok ⟨none, [block.node]⟩ := by
  obtain ⟨lexemes, tag, hl, hd⟩ := h
  exact (Template.parse_eq_ok_iff hl).2 ⟨_, hd, rfl⟩

theorem Tail.Nests.nodes {tail tail' : Tail} (h : tail.Nests tail') :
    tail'.branches = [] ∧ tail'.lastBody = nestedIfs tail.branches tail.lastBody := by
  induction h with
  | last h h' same =>
    rw [h, nestedIfs]
    exact ⟨h', same.symm⟩
  | branch same inside elsif otherwise opening close ih =>
    refine ⟨rfl, ?_⟩
    simp only [Tail.lastBody, itemsNodes, Item.nodes, Block.node, List.append_nil, Tail.branches,
      nestedIfs, ih.1, ih.2, same]

/-- Only an `if` has further conditions. -/
theorem Spells.branches_of_unless {source : String} {c : Pipeline} {body : List Item} {tail : Tail}
    (h : Spells source (.conditional true c body tail)) : tail.branches = [] := by
  obtain ⟨lexemes, tag, -, ⟨⟨-, -, -, ht⟩, -⟩, -⟩ := h
  cases tail with
  | close tag => rfl
  | otherwise tag body close => rfl
  | branch tag c body tail => cases ht.1

end Markup

open Markup

/-- Both sources are templates, and these render alike in every context and mode: with the same result,
context and events. -/
def Template.RenderAlike (source source' : String) : Prop :=
  ∃ t t', Template.parse .builtin source = .ok t ∧ Template.parse .builtin source' = .ok t' ∧
    ∀ i ctx, t.render i ctx = t'.render i ctx

theorem Template.RenderAlike.of_nodes {source source' : String} {ns ns' : List Node}
    (h : Template.parse .builtin source = .ok ⟨none, ns⟩)
    (h' : Template.parse .builtin source' = .ok ⟨none, ns'⟩)
    (same : ∀ i, renderNodes i ns = renderNodes i ns') : RenderAlike source source' :=
  ⟨_, _, h, h', fun i ctx => by simp only [Template.render, same]⟩

/-- **`elsif` and `unless` are sugar.** A source with an `if` of any number of conditions renders like
one in which each `elsif` is an `if` in an `else`, and one with an `unless` like one with an `if` and the
bodies exchanged. The same holds of nodes, whatever their bodies, in whichever state they render. So
where a condition is true after false ones, only its body is rendered, whatever branches follow. -/
theorem Template.render_elsif_unless :
    (∀ (flat nested : String) (c : Pipeline) (body body' : List Item) (tail tail' : Tail),
      Spells flat (.conditional false c body tail) → Spells nested (.conditional false c body' tail') →
      itemsNodes body = itemsNodes body' → tail.Nests tail' → RenderAlike flat nested) ∧
    (∀ (source swapped : String) (c : Pipeline) (body body' last : List Item) (tail : Tail)
      (between close : TagToken), Spells source (.conditional true c body tail) →
      Spells swapped (.conditional false c last (.otherwise between body' close)) →
      itemsNodes body = itemsNodes body' → tail.lastBody = itemsNodes last →
      RenderAlike source swapped) ∧
    (∀ i branches otherwise, renderNodes i [.conditional false branches otherwise] =
      renderNodes i (nestedIfs branches otherwise)) ∧
    (∀ i c body otherwise, renderNodes i [.conditional true [.mk c body] otherwise] =
      renderNodes i [.conditional false [.mk c otherwise] body]) ∧
    ∀ i before c body after otherwise st st₁ st₂ v, BranchesDecline i before st st₁ →
      c.Yields i st₁ v st₂ → v.truthy = true →
      ((Node.conditional false (before ++ .mk c body :: after) otherwise).render i st).result =
        (renderNodes i body st₂).result := by
  refine ⟨?_, ?_, renderNodes_nestedIfs, renderNodes_unless, ?_⟩
  · intro flat nested c body body' tail tail' hf hn same nests
    have hnodes : (Block.conditional false c body' tail').node =
        .conditional false [.mk c (itemsNodes body)] (nestedIfs tail.branches tail.lastBody) := by
      rw [Block.node, nests.nodes.1, nests.nodes.2, same]
    have hn' := hn.parse
    rw [hnodes] at hn'
    exact .of_nodes hf.parse hn' fun i => renderNodes_nestedIfs i _ _
  · intro source swapped c body body' last tail between close hs hw same hlast
    have hs' := hs.parse
    rw [Block.node, hs.branches_of_unless, hlast, same] at hs'
    exact .of_nodes hs' hw.parse fun i => renderNodes_unless i c _ _
  · intro i before c body after otherwise st st₁ st₂ v declined value truthy
    rw [Node.render]
    exact renderBranches_taken declined value truthy _

set_option maxRecDepth 2000 in
/-- Two conditions and a last body, an `unless`, and a true condition before one that would fail. -/
theorem Template.render_elsif_unless_two :
    let flat := "\x7b% if a %\x7dx\x7b% elsif b %\x7dy\x7b% else %\x7dz\x7b% endif %\x7d"
    let nested := "\x7b% if a %\x7dx\x7b% else %\x7d\x7b% if b %\x7dy" ++
      "\x7b% else %\x7dz\x7b% endif %\x7d\x7b% endif %\x7d"
    let source := "\x7b% unless a %\x7dx\x7b% endunless %\x7d"
    let swapped := "\x7b% if a %\x7d\x7b% else %\x7dx\x7b% endif %\x7d"
    let a : Pipeline := ⟨.path "a" [.key "a"], []⟩
    let b : Pipeline := ⟨.path "b" [.key "b"], []⟩
    let branches : List Branch := [.mk a [.text "x"], .mk b [.text "y"]]
    let after : List Branch := [.mk ⟨.path "c" [.key "c"], [⟨"unknown", []⟩]⟩ []]
    let i : Interpreter := ⟨.ofList [], .sync⟩
    let st : RenderState := ⟨⟨[("b", .int 0)], [], [], none, false⟩, "", []⟩
    RenderAlike flat nested ∧ RenderAlike source swapped ∧
      ((Node.conditional false (branches ++ after) []).render i st).result =
        .ok () { st with output := "y" } := by
  intro flat nested source swapped a b branches after i st
  refine ⟨?_, ?_, ?_⟩
  · have hflat : Spells flat (.conditional false a [.text "x"] (.branch ⟨"elsif", "b", 11⟩ b [.text "y"]
        (.otherwise ⟨"else", "", 25⟩ [.text "z"] ⟨"endif", "", 36⟩))) :=
      ⟨_, ⟨"if", "a", 0⟩, by cbv, ⟨⟨⟨rfl, by cbv, ⟨trivial, trivial⟩, rfl, rfl, by cbv,
        ⟨trivial, trivial⟩, rfl, ⟨trivial, trivial⟩, rfl⟩, trivial⟩, rfl⟩⟩
    have hnested : Spells nested (.conditional false a [.text "x"] (.otherwise ⟨"else", "", 11⟩
        [.tagged ⟨"if", "b", 21⟩ (.conditional false b [.text "y"]
          (.otherwise ⟨"else", "", 32⟩ [.text "z"] ⟨"endif", "", 43⟩))] ⟨"endif", "", 54⟩)) :=
      ⟨_, ⟨"if", "a", 0⟩, by cbv, ⟨⟨⟨rfl, by cbv, ⟨trivial, trivial⟩, rfl, ⟨⟨rfl, by cbv,
        ⟨trivial, trivial⟩, rfl, ⟨trivial, trivial⟩, rfl⟩, trivial⟩, rfl⟩, trivial⟩, rfl⟩⟩
    exact Template.render_elsif_unless.1 flat nested a _ _ _ _ hflat hnested rfl
      (.branch (by rfl) (.last (by rfl) (by rfl) (by rfl)) _ _ _ _)
  · have hsource : Spells source (.conditional true a [.text "x"] (.close ⟨"endunless", "", 15⟩)) :=
      ⟨_, ⟨"unless", "a", 0⟩, by cbv, ⟨⟨⟨rfl, by cbv, ⟨trivial, trivial⟩, rfl⟩, trivial⟩, rfl⟩⟩
    have hswapped : Spells swapped (.conditional false a []
        (.otherwise ⟨"else", "", 10⟩ [.text "x"] ⟨"endif", "", 21⟩)) :=
      ⟨_, ⟨"if", "a", 0⟩, by cbv,
        ⟨⟨⟨rfl, by cbv, trivial, rfl, ⟨trivial, trivial⟩, rfl⟩, trivial⟩, rfl⟩⟩
    exact Template.render_elsif_unless.2.1 source swapped a _ _ _ _ _ _ hsource hswapped rfl rfl
  · have declined : BranchesDecline i [.mk a [.text "x"]] st st :=
      .next (v := .null) (by cbv) rfl (.none st)
    exact Template.render_elsif_unless.2.2.2.2 i _ b [.text "y"] after [] st st st (.int 0) declined
      (by cbv) rfl

end Stencil
