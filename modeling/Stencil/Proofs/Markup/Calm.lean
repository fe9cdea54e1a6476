import Stencil.Proofs.Discipline
import Stencil.Proofs.Markup.Accesses
import Stencil.Proofs.Markup.Parsing

/-!
# Templates that never wait by themselves

A template is calm if no tag in it, at any depth, suspends by itself. What compiles with tags that keep
calm bodies calm is calm (`Template.parse_calm`); the built-in tags are such tags.
-/

namespace Stencil

def NodesCalm (ns : List Node) : Prop := .pauses ∉ nodesAccesses ns

/-- No tag in it suspends by itself. -/
def Template.Calm (t : Template) : Prop := .pauses ∉ t.accesses

/-- The tag does not suspend, unless something in its body does. -/
def CustomTag.Calm (tag : CustomTag) : Prop :=
  ∀ args body, NodesCalm body → .pauses ∉ actionsAccesses (tag.actions args body)

def TagTable.Calm (tags : TagTable) : Prop :=
  ∀ name tag, tags.lookup name = some (.custom tag) → tag.Calm

@[simp] theorem pauses_not_mem_readings (paths : List (String × Segment)) :
    .pauses ∉ readings paths := by
  simp [readings]

namespace TagTable

theorem Calm.register {tags : TagTable} (h : tags.Calm) (name : String) {tag : CustomTag}
    (ht : tag.Calm) : (tags.register name (.custom tag)).Calm := by
  intro other found hl
  unfold TagTable.register at hl
  dsimp only at hl
  split at hl
  · cases hl
    exact ht
  · exact h other found hl

theorem Calm.builtin : TagTable.builtin.Calm := fun _ tag hl => (Markup.builtin_ne_custom tag hl).elim

end TagTable

/-! ## Reading -/

/-- What a reader does with the state, and how it fails, does not matter. -/
def Discipline.free {ε σ : Type} : Discipline ε σ where
  Good _ := True
  Moves _ _ := True
  Fails _ := True
  refl _ := trivial
  trans _ _ := trivial
  good _ _ := trivial

theorem Obeys.any {ε σ α : Type} (m : EStateM ε σ α) : Obeys .free m fun _ => True := by
  intro s _
  unfold Discipline.Allows
  split <;> simp [Discipline.free]

namespace Markup

section
variable {m : Markup} {untilTag : List String → Build (List Node × Option TagToken)}
  (hu : ∀ ends, Obeys .free (untilTag ends) fun r => NodesCalm r.1)
include hu

theorem block_calm (opening : TagToken) (ends : List String) :
    Obeys .free (m.block untilTag opening ends) fun r => NodesCalm r.1 := by
  unfold block
  refine (hu ends).bind fun r hr => ?_
  split
  · exact Obeys.pure hr
  · exact Obeys.throw trivial

theorem branches_calm (opening : TagToken) (negate : Bool) (condition : Pipeline) (n : Nat) :
    Obeys .free (m.branches untilTag opening negate condition n) fun r =>
      .pauses ∉ branchesAccesses r.1 ∧ NodesCalm r.2 := by
  induction n generalizing condition with
  | zero => exact Obeys.pure (by simp [branchesAccesses, NodesCalm, nodesAccesses])
  | succ n ih =>
    unfold branches
    refine (block_calm hu opening _).bind fun r hr => ?_
    obtain ⟨body, tag⟩ := r
    have hb : NodesCalm body := hr
    have hbranch {rest : List Branch} (hrest : .pauses ∉ branchesAccesses rest) :
        .pauses ∉ branchesAccesses (.mk condition body :: rest) := by
      simp only [branchesAccesses, List.mem_append, pauses_not_mem_readings, false_or, not_or]
      exact ⟨hb, hrest⟩
    have hnone : .pauses ∉ branchesAccesses [] := by simp [branchesAccesses]
    dsimp only
    split
    · refine (Obeys.any _).bind fun next _ => ?_
      exact (ih next).bind fun r hr => Obeys.pure ⟨hbranch hr.1, hr.2⟩
    · split
      · exact (block_calm hu opening _).bind fun r hr => Obeys.pure ⟨hbranch hnone, hr⟩
      · exact Obeys.pure ⟨hbranch hnone, by simp [NodesCalm, nodesAccesses]⟩

theorem tagNode_calm {t : TagToken} {rule : TagRule} (hrule : ∀ tag, rule = .custom tag → tag.Calm) :
    Obeys .free (m.tagNode untilTag t rule) fun n => .pauses ∉ n.accesses := by
  cases rule with
  | assign =>
    rw [tagNode]
    split
    · exact Obeys.throw trivial
    · split
      · exact Obeys.throw trivial
      · exact (Obeys.any _).bind fun p _ => Obeys.pure (by simp [Node.accesses])
  | capture =>
    rw [tagNode]
    split
    · exact Obeys.throw trivial
    · refine (block_calm hu t _).bind fun r hr => Obeys.pure ?_
      simp only [Node.accesses, List.mem_cons, reduceCtorEq, false_or]
      exact hr
  | conditional negate =>
    rw [tagNode]
    refine (Obeys.any _).bind fun first _ => ?_
    refine (Obeys.any _).bind fun lexemes _ => ?_
    refine (branches_calm hu t negate first _).bind fun r hr => Obeys.pure ?_
    simp only [Node.accesses, List.mem_append, not_or]
    exact hr
  | loop =>
    rw [tagNode]
    refine (Obeys.any _).bind fun header _ => ?_
    refine (block_calm hu t _).bind fun r hbody => ?_
    obtain ⟨body, tag⟩ := r
    have hloop {otherwise : List Node} (ho : NodesCalm otherwise) :
        .pauses ∉ (Node.loop header body otherwise).accesses := by
      simp only [Node.accesses, List.mem_append, pauses_not_mem_readings, false_or, not_or]
      exact ⟨hbody, ho⟩
    dsimp only
    split
    · exact (block_calm hu t _).bind fun r hr => Obeys.pure (hloop hr)
    · exact Obeys.pure (hloop (by simp [NodesCalm, nodesAccesses]))
  | comment =>
    rw [tagNode]
    exact (Obeys.any _).bind fun _ _ => Obeys.pure (by simp [Node.accesses])
  | raw =>
    rw [tagNode]
    refine (Obeys.any _).bind fun text _ => ?_
    exact (block_calm hu t _).bind fun _ _ => Obeys.pure (by simp [Node.accesses])
  | custom tag =>
    have hactions {args : String} {body : List Node} (hb : NodesCalm body) :
        .pauses ∉ (Node.custom tag.typeName (tag.actions args body)).accesses := by
      rw [Node.accesses]
      exact hrule tag rfl args body hb
    rw [tagNode]
    split
    · exact Obeys.pure (hactions (by simp [NodesCalm, nodesAccesses]))
    · exact (block_calm hu t _).bind fun r hr => Obeys.pure (hactions hr)

end

theorem nodesWithin_calm {m : Markup} (hm : m.tags.Calm) (n : Nat) (ends : List String) :
    Obeys .free (m.nodesWithin n ends) fun r => NodesCalm r.1 := by
  have none (tag : Option TagToken) : NodesCalm (([], tag) : List Node × Option TagToken).1 := by
    simp [NodesCalm, nodesAccesses]
  induction n generalizing ends with
  | zero => exact Obeys.pure (none _)
  | succ n ih =>
    have more {node : Node} (hn : .pauses ∉ node.accesses) : Obeys .free
        (m.nodesWithin n ends >>= fun r => pure (node :: r.1, r.2)) fun r => NodesCalm r.1 := by
      refine (ih ends).bind fun r hr => Obeys.pure ?_
      simp only [NodesCalm, nodesAccesses, List.mem_append, not_or]
      exact ⟨hn, hr⟩
    unfold nodesWithin
    refine (Obeys.any _).bind fun l _ => ?_
    split
    · exact Obeys.pure (none _)
    · exact more (by simp [Node.accesses])
    · split
      · exact ih ends
      · exact (Obeys.any _).bind fun p _ => more (by simp [Node.accesses])
    · split
      · exact Obeys.pure (none _)
      · split
        · next rule hl =>
          have hrule : ∀ tag, rule = .custom tag → tag.Calm := fun tag he => hm _ tag (he ▸ hl)
          exact (tagNode_calm ih hrule).bind fun _ hn => more hn
        · split
          · exact Obeys.throw trivial
          · exact Obeys.throw trivial

end Markup

/-- What compiles with calm tags never waits by itself. -/
theorem Template.parse_calm {tags : TagTable} (h : tags.Calm) {source : String} {t : Template}
    (hp : Template.parse tags source = .ok t) : t.Calm := by
  unfold Template.parse at hp
  cases hl : Markup.lex source with
  | error e =>
    rw [hl] at hp
    cases hp
  | ok lexemes =>
    have hn := Markup.nodesWithin_calm (m := ⟨source, tags⟩) h (lexemes.length + 1) [] lexemes trivial
    rw [hl] at hp
    dsimp only [bind, Except.bind, Markup.nodesUntil] at hp
    cases hr : Markup.nodesWithin ⟨source, tags⟩ (lexemes.length + 1) [] lexemes with
    | error e rest =>
      rw [hr] at hp
      cases hp
    | ok r rest =>
      rw [hr] at hp hn
      cases hp
      exact hn.2

end Stencil
