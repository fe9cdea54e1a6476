import Mathlib
import Stencil.Proofs.Expression.Extending
import Stencil.Proofs.Render.Outcomes
import Stencil.Proofs.Render.Settled

/-!
# Computed segments

A path's segment may be written down, or be a bracket that is evaluated. `Segment.Restates` says that
a segment is replaced by a bracket that comes to what it stands for, or a bracket by another that comes
to the same. If undefined variables count as nil, a path in which segments are so replaced has the same
outcome (`Expression.outcome_restated`), so that the replaced path may stand in a bracket in turn.
-/

namespace Stencil

-- Powers are those of the natural numbers and integers, whatever algebra is imported.
attribute [local instance (high)] instPowNat

/-- What is the same after any history comes to the same after any two. -/
theorem SameOutcome.of_later {α : Type} {m : Evaluation α}
    (h : ∀ history, Later history α m m) : SameOutcome α m m := by
  intro s₁ s₂ _
  have h₁ := (h s₁ [] s₁ rfl).1
  have h₂ := (h s₂ [] s₂ rfl).1
  exact ⟨h₁.symm.trans h₂, trivial⟩

section
variable (i : Interpreter) (ctx : Context)

theorem Interpreter.variableValue_sameOutcome (spelling name : String) :
    SameOutcome Value (i.variableValue ctx spelling name) (i.variableValue ctx spelling name) :=
  .of_later fun history => variableValue_later history i ctx spelling name

/-- The spelling of a path shows only where an undefined variable is an error. -/
theorem Interpreter.variableValue_of_lenient {ctx : Context} (h : ctx.strict = false)
    (spelling spelling' name : String) :
    i.variableValue ctx spelling name = i.variableValue ctx spelling' name := by
  simp [variableValue, h]

namespace Expression

variable {i ctx} {e e' : Expression}

theorem sameOutcome_iff :
    SameOutcome Value (e.eval i ctx) (e'.eval i ctx) ↔ e.outcome i ctx = e'.outcome i ctx := by
  constructor
  · intro h
    rw [← outcome_result i ctx e [], ← outcome_result i ctx e' []]
    exact (h [] [] trivial).1
  · intro h s₁ s₂ _
    rw [Ending.Alike, outcome_result, outcome_result]
    exact ⟨h, trivial⟩

theorem sameOutcome_pure {v : Value} (h : e.outcome i ctx = .ok v) :
    SameOutcome Value (pure v) (e.eval i ctx) := by
  intro s₁ s₂ _
  rw [Ending.Alike, outcome_result, h]
  exact ⟨rfl, trivial⟩

end Expression

end

namespace Segment

/-- The property that a segment without a bracket stands for. -/
inductive Stands : Segment → Value → Prop where
  | key (name : String) : Stands (.key name) (.text name)
  | index (n : Int) : Stands (.index n) (.int n)

/-- The second segment may replace the first. -/
inductive Restates (i : Interpreter) (ctx : Context) : Segment → Segment → Prop where
  | same (s : Segment) : Restates i ctx s s
  /-- A bracket that comes to what the segment stands for. -/
  | computed {s : Segment} {v : Value} {e : Expression} (stands : s.Stands v)
    (comes : e.outcome i ctx = .ok v) : Restates i ctx s (.computed e)
  /-- Another bracket with the same outcome. -/
  | inside {e e' : Expression} (comes : e.outcome i ctx = e'.outcome i ctx) :
    Restates i ctx (.computed e) (.computed e')

variable {i : Interpreter} {ctx : Context} {s s' : Segment}

/-- As the head of a path a segment names the output text of what it stands for later on. -/
theorem headName_eq (s : Segment) :
    s.headName i ctx = s.property i ctx >>= fun v => pure v.output := by
  cases s with
  | key name =>
    have hname : (Value.text name).output = name := String.empty_append
    rw [headName, property]
    exact congrArg pure hname.symm
  | index n =>
    have hindex : (Value.int n).output = toString n := String.empty_append
    rw [headName, property]
    exact congrArg pure hindex.symm
  | computed e => rw [headName, property]

theorem Stands.property_eq {v : Value} (h : s.Stands v) : s.property i ctx = pure v := by
  cases h <;> rw [property]

namespace Restates

theorem property (h : Restates i ctx s s') :
    SameOutcome Value (s.property i ctx) (s'.property i ctx) := by
  cases h with
  | same s =>
    cases s with
    | key | index =>
      rw [Segment.property]
      exact (Simulates.sequential _).pure _
    | computed e =>
      rw [Segment.property]
      exact Expression.sameOutcome_iff.2 rfl
  | computed stands comes =>
    rw [stands.property_eq, Segment.property]
    exact Expression.sameOutcome_pure comes
  | inside comes =>
    rw [Segment.property, Segment.property]
    exact Expression.sameOutcome_iff.2 comes

theorem headName (h : Restates i ctx s s') :
    SameOutcome String (s.headName i ctx) (s'.headName i ctx) := by
  rw [headName_eq, headName_eq]
  exact (Simulates.sequential _).bind h.property fun v => (Simulates.sequential _).pure v.output

theorem walk {segments segments' : List Segment}
    (h : List.Forall₂ (Restates i ctx) segments segments') (v : Value) :
    SameOutcome Value (walk i ctx v segments) (walk i ctx v segments') := by
  induction h generalizing v with
  | nil =>
    rw [Stencil.walk]
    exact (Simulates.sequential _).pure v
  | cons hs _ ih =>
    rw [Stencil.walk, Stencil.walk]
    exact (Simulates.sequential _).bind hs.property fun key => ih (v.property key)

end Restates

end Segment

/-- Paths in which segments are replaced have the same outcome. -/
theorem Expression.outcome_restated {i : Interpreter} {ctx : Context} (hlenient : ctx.strict = false)
    {segments segments' : List Segment}
    (h : List.Forall₂ (Segment.Restates i ctx) segments segments') (spelling spelling' : String) :
    (path spelling segments).outcome i ctx = (path spelling' segments').outcome i ctx := by
  refine sameOutcome_iff.1 ?_
  cases h with
  | nil =>
    rw [Expression.eval, Expression.eval]
    exact (Simulates.sequential _).pure Value.null
  | cons hs hrest =>
    rw [Expression.eval, Expression.eval]
    refine (Simulates.sequential _).bind hs.headName fun name => ?_
    -- the spelling of a path is only for the message of an error that cannot come up here
    rw [i.variableValue_of_lenient hlenient spelling spelling']
    exact (Simulates.sequential _).bind (i.variableValue_sameOutcome ctx spelling' name) fun v =>
      Segment.Restates.walk hrest v

/-- **Segments that are written down and computed ones agree.** If undefined variables count as nil, a
name or an index anywhere in a path may be replaced by a bracket that comes to it, and many of them at
once and inside brackets, and the path keeps its outcome. In a source a name or digits behind a point
are the same segment as in a bracket. -/
theorem Expression.path_computed {i : Interpreter} {ctx : Context} (hlenient : ctx.strict = false) :
    (∀ (before after : List Segment) (s : Segment) (v : Value) (e : Expression)
        (spelling spelling' : String), s.Stands v → e.outcome i ctx = .ok v →
      (path spelling (before ++ s :: after)).outcome i ctx =
        (path spelling' (before ++ .computed e :: after)).outcome i ctx) ∧
    (∀ (segments segments' : List Segment) (spelling spelling' : String),
      List.Forall₂ (Segment.Restates i ctx) segments segments' →
      (path spelling segments).outcome i ctx = (path spelling' segments').outcome i ctx) ∧
    ∀ (p : String) (segments : List Segment), PathText p segments →
      (∀ k : String, Scanner.IsName k.toList →
        IsPath (p ++ "." ++ k) (segments ++ [.key k]) ∧
        IsPath (p ++ "[\"" ++ k ++ "\"]") (segments ++ [.key k])) ∧
      ∀ n : String, Scanner.IsDigits n.toList → Decimal.digitsValue n.toList < 2 ^ (63 : Nat) →
        IsPath (p ++ "." ++ n) (segments ++ [.index (Decimal.digitsValue n.toList)]) ∧
        IsPath (p ++ "[" ++ n ++ "]") (segments ++ [.index (Decimal.digitsValue n.toList)]) := by
  refine ⟨fun before after s v e spelling spelling' stands comes => ?_,
    fun _ _ spelling spelling' h => outcome_restated hlenient h spelling spelling',
    fun p segments h => ⟨fun k hk => h.extended_key hk, fun n hn hfits => h.extended_index hn hfits⟩⟩
  have same (segments : List Segment) :
      List.Forall₂ (Segment.Restates i ctx) segments segments :=
    List.forall₂_same.2 fun s _ => .same s
  exact outcome_restated hlenient
    (List.rel_append (same before) (.cons (.computed stands comes) (same after))) _ _

set_option maxRecDepth 1000 in
/-- `data.a[-1]`, and with a bracket in every place, where one bracket is the head. -/
theorem Expression.path_computed_brackets :
    let i : Interpreter := ⟨.empty, .sync⟩
    let data : Value := .object [("a", .list [.text "x", .text "y"])]
    let ctx : Context :=
      ⟨[("data", data), ("k", .text "a"), ("n", .int (-1)), ("name", .text "data")], [], [], none,
        false⟩
    let named (name : String) : Expression := .path name [.key name]
    let written : Expression := .path "data.a[-1]" [.key "data", .key "a", .index (-1)]
    let computed : Expression := .path "[name][k][n]"
      [.computed (named "name"), .computed (named "k"), .computed (named "n")]
    (named "name").outcome i ctx = .ok (.text "data") ∧
    (named "k").outcome i ctx = .ok (.text "a") ∧
    (named "n").outcome i ctx = .ok (.int (-1)) ∧
    written.outcome i ctx = computed.outcome i ctx ∧ written.outcome i ctx = .ok (.text "y") ∧
    PathText "data" [.key "data"] ∧
    IsPath "data[\"a\"]" [.key "data", .key "a"] ∧
    IsPath "data.007" [.key "data", .index 7] ∧ IsPath "data[007]" [.key "data", .index 7] := by
  intro i data ctx named written computed
  have hname : (named "name").outcome i ctx = .ok (.text "data") := by cbv
  have hk : (named "k").outcome i ctx = .ok (.text "a") := by cbv
  have hn : (named "n").outcome i ctx = .ok (.int (-1)) := by cbv
  have hdata : PathText "data" [.key "data"] := .path (by cbv)
  have hlenient : ctx.strict = false := rfl
  obtain ⟨-, hmany, hspelt⟩ := Expression.path_computed (i := i) hlenient
  obtain ⟨hkeys, hindices⟩ := hspelt "data" [.key "data"] hdata
  have hdigits := hindices "007" (Decimal.isDigits_iff.1 (by decide)) (by decide)
  exact ⟨hname, hk, hn,
    hmany _ _ _ _ (.cons (.computed (.key _) hname) (.cons (.computed (.key _) hk)
      (.cons (.computed (.index _) hn) .nil))),
    by cbv, hdata, (hkeys "a" ⟨'a', [], rfl, by decide, List.forall_mem_nil _⟩).2, hdigits.1, hdigits.2⟩

end Stencil
