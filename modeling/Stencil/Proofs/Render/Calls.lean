import Mathlib
import Stencil.Proofs.Render.Outcomes

/-!
# What a filter is called with

The positional arguments of a call keep their order among themselves, and of the named ones a key's
last counts. `Arguments.Collects` says so of arguments that are evaluated so far: an argument more
preserves it (`Arguments.Collects.add`), so that it holds at the end of a run over all arguments
(`Interpreter.arguments_collects`). What it says determines the arguments, wherever the named ones
stand between the positional ones (`Arguments.Collects.unique`). `Interpreter.drive_call` says how the
call with them ends.
-/

namespace Stencil

/-- Ascending fields that give every name the same are the same. -/
theorem Fields.Ascending.ext {a b : Fields} (ha : a.Ascending) (hb : b.Ascending)
    (h : ∀ name, a.get? name = b.get? name) : a = b := by
  have : Std.Irrefl fun f g : String × Value => f.1 < g.1 := ⟨fun f => String.lt_irrefl f.1⟩
  have : Std.Antisymm fun f g : String × Value => f.1 < g.1 :=
    ⟨fun f g hfg hgf => absurd (String.lt_trans hfg hgf) (String.lt_irrefl f.1)⟩
  refine List.Pairwise.eq_of_mem_iff ha hb fun (name, v) => ?_
  rw [← ha.get?_eq_some_iff, ← hb.get?_eq_some_iff, h name]

/-- The expressions of the arguments that have the key, in order; those without one are positional. -/
def Argument.expressions (as : List Argument) (key : Option String) : List Expression :=
  (as.filter (·.key == key)).map (·.value)

namespace Argument

theorem expressions_append (as bs : List Argument) (key : Option String) :
    expressions (as ++ bs) key = expressions as key ++ expressions bs key := by
  simp [expressions]

theorem expressions_singleton (a : Argument) (key : Option String) :
    expressions [a] key = if a.key = key then [a.value] else [] := by
  by_cases h : a.key = key <;> simp [expressions, h]

/-- An argument is named if and only if it is one of those with some key. -/
theorem any_isSome_iff (as : List Argument) :
    as.any (·.key.isSome) = true ↔ ∃ key, (expressions as (some key)).getLast? ≠ none := by
  simp only [List.any_eq_true, expressions, ne_eq, List.getLast?_eq_none_iff, List.map_eq_nil_iff,
    List.filter_eq_nil_iff, not_forall, Option.isSome_iff_exists]
  constructor
  · rintro ⟨a, ha, key, hk⟩
    exact ⟨key, a, ha, by simp [hk]⟩
  · rintro ⟨key, a, ha, hk⟩
    exact ⟨a, ha, key, by simpa using hk⟩

end Argument

/-- The evaluated arguments are those of the listed ones. -/
structure Arguments.Collects (i : Interpreter) (ctx : Context) (as : List Argument)
    (args : Arguments) : Prop where
  /-- The positional values are in order. -/
  positional : args.positional.map .ok = (Argument.expressions as none).map (·.outcome i ctx)
  /-- There are named values if an argument is named, and only then. -/
  isSome_named : args.named.isSome = as.any (·.key.isSome)
  /-- A key has the value of its last argument. -/
  named? (key : String) :
    (args.named? key).map .ok = (Argument.expressions as (some key)).getLast?.map (·.outcome i ctx)
  ascending : ∀ fields ∈ args.named, fields.Ascending

namespace Arguments

theorem named?_add (args : Arguments) (key : Option String) (v : Value) (name : String) :
    (args.add key v).named? name = if key = some name then some v else args.named? name := by
  cases key with
  | none => rfl
  | some k =>
    have hget : Fields.get? (args.named.getD []) name = args.named? name := by
      cases h : args.named <;> simp [named?, h]
    simp only [add, named?, Option.bind_some, Fields.get?_insert, Option.some.injEq, hget, eq_comm]

/-- The named values come last. -/
theorem toValues_eq (args : Arguments) :
    args.toValues = args.positional ++ (args.named.map Value.object).toList := by
  unfold toValues
  cases args.named with
  | none => exact (List.append_nil _).symm
  | some fields => rfl

namespace Collects

variable {i : Interpreter} {ctx : Context}

theorem nil : Collects i ctx [] ⟨[], none⟩ := ⟨rfl, rfl, fun _ => rfl, nofun⟩

variable {as bs : List Argument} {args args' : Arguments}

theorem add (h : Collects i ctx as args) {a : Argument} {v : Value}
    (ha : a.value.outcome i ctx = .ok v) : Collects i ctx (as ++ [a]) (args.add a.key v) where
  positional := by
    rw [Argument.expressions_append, Argument.expressions_singleton, List.map_append, ← h.positional]
    cases hk : a.key with
    | none => simp [Arguments.add, ha]
    | some k => simp [Arguments.add]
  isSome_named := by
    rw [List.any_append, ← h.isSome_named]
    cases hk : a.key with
    | none => simp [Arguments.add, hk]
    | some k => simp [Arguments.add, hk]
  named? key := by
    rw [named?_add, Argument.expressions_append, Argument.expressions_singleton]
    by_cases hk : a.key = some key
    · simp [hk, ha]
    · simp [hk, h.named? key]
  ascending := by
    intro fields hfields
    cases hk : a.key with
    | none =>
      rw [hk] at hfields
      exact h.ascending fields hfields
    | some k =>
      rw [hk] at hfields
      cases hfields
      cases hn : args.named with
      | none => exact List.pairwise_singleton _ _
      | some old => exact (h.ascending old hn).insert k v

/-- Positional arguments in the same order and the same last argument of every key, then the same
arguments. -/
theorem unique (h : Collects i ctx as args) (h' : Collects i ctx bs args')
    (hpositional : Argument.expressions bs none = Argument.expressions as none)
    (hlast : ∀ key, (Argument.expressions bs (some key)).getLast? =
      (Argument.expressions as (some key)).getLast?) : args' = args := by
  have ok_injective : Function.Injective (Except.ok : Value → Except Error Value) :=
    fun _ _ => Except.ok.inj
  have hp : args'.positional = args.positional := by
    apply List.map_injective_iff.2 ok_injective
    rw [h'.positional, h.positional, hpositional]
  have hget (key : String) : args'.named? key = args.named? key := by
    apply Option.map_injective ok_injective
    rw [h'.named?, h.named?, hlast]
  have hany : bs.any (·.key.isSome) = as.any (·.key.isSome) := by
    rw [Bool.eq_iff_iff, Argument.any_isSome_iff, Argument.any_isSome_iff]
    simp only [hlast]
  have hsome : args'.named.isSome = args.named.isSome := by
    rw [h'.isSome_named, h.isSome_named, hany]
  -- look-ups do not tell an empty mapping from none at all, but `isSome` does
  obtain ⟨positional, named⟩ := args
  obtain ⟨positional', named'⟩ := args'
  obtain rfl : positional' = positional := hp
  cases named with
  | none => cases named' with
    | none => rfl
    | some fields' => cases hsome
  | some fields => cases named' with
    | none => cases hsome
    | some fields' =>
      have : fields' = fields := (h'.ascending fields' rfl).ext (h.ascending fields rfl) hget
      rw [this]

end Collects

end Arguments

namespace Interpreter

variable (i : Interpreter) (ctx : Context)

/-- How a call ends whose filter gave `r`: a deferred value is awaited, or rejected. -/
def answer (name : String) (r : Except Error Resolution) (history : List Event) :
    Ending Error (List Event) Value :=
  match r, i.mode with
  | .error e, _ => .error e history
  | .ok (.settled v), _ => .ok v history
  | .ok (.pending _), .sync => .error (.pendingInSync (.filter name)) history
  | .ok (.pending d), .async => .of d.outcome (.awaited (.filter name) :: history)

/-- The events of evaluating the arguments in order, newest first. -/
def argumentEvents (as : List Argument) : List Event := as.reverse.flatMap (·.value.events i ctx)

theorem argumentEvents_cons (a : Argument) (rest : List Argument) :
    i.argumentEvents ctx (a :: rest) = i.argumentEvents ctx rest ++ a.value.events i ctx := by
  simp [argumentEvents]

theorem argumentEvents_callFree (as : List Argument) :
    ∀ event ∈ i.argumentEvents ctx as, event.isCall = false := by
  intro event h
  obtain ⟨a, -, ha⟩ := List.mem_flatMap.1 h
  exact a.value.events_callFree i ctx event ha

/-- A call shows as an event, and ends as the filter answers. -/
theorem drive_call (name : String) (filter : Filter) (input : Value) (args : Arguments)
    (history : List Event) : i.mode.drive (i.call name filter input args history) =
      i.answer name (filter input args) (.call name input args :: history) := by
  rw [Mode.drive_eq_result fun h => i.call_prompt h name filter input args, call, record,
    Coroutine.result_bind]
  dsimp only [Coroutine.modify, Polled.result]
  rw [Coroutine.result_bind]
  cases filter input args with
  | error e => rfl
  | ok r =>
    cases r with
    | settled v => rfl
    | pending d =>
      change (i.settle (.pending d) (.filter name) (.call name input args :: history)).result = _
      unfold settle answer
      cases i.mode with
      | sync => rfl
      | async =>
        dsimp only
        rw [record, Coroutine.result_bind]
        dsimp only [Coroutine.modify, Polled.result]
        rw [Deferred.result_await]
        cases d.outcome <;> rfl

/-- A run over arguments that come to values, after those that were evaluated before. -/
theorem arguments_collects (rest : List Argument) {as : List Argument} {args : Arguments}
    (h : args.Collects i ctx as) (hok : ∀ a ∈ rest, ∃ v, a.value.outcome i ctx = .ok v) :
    ∃ args', args'.Collects i ctx (as ++ rest) ∧ ∀ history,
      (i.arguments ctx args rest history).result =
        .ok args' (i.argumentEvents ctx rest ++ history) := by
  -- on the arguments that are left; those before them are collected in `args`
  induction rest generalizing as args with
  | nil => exact ⟨args, by rwa [List.append_nil], fun history => rfl⟩
  | cons a rest ih =>
    obtain ⟨v, hv⟩ := hok a List.mem_cons_self
    obtain ⟨args', hc, hrun⟩ := ih (h.add hv) fun b hb => hok b (List.mem_cons_of_mem a hb)
    refine ⟨args', by rwa [List.append_assoc] at hc, fun history => ?_⟩
    rw [arguments, Coroutine.result_bind, Expression.result_eval, hv, argumentEvents_cons,
      List.append_assoc]
    exact hrun (a.value.events i ctx ++ history)

theorem drive_apply (input : Value) (f : Invocation) (history : List Event) :
    i.mode.drive (i.apply ctx input f history) = (i.apply ctx input f history).result :=
  Mode.drive_eq_result (fun h => (promptEvaluation h ctx).on.apply input f fun _ _ => trivial) history

/-- A known filter whose arguments come to values is called with what they collect to. -/
theorem drive_apply_of_ok {f : Invocation} {filter : Filter}
    (hfilter : i.filters.lookup f.name = some filter)
    (hok : ∀ a ∈ f.arguments, ∃ v, a.value.outcome i ctx = .ok v) :
    ∃ args, args.Collects i ctx f.arguments ∧ ∀ input history,
      i.mode.drive (i.apply ctx input f history) = i.answer f.name (filter input args)
        (.call f.name input args :: (i.argumentEvents ctx f.arguments ++ history)) := by
  obtain ⟨args, hc, hrun⟩ := i.arguments_collects ctx f.arguments .nil hok
  refine ⟨args, hc, fun input history => ?_⟩
  have hfind : i.filters.find f.name = .ok filter := by
    unfold FilterTable.find
    rw [hfilter]
  rw [drive_apply, ← drive_call, Mode.drive_eq_result fun h => i.call_prompt h f.name filter input args,
    apply, hfind, Coroutine.result_bind]
  show ((i.arguments ctx ⟨[], none⟩ f.arguments >>= fun args => i.call f.name filter input args)
    history).result = _
  rw [Coroutine.result_bind, hrun]

/-- **Only the order that matters counts.** Two invocations of one filter have the same positional
arguments in the same order, and the same last argument of every key. If all their arguments come to
values, then each calls the filter once, with the same arguments: the positional values in order, and
named ones, if there is a named argument, which give every key the value of its last argument. As a
list of values the named ones come last, as an object. Both invocations end as the filter answers to
these arguments. -/
theorem apply_rearranged {f g : Invocation} {filter : Filter} (hname : g.name = f.name)
    (hfilter : i.filters.lookup f.name = some filter)
    (hpositional : Argument.expressions g.arguments none = Argument.expressions f.arguments none)
    (hlast : ∀ key, (Argument.expressions g.arguments (some key)).getLast? =
      (Argument.expressions f.arguments (some key)).getLast?)
    (hf : ∀ a ∈ f.arguments, ∃ v, a.value.outcome i ctx = .ok v)
    (hg : ∀ a ∈ g.arguments, ∃ v, a.value.outcome i ctx = .ok v) :
    ∃ args : Arguments, args.Collects i ctx f.arguments ∧ args.Collects i ctx g.arguments ∧
      args.toValues = args.positional ++ (args.named.map Value.object).toList ∧
      ∀ invocation, invocation = f ∨ invocation = g →
        (∀ event ∈ i.argumentEvents ctx invocation.arguments, event.isCall = false) ∧
        ∀ input history, i.mode.drive (i.apply ctx input invocation history) =
          i.answer f.name (filter input args) (.call f.name input args ::
            (i.argumentEvents ctx invocation.arguments ++ history)) := by
  obtain ⟨args, hcf, hrunf⟩ := i.drive_apply_of_ok ctx hfilter hf
  obtain ⟨args', hcg, hrung⟩ := i.drive_apply_of_ok ctx (hname ▸ hfilter) hg
  obtain rfl := hcf.unique hcg hpositional hlast
  refine ⟨args', hcf, hcg, args'.toValues_eq, fun invocation h => ?_⟩
  refine ⟨i.argumentEvents_callFree ctx invocation.arguments, fun input history => ?_⟩
  rcases h with rfl | rfl
  · exact hrunf input history
  · rw [← hname]
    exact hrung input history

/-- `pair: 1, size: 'x', 2, size: 'y', color: 'z'` and `pair: color: 'z', 1, size: 'y', 2`, for a filter
that gives its arguments back. -/
theorem apply_rearranged_mixed :
    let arg (key : Option String) (s : String) : Argument := ⟨key, .literal s (.text s)⟩
    let f : Invocation :=
      ⟨"pair", [arg none "1", arg "size" "x", arg none "2", arg "size" "y", arg "color" "z"]⟩
    let g : Invocation := ⟨"pair", [arg "color" "z", arg none "1", arg "size" "y", arg none "2"]⟩
    let filter : Filter := fun _ args => .ok (.settled (.list args.toValues))
    let i : Interpreter := ⟨.register .empty "pair" filter, .sync⟩
    let ctx : Context := ⟨[], [], [], none, true⟩
    let named : Fields := [("color", .text "z"), ("size", .text "y")]
    let args : Arguments := ⟨[.text "1", .text "2"], some named⟩
    (∀ a ∈ f.arguments, ∃ v, a.value.outcome i ctx = .ok v) ∧
    (∀ a ∈ g.arguments, ∃ v, a.value.outcome i ctx = .ok v) ∧
    (∀ key, (Argument.expressions g.arguments (some key)).getLast? =
      (Argument.expressions f.arguments (some key)).getLast?) ∧
    args.Collects i ctx f.arguments ∧ args.Collects i ctx g.arguments ∧
    ∀ invocation, invocation = f ∨ invocation = g → ∀ input history,
      i.mode.drive (i.apply ctx input invocation history) =
        .ok (.list [.text "1", .text "2", .object named]) (.call "pair" input args :: history) := by
  intro arg f g filter i ctx named args
  have hvalue (key : Option String) (s : String) : (arg key s).value.outcome i ctx = .ok (.text s) :=
    rfl
  have hf : ∀ a ∈ f.arguments, ∃ v, a.value.outcome i ctx = .ok v := by
    simp [f, hvalue]
  have hg : ∀ a ∈ g.arguments, ∃ v, a.value.outcome i ctx = .ok v := by
    simp [g, hvalue]
  have hlast (key : String) : (Argument.expressions g.arguments (some key)).getLast? =
      (Argument.expressions f.arguments (some key)).getLast? := by
    simp only [Argument.expressions, f, g, arg]
    by_cases h1 : key = "size"
    · subst h1; rfl
    · by_cases h2 : key = "color"
      · subst h2; rfl
      · simp [Ne.symm h1, Ne.symm h2]
  obtain ⟨args', hcf, hcg, -, hrun⟩ :=
    i.apply_rearranged (f := f) (g := g) ctx rfl rfl rfl hlast hf hg
  have hc : args.Collects i ctx f.arguments :=
    .add (.add (.add (.add (.add .nil (hvalue none "1")) (hvalue (some "size") "x"))
      (hvalue none "2")) (hvalue (some "size") "y")) (hvalue (some "color") "z")
  obtain rfl := hc.unique hcf rfl fun _ => rfl
  refine ⟨hf, hg, hlast, hcf, hcg, ?_⟩
  -- the evaluation of a literal has no events
  rintro invocation (rfl | rfl) input history
  · exact (hrun f (.inl rfl)).2 input history
  · exact (hrun g (.inr rfl)).2 input history

end Interpreter

end Stencil
