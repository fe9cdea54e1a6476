import Stencil.Context
import Stencil.Coroutine
import Stencil.Filter.Table
import Stencil.Pipeline
import Stencil.Value.Output

/-!
# Evaluation

Expressions and pipelines evaluate against a context. What an observer can see along the way is kept
as a history of events, newest first: names asked of the source of deferred variables, filter calls,
and deferred values awaited. In synchronous mode a deferred value is an error instead.

`Expression.eval` and `Pipeline.eval` are the two main definitions; the context never changes.
`Mode.drive` runs what they give.
-/

namespace Stencil

/-- What becomes of deferred values: rejected, or awaited. -/
inductive Mode where
  | sync
  | async
  deriving DecidableEq, Repr, Inhabited

/-- Runs a computation: in synchronous mode for one poll, else to its end. -/
def Mode.drive {σ α : Type} (mode : Mode) (p : Polled Error σ α) : Ending Error σ α :=
  match mode with
  | .sync => p.once (.pendingInSync .evaluation)
  | .async => p.result

inductive Event where
  /-- The source of deferred variables was asked for a name. -/
  | lookup (name : String)
  | call (filter : String) (input : Value) (args : Arguments)
  /-- A deferred value was polled until it arrived. -/
  | awaited (point : SuspensionPoint)
  deriving Repr, Inhabited

/-- The filters of a render, and its mode. -/
structure Interpreter where
  filters : FilterTable
  mode : Mode

/-- A computation with a history of events, newest first. -/
abbrev Evaluation := Coroutine Error (List Event)

/-- Integers in a range literal are limited to so many. -/
def rangeLimit : Nat := 1000000

/-- The integers from `first` to `last`, unless there are too many. -/
def rangeItems (first last : Int) : Except Error Value :=
  let count := (last - first + 1).toNat
  if rangeLimit < count then .error (.rangeTooLarge first last rangeLimit)
  else .ok (.list ((List.range count).map fun (k : Nat) => Value.int (first + k)))

/-- The integer that a bound of a range counts as: a number cut to 64 bits, the integer that a text
spells, else zero. -/
def rangeBound : Value → Int
  | .number n =>
    match n.int64? with
    | some i => i
    | none => n.toFloat.toModel.toInt64.toInt
  | .text s => (Decimal.integer? (Text.trim s.toList)).getD 0
  | _ => 0

namespace Interpreter

variable (i : Interpreter) (ctx : Context)

def record (e : Event) : Evaluation Unit := .modify (e :: ·)

/-- The value of a step: a deferred one is awaited or rejected. -/
def settle (r : Resolution) (point : SuspensionPoint) : Evaluation Value :=
  match r with
  | .settled v => pure v
  | .pending d =>
    match i.mode with
    | .sync => .fail (.pendingInSync point)
    | .async => do
      record (.awaited point)
      d.await

/-- Asks the source of deferred variables, if there is one. -/
def ask (name : String) : Evaluation (Option Resolution) :=
  match ctx.source with
  | none => pure none
  | some source => do
    record (.lookup name)
    pure (source name)

/-- The value of the name that the path `spelling` starts with. -/
def variableValue (spelling name : String) : Evaluation Value :=
  match ctx.find? name with
  | some v => pure v
  | none => do
    match ← ask ctx name with
    | some r => i.settle r (.variable name)
    | none => if ctx.strict then .fail (.undefinedVariable spelling) else return .null

/-- Applies a filter to evaluated arguments. -/
def call (name : String) (filter : Filter) (input : Value) (args : Arguments) :
    Evaluation Value := do
  record (.call name input args)
  i.settle (← .lift (filter input args)) (.filter name)

end Interpreter

mutual

def Expression.eval (i : Interpreter) (ctx : Context) : Expression → Evaluation Value
  | .literal _ v => pure v
  | .path _ [] => pure .null
  | .path spelling (head :: rest) => do
    let name ← head.headName i ctx
    let v ← i.variableValue ctx spelling name
    walk i ctx v rest
  | .range _ first last => do
    let first := rangeBound (← first.eval i ctx)
    let last := rangeBound (← last.eval i ctx)
    Coroutine.lift (rangeItems first last)

/-- The name that a path's first segment stands for. -/
def Segment.headName (i : Interpreter) (ctx : Context) : Segment → Evaluation String
  | .key name => pure name
  | .index n => pure (toString n)
  | .computed e => do return (← e.eval i ctx).output

/-- The property that a later segment stands for. -/
def Segment.property (i : Interpreter) (ctx : Context) : Segment → Evaluation Value
  | .key name => pure (.text name)
  | .index n => pure (.int n)
  | .computed e => e.eval i ctx

/-- Follows the segments from a value. -/
def walk (i : Interpreter) (ctx : Context) (v : Value) : List Segment → Evaluation Value
  | [] => pure v
  | s :: rest => do
    let key ← s.property i ctx
    walk i ctx (v.property key) rest

end

namespace Interpreter

variable (i : Interpreter) (ctx : Context)

/-- Evaluates arguments in order and adds them to those already there. -/
def arguments (args : Arguments) : List Argument → Evaluation Arguments
  | [] => pure args
  | a :: rest => do
    let v ← a.value.eval i ctx
    arguments (args.add a.key v) rest

/-- Applies a filter to a value. The filter is found before its arguments are evaluated. -/
def apply (input : Value) (f : Invocation) : Evaluation Value := do
  let filter ← .lift (i.filters.find f.name)
  let args ← i.arguments ctx ⟨[], none⟩ f.arguments
  i.call f.name filter input args

/-- Applies filters one after another. -/
def applyAll (input : Value) : List Invocation → Evaluation Value
  | [] => pure input
  | f :: rest => do
    let v ← i.apply ctx input f
    applyAll v rest

end Interpreter

namespace Pipeline

variable (i : Interpreter) (ctx : Context) (p : Pipeline)

/-- The initial value, put through each filter in order. -/
def eval : Evaluation Value := do
  let v ← p.initial.eval i ctx
  i.applyAll ctx v p.filters

/-- Runs the evaluation of a pipeline after the events of a history. -/
def evaluate (history : List Event) : Ending Error (List Event) Value :=
  i.mode.drive (p.eval i ctx history)

end Pipeline

end Stencil
