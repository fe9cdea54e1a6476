import Stencil.Markup.Node
import Stencil.Render.Evaluate

/-!
# Rendering

Nodes render one after another: they append to the output, and may change the context. A block's
frame is popped when its body is done and also when it fails. A tag may wait by itself; then the one
poll of a synchronous run finds no end, and the run is abandoned there with its frames as they are.

`Template.render` runs a whole template.
-/

namespace Stencil

structure RenderState where
  context : Context
  output : String
  /-- Newest first. -/
  history : List Event

abbrev Rendering := Coroutine Error RenderState

namespace Rendering

def write (s : String) : Rendering Unit := .modify fun st => { st with output := st.output ++ s }

/-- Writes the output text of a value. -/
def print (v : Value) : Rendering Unit :=
  .modify fun st => { st with output := v.writeOutput st.output }

/-- Evaluates in the context of the moment. -/
def evaluating {α : Type} (f : Context → Evaluation α) : Rendering α := fun st =>
  let withHistory (history : List Event) : RenderState := { st with history }
  (f st.context st.history).map withHistory (fun a _ => a) withHistory

def assign (name : String) (v : Value) : Rendering Unit :=
  .modify fun st => { st with context := st.context.assign name v }

/-- Runs a body in a frame of its own, which is popped when the body ends. -/
def inFrame (frame : Fields) (body : Rendering Unit) : Rendering Unit := fun st =>
  (body { st with context := st.context.push frame }).map id (fun a _ => a)
    fun st => { st with context := st.context.pop }

/-- Runs a body with an output of its own and gives that output. -/
def capturing (body : Rendering Unit) : Rendering String := fun st =>
  (body { st with output := "" }).map id (fun _ st' => st'.output)
    fun st' => { st' with output := st.output }

end Rendering

/-- What a loop goes over: items, pairs of name and value, nothing for nil and the empty text, and
any other value itself. -/
def iterationItems : Value → List Value
  | .list items => items
  | .object fields => fields.map fun (k, v) => .list [.text k, v]
  | .null => []
  | .text s => if s.isEmpty then [] else [.text s]
  | v => [v]

/-- The counters of iteration `k` of `n`. -/
def loopCounters (k n : Nat) : Value := .object [
  ("first", .bool (k == 0)), ("index", .int (k + 1)), ("index0", .int k),
  ("last", .bool (k + 1 == n)), ("length", .int n), ("rindex", .int ((n - k : Nat) : Int)),
  ("rindex0", .int ((n - k - 1 : Nat) : Int))]

/-- The frame of iteration `k` of `n`. -/
def loopFrame (item : String) (x : Value) (k n : Nat) : Fields :=
  Fields.insert "forloop" (loopCounters k n) (Fields.insert item x [])

/-- Runs the body for the items from iteration `k` of `n` on. -/
def iterate (item : String) (body : Rendering Unit) (n : Nat) :
    Nat → List Value → Rendering Unit
  | _, [] => pure ()
  | k, x :: rest => do
    Rendering.inFrame (loopFrame item x k n) body
    iterate item body n (k + 1) rest

open Rendering in
mutual

def Node.render (i : Interpreter) : Node → Rendering Unit
  | .text s => write s
  | .output p => do
    let v ← evaluating fun ctx => p.eval i ctx
    print v
  | .conditional negate branches otherwise =>
    renderBranches i negate branches (renderNodes i otherwise)
  | .loop header body otherwise => do
    let v ← evaluating fun ctx => header.collection.eval i ctx
    let items := iterationItems v
    let items := if header.reversed then items.reverse else items
    if items.isEmpty then renderNodes i otherwise
    else iterate header.item (renderNodes i body) items.length 0 items
  | .assign name p => do
    let v ← evaluating fun ctx => p.eval i ctx
    assign name v
  | .capture name body => do
    let s ← capturing (renderNodes i body)
    assign name (.text s)
  | .literal s => write s
  | .custom _ actions => performActions i actions

def renderNodes (i : Interpreter) : List Node → Rendering Unit
  | [] => pure ()
  | n :: rest => do
    n.render i
    renderNodes i rest

/-- The body of the first branch whose condition holds, else `otherwise`. -/
def renderBranches (i : Interpreter) (negate : Bool) :
    List Branch → Rendering Unit → Rendering Unit
  | [], otherwise => otherwise
  | .mk condition body :: rest, otherwise => do
    let v ← evaluating fun ctx => condition.eval i ctx
    if v.truthy != negate then renderNodes i body
    else renderBranches i negate rest otherwise

def Action.perform (i : Interpreter) : Action → Rendering Unit
  | .write s => write s
  | .pause => .pause
  | .fetch name => do
    match ← evaluating fun ctx => Interpreter.ask ctx name with
    | none => pure ()
    | some r =>
      let v ← evaluating fun _ => i.settle r (.tag ("fetch " ++ name))
      print v
  | .scoped bindings body => inFrame bindings (renderNodes i body)

def performActions (i : Interpreter) : List Action → Rendering Unit
  | [] => pure ()
  | a :: rest => do
    a.perform i
    performActions i rest

end

/-- The result of a render, with the context that it leaves and its events in order. -/
structure Rendered where
  result : Except Error String
  context : Context
  history : List Event

def Rendered.ofEnding (r : Ending Error RenderState Unit) : Rendered where
  result := r.outcome.map fun _ => r.state.output
  context := r.state.context
  history := r.state.history.reverse

@[simp] theorem Rendered.history_ofEnding (r : Ending Error RenderState Unit) :
    (Rendered.ofEnding r).history = r.state.history.reverse := rfl

/-- Renders a template. A synchronous run that waits by itself is an error. -/
def Template.render (i : Interpreter) (t : Template) (ctx : Context) : Rendered :=
  .ofEnding (i.mode.drive (renderNodes i t.nodes { context := ctx, output := "", history := [] }))

end Stencil
