import Stencil.Markup.Lexeme
import Stencil.Markup.TagTable

/-!
# From lexemes to nodes

A `Build` reads nodes off a list of lexemes. `nodesUntil` reads up to a tag with one of the given
names, which it takes, or to the end; a block tag reads its body with it. Blocks nest, and every
nesting takes a lexeme, so the recursion is bounded by the number of lexemes.
-/

namespace Stencil

/-- Reads from the lexemes that are left, also when it fails. -/
abbrev Build := EStateM Error (List Lexeme)

/-- The source, for the places of faults, and the tags that it may use. -/
structure Markup where
  source : String
  tags : TagTable

namespace Markup

variable (m : Markup)

def fault {α : Type} (offset : Nat) (message : String) : Build α :=
  throw (.markupAt m.source offset message)

def lift {α : Type} (r : Except Error α) : Build α := fun s =>
  match r with
  | .ok a => .ok a s
  | .error e => .error e s

def next? : Build (Option Lexeme) := fun s =>
  match s with
  | [] => .ok none []
  | l :: rest => .ok (some l) rest

/-- Takes the next lexeme if it is a text. -/
def text? : Build (Option String) := fun s =>
  match s with
  | .text t :: rest => .ok (some t) rest
  | s => .ok none s

def neverClosed {α : Type} (opening : TagToken) : Build α :=
  m.fault opening.offset ("tag '" ++ opening.name ++ "' was never closed")

/-- Names that only branch or end a block. -/
def branchesOrEnds (name : String) : Bool :=
  ['e', 'n', 'd'].isPrefixOf name.toList || name == "else" || name == "elsif"

/-- Skips up to and including the tag of a name. -/
def skipTo (name : String) : List Lexeme → Option (List Lexeme)
  | [] => none
  | .tag t :: rest => if t.name = name then some rest else skipTo name rest
  | _ :: rest => skipTo name rest

def skipBlock (opening : TagToken) (name : String) : Build Unit := fun s =>
  match skipTo name s with
  | some rest => .ok () rest
  | none => m.neverClosed opening []

/-- Exactly one name, blanks around it aside. -/
def variableName? (s : List Char) : Option String :=
  match Scanner.splitName (Text.trim s) with
  | some (name, []) => some (String.ofList name)
  | _ => none

/-- The text before and after the first `c`. -/
def splitAt? (c : Char) (s : List Char) : Option (List Char × List Char) :=
  match s.dropWhile (· != c) with
  | [] => none
  | _ :: rest => some (s.takeWhile (· != c), rest)

def condition (t : TagToken) : Build Pipeline := do
  if t.args.isEmpty then m.fault t.offset ("'" ++ t.name ++ "' requires a condition")
  lift (Pipeline.parse t.args)

/-- The words after a loop's collection, at most `n` of them. -/
def loopFlags (faultOf : String → Error) (reversed : Bool) : Nat → Scan Bool
  | 0 => pure reversed
  | n + 1 => do
    Scanner.skipBlanks
    match ← Scanner.name? with
    | some word =>
      if word = "reversed" then loopFlags faultOf true n
      else do
        let rest := (← get).rest
        throw (faultOf ("unexpected '" ++ String.ofList (Text.trim rest) ++ "' in 'for'"))
    | none =>
      if ← Scanner.atEnd then return reversed
      else
        let rest := (← get).rest
        throw (faultOf ("unexpected '" ++ String.ofList (Text.trim rest) ++ "' in 'for'"))

/-- `item in collection`, and then possibly `reversed`. -/
def loopHeader (faultOf : String → Error) : Scan LoopHeader := do
  let some item ← Scanner.name? | throw (faultOf "expected 'for item in collection'")
  Scanner.skipBlanks
  unless (← Scanner.name?) == some "in" do throw (faultOf "expected 'in' after the loop variable")
  Scanner.skipBlanks
  let some t ← Scanner.value? | throw (faultOf "expected a collection after 'in'")
  let collection ← Scanner.lift (Expression.ofToken t)
  let reversed ← loopFlags faultOf false ((← get).rest.length + 1)
  return { item, collection, reversed }

section
variable (untilTag : List String → Build (List Node × Option TagToken))

/-- The body of the block that `opening` opens, up to a tag with one of the names. -/
def block (opening : TagToken) (ends : List String) : Build (List Node × TagToken) := do
  match ← untilTag ends with
  | (nodes, some tag) => return (nodes, tag)
  | (_, none) => m.neverClosed opening

/-- The branches from a condition on, at most `n` of them, and the last body. -/
def branches (opening : TagToken) (negate : Bool) (condition : Pipeline) :
    Nat → Build (List Branch × List Node)
  | 0 => return ([], [])
  | n + 1 => do
    let close := if negate then "endunless" else "endif"
    let ends := if negate then ["else", close] else ["elsif", "else", close]
    let (body, tag) ← m.block untilTag opening ends
    if tag.name = "elsif" then
      let next ← m.condition tag
      let (rest, otherwise) ← branches opening negate next n
      return (.mk condition body :: rest, otherwise)
    else if tag.name = "else" then
      let (otherwise, _) ← m.block untilTag opening [close]
      return ([.mk condition body], otherwise)
    else return ([.mk condition body], [])

/-- The node of a tag, which takes its body from the lexemes that follow. -/
def tagNode (t : TagToken) : TagRule → Build Node
  | .assign => do
    match splitAt? '=' t.args.toList with
    | none => m.fault t.offset "expected 'assign name = value'"
    | some (name, value) =>
      match variableName? name with
      | none => m.fault t.offset "invalid variable name in 'assign'"
      | some name => return .assign name (← lift (Pipeline.ofChars value))
  | .capture => do
    match variableName? t.args.toList with
    | none => m.fault t.offset "invalid variable name in 'capture'"
    | some name => return .capture name (← m.block untilTag t ["endcapture"]).1
  | .conditional negate => do
    let first ← m.condition t
    let (branches, otherwise) ← m.branches untilTag t negate first ((← get).length + 1)
    return .conditional negate branches otherwise
  | .loop => do
    let header ← lift (Expression.readIn (loopHeader (.markupAt m.source t.offset)) t.args.toList)
    let (body, tag) ← m.block untilTag t ["else", "endfor"]
    if tag.name = "else" then return .loop header body (← m.block untilTag t ["endfor"]).1
    else return .loop header body []
  | .comment => do
    m.skipBlock t "endcomment"
    return .literal ""
  | .raw => do
    let text ← text?
    let _ ← m.block untilTag t ["endraw"]
    return .literal (text.getD "")
  | .custom tag => do
    match tag.closing with
    | none => return .custom tag.typeName (tag.actions t.args [])
    | some name =>
      let (body, _) ← m.block untilTag t [name]
      return .custom tag.typeName (tag.actions t.args body)

end

/-- Nodes up to a tag with one of the names, in at most `n` steps. -/
def nodesWithin : Nat → List String → Build (List Node × Option TagToken)
  | 0, _ => return ([], none)
  | n + 1, ends => do
    let more (node : Node) : Build (List Node × Option TagToken) := do
      let (nodes, tag) ← nodesWithin n ends
      return (node :: nodes, tag)
    match ← next? with
    | none => return ([], none)
    | some (.text s) => more (.text s)
    | some (.output s _) =>
      if s.toList.all Text.isBlank then nodesWithin n ends
      else more (.output (← lift (Pipeline.parse s)))
    | some (.tag t) =>
      if t.name ∈ ends then return ([], some t)
      else
        match m.tags.lookup t.name with
        | some rule => more (← m.tagNode (nodesWithin n) t rule)
        | none =>
          if branchesOrEnds t.name then m.fault t.offset ("unexpected '" ++ t.name ++ "'")
          else m.fault t.offset ("unknown tag '" ++ t.name ++ "'")

/-- Nodes up to a tag with one of the names, and that tag; without one, up to the end. -/
def nodesUntil (ends : List String) : Build (List Node × Option TagToken) := fun s =>
  m.nodesWithin (s.length + 1) ends s

/-- The body of a block up to a tag with one of the names. -/
def bodyUntil (opening : TagToken) (ends : List String) : Build (List Node × TagToken) :=
  m.block m.nodesUntil opening ends

end Markup

/-- Compiles template markup. -/
def Template.parse (tags : TagTable) (source : String) : Except Error Template := do
  let lexemes ← Markup.lex source
  match Markup.nodesUntil { source, tags } [] lexemes with
  | .ok (nodes, _) _ => return { name := none, nodes }
  | .error e _ => throw e

section
variable {tags : TagTable} {source : String} {lexemes rest : List Lexeme}

theorem Template.parse_of_nodes {r : List Node × Option TagToken}
    (hl : Markup.lex source = .ok lexemes)
    (hn : Markup.nodesUntil ⟨source, tags⟩ [] lexemes = .ok r rest) :
    Template.parse tags source = .ok ⟨none, r.1⟩ := by
  unfold Template.parse
  rw [hl]
  dsimp only [bind, Except.bind]
  rw [hn]
  rfl

theorem Template.parse_of_fault {e : Error} (hl : Markup.lex source = .ok lexemes)
    (hn : Markup.nodesUntil ⟨source, tags⟩ [] lexemes = .error e rest) :
    Template.parse tags source = .error e := by
  unfold Template.parse
  rw [hl]
  dsimp only [bind, Except.bind]
  rw [hn]
  rfl

end

end Stencil
