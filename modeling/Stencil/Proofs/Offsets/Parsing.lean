import Stencil.Proofs.Markup.Literals
import Stencil.Proofs.Markup.Steps
import Stencil.Proofs.Offsets.Lexing
import Stencil.Proofs.Offsets.Operations
import Stencil.Proofs.Offsets.Pipelines

/-!
# Parsing at byte offsets

The tree of nodes, built from the lexemes that `lexAt` cuts out: its outputs and arguments are read by
cursors, and its faults are placed by cuts of the source. `nodesWithin_agrees` says that it is not
stuck and builds the nodes of the tree over characters; the offsets of its faults are those of tags,
which stand in the source.
-/

namespace Stencil

/-- Reads from the lexemes that are left, and cuts texts. -/
abbrev Assembly := Slicing (List Lexeme)

namespace Markup.Offsets

open Slicing (stuck)

variable (m : Markup)

def fault {α : Type} (offset : Nat) (message : String) : Assembly α := faultAt m.source offset message

def next? : Assembly (Option Lexeme) := do
  match ← get with
  | [] => return none
  | l :: rest =>
    set rest
    return some l

/-- Takes the next lexeme if it is a text. -/
def text? : Assembly (Option String) := do
  match ← get with
  | .text t :: rest =>
    set rest
    return some t
  | _ => return none

def neverClosed {α : Type} (opening : TagToken) : Assembly α :=
  fault m opening.offset ("tag '" ++ opening.name ++ "' was never closed")

def skipBlock (opening : TagToken) (name : String) : Assembly Unit := do
  match skipTo name (← get) with
  | some rest => set rest
  | none =>
    set ([] : List Lexeme)
    neverClosed m opening

def pipeline (text : List Char) : Assembly Pipeline := Slicing.lift (Cursor.readIn Cursor.pipeline text)

def condition (t : TagToken) : Assembly Pipeline := do
  if t.args.isEmpty then fault m t.offset ("'" ++ t.name ++ "' requires a condition")
  pipeline t.args.toList

def variableName (text : List Char) : Assembly (Option String) :=
  Slicing.lift (Cursor.readIn Cursor.onlyName (Text.trim text))

section
variable (untilTag : List String → Assembly (List Node × Option TagToken))

/-- The body of the block that `opening` opens, up to a tag with one of the names. -/
def block (opening : TagToken) (ends : List String) : Assembly (List Node × TagToken) := do
  match ← untilTag ends with
  | (nodes, some tag) => return (nodes, tag)
  | (_, none) => neverClosed m opening

/-- The branches from a condition on, fewer than `n` of them, and the last body. -/
def branches (opening : TagToken) (negate : Bool) (first : Pipeline) :
    Nat → Assembly (List Branch × List Node)
  | 0 => stuck
  | n + 1 => do
    let close := if negate then "endunless" else "endif"
    let ends := if negate then ["else", close] else ["elsif", "else", close]
    let (body, tag) ← block m untilTag opening ends
    if tag.name = "elsif" then
      let next ← condition m tag
      let (rest, otherwise) ← branches opening negate next n
      return (.mk first body :: rest, otherwise)
    else if tag.name = "else" then
      let (otherwise, _) ← block m untilTag opening [close]
      return ([.mk first body], otherwise)
    else return ([.mk first body], [])

/-- The node of a tag, which takes its body from the lexemes that follow. -/
def tagNode (t : TagToken) : TagRule → Assembly Node
  | .assign => do
    match splitAt? '=' t.args.toList with
    | none => fault m t.offset "expected 'assign name = value'"
    | some (name, value) =>
      match ← variableName name with
      | none => fault m t.offset "invalid variable name in 'assign'"
      | some name => return .assign name (← pipeline value)
  | .capture => do
    match ← variableName t.args.toList with
    | none => fault m t.offset "invalid variable name in 'capture'"
    | some name => return .capture name (← block m untilTag t ["endcapture"]).1
  | .conditional negate => do
    let first ← condition m t
    let (branches, otherwise) ← branches m untilTag t negate first ((← get).length + 1)
    return .conditional negate branches otherwise
  | .loop => do
    let faultOf := Error.markupAt? m.source t.offset
    let header ← Slicing.lift (Cursor.readIn (Cursor.loopHeader faultOf) t.args.toList)
    let (body, tag) ← block m untilTag t ["else", "endfor"]
    if tag.name = "else" then return .loop header body (← block m untilTag t ["endfor"]).1
    else return .loop header body []
  | .comment => do
    skipBlock m t "endcomment"
    return .literal ""
  | .raw => do
    let text ← text?
    let _ ← block m untilTag t ["endraw"]
    return .literal (text.getD "")
  | .custom tag => do
    match tag.closing with
    | none => return .custom tag.typeName (tag.actions t.args [])
    | some name =>
      let (body, _) ← block m untilTag t [name]
      return .custom tag.typeName (tag.actions t.args body)

end

/-- Nodes up to a tag with one of the names, in fewer than `n` steps. -/
def nodesWithin : Nat → List String → Assembly (List Node × Option TagToken)
  | 0, _ => stuck
  | n + 1, ends => do
    let more (node : Node) : Assembly (List Node × Option TagToken) := do
      let (nodes, tag) ← nodesWithin n ends
      return (node :: nodes, tag)
    match ← next? with
    | none => return ([], none)
    | some (.text s) => more (.text s)
    | some (.output s _) =>
      if s.toList.all Text.isBlank then nodesWithin n ends
      else more (.output (← pipeline s.toList))
    | some (.tag t) =>
      if t.name ∈ ends then return ([], some t)
      else
        match m.tags.lookup t.name with
        | some rule => more (← tagNode m (nodesWithin n) t rule)
        | none =>
          if branchesOrEnds t.name then fault m t.offset ("unexpected '" ++ t.name ++ "'")
          else fault m t.offset ("unknown tag '" ++ t.name ++ "'")

end Markup.Offsets

/-- Compiles template markup by cuts at byte offsets; nothing if it is stuck. -/
def Template.parseAt? (tags : TagTable) (source : String) : Option (Except Error Template) := do
  match ← Markup.lexAt source () with
  | (.error e, _) => return .error e
  | (.ok lexemes, _) =>
    let (r, _) ← Markup.Offsets.nodesWithin ⟨source, tags⟩ (lexemes.length + 1) [] lexemes
    return r.map fun (nodes, _) => { name := none, nodes }

/-- A tag stands where a character starts. -/
theorem Markup.Stands.offset {source : List Char} {t : TagToken} (h : Stands source (.tag t)) :
    ∃ before rest, source = before ++ rest ∧ Text.byteLength before = t.offset := by
  rcases h with ⟨s, e⟩ | ⟨inner, h⟩
  · cases e
  · cases h with
    | tag hd =>
      obtain ⟨before, rest, e, hp⟩ := hd.opens
      exact ⟨before, _, e.trans (List.append_assoc ..), hp⟩

namespace Markup.Offsets

open Slicing (Follows bind_ok)

/-! ## Agreement with the tree over characters -/

/-- From fewer than `n` lexemes of the source the assembly ends as the builder does. -/
def Agrees {α : Type} (source : String) (n : Nat) (w : Assembly α) (b : Build α) : Prop :=
  ∀ s, (∀ l ∈ s, Stands source.toList l) → s.length < n → Follows id w b s

section
variable {α β : Type} {source : String} {n : Nat} {w : Assembly α} {b : Build α}
  {f : α → Assembly β} {g : α → Build β} {Q : α → Prop}

namespace Agrees

theorem pure (a : α) : Agrees source n (pure a) (pure a) := fun _ _ _ => .pure a

theorem bind (h : Agrees source n w b) (hb : Obeys (overSource source) b Q)
    (hf : ∀ a, Q a → Agrees source n (f a) (g a)) : Agrees source n (w >>= f) (b >>= g) := by
  intro s hs hn
  refine (h s hs hn).bind fun a s' hres => ?_
  obtain ⟨hmoves, ha⟩ := hb.of_ok hs hres
  exact hf a ha s' ((overSource source).good hs hmoves) (Nat.lt_of_le_of_lt hmoves.length_le hn)

end Agrees

theorem fault_agrees {m : Markup} {t : TagToken} {message : String}
    (ht : Stands m.source.toList (.tag t)) :
    Agrees m.source n (fault m t.offset message : Assembly α) (m.fault t.offset message) := by
  intro s _ _
  obtain ⟨before, rest, e, hp⟩ := ht.offset
  rw [Follows, fault, ← hp, faultAt_eq e]
  rfl

/-- What follows a fault does not matter. -/
theorem fault_bind {m : Markup} {t : TagToken} {message : String} {f : α → Assembly β}
    {g : α → Build β} (ht : Stands m.source.toList (.tag t)) :
    Agrees m.source n (fault m t.offset message >>= f) (m.fault t.offset message >>= g) :=
  (fault_agrees ht).bind (Q := fun _ => False) (fault_overSource ht) fun _ h => h.elim

theorem next_agrees : Agrees source n next? Markup.next? := by
  intro s _ _
  cases s <;> rfl

theorem text_agrees : Agrees source n text? Markup.text? := by
  intro s _ _
  match s with
  | [] | .text _ :: _ | .output _ _ :: _ | .tag _ :: _ => rfl

theorem lift_agrees {r : Option (Except Error α)} {r' : Except Error α} (h : r = some r') :
    Agrees source n (Slicing.lift r) (Markup.lift r') := by
  subst h
  intro s _ _
  cases r' <;> rfl

theorem lift_bind {r : Option (Except Error α)} {r' : Except Error α} (h : r = some r')
    (hf : ∀ a, Agrees source n (f a) (g a)) :
    Agrees source n (Slicing.lift r >>= f) (Markup.lift r' >>= g) := by
  intro s hs hn
  refine (lift_agrees h s hs hn).bind fun a s' hres => ?_
  obtain ⟨-, rfl⟩ := lift_eq_ok_iff.1 hres
  exact hf a s' hs hn

theorem variableName_bind {text : List Char} {f : Option String → Assembly β} {b : Build β}
    (h : Agrees source n (f (variableName? text)) b) :
    Agrees source n (variableName text >>= f) b := by
  intro s hs hn
  have hname : variableName text s = some (.ok (variableName? text), s) := by
    rw [variableName, variableName_eq]
    rfl
  rw [Follows]
  exact (bind_ok hname).trans (h s hs hn)

theorem skipBlock_agrees {m : Markup} {t : TagToken} {name : String}
    (ht : Stands m.source.toList (.tag t)) :
    Agrees m.source n (skipBlock m t name) (m.skipBlock t name) := by
  intro s hs hn
  unfold Follows skipBlock Markup.skipBlock
  rw [Slicing.get_bind, id_eq]
  cases Markup.skipTo name s with
  | some rest => rfl
  | none => exact fault_agrees (n := n) ht [] (fun _ hl => nomatch hl) (Nat.zero_lt_of_lt hn)

theorem condition_agrees {m : Markup} {t : TagToken} (ht : Stands m.source.toList (.tag t)) :
    Agrees m.source n (condition m t) (m.condition t) := by
  unfold condition Markup.condition
  split
  · exact fault_bind ht
  · exact lift_agrees (pipeline_eq _)

end

/-! ## Blocks -/

/-- A body ends with a tag, which is taken. -/
def Shrinks (source : String) (untilTag : List String → Build (List Node × Option TagToken)) : Prop :=
  ∀ ends s nodes t s', (∀ l ∈ s, Stands source.toList l) →
    untilTag ends s = .ok (nodes, some t) s' → s'.length < s.length

section
variable {α : Type} {m : Markup} {n : Nat} {t opening : TagToken}
  {untilTag : List String → Assembly (List Node × Option TagToken)}
  {untilTag' : List String → Build (List Node × Option TagToken)}
  (hu : ∀ ends, Agrees m.source n (untilTag ends) (untilTag' ends))
  (ho : ∀ ends, Obeys (overSource m.source) (untilTag' ends) (EndStands m.source))
include hu ho

theorem block_agrees (ht : Stands m.source.toList (.tag opening)) (ends : List String) :
    Agrees m.source n (block m untilTag opening ends) (m.block untilTag' opening ends) := by
  refine (hu ends).bind (ho ends) fun r _ => ?_
  obtain ⟨nodes, tag⟩ := r
  cases tag with
  | some tag => exact .pure (nodes, tag)
  | none => exact fault_agrees ht

/-- A branch takes the tag that ends it, so `k` stands for the lexemes and for the steps. -/
theorem branches_agrees (hlt : Shrinks m.source untilTag') (ht : Stands m.source.toList (.tag opening))
    (negate : Bool) (first : Pipeline) {k : Nat} (hk : k ≤ n) :
    Agrees m.source k (branches m untilTag opening negate first k)
      (m.branches untilTag' opening negate first k) := by
  induction k generalizing first with
  | zero => exact fun s _ h => absurd h (Nat.not_lt_zero _)
  | succ k ih =>
    have last (names : List String) : Agrees m.source k (block m untilTag opening names)
        (m.block untilTag' opening names) :=
      fun s hs h => block_agrees hu ho ht names s hs (Nat.lt_trans h hk)
    rw [branches, Markup.branches]
    intro s hs hn
    refine (block_agrees hu ho ht _ s hs (Nat.lt_of_lt_of_le hn hk)).bind fun r s₁ hr => ?_
    obtain ⟨body, tag⟩ := r
    have hshort : s₁.length < k := by
      have := hlt _ s body tag s₁ hs (block_eq_ok_iff.1 hr)
      omega
    obtain ⟨hmoves, htag⟩ := (block_overSource ho ht _).of_ok hs hr
    have hs₁ := (overSource m.source).good hs hmoves
    dsimp only
    split
    · refine Agrees.bind (condition_agrees htag) (condition_overSource htag) (fun next _ => ?_)
        s₁ hs₁ hshort
      exact (ih next (Nat.le_of_succ_le hk)).bind (branches_overSource ho ht _ _ _) fun _ _ => .pure _
    · split
      · exact (last _).bind (block_overSource ho ht _) (fun _ _ => .pure _) s₁ hs₁ hshort
      · exact .pure _

theorem tagNode_agrees (hlt : Shrinks m.source untilTag') (ht : Stands m.source.toList (.tag t))
    (rule : TagRule) : Agrees m.source n (tagNode m untilTag t rule) (m.tagNode untilTag' t rule) := by
  have ends (names : List String) := block_agrees hu ho ht names
  have hblock (names : List String) := block_overSource ho ht names
  cases rule with
  | assign =>
    rw [tagNode, Markup.tagNode]
    cases splitAt? '=' t.args.toList with
    | none => exact fault_agrees ht
    | some p =>
      obtain ⟨name, value⟩ := p
      refine variableName_bind ?_
      dsimp only
      cases variableName? name with
      | none => exact fault_agrees ht
      | some name => exact lift_bind (pipeline_eq value) fun _ => .pure _
  | capture =>
    rw [tagNode, Markup.tagNode]
    refine variableName_bind ?_
    cases variableName? t.args.toList with
    | none => exact fault_agrees ht
    | some name => exact (ends _).bind (hblock _) fun _ _ => .pure _
  | conditional negate =>
    rw [tagNode, Markup.tagNode]
    refine (condition_agrees ht).bind (condition_overSource ht) fun first _ => ?_
    intro s hs hn
    rw [Follows, id_eq, Slicing.get_bind, bind_of_ok (rfl : (get : Build _) s = .ok s s)]
    have hb := branches_agrees hu ho hlt ht negate first hn
    exact hb.bind (branches_overSource ho ht _ _ _) (fun _ _ => .pure _) s hs (Nat.lt_succ_self _)
  | loop =>
    rw [tagNode, Markup.tagNode]
    have hfault (message : String) : Error.markupAt? m.source t.offset message =
        some (.markupAt m.source t.offset message) := by
      obtain ⟨before, rest, e, hp⟩ := ht.offset
      rw [← hp]
      exact Error.markupAt?_eq e message
    have hheader := loopHeader_mirrors (n := t.args.toList.length + 1) hfault
    refine lift_bind (readIn_eq (hheader.follows _ (Scanner.valid_ofChars _) (Nat.lt_succ_self _))) fun header => ?_
    refine (ends _).bind (hblock _) fun r _ => ?_
    obtain ⟨body, tag⟩ := r
    dsimp only
    split
    · exact (ends _).bind (hblock _) fun _ _ => .pure _
    · exact .pure _
  | comment =>
    rw [tagNode, Markup.tagNode]
    exact (skipBlock_agrees ht).bind (skipBlock_overSource ht) fun _ _ => .pure _
  | raw =>
    rw [tagNode, Markup.tagNode]
    refine text_agrees.bind text_overSource fun text _ => ?_
    exact (ends _).bind (hblock _) fun _ _ => .pure _
  | custom tag =>
    rw [tagNode, Markup.tagNode]
    cases tag.closing with
    | none => exact .pure _
    | some name => exact (ends _).bind (hblock _) fun _ _ => .pure _

end

/-! ## The tree -/

section
variable {m : Markup}

theorem nodesWithin_shrinks (n : Nat) : Shrinks m.source (m.nodesWithin n) := by
  induction n with
  | zero => exact fun _ _ _ _ _ _ h => nomatch h
  | succ n ih =>
    intro ends s nodes t s' hs h
    cases s with
    | nil =>
      rw [nodesWithin_nil] at h
      cases h
    | cons l rest =>
      have hrest : ∀ l' ∈ rest, Stands m.source.toList l' :=
        fun l' hl => hs l' (List.mem_cons_of_mem l hl)
      have later {nodes : List Node} (hn : m.nodesWithin n ends rest = .ok (nodes, some t) s') :
          s'.length < rest.length + 1 :=
        Nat.lt_succ_of_lt (ih ends rest nodes t s' hrest hn)
      cases l with
      | text text =>
        obtain ⟨nodes, hn, -⟩ := nodesWithin_text_iff.1 h
        exact later hn
      | output text offset =>
        cases hb : text.toList.all Text.isBlank with
        | true =>
          rw [nodesWithin_blank hb] at h
          exact later h
        | false =>
          obtain ⟨p, nodes, -, hn, -⟩ := (nodesWithin_output_iff hb).1 h
          exact later hn
      | tag opening =>
        by_cases he : opening.name ∈ ends
        · rw [nodesWithin_end he] at h
          cases h
          exact Nat.lt_succ_self _
        · obtain ⟨rule, node, s₁, nodes, -, ht, hn, -⟩ := (nodesWithin_tag_iff he).1 h
          have ho := tagNode_overSource (nodesWithin_overSource n) (hs _ List.mem_cons_self) rule
          obtain ⟨hmoves, -⟩ := ho.of_ok hrest ht
          have hs₁ := (overSource m.source).good hrest hmoves
          have hlt := ih ends s₁ nodes t s' hs₁ hn
          exact Nat.lt_succ_of_lt (Nat.lt_of_lt_of_le hlt hmoves.length_le)

theorem nodesWithin_agrees (n : Nat) (ends : List String) :
    Agrees m.source n (nodesWithin m n ends) (m.nodesWithin n ends) := by
  induction n generalizing ends with
  | zero => exact fun s _ h => absurd h (Nat.not_lt_zero _)
  | succ n ih =>
    have more (node : Node) : Agrees m.source n
        (nodesWithin m n ends >>= fun r => pure (node :: r.1, r.2))
        (m.nodesWithin n ends >>= fun r => pure (node :: r.1, r.2)) :=
      (ih ends).bind (nodesWithin_overSource n ends) fun _ _ => .pure _
    intro s hs hn
    rw [nodesWithin, Markup.nodesWithin]
    refine (next_agrees s hs hn).bind fun next rest hnext => ?_
    cases s with
    | nil =>
      cases hnext
      exact .pure _
    | cons l rest =>
      cases hnext
      have hrest : ∀ l' ∈ rest, Stands m.source.toList l' :=
        fun l' hl => hs l' (List.mem_cons_of_mem l hl)
      have hlt : rest.length < n := Nat.lt_of_succ_lt_succ hn
      have hl : Stands m.source.toList l := hs l List.mem_cons_self
      cases l with
      | text text => exact more (.text text) rest hrest hlt
      | output text offset =>
        dsimp only
        split
        · exact ih ends rest hrest hlt
        · exact lift_bind (pipeline_eq _) (fun p => more (.output p)) rest hrest hlt
      | tag t =>
        dsimp only
        split
        · exact .pure _
        · cases m.tags.lookup t.name with
          | some rule =>
            have ho := nodesWithin_overSource (m := m) n
            have node := tagNode_agrees ih ho (nodesWithin_shrinks n) hl rule
            exact node.bind (tagNode_overSource ho hl rule) (fun node _ => more node) rest hrest hlt
          | none =>
            dsimp only
            split
            · exact fault_agrees hl rest hrest hlt
            · exact fault_agrees hl rest hrest hlt

end

end Markup.Offsets

theorem Template.parseAt?_eq (tags : TagTable) (source : String) :
    Template.parseAt? tags source = some (Template.parse tags source) := by
  unfold Template.parseAt?
  rw [Markup.lexAt_eq]
  cases hl : Markup.lex source with
  | error e =>
    unfold Template.parse
    rw [hl]
    rfl
  | ok lexemes =>
    have hn : Markup.Offsets.nodesWithin ⟨source, tags⟩ (lexemes.length + 1) [] lexemes =
        some (seen id (Markup.nodesUntil ⟨source, tags⟩ [] lexemes)) :=
      Markup.Offsets.nodesWithin_agrees _ [] lexemes (Markup.lex_stands hl) (Nat.lt_succ_self _)
    dsimp only [Option.bind_eq_bind, Option.bind_some]
    rw [hn]
    cases hb : Markup.nodesUntil ⟨source, tags⟩ [] lexemes with
    | ok r rest =>
      rw [Template.parse_of_nodes hl hb]
      rfl
    | error e rest =>
      rw [Template.parse_of_fault hl hb]
      rfl

/-- A cut gives a text exactly between boundaries in their order, and compiling meets no cut that gives
none. After any operations, those that fail too, scanner and cursor stand at a boundary. -/
theorem Template.parse_cuts_at_boundaries (tags : TagTable) (source : String) (input : List Char)
    (ops : List Operation) :
    (∀ text i j,
      (Text.slice? text i j).isSome ↔ i ≤ j ∧ Text.Boundary text i ∧ Text.Boundary text j) ∧
    Template.parseAt? tags source = some (Template.parse tags source) ∧
    ∃ places, Scanner.device.run? (Scanner.ofChars input) [] ops = some places ∧
      Cursor.device.run? (Cursor.ofChars input) [] ops = some (places.map Scanner.cursor) ∧
      ∀ s ∈ places, Text.Boundary input s.pos := by
  refine ⟨fun _ _ _ => Text.slice?_isSome_iff, Template.parseAt?_eq tags source, ?_⟩
  have hstart : (Scanner.ofChars input).IsIn input := ⟨Scanner.valid_ofChars input, rfl⟩
  obtain ⟨places, hscan, hcursor, hplaces⟩ := hstart.run (List.forall_mem_nil _) ops
  exact ⟨places, hscan, hcursor, fun s hs => (hplaces s hs).boundary⟩

end Stencil
