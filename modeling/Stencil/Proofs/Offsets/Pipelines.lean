import Stencil.Markup.Tree
import Stencil.Proofs.Offsets.Expressions

/-!
# Pipelines and loop headers at byte offsets

The readers of pipelines, of loop headers and of variable names with a cursor in place of the scanner.
Each mirrors the scanner's reader; its loop takes a character in every step, so a bound by the length of
the text is enough.
-/

namespace Stencil

namespace Cursor

open Slicing (stuck cut lift)

/-! ## Pipelines -/

/-- A reader that goes back to its offset if it finds nothing. -/
def attempt {α : Type} (reader : Walk (Option α)) : Walk (Option α) := do
  let start ← offset
  match ← reader with
  | some a => return some a
  | none =>
    reset start
    return none

/-- A name and a colon after it, or nothing. -/
def key? : Walk (Option String) := attempt do
  let some k ← name? | return none
  skipBlanks
  if ← eat ':' then return some k else return none

/-- The arguments that are left, fewer than `n` of them. -/
def argumentsOf : Nat → Walk (List Argument)
  | 0 => stuck
  | n + 1 => do
    skipBlanks
    let next ← peek
    if next = none then return []
    else if next = some ':' then fail "named argument with empty key"
    else if next = some ',' then fail "empty argument"
    else
      let key ← key?
      skipBlanks
      match ← value? with
      | none =>
        match key with
        | some k => fail ("named argument '" ++ k ++ "' has no value")
        | none =>
          let left ← rest
          fail ("unexpected '" ++ String.ofList (Text.trim left) ++ "'")
      | some t =>
        let value ← lift (ofToken t)
        if (← skipTo [',']).isNone then return [{ key, value }]
        let _ ← eat ','
        return { key, value } :: (← argumentsOf n)

/-- A filter's name, then a colon or a comma and its arguments if it has any. -/
def invocation : Walk Invocation := do
  skipBlanks
  let some name ← name? | fail "missing filter name"
  skipBlanks
  if ← atEnd then return { name, arguments := [] }
  unless ← eat ':' do
    unless ← eat ',' do
      fail ("expected ':' after filter name '" ++ name ++ "'")
  return { name, arguments := ← argumentsOf ((← get).input.length + 1) }

/-- The filters that are left, each up to the next bar, fewer than `n` of them. -/
def filtersOf : Nat → Walk (List Invocation)
  | 0 => stuck
  | n + 1 => do
    unless ← eat '|' do return []
    let start ← offset
    let _ ← skipTo ['|']
    let span ← since start
    let filter ← lift (readIn invocation span.toList)
    return filter :: (← filtersOf n)

def leading : Walk Expression := do
  skipBlanks
  let some t ← value? | fail "missing initial value"
  lift (ofToken t)

/-- An initial value and filters; what stands between the value and the first bar is skipped. -/
def pipeline : Walk Pipeline := do
  let initial ← leading
  let _ ← skipTo ['|']
  return { initial, filters := ← filtersOf ((← get).input.length + 1) }

/-! ## Names and loop headers -/

/-- Exactly one name. -/
def onlyName : Walk (Option String) := do
  let some name ← name? | return none
  return if ← atEnd then some name else none

section
variable (faultOf : String → Option Error)

def fault {α : Type} (message : String) : Walk α := do throw (← cut (faultOf message))

/-- The words after a loop's collection, fewer than `n` of them. -/
def loopFlags (reversed : Bool) : Nat → Walk Bool
  | 0 => stuck
  | n + 1 => do
    skipBlanks
    match ← name? with
    | some word =>
      if word = "reversed" then loopFlags true n
      else do
        let left ← rest
        fault faultOf ("unexpected '" ++ String.ofList (Text.trim left) ++ "' in 'for'")
    | none =>
      if ← atEnd then return reversed
      else
        let left ← rest
        fault faultOf ("unexpected '" ++ String.ofList (Text.trim left) ++ "' in 'for'")

/-- `item in collection`, and then possibly `reversed`. -/
def loopHeader : Walk LoopHeader := do
  let some item ← name? | fault faultOf "expected 'for item in collection'"
  skipBlanks
  unless (← name?) == some "in" do fault faultOf "expected 'in' after the loop variable"
  skipBlanks
  let some t ← value? | fault faultOf "expected a collection after 'in'"
  let collection ← lift (ofToken t)
  let reversed ← loopFlags faultOf false ((← get).input.length + 1)
  return { item, collection, reversed }

end

end Cursor

open Slicing (Follows bind_ok bind_error)
open Scanner (cursor)

/-! ## Pipelines are read -/

section
variable {α β : Type} {n : Nat}

/-- A value takes a character. -/
theorem value_bind_lt {f : Option Token → Walk β} {g : Option Token → Scan β}
    (hnone : Mirrors (n + 1) (f none) (g none))
    (hsome : ∀ t : Token, t.Within (n + 1) → Mirrors n (f (some t)) (g (some t))) :
    Mirrors (n + 1) (Cursor.value? >>= f) (Scanner.value? >>= g) := by
  refine value_mirrors.bind_of fun s o s' hn hv => ?_
  cases o with
  | none =>
    have hr : s.Reaches s' := (value_mirrors (n := n + 1)).reaches hn hv
    exact ⟨n + 1, Nat.lt_of_le_of_lt hr.length_le hn, hnone⟩
  | some t =>
    refine ⟨n, ?_, hsome t (value_within hn hv)⟩
    obtain ⟨e, hr⟩ := Scanner.value_reads _ _ _ hv
    rcases hr.starts with ⟨c, cs, ht, -⟩ | ⟨hp, -⟩
    · rw [e, ht] at hn
      simp at hn
      omega
    · cases hp

theorem rest_bind {f : List Char → Walk β} {g : List Char → Scan β}
    (h : ∀ left, Mirrors n (f left) (g left)) :
    Mirrors n (Cursor.rest >>= f) (get >>= fun s => g s.rest) where
  onward s hn := (h s.rest).onward s hn
  follows s hs hn := by
    rw [Follows, bind_ok (rest_eq hs)]
    exact (h s.rest).follows s hs hn

theorem taking_mirrors {w : Walk Unit} {m : Scan Unit} (h : Mirrors n w m) :
    Mirrors n (do let start ← Cursor.offset; w; Cursor.since start) (Scanner.taking m) where
  onward s hn := by
    have hr := h.onward s hn
    unfold Scanner.taking
    cases hres : m s with
    | ok a s' =>
      rw [hres] at hr
      exact hr
    | error e s' =>
      rw [hres] at hr
      exact hr
  follows s hs hn := by
    rw [Follows, offset_bind]
    exact span_follows hs (h.onward s hn) (h.follows s hs hn)

/-- A loop over what is left, bounded by the whole text or by what is left. -/
theorem bounded_mirrors {f : Nat → Walk β} {g : Nat → Scan β}
    (h : ∀ k i j, k ≤ i → k ≤ j + 1 → Mirrors k (f i) (g j)) :
    Mirrors n (do f ((← get).input.length + 1)) (do g (← get).rest.length) where
  onward s _ :=
    (h (s.rest.length + 1) _ _ (Nat.le_refl _) (Nat.le_refl _)).onward s (Nat.lt_succ_self _)
  follows s hs _ := by
    rw [Follows, Slicing.get_bind, bind_of_ok (rfl : (get : Scan Scanner) s = .ok s s)]
    have hle : s.rest.length + 1 ≤ s.cursor.input.length + 1 := Nat.succ_le_succ hs.length_le
    exact (h _ _ _ hle (Nat.le_refl _)).follows s hs (Nat.lt_succ_self _)

/-- The offset that a reader goes back to is the one it started at. -/
theorem attempt_mirrors {w : Walk (Option α)} {m : Scan (Option α)} (h : Mirrors n w m) :
    Mirrors n (Cursor.attempt w) (Scanner.attempt m) where
  onward s hn := by
    have hr := h.onward s hn
    unfold Scanner.attempt
    split
    · exact .refl s
    · exact hr
  follows s hs hn := by
    have hr := h.onward s hn
    have hf := h.follows s hs hn
    unfold Follows at hf ⊢
    unfold Cursor.attempt Scanner.attempt
    rw [offset_bind]
    cases hres : m s with
    | error e s' =>
      rw [hres] at hf
      rw [bind_error hf]
      rfl
    | ok o s' =>
      rw [hres] at hf hr
      rw [bind_ok hf]
      cases o with
      | some a => rfl
      | none =>
        obtain ⟨chunk, -, hs'⟩ := hr
        have hinput : s'.input = s.input :=
          (congrArg Scanner.input hs' : _ = (s.past chunk _).input)
        change some (Except.ok none, (⟨s'.input, s.pos⟩ : Cursor)) = _
        rw [hinput]
        rfl

theorem key_mirrors : Mirrors n Cursor.key? Invocation.key? := by
  refine attempt_mirrors (name_mirrors.bind fun name => ?_)
  cases name with
  | none => exact .pure none
  | some k =>
  refine skipBlanks_mirrors.bind fun _ => eat_mirrors.bind fun colon => ?_
  split
  · exact .pure _
  · exact .pure none

theorem argumentsOf_mirrors {k i j : Nat} (hi : k ≤ i) (hj : k ≤ j) :
    Mirrors k (Cursor.argumentsOf i) (Invocation.argumentsOf j) := by
  induction k generalizing i j with
  | zero => exact .zero
  | succ k ih =>
    obtain ⟨i, rfl⟩ : ∃ l, i = l + 1 := ⟨i - 1, by omega⟩
    obtain ⟨j, rfl⟩ : ∃ l, j = l + 1 := ⟨j - 1, by omega⟩
    have further := ih (Nat.le_of_succ_le_succ hi) (Nat.le_of_succ_le_succ hj)
    unfold Cursor.argumentsOf Invocation.argumentsOf
    refine skipBlanks_mirrors.bind fun _ => peek_mirrors.bind fun o => ?_
    by_cases hnone : o = none
    · rw [if_pos hnone, hnone]
      exact .pure []
    by_cases hcolon : o = some ':'
    · rw [if_neg hnone, if_pos hcolon, hcolon]
      exact fail_mirrors
    by_cases hcomma : o = some ','
    · rw [if_neg hnone, if_neg hcolon, if_pos hcomma, hcomma]
      exact fail_mirrors
    rw [if_neg hnone, if_neg hcolon, if_neg hcomma]
    split
    · contradiction
    · contradiction
    · contradiction
    · refine key_mirrors.bind fun key => skipBlanks_mirrors.bind fun _ => ?_
      refine value_bind_lt ?_ fun t ht => ?_
      · cases key with
        | some k => exact fail_mirrors
        | none => exact rest_bind fun _ => fail_mirrors
      · refine (lift_mirrors (ofToken_eq ht)).bind fun value => (skipTo_mirrors _).bind fun o => ?_
        split
        · exact .pure _
        · exact eat_mirrors.bind fun _ => further.bind fun _ => .pure _

theorem invocation_mirrors : Mirrors n Cursor.invocation Invocation.reader := by
  have arguments (name : String) : Mirrors n
      (do return ⟨name, ← Cursor.argumentsOf ((← get).input.length + 1)⟩ : Walk Invocation)
      (do return ⟨name, ← Invocation.argumentsOf ((← get).rest.length + 1)⟩) := by
    have h : Mirrors n (do Cursor.argumentsOf ((← get).input.length + 1))
        (do Invocation.argumentsOf ((← get).rest.length + 1)) :=
      bounded_mirrors (g := fun j => Invocation.argumentsOf (j + 1)) fun _ _ _ => argumentsOf_mirrors
    simpa only [bind_assoc] using h.bind fun arguments => .pure (Invocation.mk name arguments)
  unfold Cursor.invocation Invocation.reader
  refine skipBlanks_mirrors.bind fun _ => name_mirrors.bind fun name => ?_
  cases name with
  | none => exact fail_mirrors
  | some name =>
  refine skipBlanks_mirrors.bind fun _ => atEnd_mirrors.bind fun ended => ?_
  split
  · exact .pure _
  refine eat_mirrors.bind fun colon => ?_
  cases colon with
  | true => exact arguments name
  | false =>
  refine eat_mirrors.bind fun comma => ?_
  cases comma with
  | true => exact arguments name
  | false => exact fail_bind

theorem filtersOf_mirrors {k i j : Nat} (hi : k ≤ i) (hj : k ≤ j + 1) :
    Mirrors k (Cursor.filtersOf i) (Pipeline.filtersOf j) := by
  induction k generalizing i j with
  | zero => exact .zero
  | succ k ih =>
    obtain ⟨i, rfl⟩ : ∃ l, i = l + 1 := ⟨i - 1, by omega⟩
    cases j with
    | zero =>
      obtain rfl : k = 0 := by omega
      refine .at_end fun s hs e => ?_
      have missed : Cursor.eat '|' s.cursor = some (.ok false, s.cursor) := by
        have hf : Follows cursor (Cursor.eat '|') (Scanner.eat '|') s :=
          eat_mirrors.follows s hs (Nat.lt_succ_self _)
        rwa [Follows, Scanner.eat, e] at hf
      rw [Cursor.filtersOf, bind_ok missed]
      rfl
    | succ j =>
      have further : Mirrors k (Cursor.filtersOf i) (Pipeline.filtersOf j) :=
        ih (by omega) (by omega)
      have span : Mirrors k
          (do
            let start ← Cursor.offset
            let _ ← Cursor.skipTo ['|']
            Cursor.since start)
          (Scanner.taking do let _ ← Scanner.skipTo ['|']) := by
        have h := taking_mirrors ((skipTo_mirrors ['|'] (n := k)).bind fun _ => .pure ())
        simpa only [bind_assoc, pure_bind] using h
      unfold Cursor.filtersOf Pipeline.filtersOf
      refine eat_bind ?_ ?_
      · rw [if_pos rfl, if_pos rfl]
        have read (text : String) :
            Cursor.readIn Cursor.invocation text.toList = some (Invocation.parse text) :=
          readIn_eq (invocation_mirrors.follows _ (Scanner.valid_ofChars _) (Nat.lt_succ_self _))
        have h := span.bind fun text => (lift_mirrors (read text)).bind fun filter =>
          further.bind fun more => .pure (filter :: more)
        simpa only [bind_assoc] using h
      · exact .pure []

theorem leading_mirrors : Mirrors n Cursor.leading Pipeline.leading := by
  refine skipBlanks_mirrors.bind fun _ => value_bind fail_mirrors fun t ht => ?_
  exact lift_mirrors (ofToken_eq ht)

theorem pipeline_mirrors : Mirrors n Cursor.pipeline Pipeline.reader := by
  have filters (initial : Expression) : Mirrors n
      (do return ⟨initial, ← Cursor.filtersOf ((← get).input.length + 1)⟩ : Walk Pipeline)
      (do return ⟨initial, ← Pipeline.filtersOf (← get).rest.length⟩) := by
    have h : Mirrors n (do Cursor.filtersOf ((← get).input.length + 1))
        (do Pipeline.filtersOf (← get).rest.length) := bounded_mirrors fun _ _ _ => filtersOf_mirrors
    simpa only [bind_assoc] using h.bind fun filters => .pure (Pipeline.mk initial filters)
  exact leading_mirrors.bind fun initial => (skipTo_mirrors _).bind fun _ => filters initial

theorem pipeline_eq (text : List Char) :
    Cursor.readIn Cursor.pipeline text = some (Pipeline.ofChars text) :=
  readIn_eq (pipeline_mirrors.follows _ (Scanner.valid_ofChars text) (Nat.lt_succ_self _))

end

/-! ## Names and loop headers are read -/

theorem variableName_eq (text : List Char) :
    Cursor.readIn Cursor.onlyName (Text.trim text) = some (.ok (Markup.variableName? text)) := by
  have mirrored : Mirrors ((Text.trim text).length + 1) Cursor.onlyName (do
      let some name ← Scanner.name? | return none
      return if ← Scanner.atEnd then some name else none) := by
    refine name_mirrors.bind fun name => ?_
    cases name with
    | none => exact .pure none
    | some name => exact atEnd_mirrors.bind fun _ => .pure _
  unfold Markup.variableName?
  generalize Text.trim text = text at mirrored ⊢
  rw [readIn_eq (mirrored.follows _ (Scanner.valid_ofChars _) (Nat.lt_succ_self _))]
  have hrest : (Scanner.ofChars text).rest = text := rfl
  unfold Expression.readIn
  cases hn : Scanner.splitName text with
  | none =>
    have missed : Scanner.name? (Scanner.ofChars text) = .ok none (Scanner.ofChars text) := by
      rw [Scanner.name?, Scanner.chunk?, hrest, hn]
    rw [bind_of_ok missed]
    rfl
  | some p =>
    obtain ⟨name, rest⟩ := p
    have taken : Scanner.name? (Scanner.ofChars text) =
        .ok (some (String.ofList name)) ((Scanner.ofChars text).past name rest) := by
      rw [Scanner.name?, Scanner.chunk?, hrest, hn]
    rw [bind_of_ok taken]
    cases rest <;> rfl

section
variable {β : Type} {n : Nat} {faultOf : String → Option Error} {faultOf' : String → Error}

/-- A name takes a character. -/
theorem name_bind_lt {f : Option String → Walk β} {g : Option String → Scan β}
    (hnone : Mirrors (n + 1) (f none) (g none))
    (hsome : ∀ name, Mirrors n (f (some name)) (g (some name))) :
    Mirrors (n + 1) (Cursor.name? >>= f) (Scanner.name? >>= g) := by
  refine name_mirrors.bind_of fun s o s' hn hname => ?_
  cases o with
  | none =>
    have hr : s.Reaches s' := (name_mirrors (n := n + 1)).reaches hn hname
    exact ⟨n + 1, Nat.lt_of_le_of_lt hr.length_le hn, hnone⟩
  | some name =>
    refine ⟨n, ?_, hsome name⟩
    rcases Scanner.chunk_ok hname with ⟨ho, -⟩ | ⟨chunk, -, hsplit⟩
    · cases ho
    · obtain ⟨e, ⟨c, cs, rfl, -⟩, -⟩ := Scanner.splitName_iff.1 hsplit
      rw [e] at hn
      simp at hn
      omega

variable (h : ∀ message, faultOf message = some (faultOf' message))
include h

theorem fault_bind {α : Type} {message : String} {f : α → Walk β} {g : α → Scan β} :
    Mirrors n (Cursor.fault faultOf message >>= f) (throw (faultOf' message) >>= g) where
  onward s _ := .refl s
  follows s _ _ := by
    rw [Cursor.fault, h]
    rfl

theorem fault_mirrors {message : String} :
    Mirrors n (Cursor.fault faultOf message : Walk β) (throw (faultOf' message)) where
  onward s _ := .refl s
  follows s _ _ := by
    rw [Cursor.fault, h]
    rfl

theorem loopFlags_mirrors {k i j : Nat} {reversed : Bool} (hi : k ≤ i) (hj : k ≤ j) :
    Mirrors k (Cursor.loopFlags faultOf reversed i) (Markup.loopFlags faultOf' reversed j) := by
  induction k generalizing i j reversed with
  | zero => exact .zero
  | succ k ih =>
    obtain ⟨i, rfl⟩ : ∃ l, i = l + 1 := ⟨i - 1, by omega⟩
    obtain ⟨j, rfl⟩ : ∃ l, j = l + 1 := ⟨j - 1, by omega⟩
    unfold Cursor.loopFlags Markup.loopFlags
    refine skipBlanks_mirrors.bind fun _ => name_bind_lt ?_ fun word => ?_
    · refine atEnd_mirrors.bind fun ended => ?_
      split
      · exact .pure reversed
      · exact rest_bind fun left => fault_mirrors h
    · dsimp only
      split
      · exact ih (Nat.le_of_succ_le_succ hi) (Nat.le_of_succ_le_succ hj)
      · exact rest_bind fun left => fault_mirrors h

theorem loopHeader_mirrors :
    Mirrors n (Cursor.loopHeader faultOf) (Markup.loopHeader faultOf') := by
  have flags (item : String) (collection : Expression) : Mirrors n
      (do
        let reversed ← Cursor.loopFlags faultOf false ((← get).input.length + 1)
        return (⟨item, collection, reversed⟩ : LoopHeader))
      (do
        let reversed ← Markup.loopFlags faultOf' false ((← get).rest.length + 1)
        return ⟨item, collection, reversed⟩) := by
    have hb : Mirrors n (do Cursor.loopFlags faultOf false ((← get).input.length + 1))
        (do Markup.loopFlags faultOf' false ((← get).rest.length + 1)) :=
      bounded_mirrors (g := fun j => Markup.loopFlags faultOf' false (j + 1))
        fun _ _ _ => loopFlags_mirrors h
    simpa only [bind_assoc] using
      hb.bind fun reversed => .pure (LoopHeader.mk item collection reversed)
  unfold Cursor.loopHeader Markup.loopHeader
  refine name_mirrors.bind fun item => ?_
  cases item with
  | none => exact fault_mirrors h
  | some item =>
  refine skipBlanks_mirrors.bind fun _ => name_mirrors.bind fun word => ?_
  dsimp only
  split
  · refine skipBlanks_mirrors.bind fun _ => value_bind (fault_mirrors h) fun t ht => ?_
    exact (lift_mirrors (ofToken_eq ht)).bind fun collection => flags item collection
  · exact fault_bind h

end

end Stencil
