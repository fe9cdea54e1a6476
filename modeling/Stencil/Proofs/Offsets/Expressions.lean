import Stencil.Proofs.Expression.Rereading
import Stencil.Proofs.Offsets.Values

/-!
# Expressions at byte offsets

The readers of expressions with a cursor in place of the scanner. A token's text is read by a cursor of
its own, and the body of a literal is cut out between its quotes. They are not stuck and read what the
readers of characters read: `ofToken_eq` by induction on the length of the token, since a value inside
brackets has a shorter text.
-/

namespace Stencil

namespace Cursor

open Slicing (stuck lift)

/-- Runs a reader on a whole text. -/
def readIn {α : Type} (reader : Walk α) (text : List Char) : Option (Except Error α) :=
  (reader (ofChars text)).map (·.1)

/-- The text that a quoted literal stands for; a quote has one byte. -/
def unquote? (text : List Char) : Option String := do
  let stop ← Text.minus? (Text.byteLength text) 1
  return String.ofList (Expression.unescape (← Text.slice? text 1 stop))

/-! ## Expressions -/

section
variable (inner : Token → Option (Except Error Expression))

/-- The segments of the path that is left, fewer than `n` of them. -/
def segments : Nat → Walk (List Segment)
  | 0 => stuck
  | n + 1 => do
    if ← atEnd then return []
    if ← eat '.' then
      if let some k ← name? then return .key k :: (← segments n)
      if let some ds ← digits? then
        match Decimal.integer? ds.toList with
        | some i => return .index i :: (← segments n)
        | none => fail "invalid index"
      fail "expected a property name after '.'"
    if ← eat '[' then
      skipBlanks
      let some t ← value? | fail "expected a value inside '[...]'"
      skipBlanks
      require (← eat ']') "expected ']'"
      let e ← lift (inner t)
      return Expression.bracketSegment e :: (← segments n)
    fail "invalid property path"

def pathSegments : Walk (List Segment) := do
  let n := (← get).input.length + 1
  match ← name? with
  | some k => return .key k :: (← segments inner n)
  | none => segments inner n

def rangeEnds : Walk (Expression × Expression) := do
  let _ ← eat '('
  skipBlanks
  let some first ← value? | fail "expected range start"
  skipBlanks
  let _ ← eatAll ['.', '.']
  skipBlanks
  let some last ← value? | fail "expected range end"
  return (← lift (inner first), ← lift (inner last))

def ofTokenWith (t : Token) : Option (Except Error Expression) :=
  let text := t.text.toList
  match t.kind with
  | .quoted => (unquote? text).map fun body => .ok (.literal t.text (.text body))
  | .number => some ((Expression.numeral text).map (.literal t.text))
  | .boolean => some (.ok (.literal t.text (.bool (t.text = "true"))))
  | .null => some (.ok (.literal t.text .null))
  | .path => (readIn (pathSegments inner) text).map (Except.map (.path t.text))
  | .range => (readIn (rangeEnds inner) text).map
      (Except.map fun (first, last) => .range t.text first last)

end

/-- The expression of a token in which brackets and ranges nest less than `depth` deep. -/
def ofTokenAt : Nat → Token → Option (Except Error Expression)
  | 0, _ => none
  | depth + 1, t => ofTokenWith (ofTokenAt depth) t

def ofToken (t : Token) : Option (Except Error Expression) := ofTokenAt (t.text.length + 1) t

end Cursor

open Slicing (Follows bind_ok)
open Scanner (cursor)

/-! ## Readers behind readers -/

section
variable {α β : Type} {n : Nat} {w : Walk α} {m : Scan α} {s s' : Scanner}

namespace Mirrors

/-- No character is left of none. -/
theorem zero : Mirrors 0 w m := ⟨fun _ h => absurd h (Nat.not_lt_zero _),
  fun _ _ h => absurd h (Nat.not_lt_zero _)⟩

theorem at_end {a : α} (h : ∀ s : Scanner, s.Valid → s.rest = [] →
    w s.cursor = some (.ok a, s.cursor)) : Mirrors 1 w (Pure.pure a) :=
  ⟨fun s _ => .refl s, fun s hs hn => h s hs (List.length_eq_zero_iff.1 (Nat.lt_one_iff.1 hn))⟩

end Mirrors

theorem fail_bind {message : String} {f : α → Walk β} {g : α → Scan β} :
    Mirrors n (Cursor.fail message >>= f) (Scanner.fail message >>= g) :=
  ⟨fun s _ => .refl s, fun _ _ _ => rfl⟩

/-- Behind a character that is taken, one less is left. -/
theorem eat_bind {c : Char} {f : Bool → Walk β} {g : Bool → Scan β} (ht : Mirrors n (f true) (g true))
    (hf : Mirrors (n + 1) (f false) (g false)) :
    Mirrors (n + 1) (Cursor.eat c >>= f) (Scanner.eat c >>= g) := by
  refine eat_mirrors.bind_of fun s eaten s' hn he => ?_
  rcases Scanner.eat_ok he with ⟨rfl, e⟩ | ⟨rfl, rfl⟩
  · rw [e] at hn
    exact ⟨n, Nat.lt_of_succ_lt_succ hn, ht⟩
  · exact ⟨n + 1, hn, hf⟩

/-- A token that is read where fewer than `n` characters are left. -/
structure Token.Within (n : Nat) (t : Token) : Prop where
  length_lt : t.text.toList.length < n
  reads : ∃ rest, Scanner.Reads (.value t.kind) t.text.toList rest

theorem value_within {t : Token} (hn : s.rest.length < n) (h : Scanner.value? s = .ok (some t) s') :
    t.Within n := by
  obtain ⟨e, hr⟩ := Scanner.value_reads _ _ _ h
  refine ⟨?_, _, hr⟩
  rw [e, List.length_append] at hn
  omega

theorem value_bind {f : Option Token → Walk β} {g : Option Token → Scan β}
    (hnone : Mirrors n (f none) (g none))
    (hsome : ∀ t : Token, t.Within n → Mirrors n (f (some t)) (g (some t))) :
    Mirrors n (Cursor.value? >>= f) (Scanner.value? >>= g) := by
  refine value_mirrors.bind_of fun s o s' hn hv => ?_
  have hs' : s'.rest.length < n :=
    Nat.lt_of_le_of_lt ((value_mirrors (n := n)).reaches hn hv).length_le hn
  cases o with
  | none => exact ⟨n, hs', hnone⟩
  | some t => exact ⟨n, hs', hsome t (value_within hn hv)⟩

theorem lift_mirrors {r : Option (Except Error α)} {r' : Except Error α} (h : r = some r') :
    Mirrors n (Slicing.lift r : Walk α) (Scanner.lift r') := by
  subst h
  cases r' with
  | ok a => exact ⟨fun s _ => .refl s, fun _ _ _ => rfl⟩
  | error e => exact ⟨fun s _ => .refl s, fun _ _ _ => rfl⟩

theorem readIn_eq {text : List Char} (h : Follows cursor w m (Scanner.ofChars text)) :
    Cursor.readIn w text = some (Expression.readIn m text) := by
  have hw : w (Cursor.ofChars text) = _ := h
  rw [Cursor.readIn, hw, Expression.readIn]
  cases m (Scanner.ofChars text) with
  | ok a s => rfl
  | error e s => rfl

end

/-! ## Tokens -/

theorem Scanner.wordKind_cases (word : String) :
    wordKind word = .boolean ∨ wordKind word = .null ∨ wordKind word = .path := by
  unfold wordKind
  split
  · exact .inl rfl
  split
  · exact .inr (.inl rfl)
  · exact .inr (.inr rfl)

theorem utf8Size_of_isQuote {q : Char} (h : Span.isQuote q = true) : q.utf8Size = 1 := by
  rcases (by simpa [Span.isQuote] using h : q = '"' ∨ q = '\'') with rfl | rfl <;> rfl

theorem Scanner.Reads.opens {text rest : List Char} (h : Scanner.Reads (.value .range) text rest) :
    ∃ r, text = '(' :: r := by
  cases h with
  | path _ hk =>
    rcases Scanner.wordKind_cases (String.ofList text) with h | h | h <;> cases hk.symm.trans h
  | range => exact ⟨_, rfl⟩

theorem unquote_eq {text rest : List Char} (h : Scanner.Reads (.value .quoted) text rest) :
    Cursor.unquote? text = some (Expression.unquote text) := by
  cases h with
  | path _ hk =>
    rcases Scanner.wordKind_cases (String.ofList text) with h | h | h <;> cases hk.symm.trans h
  | quoted hq hb =>
    rename_i q body
    obtain ⟨body, rfl, -⟩ := Quotable.of_literalEnd hb
    have hsize := utf8Size_of_isQuote hq
    have hlen : Text.byteLength (q :: (body ++ [q])) = (1 + Text.byteLength body) + 1 := by
      rw [Text.byteLength_cons, Text.byteLength_append, Text.byteLength_cons, hsize]
      simp only [Text.byteLength_nil]
      omega
    have hcut := Text.slice?_between [q] body [q]
    have hq1 : Text.byteLength [q] = 1 := by rw [Text.byteLength_cons, hsize, Text.byteLength_nil]
    rw [hq1, List.singleton_append] at hcut
    rw [Cursor.unquote?, hlen, Text.minus?_add, unquote_string]
    change (Text.slice? (q :: (body ++ [q])) 1 (1 + Text.byteLength body)).bind _ = _
    rw [hcut]
    rfl

section
variable {n : Nat} {inner : Token → Option (Except Error Expression)}
  {inner' : Token → Except Error Expression}
  (h : ∀ t : Token, t.Within n → inner t = some (inner' t))
include h

theorem segments_mirrors {k i j : Nat} (hk : k ≤ n + 1) (hi : k ≤ i) (hj : k ≤ j + 1) :
    Mirrors k (Cursor.segments inner i) (Expression.segments inner' j) := by
  induction k generalizing i j with
  | zero => exact .zero
  | succ k ih =>
    obtain ⟨i, rfl⟩ : ∃ l, i = l + 1 := ⟨i - 1, by omega⟩
    cases j with
    | zero =>
      obtain rfl : k = 0 := by omega
      refine .at_end fun s hs e => ?_
      have ended : Cursor.atEnd s.cursor = some (.ok true, s.cursor) := by
        have hf : Follows cursor Cursor.atEnd Scanner.atEnd s :=
          atEnd_mirrors.follows s hs (Nat.lt_succ_self _)
        rwa [Follows, Scanner.atEnd, e] at hf
      rw [Cursor.segments, bind_ok ended]
      rfl
    | succ j =>
      have further : Mirrors k (Cursor.segments inner i) (Expression.segments inner' j) :=
        ih (by omega) (by omega) (by omega)
      unfold Cursor.segments Expression.segments
      refine atEnd_mirrors.bind fun ended => ?_
      split
      · exact .pure []
      refine eat_bind ?_ (eat_bind ?_ ?_)
      · rw [if_pos rfl, if_pos rfl]
        refine name_mirrors.bind fun name => ?_
        cases name with
        | some name => exact further.bind fun _ => .pure _
        | none =>
        refine digits_mirrors.bind fun digits => ?_
        cases digits with
        | none => exact fail_mirrors
        | some ds =>
        dsimp only
        cases Decimal.integer? ds.toList with
        | some i => exact further.bind fun _ => .pure _
        | none => exact fail_bind
      · rw [if_pos rfl, if_pos rfl]
        refine skipBlanks_mirrors.bind fun _ => value_bind fail_bind fun t ht => ?_
        have hinner := h t ⟨by have := ht.length_lt; omega, ht.reads⟩
        refine skipBlanks_mirrors.bind fun _ => eat_mirrors.bind fun _ => ?_
        refine require_mirrors.bind fun _ => (lift_mirrors hinner).bind fun _ => ?_
        exact further.bind fun _ => .pure _
      · exact fail_mirrors

theorem pathSegments_follows {s : Scanner} (hs : s.Valid) (hn : s.rest.length < n + 1) :
    Follows cursor (Cursor.pathSegments inner) (Expression.pathSegments inner') s := by
  have hle := hs.length_le
  have further : Mirrors (s.rest.length + 1) (Cursor.segments inner (s.input.length + 1))
      (Expression.segments inner' s.rest.length) :=
    segments_mirrors h (by omega) (by omega) (by omega)
  have whole : Mirrors (s.rest.length + 1) (do
      match ← Cursor.name? with
      | some k => return .key k :: (← Cursor.segments inner (s.input.length + 1))
      | none => Cursor.segments inner (s.input.length + 1)) (do
      match ← Scanner.name? with
      | some k => return .key k :: (← Expression.segments inner' s.rest.length)
      | none => Expression.segments inner' s.rest.length) := by
    refine name_mirrors.bind fun name => ?_
    cases name with
    | some name => exact further.bind fun _ => .pure _
    | none => exact further
  unfold Follows Cursor.pathSegments Expression.pathSegments
  rw [Slicing.get_bind, bind_of_ok (rfl : (get : Scan Scanner) s = .ok s s)]
  exact whole.follows s hs (Nat.lt_succ_self _)

theorem rangeEnds_follows {s : Scanner} {r : List Char} (hs : s.Valid) (e : s.rest = '(' :: r)
    (hn : r.length < n) : Follows cursor (Cursor.rangeEnds inner) (Expression.rangeEnds inner') s := by
  unfold Follows Cursor.rangeEnds Expression.rangeEnds
  rw [bind_ok (eat_head_cursor hs e), bind_of_ok (eat_head e)]
  refine Mirrors.follows (n := n) ?_ _ (hs.past e) hn
  refine skipBlanks_mirrors.bind fun _ => value_bind fail_mirrors fun first hfirst => ?_
  refine skipBlanks_mirrors.bind fun _ => eatAll_mirrors.bind fun _ => ?_
  refine skipBlanks_mirrors.bind fun _ => value_bind fail_mirrors fun last hlast => ?_
  refine (lift_mirrors (h first hfirst)).bind fun _ => ?_
  exact (lift_mirrors (h last hlast)).bind fun _ => .pure _

theorem ofTokenWith_eq {t : Token} (ht : t.Within (n + 1)) :
    Cursor.ofTokenWith inner t = some (Expression.ofTokenWith inner' t) := by
  obtain ⟨hlen, rest, hr⟩ := ht
  unfold Cursor.ofTokenWith Expression.ofTokenWith
  cases hk : t.kind with
  | quoted =>
    rw [hk] at hr
    simp [unquote_eq hr]
  | number => rfl
  | boolean => rfl
  | null => rfl
  | path =>
    have hread := readIn_eq (pathSegments_follows h (Scanner.valid_ofChars t.text.toList) hlen)
    dsimp only
    rw [hread]
    rfl
  | range =>
    rw [hk] at hr
    obtain ⟨r, e⟩ := hr.opens
    have hrest : (Scanner.ofChars t.text.toList).rest = '(' :: r := e
    have hlt : r.length < n := by
      rw [e] at hlen
      exact Nat.lt_of_succ_lt_succ hlen
    have hread := readIn_eq (rangeEnds_follows h (Scanner.valid_ofChars t.text.toList) hrest hlt)
    dsimp only
    rw [hread]
    rfl

end

/-- Enough nesting is enough: a token inside another has a shorter text. -/
theorem ofTokenAt_eq {n i j : Nat} (hi : n ≤ i) (hj : n ≤ j) {t : Token} (ht : t.Within n) :
    Cursor.ofTokenAt i t = some (Expression.ofTokenAt j t) := by
  induction n generalizing i j t with
  | zero => exact absurd ht.length_lt (Nat.not_lt_zero _)
  | succ n ih =>
    obtain ⟨i, rfl⟩ : ∃ k, i = k + 1 := ⟨i - 1, by omega⟩
    obtain ⟨j, rfl⟩ : ∃ k, j = k + 1 := ⟨j - 1, by omega⟩
    exact ofTokenWith_eq
      (fun t ht => ih (Nat.le_of_succ_le_succ hi) (Nat.le_of_succ_le_succ hj) ht) ht

theorem ofToken_eq {n : Nat} {t : Token} (ht : t.Within n) :
    Cursor.ofToken t = some (Expression.ofToken t) := by
  have hlt : t.text.toList.length < t.text.length + 1 := by
    rw [String.length_toList]
    exact Nat.lt_succ_self _
  exact ofTokenAt_eq (Nat.le_refl _) (Nat.le_refl _) ⟨hlt, ht.reads⟩

end Stencil
