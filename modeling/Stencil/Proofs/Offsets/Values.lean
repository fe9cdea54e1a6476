import Stencil.Proofs.Offsets.Mirroring

/-!
# Cursors and values

Brackets and ranges hold further values. An inner value stands behind the character that opens its
bracket, so the readers of values mirror the scanner's one character further than their inner reader
does. `value_mirrors` is the induction on that.
-/

namespace Stencil

open Slicing (Follows bind_ok bind_error)
open Scanner (Onward place cursor)

section
variable {α β : Type} {n : Nat} {s s' : Scanner} {c : Char} {r : List Char}

/-! ## Behind the first character -/

theorem eat_head (e : s.rest = c :: r) : Scanner.eat c s = .ok true (s.past [c] r) := by
  rw [Scanner.eat, e]
  exact if_pos rfl

theorem eat_head_cursor (hs : s.Valid) (e : s.rest = c :: r) :
    Cursor.eat c s.cursor = some (.ok true, (s.past [c] r).cursor) := by
  have h : Follows cursor (Cursor.eat c) (Scanner.eat c) s :=
    eat_mirrors.follows s hs (Nat.lt_succ_self _)
  rwa [Follows, eat_head e] at h

theorem advance_one (hc : c.utf8Size = 1) :
    Cursor.advance 1 s.cursor = some (.ok (), (s.past [c] r).cursor) :=
  advance_eq [c] r (by simp [hc])

theorem offset_bind {f : Nat → Walk α} : (Cursor.offset >>= f) s.cursor = f s.pos s.cursor := rfl

/-- A text between two offsets is the text that a reader takes. -/
theorem span_follows {w : Walk Unit} {m : Scan Unit} (hs : s.Valid) (hm : s.Reaches (place (m s)))
    (h : Follows cursor w m s) :
    Follows cursor (w >>= fun _ => Cursor.since s.pos) (Scanner.taking m) s := by
  unfold Follows at h ⊢
  cases hres : m s with
  | error err s' =>
    have ht : Scanner.taking m s = .error err s' := by rw [Scanner.taking, hres]
    rw [hres] at h
    rw [bind_error h, ht]
    rfl
  | ok u s' =>
    rw [hres] at h hm
    have hm : s.Reaches s' := hm
    obtain ⟨chunk, e, -⟩ := id hm
    have ht : Scanner.taking m s = .ok (String.ofList chunk) s' := by
      rw [Scanner.taking, hres]
      dsimp only
      rw [take_chunk e]
    rw [bind_ok h, since_eq hs hm e, ht]
    rfl

section
variable {inner : Walk (Option Token)} {inner' : Scan (Option Token)} (hi : Onward inner')
  (h : Mirrors n inner inner')
include hi h

/-! ## Brackets and ranges -/

omit hi in
/-- What a bracket holds, and its end. -/
theorem inside_mirrors : Mirrors n
    (do
      Cursor.skipBlanks
      Cursor.require (← inner).isSome "expected a value inside '[...]'"
      Cursor.skipBlanks
      Cursor.require (← Cursor.eat ']') "expected ']'")
    (do
      Scanner.skipBlanks
      Scanner.require (← inner').isSome "expected a value inside '[...]'"
      Scanner.skipBlanks
      Scanner.require (← Scanner.eat ']') "expected ']'") := by
  refine skipBlanks_mirrors.bind fun _ => h.bind fun _ => require_mirrors.bind fun _ => ?_
  exact skipBlanks_mirrors.bind fun _ => eat_mirrors.bind fun _ => require_mirrors

omit hi in
theorem bracket_mirrors : Mirrors n (Cursor.bracket inner) (Scanner.bracket inner') := by
  unfold Cursor.bracket Scanner.bracket
  exact eat_mirrors.bind fun _ => inside_mirrors h

omit hi in
theorem bracket_follows (hs : s.Valid) (e : s.rest = '[' :: r) (hn : r.length < n) :
    Follows cursor (Cursor.bracket inner) (Scanner.bracket inner') s ∧
      ∀ s', Scanner.bracket inner' s = .ok () s' → s'.rest.length < s.rest.length := by
  have tail := inside_mirrors h
  constructor
  · unfold Follows Cursor.bracket Scanner.bracket
    rw [bind_ok (eat_head_cursor hs e), bind_of_ok (eat_head e)]
    exact tail.follows _ (hs.past e) hn
  · intro s' hres
    unfold Scanner.bracket at hres
    rw [bind_of_ok (eat_head e)] at hres
    have hle : s'.rest.length ≤ r.length := (tail.reaches (s := s.past ['['] r) hn hres).length_le
    rw [e]
    exact Nat.lt_succ_of_le hle

theorem rangeOf_mirrors : Mirrors (n + 1) (Cursor.rangeOf inner) (Scanner.rangeOf inner') where
  onward s _ := Scanner.rangeOf_onward hi s
  follows s hs hn := by
    unfold Cursor.rangeOf Scanner.rangeOf
    refine (peek_mirrors.follows s hs hn).bind fun o s' hp => ?_
    cases hp
    split
    · rename_i ho
      obtain ⟨r, e⟩ := List.head?_eq_some_iff.1 (eq_of_beq ho)
      have hr : r.length < n := by rw [e] at hn; exact Nat.lt_of_succ_lt_succ hn
      rw [Follows, offset_bind, ← bind_assoc]
      refine (span_follows hs (Scanner.parentheses_onward hi s) ?_).bind fun _ _ _ => .pure _
      unfold Follows Cursor.parentheses Scanner.parentheses
      rw [bind_ok (advance_one (c := '(') (r := r) rfl), bind_of_ok (eat_head e)]
      refine Mirrors.follows (n := n) ?_ _ (hs.past e) hr
      refine skipBlanks_mirrors.bind fun _ => h.bind fun _ => require_mirrors.bind fun _ => ?_
      refine skipBlanks_mirrors.bind fun _ => eatAll_mirrors.bind fun _ => ?_
      refine require_mirrors.bind fun _ => skipBlanks_mirrors.bind fun _ => h.bind fun _ => ?_
      refine require_mirrors.bind fun _ => skipBlanks_mirrors.bind fun _ => ?_
      exact eat_mirrors.bind fun _ => require_mirrors
    · exact .pure none

/-! ## Paths -/

omit hi h in
/-- A point and the word behind it are taken together, and a point before no word is left. -/
theorem dotted_follows {w : Walk Unit} {m : Scan Unit} (hs : s.Valid) (e : s.rest = '.' :: r)
    (hword : ∀ word rest, s.rest = '.' :: word ++ rest → Follows cursor w m (s.past ('.' :: word) rest)) :
    Follows cursor (do
        let before ← Cursor.offset
        Cursor.advance 1
        if (← Cursor.name?).isSome then w
        else if (← Cursor.digits?).isSome then w
        else Cursor.reset before)
      (do if (← Scanner.chunk? Scanner.splitDotted).isSome then m) s := by
  have hrest : (s.past ['.'] r).rest = r := rfl
  have hname : Cursor.name? (s.past ['.'] r).cursor =
      some (seen cursor (Scanner.chunk? Scanner.splitName (s.past ['.'] r))) :=
    name_mirrors.follows _ (hs.past e) (Nat.lt_succ_self _)
  have hdigits : Cursor.digits? (s.past ['.'] r).cursor =
      some (seen cursor (Scanner.chunk? Scanner.splitDigits (s.past ['.'] r))) :=
    digits_mirrors.follows _ (hs.past e) (Nat.lt_succ_self _)
  rw [Scanner.chunk?, hrest] at hname hdigits
  have taken (word rest : List Char)
      (hd : Scanner.splitDotted s.rest = some ('.' :: word, rest)) :
      w (s.past ('.' :: word) rest).cursor = some (seen cursor
        ((do if (← Scanner.chunk? Scanner.splitDotted).isSome then m : Scan Unit) s)) := by
    have hres : Scanner.chunk? Scanner.splitDotted s =
        .ok (some (String.ofList ('.' :: word))) (s.past ('.' :: word) rest) := by
      rw [Scanner.chunk?, hd]
    rw [bind_of_ok hres]
    exact hword word rest (Scanner.splitDotted_iff.1 hd).1
  rw [Follows, offset_bind, bind_ok (advance_one (c := '.') (r := r) rfl)]
  cases hn : Scanner.splitName r with
  | some p =>
    obtain ⟨name, rest⟩ := p
    rw [hn] at hname
    rw [bind_ok hname, ← taken name rest (by rw [e, Scanner.splitDotted, hn]), Scanner.past_past]
    rfl
  | none =>
    rw [hn] at hname
    rw [bind_ok hname]
    simp only [Option.isSome_none, Bool.false_eq_true, if_false]
    cases hd : Scanner.splitDigits r with
    | some p =>
      obtain ⟨ds, rest⟩ := p
      rw [hd] at hdigits
      rw [bind_ok hdigits, ← taken ds rest (by rw [e, Scanner.splitDotted, hn, hd]; rfl),
        Scanner.past_past]
      rfl
    | none =>
      have missed : Scanner.chunk? Scanner.splitDotted s = .ok none s := by
        rw [Scanner.chunk?, e, Scanner.splitDotted, hn, hd]
        rfl
      rw [hd] at hdigits
      rw [bind_ok hdigits, bind_of_ok missed]
      rfl

theorem segmentsOf_follows {k m : Nat} (hs : s.Valid) (hn : s.rest.length < n + 1)
    (hk : s.rest.length < k) (hm : s.rest.length ≤ m) :
    Follows cursor (Cursor.segmentsOf inner k) (Scanner.segmentsOf inner' m) s := by
  induction k generalizing s m with
  | zero => exact absurd hk (Nat.not_lt_zero _)
  | succ k ih =>
    have peeked : Cursor.peek s.cursor = some (.ok s.rest.head?, s.cursor) :=
      peek_mirrors.follows s hs hn
    -- Whatever has been taken, less is left.
    have further {s' : Scanner} (hr : s.Reaches s') (hlt : s'.rest.length < s.rest.length) {m : Nat}
        (hm : s.rest.length ≤ m + 1) :
        Follows cursor (Cursor.segmentsOf inner k) (Scanner.segmentsOf inner' m) s' :=
      ih (hr.valid hs) (by omega) (by omega) (by omega)
    cases m with
    | zero =>
      have e : s.rest = [] := List.length_eq_zero_iff.1 (Nat.le_zero.1 hm)
      rw [e] at peeked
      rw [Follows, Cursor.segmentsOf, bind_ok peeked]
      rfl
    | succ m =>
      unfold Follows
      rw [Cursor.segmentsOf, bind_ok peeked]
      by_cases hpoint : s.rest.head? = some '.'
      · rw [Scanner.segmentsOf_point _ _ hpoint, hpoint]
        obtain ⟨r, e⟩ := List.head?_eq_some_iff.1 hpoint
        refine dotted_follows hs e fun word rest e' => further (.past e') ?_ hm
        have hlt : rest.length < ('.' :: word ++ rest).length := by
          rw [List.length_append, List.length_cons]
          omega
        rwa [← e'] at hlt
      by_cases hopen : s.rest.head? = some '['
      · rw [Scanner.segmentsOf_open _ _ hopen, hopen]
        obtain ⟨r, e⟩ := List.head?_eq_some_iff.1 hopen
        have hr : r.length < n := by rw [e] at hn; exact Nat.lt_of_succ_lt_succ hn
        obtain ⟨hfollows, hshrinks⟩ := bracket_follows h hs e hr
        refine hfollows.bind fun _ s' hres => ?_
        have hr := Scanner.bracket_onward hi s
        rw [hres] at hr
        exact further hr (hshrinks s' hres) hm
      rw [Scanner.segmentsOf_end _ _ hpoint hopen]
      refine congrFun (?_ : _ = (pure () : Walk Unit)) s.cursor
      split
      · contradiction
      · contradiction
      · rfl

theorem segmentsOn_follows (hs : s.Valid) (hn : s.rest.length < n + 1) :
    Follows cursor (Cursor.segmentsOn inner)
      (do Scanner.segmentsOf inner' (← get).rest.length) s := by
  have hinput : s.rest.length < s.input.length + 1 := Nat.lt_succ_of_le hs.length_le
  exact segmentsOf_follows hi h hs hn hinput (Nat.le_refl _)

/-- The first segment, the further ones, and the text of both. -/
theorem path_follows {α : Type} {w : Walk α} {m : Scan α} (hs : s.Valid) (hn : s.rest.length < n + 1)
    (hw : Follows cursor w m s) (hm : s.Reaches (place (m s))) (hseg : Scanner.segmented inner' s =
      (m >>= fun _ => do Scanner.segmentsOf inner' (← get).rest.length : Scan Unit) s) :
    Follows cursor (do
        let _ ← w
        Cursor.segmentsOn inner
        return some (← Cursor.since s.pos))
      (do return some (← Scanner.taking (Scanner.segmented inner'))) s := by
  have hfollows : Follows cursor (w >>= fun _ => Cursor.segmentsOn inner)
      (Scanner.segmented inner') s := by
    rw [Follows, hseg]
    refine hw.bind fun _ s' hres => ?_
    rw [hres] at hm
    have hm : s.Reaches s' := hm
    exact segmentsOn_follows hi h (hm.valid hs) (Nat.lt_of_le_of_lt hm.length_le hn)
  have hspan := span_follows hs (Scanner.segmented_onward hi s) hfollows
  rw [bind_assoc] at hspan
  rw [← bind_assoc, ← bind_assoc, bind_assoc w]
  exact hspan.bind fun _ _ _ => .pure _

theorem pathOf_mirrors : Mirrors (n + 1) (Cursor.pathOf inner) (Scanner.pathOf inner') where
  onward s _ := Scanner.pathOf_onward hi s
  follows s hs hn := by
    unfold Cursor.pathOf Scanner.pathOf
    rw [Follows, offset_bind]
    refine (peek_mirrors.follows s hs hn).bind fun o s' hp => ?_
    obtain ⟨ho, rfl⟩ := EStateM.Result.ok.inj hp
    split
    · rename_i hb
      obtain rfl := eq_of_beq hb
      obtain ⟨r, e⟩ := List.head?_eq_some_iff.1 ho
      have hr : r.length < n := by rw [e] at hn; exact Nat.lt_of_succ_lt_succ hn
      refine path_follows hi h hs hn (bracket_follows h hs e hr).1 (Scanner.bracket_onward hi s) ?_
      unfold Scanner.segmented
      rw [bind_of_ok hp]
      rfl
    · rename_i hb
      have hname : Cursor.name? s.cursor = some (seen cursor (Scanner.name? s)) :=
        name_mirrors.follows s hs hn
      have hstarts : o.any Scanner.startsPath = o.any Text.startsName := by
        cases o with
        | none => rfl
        | some c =>
          have hc : (c == '[') = false := by simpa using hb
          simp [Scanner.startsPath, hc]
      rw [hstarts, ← ho]
      cases hsplit : Scanner.splitName s.rest with
      | none =>
        have missed : Scanner.name? s = .ok none s := by rw [Scanner.name?, Scanner.chunk?, hsplit]
        have hbreaks : s.rest.head?.any Text.startsName = false :=
          Scanner.splitName_eq_none_iff.1 hsplit
        rw [missed] at hname
        rw [Follows, bind_ok hname, hbreaks]
        rfl
      | some p =>
        obtain ⟨name, rest⟩ := p
        have taken : Scanner.name? s = .ok (some (String.ofList name)) (s.past name rest) := by
          rw [Scanner.name?, Scanner.chunk?, hsplit]
        have hstarts : s.rest.head?.any Text.startsName = true := by
          obtain ⟨e, ⟨c, cs, rfl, hc, -⟩, -⟩ := Scanner.splitName_iff.1 hsplit
          rw [e]
          exact hc
        have mirrored : Mirrors (n + 1) Cursor.name? Scanner.name? := name_mirrors
        have hpath := path_follows hi h hs hn (mirrored.follows s hs hn) (mirrored.onward s hn) (by
          unfold Scanner.segmented
          rw [bind_of_ok hp, if_neg hb])
        rw [taken] at hname
        rw [Follows, bind_ok hname] at hpath ⊢
        rw [hstarts]
        exact hpath

end

theorem valueAt_mirrors {i j : Nat} (hi : n ≤ i) (hj : n ≤ j) :
    Mirrors n (Cursor.valueAt i) (Scanner.valueAt j) := by
  induction n generalizing i j with
  | zero =>
    exact ⟨fun s _ => Scanner.valueAt_onward j s, fun s _ hn => absurd hn (Nat.not_lt_zero _)⟩
  | succ n ih =>
    obtain ⟨i, rfl⟩ : ∃ k, i = k + 1 := ⟨i - 1, by omega⟩
    obtain ⟨j, rfl⟩ : ∃ k, j = k + 1 := ⟨j - 1, by omega⟩
    have hv := Scanner.valueAt_onward j
    have inner := ih (Nat.le_of_succ_le_succ hi) (Nat.le_of_succ_le_succ hj)
    unfold Cursor.valueAt Scanner.valueAt
    refine quoted_mirrors.bind fun o => ?_
    cases o with
    | some text => exact .pure _
    | none =>
    refine (rangeOf_mirrors hv inner).bind fun o => ?_
    cases o with
    | some text => exact .pure _
    | none =>
    refine number_mirrors.bind fun o => ?_
    cases o with
    | some text => exact .pure _
    | none =>
    refine (pathOf_mirrors hv inner).bind fun o => ?_
    cases o with
    | some text => exact .pure _
    | none => exact .pure none

theorem value_mirrors : Mirrors n Cursor.value? Scanner.value? where
  onward s _ := Scanner.value_onward s
  follows s hs _ := by
    have h := valueAt_mirrors (Nat.succ_le_succ hs.length_le) (Nat.le_refl (s.rest.length + 1))
    rw [Follows, Scanner.value?, ← h.follows s hs (Nat.lt_succ_self _), Cursor.value?,
      Slicing.get_bind]
    rfl

end

end Stencil
