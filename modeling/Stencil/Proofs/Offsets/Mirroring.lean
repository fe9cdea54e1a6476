import Stencil.Proofs.Expression.Places
import Stencil.Proofs.Offsets.Cursor

/-!
# Cursors and scanners

A scanner that stands at a character shows as a cursor: its text and its offset. From there the
cursor's readers are not stuck and end as the scanner's do, at a place that is a character again.
`Mirrors n` says so of a pair of readers, where fewer than `n` characters are left; nested values need
the bound.
-/

namespace Stencil

open Slicing (Follows bind_ok)

namespace Scanner

def cursor (s : Scanner) : Cursor := ⟨s.input, s.pos⟩

theorem Reaches.valid {s s' : Scanner} (h : s.Reaches s') (hs : s.Valid) : s'.Valid := by
  obtain ⟨chunk, e, hp⟩ := h
  rw [hp]
  exact hs.past e

theorem Valid.length_le {s : Scanner} (h : s.Valid) : s.rest.length ≤ s.input.length := by
  obtain ⟨taken, hi, -⟩ := h
  rw [hi, List.length_append]
  exact Nat.le_add_left ..

theorem Reaches.length_le {s s' : Scanner} (h : s.Reaches s') : s'.rest.length ≤ s.rest.length := by
  obtain ⟨chunk, e, -⟩ := h
  rw [e, List.length_append]
  exact Nat.le_add_left ..

theorem past_past (s : Scanner) (chunk chunk' rest rest' : List Char) :
    (s.past chunk rest).past chunk' rest' = s.past (chunk ++ chunk') rest' := by
  simp [past, Nat.add_assoc]

end Scanner

open Scanner (place cursor)

/-- Where fewer than `n` characters are left, the cursor's reader ends as the scanner's does, at a
later place. -/
structure Mirrors {α : Type} (n : Nat) (w : Walk α) (m : Scan α) : Prop where
  onward : ∀ s : Scanner, s.rest.length < n → s.Reaches (place (m s))
  follows : ∀ s : Scanner, s.Valid → s.rest.length < n → Follows cursor w m s

section
variable {α β : Type} {n : Nat} {w : Walk α} {m : Scan α} {f : α → Walk β} {g : α → Scan β}
  {s : Scanner}

namespace Mirrors

theorem reaches (h : Mirrors n w m) (hn : s.rest.length < n) {a : α} {s' : Scanner}
    (hm : m s = .ok a s') : s.Reaches s' := by
  have hr := h.onward s hn
  rwa [hm] at hr

/-- What follows a reader has to mirror it only where the reader ends. -/
theorem bind_of (h : Mirrors n w m) (hf : ∀ s a s', s.rest.length < n → m s = .ok a s' →
    ∃ k, s'.rest.length < k ∧ Mirrors k (f a) (g a)) : Mirrors n (w >>= f) (m >>= g) where
  onward s hn := by
    have hr := h.onward s hn
    cases hm : m s with
    | ok a s' =>
      obtain ⟨k, hk, hfa⟩ := hf s a s' hn hm
      rw [hm] at hr
      rw [bind_of_ok hm]
      exact hr.trans (hfa.onward s' hk)
    | error e s' =>
      rw [hm] at hr
      rw [bind_of_error hm]
      exact hr
  follows s hs hn := by
    refine (h.follows s hs hn).bind fun a s' hm => ?_
    obtain ⟨k, hk, hfa⟩ := hf s a s' hn hm
    exact hfa.follows s' ((h.reaches hn hm).valid hs) hk

theorem bind (h : Mirrors n w m) (hf : ∀ a, Mirrors n (f a) (g a)) : Mirrors n (w >>= f) (m >>= g) :=
  h.bind_of fun _ a _ hn hm => ⟨n, Nat.lt_of_le_of_lt (h.reaches hn hm).length_le hn, hf a⟩

theorem pure (a : α) : Mirrors n (pure a) (pure a) := ⟨fun s _ => .refl s, fun _ _ _ => .pure a⟩

end Mirrors

/-! ## Readers of characters -/

/-- At a character, what is left is cut out of the text. -/
theorem rest_eq (hs : s.Valid) : Cursor.rest s.cursor = some (.ok s.rest, s.cursor) := by
  obtain ⟨taken, hi, hp⟩ := hs
  change (Text.sliceFrom? s.input s.pos).map _ = _
  rw [hi, hp, Text.sliceFrom?_append]
  rfl

theorem advance_eq (chunk rest : List Char) {k : Nat} (hk : k = Text.byteLength chunk) :
    Cursor.advance k s.cursor = some (.ok (), (s.past chunk rest).cursor) := by
  rw [hk]
  rfl

theorem take_eq (chunk rest : List Char) {k : Nat} (e : s.rest = chunk ++ rest)
    (hk : k = Text.byteLength chunk) :
    Cursor.take s.rest k s.cursor =
      some (.ok (String.ofList chunk), (s.past chunk rest).cursor) := by
  unfold Cursor.take
  rw [bind_ok (advance_eq chunk rest hk), hk, e, Text.sliceTo?_append]
  rfl

theorem since_eq {s' : Scanner} {chunk : List Char} (hs : s.Valid) (h : s.Reaches s')
    (e : s.rest = chunk ++ s'.rest) :
    Cursor.since s.pos s'.cursor = some (.ok (String.ofList chunk), s'.cursor) := by
  obtain ⟨taken, hi, hp⟩ := hs
  have hpast : s' = s.past chunk s'.rest := h.eq_past e
  have hinput : s'.input = s.input := by rw [hpast]; rfl
  have hpos : s'.pos = s.pos + Text.byteLength chunk := by rw [hpast]; rfl
  have hcut := Text.slice?_between taken chunk s'.rest
  rw [← e, ← hi, ← hinput, ← hp, ← hpos] at hcut
  change ((Slicing.cut (Text.slice? s'.input s.pos s'.pos) >>= fun text =>
    (Pure.pure (String.ofList text) : Walk String)) s'.cursor) = _
  rw [hcut]
  rfl

theorem fail_mirrors {message : String} : Mirrors n (Cursor.fail message : Walk α) (Scanner.fail message) :=
  ⟨fun s _ => .refl s, fun _ _ _ => rfl⟩

theorem require_mirrors {condition : Bool} {message : String} :
    Mirrors n (Cursor.require condition message) (Scanner.require condition message) := by
  unfold Cursor.require Scanner.require
  split
  · exact .pure ()
  · exact fail_mirrors

theorem peek_mirrors : Mirrors n Cursor.peek Scanner.peek where
  onward s _ := Scanner.peek_onward s
  follows s hs _ := by
    rw [Follows, Cursor.peek, bind_ok (rest_eq hs)]
    rfl

theorem eat_mirrors {c : Char} : Mirrors n (Cursor.eat c) (Scanner.eat c) where
  onward s _ := Scanner.eat_onward s
  follows s hs hn := by
    rw [Follows, Cursor.eat, bind_ok (peek_mirrors.follows s hs hn), Scanner.eat]
    cases e : s.rest with
    | nil => rfl
    | cons d rest =>
      rw [List.head?_cons]
      dsimp only
      by_cases hd : d = c
      · subst hd
        rw [if_pos (beq_self_eq_true _), if_pos rfl,
          bind_ok (advance_eq [d] rest (by simp))]
        rfl
      · rw [if_neg (by simpa using hd), if_neg hd]
        rfl

theorem eatAll_mirrors {word : List Char} : Mirrors n (Cursor.eatAll word) (Scanner.eatAll word) where
  onward s _ := Scanner.eatAll_onward s
  follows s hs hn := by
    rw [Follows, Cursor.eatAll, bind_ok (rest_eq hs), Scanner.eatAll]
    split
    · rw [bind_ok (advance_eq word (s.rest.drop word.length) rfl)]
      rfl
    · rfl

theorem skipBlanks_mirrors : Mirrors n Cursor.skipBlanks Scanner.skipBlanks where
  onward s _ := Scanner.skipBlanks_onward s
  follows s hs hn := by
    have e : Text.byteLength s.rest = Text.byteLength (s.rest.takeWhile Text.isBlank) +
        Text.byteLength (Text.trimStart s.rest) := by
      rw [← Text.byteLength_append, Text.trimStart, List.takeWhile_append_dropWhile]
    rw [Follows, Cursor.skipBlanks, bind_ok (rest_eq hs), e, Text.minus?_add]
    rfl

theorem atEnd_mirrors : Mirrors n Cursor.atEnd Scanner.atEnd where
  onward s _ := .refl s
  follows s hs _ := by
    obtain ⟨taken, hi, hp⟩ := hs
    have h : decide (Text.byteLength s.input ≤ s.pos) = s.rest.isEmpty := by
      rw [hi, hp, Text.byteLength_append]
      cases s.rest with
      | nil => simp
      | cons c rest =>
        have := Text.utf8Size_pos c
        rw [Text.byteLength_cons, List.isEmpty_cons]
        simp
        omega
    change some (Except.ok (decide (Text.byteLength s.input ≤ s.pos)), s.cursor) = _
    rw [h]
    rfl

/-! ## Words, numbers and literals -/

theorem name_mirrors : Mirrors n Cursor.name? Scanner.name? where
  onward := fun s _ => Scanner.chunk_onward (fun _ _ _ h => (Scanner.splitName_iff.1 h).1) s
  follows s hs _ := by
    rw [Follows, Cursor.name?, bind_ok (rest_eq hs), Scanner.name?, Scanner.chunk?]
    cases e : s.rest with
    | nil => rfl
    | cons c rest =>
      rw [Scanner.splitName, Text.indices, Text.indicesFrom, Nat.zero_add]
      dsimp only
      split
      · have hstop := Text.firstOf_indicesFrom Text.continuesName c.utf8Size rest
        rw [← Text.byteLength_cons, ← Text.byteLength_cons] at hstop
        have htake := take_eq (s := s) _ (rest.dropWhile Text.continuesName)
          (by rw [e, List.cons_append, List.takeWhile_append_dropWhile]) hstop
        rw [e] at htake
        rw [bind_ok htake]
        rfl
      · rfl

theorem digits_mirrors : Mirrors n Cursor.digits? Scanner.digits? where
  onward := fun s _ => Scanner.chunk_onward (fun _ _ _ h => (Scanner.splitDigits_iff.1 h).1) s
  follows s hs _ := by
    have hstop := Text.firstOf_indicesFrom Char.isDigit 0 s.rest
    rw [Nat.zero_add, Nat.zero_add] at hstop
    rw [Follows, Cursor.digits?, bind_ok (rest_eq hs), Scanner.digits?, Scanner.chunk?,
      Scanner.splitDigits, Text.indices, hstop]
    cases e : s.rest.takeWhile Char.isDigit with
    | nil => rfl
    | cons d ds =>
      have hpos : Text.byteLength (d :: ds) ≠ 0 := by
        have := Text.utf8Size_pos d
        rw [Text.byteLength_cons]
        omega
      have htake := take_eq (s := s) (d :: ds) (s.rest.dropWhile Char.isDigit)
        (by rw [← e, List.takeWhile_append_dropWhile]) rfl
      rw [if_neg hpos, bind_ok htake]
      rfl

theorem closing?_indicesFrom (q : Char) (k : Nat) (text : List Char) :
    Cursor.closing? q false (Text.indicesFrom k text) =
      (Span.literalEnd q text).map fun (body, _) => k + Text.byteLength body := by
  fun_induction Span.literalEnd q text generalizing k with
  | case1 => rfl
  | case2 => rfl
  | case3 d text ih =>
    rw [Text.indicesFrom, Text.indicesFrom, Cursor.closing?, if_neg (by decide), if_pos rfl,
      Cursor.closing?, if_pos rfl, ih]
    cases Span.literalEnd q text with
    | none => rfl
    | some p => simp [Nat.add_assoc]
  | case4 text hq =>
    rw [Text.indicesFrom, Cursor.closing?, if_neg (by decide), if_neg hq, if_pos rfl]
    simp
  | case5 c text hc hq ih =>
    rw [Text.indicesFrom, Cursor.closing?, if_neg (by decide), if_neg hc, if_neg hq, ih]
    cases Span.literalEnd q text with
    | none => rfl
    | some p => simp [Nat.add_assoc]

theorem quoted_mirrors : Mirrors n Cursor.quoted? Scanner.quoted? where
  onward s _ := Scanner.quoted_onward s
  follows s hs _ := by
    rw [Follows, Cursor.quoted?, bind_ok (rest_eq hs), Scanner.quoted?]
    cases e : s.rest with
    | nil => rfl
    | cons q rest =>
      rw [List.head?_cons]
      dsimp only
      split
      · rw [Text.indices, Text.indicesFrom, List.drop_one, List.tail_cons, closing?_indicesFrom,
          Nat.zero_add]
        cases hl : Span.literalEnd q rest with
        | none => rfl
        | some p =>
          obtain ⟨body, rest'⟩ := p
          have htake := take_eq (s := s) (q :: body) rest'
            (by rw [e, Span.literalEnd_eq_append hl]; rfl) rfl
          rw [e] at htake
          rw [Option.map_some]
          dsimp only
          rw [← Text.byteLength_cons, bind_ok htake]
          rfl
      · rfl

/-- A minus at the front, by its byte. -/
theorem start_bytes (text : List Char) : (if (Text.bytes text).head? = some 45 then 1 else 0) =
    Text.byteLength (Scanner.splitMinus text).1 := by
  cases text with
  | nil => rfl
  | cons c text =>
    obtain ⟨b, more, hb, hc⟩ := Text.first_byte c
    have hhead : (Text.bytes (c :: text)).head? = some b := by simp [Text.bytes, hb]
    have hminus : b = 45 ↔ c = '-' := by
      rw [← UInt8.toNat_inj, ← Char.toNat_inj]
      change b.toNat = 45 ↔ c.toNat = 45
      omega
    simp only [hhead, Option.some.injEq, hminus]
    by_cases e : c = '-'
    · subst e
      rfl
    · simp [Scanner.splitMinus, e]

/-- A point and digits, by their bytes. -/
theorem stop_bytes (front rest : List Char) :
    (if Text.pointsAt (Text.bytes (front ++ rest)) (Text.byteLength front) then
      Text.digitsEnd (Text.bytes (front ++ rest)) (Text.byteLength front + 1)
      else Text.byteLength front) = Text.byteLength (front ++ (Scanner.splitFraction rest).1) := by
  by_cases h : ∃ d r, rest = '.' :: d :: r ∧ d.isDigit = true
  · obtain ⟨d, r, rfl, hd⟩ := h
    have hend := Text.digitsEnd_bytes (front ++ ['.']) (d :: r)
    have hpoint : Text.byteLength (front ++ ['.']) = Text.byteLength front + 1 :=
      Text.byteLength_append front ['.']
    rw [hpoint, List.append_assoc, List.singleton_append] at hend
    have hsplit : (Scanner.splitFraction ('.' :: d :: r)).1 = '.' :: (d :: r).takeWhile Char.isDigit := by
      simp [Scanner.splitFraction, Scanner.splitDigits, hd]
    rw [if_pos (Text.pointsAt_bytes.2 ⟨d, r, rfl, hd⟩), hend, hsplit, ← hpoint,
      ← Text.byteLength_append, List.append_assoc, List.singleton_append]
  · rw [if_neg (fun hp => h (Text.pointsAt_bytes.1 hp))]
    suffices (Scanner.splitFraction rest).1 = [] by rw [this, List.append_nil]
    unfold Scanner.splitFraction
    split
    · rename_i text
      split
      · rename_i hds
        obtain ⟨rfl, hds, -⟩ := Scanner.splitDigits_iff.1 hds
        obtain ⟨hne, hds⟩ := hds
        obtain ⟨d, ds, rfl⟩ := List.exists_cons_of_ne_nil hne
        exact absurd ⟨d, _, rfl, hds d List.mem_cons_self⟩ h
      · rfl
    · rfl

theorem number_mirrors : Mirrors n Cursor.number? Scanner.number? where
  onward := fun s _ => Scanner.chunk_onward (fun _ _ _ h => (Scanner.splitNumber_iff.1 h).1) s
  follows s hs _ := by
    obtain ⟨minus, body, hm, e, -⟩ := Scanner.splitMinus_cases s.rest
    have hstart := start_bytes s.rest
    have hwhole := Text.digitsEnd_bytes minus body
    rw [hm] at hstart
    rw [← e] at hwhole
    rw [Follows, Cursor.number?, bind_ok (rest_eq hs), Scanner.number?, Scanner.chunk?,
      Scanner.splitNumber, hm]
    dsimp only at hstart ⊢
    rw [hstart, hwhole, Scanner.splitDigits]
    cases hds : body.takeWhile Char.isDigit with
    | nil =>
      rw [if_pos (by simp)]
      rfl
    | cons d ds =>
      obtain ⟨hbody, -, hb⟩ := Scanner.span_iff.1 ⟨hds, rfl⟩
      obtain ⟨fraction, rest, hf⟩ :
          ∃ f r, Scanner.splitFraction (body.dropWhile Char.isDigit) = (f, r) := ⟨_, _, rfl⟩
      obtain ⟨hrest, -⟩ := (Scanner.splitFraction_iff hb).1 hf
      have hlt : Text.byteLength minus + Text.byteLength (d :: ds) ≠ Text.byteLength minus := by
        have := Text.utf8Size_pos d
        rw [Text.byteLength_cons]
        omega
      have htext : s.rest = (minus ++ d :: ds ++ fraction) ++ rest := by
        rw [e, hbody, hrest]
        simp
      have hstop := stop_bytes (minus ++ d :: ds) (body.dropWhile Char.isDigit)
      rw [List.append_assoc, ← hbody, ← e, hf, Text.byteLength_append] at hstop
      have hcut := Text.sliceFrom?_append (minus ++ d :: ds ++ fraction) rest
      rw [← htext] at hcut
      rw [if_neg hlt, hstop, hcut, Slicing.bind_cut, List.isEmpty_cons, if_neg Bool.false_ne_true]
      simp only [hf]
      split
      · rfl
      · rw [bind_ok (take_eq _ _ htext rfl)]
        rfl

/-! ## The search for a stop -/

/-- A search ends as `seek` does: at a stop or the end, or with an error at an unclosed literal. -/
def Skips (r : Option (Except Error (Option Char) × Cursor)) (s : Scanner) :
    Except (List Char) (List Char) → Prop
  | .ok rest => ∃ chunk, s.rest = chunk ++ rest ∧ r = some (.ok rest.head?, (s.past chunk rest).cursor)
  | .error rest => ∃ chunk, s.rest = chunk ++ rest ∧
      r = some (.error (.malformedIn s.input "unterminated string literal"),
        (s.past chunk rest).cursor)

theorem Skips.behind {r : Option (Except Error (Option Char) × Cursor)}
    {found : Except (List Char) (List Char)} {chunk rest : List Char}
    (h : Skips r (s.past chunk rest) found) (e : s.rest = chunk ++ rest) : Skips r s found := by
  cases found with
  | ok stop =>
    obtain ⟨more, e', hr⟩ := h
    obtain rfl : rest = more ++ stop := e'
    exact ⟨chunk ++ more, by rw [e, List.append_assoc], by rw [hr, Scanner.past_past]⟩
  | error unclosed =>
    obtain ⟨more, e', hr⟩ := h
    obtain rfl : rest = more ++ unclosed := e'
    exact ⟨chunk ++ more, by rw [e, List.append_assoc], by rw [hr, Scanner.past_past]; rfl⟩

theorem skipFrom_skips (stops : List Char) (depth : Nat) {text : List Char} (hs : s.Valid)
    (e : s.rest = text) (hn : text.length < n) :
    Skips (Cursor.skipFrom stops n depth s.cursor) s (Span.seek stops depth text) := by
  induction n generalizing s depth text with
  | zero => exact absurd hn (Nat.not_lt_zero _)
  | succ n ih =>
    have peeked : Cursor.peek s.cursor = some (.ok text.head?, s.cursor) := by
      rw [← e]
      exact peek_mirrors.follows s hs (Nat.lt_succ_self _)
    have quoted : Cursor.quoted? s.cursor = some (seen cursor (Scanner.quoted? s)) :=
      quoted_mirrors.follows s hs (Nat.lt_succ_self _)
    rw [Cursor.skipFrom, bind_ok peeked]
    cases text with
    | nil =>
      rw [Span.seek]
      exact ⟨[], e, rfl⟩
    | cons c rest =>
      have moved {d : Nat} : Skips ((Cursor.advance c.utf8Size >>= fun _ =>
          Cursor.skipFrom stops n d) s.cursor) s (Span.seek stops d rest) := by
        rw [bind_ok (advance_eq [c] rest (by simp))]
        exact (ih _ (hs.past e) rfl (Nat.lt_of_succ_lt_succ hn)).behind e
      rw [Span.seek]
      simp only [List.head?_cons]
      split
      · rename_i hq
        split
        · rename_i hl
          simp only [Scanner.quoted?, e, hq, hl, if_true] at quoted
          rw [Slicing.bind_error quoted]
          exact ⟨[], e, rfl⟩
        · rename_i body rest' hl
          simp only [Scanner.quoted?, e, hq, hl, if_true] at quoted
          have e' : s.rest = (c :: body) ++ rest' := by rw [e, Span.literalEnd_eq_append hl]; rfl
          have hrest : rest'.length < n :=
            Nat.lt_of_le_of_lt (Span.literalEnd_length hl) (Nat.lt_of_succ_lt_succ hn)
          rw [bind_ok quoted]
          exact (ih _ (hs.past e') rfl hrest).behind e'
      split
      · exact moved
      split
      · exact moved
      split
      · exact ⟨[], e, rfl⟩
      · exact moved

/-- What a search leaves, or an unclosed literal, stands at the end of the text. -/
theorem seek_suffix {stops text : List Char} {found : Except (List Char) (List Char)}
    (h : Span.seek stops 0 text = found) :
    ∃ chunk rest, text = chunk ++ rest ∧ (found = .ok rest ∨ found = .error rest) := by
  have hskips := skipFrom_skips stops 0 (Scanner.valid_ofChars text)
    (rfl : _ = text) (Nat.lt_succ_self _)
  rw [h] at hskips
  cases found with
  | ok rest =>
    obtain ⟨chunk, e, -⟩ := hskips
    exact ⟨chunk, rest, e, .inl rfl⟩
  | error rest =>
    obtain ⟨chunk, e, -⟩ := hskips
    exact ⟨chunk, rest, e, .inr rfl⟩

section
variable {stops chunk rest : List Char} (e : s.rest = chunk ++ rest)
include e

theorem take_chunk : s.rest.take (s.rest.length - rest.length) = chunk := by
  rw [e, List.length_append, Nat.add_sub_cancel]
  exact List.take_left

theorem skipTo_found (h : Span.seek stops 0 s.rest = .ok rest) :
    Scanner.skipTo stops s = .ok rest.head? (s.past chunk rest) := by
  rw [Scanner.skipTo, h]
  dsimp only
  rw [take_chunk e]

theorem skipTo_unclosed (h : Span.seek stops 0 s.rest = .error rest) :
    Scanner.skipTo stops s =
      .error (.malformedIn s.input "unterminated string literal") (s.past chunk rest) := by
  rw [Scanner.skipTo, h]
  dsimp only
  rw [take_chunk e]
  rfl

end

theorem skipTo_mirrors (stops : List Char) :
    Mirrors n (Cursor.skipTo stops) (Scanner.skipTo stops) where
  onward s _ := by
    obtain ⟨chunk, rest, e, hk | hk⟩ := seek_suffix (rfl : Span.seek stops 0 s.rest = _)
    · rw [skipTo_found e hk]
      exact .past e
    · rw [skipTo_unclosed e hk]
      exact .past e
  follows s hs _ := by
    have hn : s.rest.length < s.input.length + 1 := Nat.lt_succ_of_le hs.length_le
    have h := skipFrom_skips stops 0 hs rfl hn
    change Cursor.skipFrom stops (s.input.length + 1) 0 s.cursor = _
    cases hk : Span.seek stops 0 s.rest with
    | ok rest =>
      rw [hk] at h
      obtain ⟨chunk, e, h⟩ := h
      rw [h, skipTo_found e hk]
      rfl
    | error rest =>
      rw [hk] at h
      obtain ⟨chunk, e, h⟩ := h
      rw [h, skipTo_unclosed e hk]
      rfl

end

end Stencil
