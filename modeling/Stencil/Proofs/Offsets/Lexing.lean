import Stencil.Proofs.Markup.RawTags
import Stencil.Proofs.Offsets.Slicing
import Stencil.Proofs.Offsets.Slice

/-!
# Lexing at byte offsets

The lexer with the offset of what is left of the source in place of that text. It searches for
delimiters and cuts the lexemes out between the offsets that it finds. `lexWithin_eq` says that it is
not stuck, and gives the lexemes and the faults of `lexFrom`: an opening delimiter and a closing one have two bytes,
a trim marker has one, and the searches give offsets where a pattern stands.
-/

namespace Stencil

open Slicing (stuck cut)

/-! ## Places -/

namespace Text

/-- The offset of the last occurrence of a character. -/
def rfind? (c : Char) (s : List Char) : Option Nat :=
  ((indices s).filter fun (_, d) => d == c).getLast?.map (·.1)

/-- Line and column of an offset, by the text before it and the last line end there. -/
def lineColumn? (source : List Char) (offset : Nat) : Option (Nat × Nat) := do
  let before ← sliceTo? source (min offset (byteLength source))
  let line := before.count '\n' + 1
  match rfind? '\n' before with
  | some newline => return (line, (← sliceFrom? before (newline + 1)).length + 1)
  | none => return (line, before.length + 1)

end Text

/-- A fault at an offset of a source. -/
def Error.markupAt? (source : String) (offset : Nat) (message : String) : Option Error := do
  let (line, column) ← Text.lineColumn? source.toList offset
  return .markup
    { message, line, column, file := none, snippet := some (.around source line column) }

namespace Markup

def faultAt {τ α : Type} (source : String) (offset : Nat) (message : String) : Slicing τ α := do
  throw (← cut (Error.markupAt? source offset message))

/-! ## Searches -/

/-- The offset of the next opening delimiter. -/
def findOpen (source : List Char) (pos : Nat) : Option (Option Nat) := do
  let left ← Text.sliceFrom? source pos
  return (Option.merge min (Text.find? ['{', '{'] left) (Text.find? ['{', '%'] left)).map (pos + ·)

/-- The offset of the closing delimiter among the characters from `pos` on. -/
def closeAmong (source close : List Char) (pos : Nat) (quote : Option Char) (escaped : Bool) :
    List (Nat × Char) → Option (Option Nat)
  | [] => some none
  | (i, c) :: further =>
    match quote with
    | some q =>
      if escaped then closeAmong source close pos (some q) false further
      else if c = '\\' then closeAmong source close pos (some q) true further
      else if c = q then closeAmong source close pos none escaped further
      else closeAmong source close pos (some q) escaped further
    | none =>
      if Span.isQuote c then closeAmong source close pos (some c) escaped further
      else do
        if close.isPrefixOf (← Text.sliceFrom? source (pos + i)) then return some (pos + i)
        else closeAmong source close pos none escaped further

def findClose (source : List Char) (pos : Nat) (close : List Char) : Option (Option Nat) := do
  closeAmong source close pos none false (Text.indices (← Text.sliceFrom? source pos))

/-- The offset of the tag that ends a raw body, in fewer than `n` steps. -/
def findEndRaw (source : List Char) : Nat → Nat → Option (Option Nat)
  | 0, _ => none
  | n + 1, search => do
    match Text.find? ['{', '%'] (← Text.sliceFrom? source search) with
    | none => return none
    | some found =>
      let start := search + found
      if endsRaw (← Text.sliceFrom? source (start + 2)) then return some start
      else findEndRaw source n (start + 2)

/-! ## Lexemes -/

/-- The text behind a trim marker. -/
def cutFront (inner : List Char) : Option (List Char) :=
  if inner.head? = some '-' then Text.sliceFrom? inner 1 else some inner

/-- The text before a trim marker. -/
def cutBack (inner : List Char) : Option (List Char) :=
  if inner.getLast? = some '-' then do
    Text.sliceTo? inner (← Text.minus? (Text.byteLength inner) 1)
  else some inner

/-- The inside of a delimited lexeme without its trim markers, and the two markers. -/
def cutMarkers (inner : List Char) : Option (Bool × List Char × Bool) := do
  let body ← cutFront inner
  return (inner.head? = some '-', ← cutBack body, body.getLast? = some '-')

def cutTag (inner : List Char) (offset : Nat) : Option (Option TagToken) := do
  let inner := Text.trim inner
  let nameEnd := (Text.firstOf (fun c => !Text.isWordChar c) (Text.indices inner)).getD
    (Text.byteLength inner)
  if nameEnd = 0 then return none
  else
    let name ← Text.sliceTo? inner nameEnd
    let args ← Text.sliceFrom? inner nameEnd
    return some { name := String.ofList name, args := String.ofList (Text.trim args), offset }

/-- The kind of the delimiter that opens at an offset. -/
def openingAt (source : List Char) (start : Nat) : Option Delimiter := do
  let left ← Text.sliceFrom? source start
  return if ['{', '{'].isPrefixOf left then .output else .tag

/-- The raw body from an offset on, and where it ends. -/
def cutRaw (source : List Char) (pos : Nat) (trimStart : Bool) : Option (Option (List Char × Nat)) := do
  match ← findEndRaw source (source.length + 1) pos with
  | none => return none
  | some stop =>
    let body ← Text.slice? source pos stop
    let body := if trimStart then Text.trimStart body else body
    let following ← Text.sliceFrom? source (stop + 2)
    return some (if following.head? = some '-' then Text.trimEnd body else body, stop)

/-- The lexemes from a delimited one on, which opens at `start` and closes at `stop`; `more` gives those
from an offset on. -/
def lexDelimited (source : String) (more : Nat → Bool → Slicing Unit (List Lexeme))
    (start stop : Nat) (before : List Lexeme) (body : List Char) (right : Bool) :
    Delimiter → Slicing Unit (List Lexeme)
  | .output => return before ++ .output (String.ofList body) start :: (← more (stop + 2) right)
  | .tag => do
    match ← cut (cutTag body start) with
    | none => faultAt source start "missing tag name"
    | some t =>
      if t.name = "raw" then
        match ← cut (cutRaw source.toList (stop + 2) right) with
        | none => faultAt source start "tag 'raw' was never closed"
        | some (raw, stop) =>
          return before ++ .tag t :: .text (String.ofList raw) :: (← more stop false)
      else return before ++ .tag t :: (← more (stop + 2) right)

/-- The lexemes from offset `pos` on, in fewer than `n` steps. -/
def lexWithin (source : String) : Nat → Nat → Bool → Slicing Unit (List Lexeme)
  | 0, _, _ => stuck
  | n + 1, pos, trimNext => do
    let text := source.toList
    if Text.byteLength text ≤ pos then return []
    match ← cut (findOpen text pos) with
    | none => return textLexeme trimNext false (← cut (Text.sliceFrom? text pos))
    | some start =>
      let d ← cut (openingAt text start)
      match ← cut (findClose text (start + 2) [d.closing.1, d.closing.2]) with
      | none =>
        let opening ← cut (Text.slice? text start (start + 2))
        faultAt source start ("'" ++ String.ofList opening ++ "' was never closed")
      | some stop =>
        let inner ← cut (Text.slice? text (start + 2) stop)
        let (left, body, right) ← cut (cutMarkers inner)
        let before := textLexeme trimNext left (← cut (Text.slice? text pos start))
        lexDelimited source (lexWithin source n) start stop before body right d

def lexAt (source : String) : Slicing Unit (List Lexeme) :=
  lexWithin source (source.toList.length + 1) 0 false

end Markup

/-! ## Line and column -/

namespace Text

theorem advance_zero (line column : Nat) (s : List Char) : advance line column s 0 = (line, column) := by
  cases s with
  | nil => rfl
  | cons c s => exact if_pos (utf8Size_pos c)

theorem advance_cons (line column : Nat) (c : Char) (front s : List Char) :
    advance line column (c :: front ++ s) (byteLength (c :: front)) =
      if c = '\n' then advance (line + 1) 1 (front ++ s) (byteLength front)
      else advance line (column + 1) (front ++ s) (byteLength front) := by
  rw [List.cons_append, advance, byteLength_cons, if_neg (by omega), Nat.add_sub_cancel_left]

theorem advance_within_line {line : List Char} (h : '\n' ∉ line) (n column : Nat) (s : List Char) :
    advance n column (line ++ s) (byteLength line) = (n, column + line.length) := by
  induction line generalizing column with
  | nil => exact advance_zero n column s
  | cons c line ih =>
    obtain ⟨hc, hline⟩ := not_or.1 (mt List.mem_cons.2 h)
    rw [advance_cons, if_neg (Ne.symm hc), ih hline, List.length_cons]
    rw [Nat.add_assoc, Nat.add_comm 1]

theorem advance_past_lines {line : List Char} (h : '\n' ∉ line) (n column : Nat) (front s : List Char) :
    advance n column (front ++ '\n' :: line ++ s) (byteLength (front ++ '\n' :: line)) =
      (n + (front.count '\n' + 1), line.length + 1) := by
  induction front generalizing n column with
  | nil =>
    rw [List.nil_append, advance_cons, if_pos rfl, advance_within_line h, Nat.add_comm 1]
    rfl
  | cons c front ih =>
    rw [List.cons_append, advance_cons, ih, ih]
    by_cases hc : c = '\n'
    · rw [if_pos hc, hc, List.count_cons_self, Nat.add_assoc, Nat.add_comm 1]
    · rw [if_neg hc, List.count_cons_of_ne hc]

theorem indicesFrom_append (n : Nat) (s t : List Char) :
    indicesFrom n (s ++ t) = indicesFrom n s ++ indicesFrom (n + byteLength s) t := by
  induction s generalizing n with
  | nil => rfl
  | cons c s ih => rw [List.cons_append, indicesFrom, ih, byteLength_cons, Nat.add_assoc]; rfl

theorem filter_indicesFrom {c : Char} {s : List Char} (h : c ∉ s) (n : Nat) :
    (indicesFrom n s).filter (fun (_, d) => d == c) = [] := by
  induction s generalizing n with
  | nil => rfl
  | cons d s ih =>
    obtain ⟨hd, hs⟩ := not_or.1 (mt List.mem_cons.2 h)
    rw [indicesFrom, List.filter_cons_of_neg (by simpa using Ne.symm hd), ih hs]

theorem rfind?_last {c : Char} {line : List Char} (h : c ∉ line) (front : List Char) :
    rfind? c (front ++ c :: line) = some (byteLength front) := by
  rw [rfind?, indices, indicesFrom_append, indicesFrom, List.filter_append,
    List.filter_cons_of_pos (by simp), filter_indicesFrom h, List.getLast?_concat]
  simp

/-- A place that a character stands at, or the end, has a line and a column. -/
theorem lineColumn?_eq (before s : List Char) :
    lineColumn? (before ++ s) (byteLength before) = some (lineColumn (before ++ s) (byteLength before)) := by
  have hmin : min (byteLength before) (byteLength (before ++ s)) = byteLength before := by
    rw [byteLength_append]
    omega
  rw [lineColumn?, hmin, sliceTo?_append, lineColumn]
  simp only [Option.bind_eq_bind, Option.bind_some]
  by_cases h : '\n' ∈ before
  · obtain ⟨line, front, hrev, hline⟩ := List.eq_append_cons_of_mem (List.mem_reverse.2 h)
    obtain rfl : before = front.reverse ++ '\n' :: line.reverse := by
      simpa using congrArg List.reverse hrev
    have hline : '\n' ∉ line.reverse := by simpa using hline
    generalize front.reverse = front, line.reverse = line at hline
    have hcut := sliceFrom?_append (front ++ ['\n']) line
    have hnext : byteLength (front ++ ['\n']) = byteLength front + 1 := byteLength_append front ['\n']
    rw [hnext, List.append_assoc, List.singleton_append] at hcut
    rw [rfind?_last hline, advance_past_lines hline]
    dsimp only
    rw [hcut, List.count_append, List.count_cons_self, List.count_eq_zero.2 hline]
    simp [Nat.add_comm]
  · rw [rfind?, indices, filter_indicesFrom h, advance_within_line h, List.count_eq_zero.2 h]
    simp [Nat.add_comm]

end Text

theorem Error.markupAt?_eq {source : String} {before s : List Char} (e : source.toList = before ++ s)
    (message : String) : Error.markupAt? source (Text.byteLength before) message =
      some (Error.markupAt source (Text.byteLength before) message) := by
  rw [Error.markupAt?, e, Text.lineColumn?_eq, Error.markupAt, e]
  rfl

namespace Markup

/-! ## The searches find where a pattern stands -/

theorem pair_isPrefixOf {a b c : Char} {s : List Char} :
    [a, b].isPrefixOf (c :: s) = true ↔ c = a ∧ s.head? = some b := by
  rw [List.isPrefixOf_iff_prefix, List.cons_prefix_cons, eq_comm (a := a)]
  cases s with
  | nil => simp
  | cons d s => rw [List.cons_prefix_cons, eq_comm (a := b)]; simp

theorem merge_map_add (a b : Option Nat) (k : Nat) :
    Option.merge min (a.map (· + k)) (b.map (· + k)) = (Option.merge min a b).map (· + k) := by
  cases a <;> cases b <;> simp [Option.merge, Nat.add_min_add_right]

theorem findOpening_eq (s : List Char) :
    Option.merge min (Text.find? ['{', '{'] s) (Text.find? ['{', '%'] s) =
      (splitOpening s).map fun (text, _, _) => Text.byteLength text := by
  fun_induction splitOpening s with
  | case1 => rfl
  | case2 rest =>
    rw [Text.find?, if_pos (by rfl)]
    cases Text.find? ['{', '%'] ('{' :: '{' :: rest) <;> simp [Option.merge]
  | case3 rest =>
    rw [Text.find?_cons ['{', '%'], if_pos (by rfl)]
    cases Text.find? ['{', '{'] ('{' :: '%' :: rest) <;> simp [Option.merge]
  | case4 c s ho ht ih =>
    have hopen : ¬ ['{', '{'].isPrefixOf (c :: s) = true := fun h => by
      obtain ⟨rfl, hs⟩ := pair_isPrefixOf.1 h
      obtain ⟨rest, rfl⟩ := List.head?_eq_some_iff.1 hs
      exact ho rest rfl rfl
    have htag : ¬ ['{', '%'].isPrefixOf (c :: s) = true := fun h => by
      obtain ⟨rfl, hs⟩ := pair_isPrefixOf.1 h
      obtain ⟨rest, rfl⟩ := List.head?_eq_some_iff.1 hs
      exact ht rest rfl rfl
    rw [Text.find?, if_neg hopen, Text.find?, if_neg htag, merge_map_add, ih]
    cases splitOpening s with
    | none => rfl
    | some p => simp [Nat.add_comm]

theorem findOpen_eq (taken s : List Char) : findOpen (taken ++ s) (Text.byteLength taken) =
    some ((splitOpening s).map fun (text, _, _) => Text.byteLength taken + Text.byteLength text) := by
  rw [findOpen, Text.sliceFrom?_append]
  simp only [Option.bind_eq_bind, Option.bind_some, findOpening_eq, Option.map_map]
  rfl

/-- The search for a closing delimiter in what is left, which stands at `pos + i`. -/
def ClosesAs (close : Char × Char) (pos : Nat) (quote : Option Char) (s : List Char) : Prop :=
  ∀ (taken : List Char) (i : Nat), pos + i = Text.byteLength taken →
    closeAmong (taken ++ s) [close.1, close.2] pos quote false (Text.indicesFrom i s) =
      some ((splitClosing close quote s).map fun (inner, _) => pos + i + Text.byteLength inner)

/-- What the search finds behind a chunk stands as much further on. -/
theorem ClosesAs.behind {close : Char × Char} {pos i : Nat} {quote : Option Char} {s : List Char}
    (h : ClosesAs close pos quote s) {taken : List Char} (hi : pos + i = Text.byteLength taken)
    (chunk : List Char) :
    closeAmong (taken ++ (chunk ++ s)) [close.1, close.2] pos quote false
        (Text.indicesFrom (i + Text.byteLength chunk) s) =
      some (((splitClosing close quote s).map fun (inner, rest) => (chunk ++ inner, rest)).map
        fun (inner, _) => pos + i + Text.byteLength inner) := by
  have := h (taken ++ chunk) (i + Text.byteLength chunk) (by rw [Text.byteLength_append]; omega)
  rw [List.append_assoc] at this
  rw [this, Option.map_map]
  simp [Function.comp_def, Nat.add_assoc]

theorem closesAs (close : Char × Char) (pos : Nat) (quote : Option Char) (s : List Char) :
    ClosesAs close pos quote s := by
  fun_induction splitClosing close quote s with
  | case1 => exact fun _ _ _ => rfl
  | case2 q => intro taken i hi; simp [Text.indicesFrom, closeAmong, splitClosing]
  | case3 q d s ih =>
    intro taken i hi
    have h := ih.behind hi ['\\', d]
    have hlen : i + Text.byteLength ['\\', d] = i + ('\\').utf8Size + d.utf8Size := by
      simp [Nat.add_assoc]
    rw [hlen] at h
    rw [splitClosing.eq_def]
    exact h
  | case4 c s q hc ih =>
    intro taken i hi
    have h := ih.behind hi [c]
    rw [Text.byteLength_cons, Text.byteLength_nil, Nat.add_zero] at h
    simp only [splitClosing.eq_def _ _ (c :: s), if_neg hc, Text.indicesFrom, closeAmong,
      if_neg Bool.false_ne_true]
    split
    · rename_i hq
      rw [if_pos hq] at h
      exact h
    · rename_i hq
      rw [if_neg hq] at h
      exact h
  | case5 c s hq ih =>
    intro taken i hi
    have h := ih.behind hi [c]
    rw [Text.byteLength_cons, Text.byteLength_nil, Nat.add_zero] at h
    simp only [splitClosing.eq_def _ _ (c :: s), if_pos hq, Text.indicesFrom, closeAmong]
    exact h
  | case6 c s hq hc =>
    intro taken i hi
    simp only [splitClosing.eq_def _ _ (c :: s), if_neg hq, if_pos hc, Text.indicesFrom, closeAmong]
    rw [hi, Text.sliceFrom?_append]
    simp only [Option.bind_eq_bind, Option.bind_some, if_pos (pair_isPrefixOf.2 hc)]
    rfl
  | case7 c s hq hc ih =>
    intro taken i hi
    have h := ih.behind hi [c]
    have hprefix : ¬ [close.1, close.2].isPrefixOf (c :: s) = true := fun h => hc (pair_isPrefixOf.1 h)
    rw [Text.byteLength_cons, Text.byteLength_nil, Nat.add_zero] at h
    simp only [splitClosing.eq_def _ _ (c :: s), if_neg hq, if_neg hc, Text.indicesFrom, closeAmong]
    rw [hi, Text.sliceFrom?_append]
    simp only [Option.bind_eq_bind, Option.bind_some, if_neg hprefix]
    rw [← hi]
    exact h

theorem findClose_eq (taken s : List Char) (close : Char × Char) :
    findClose (taken ++ s) (Text.byteLength taken) [close.1, close.2] =
      some ((splitClosing close none s).map fun (inner, _) =>
        Text.byteLength taken + Text.byteLength inner) := by
  rw [findClose, Text.sliceFrom?_append]
  exact closesAs close _ none s taken 0 (Nat.add_zero _)

/-- The first tag is where the walk over the characters meets one. -/
theorem splitEndRaw_find (s : List Char) :
    match Text.find? ['{', '%'] s with
    | none => splitEndRaw s = none
    | some found => ∃ front rest, s = front ++ '{' :: '%' :: rest ∧ found = Text.byteLength front ∧
        splitEndRaw s = (splitEndRaw ('{' :: '%' :: rest)).map fun (body, r) => (front ++ body, r) := by
  induction s with
  | nil => rfl
  | cons c s ih =>
    rw [Text.find?]
    by_cases hp : ['{', '%'].isPrefixOf (c :: s) = true
    · obtain ⟨rfl, hs⟩ := pair_isPrefixOf.1 hp
      obtain ⟨rest, rfl⟩ := List.head?_eq_some_iff.1 hs
      rw [if_pos hp]
      exact ⟨[], rest, rfl, rfl, by simp⟩
    · have hstep := splitEndRaw_cons fun hc hs => hp (pair_isPrefixOf.2 ⟨hc, hs⟩)
      rw [if_neg hp, hstep]
      cases hf : Text.find? ['{', '%'] s with
      | none =>
        rw [hf] at ih
        rw [ih]
        rfl
      | some found =>
        rw [hf] at ih
        obtain ⟨front, rest, rfl, rfl, e⟩ := ih
        refine ⟨c :: front, rest, rfl, ?_, ?_⟩
        · rw [Text.byteLength_cons, Nat.add_comm]
        · rw [e, Option.map_map]
          rfl

theorem findEndRaw_eq {n : Nat} (taken s : List Char) (hn : s.length < n) :
    findEndRaw (taken ++ s) n (Text.byteLength taken) =
      some ((splitEndRaw s).map fun (body, _) => Text.byteLength taken + Text.byteLength body) := by
  induction n generalizing taken s with
  | zero => exact absurd hn (Nat.not_lt_zero _)
  | succ n ih =>
    have hfind := splitEndRaw_find s
    rw [findEndRaw, Text.sliceFrom?_append]
    simp only [Option.bind_eq_bind, Option.bind_some]
    cases hf : Text.find? ['{', '%'] s with
    | none =>
      rw [hf] at hfind
      rw [hfind]
      rfl
    | some found =>
      rw [hf] at hfind
      obtain ⟨front, rest, rfl, rfl, e⟩ := hfind
      have hpast : Text.byteLength taken + Text.byteLength front + 2 =
          Text.byteLength (taken ++ front ++ ['{', '%']) := by
        simp only [Text.byteLength_append]
        rfl
      have hsource : taken ++ (front ++ '{' :: '%' :: rest) = taken ++ front ++ ['{', '%'] ++ rest := by
        simp
      dsimp only
      rw [e, hpast, hsource, Text.sliceFrom?_append, splitEndRaw, Option.bind_some]
      split
      · simp
      · rw [ih _ _ (by simp at hn; omega), Option.map_map, Option.map_map]
        congr 2
        funext p
        simp [Nat.add_assoc]

/-! ## Lexemes are cut out between the offsets -/

theorem cutFront_eq (inner : List Char) :
    cutFront inner = some (if inner.head? = some '-' then inner.tail else inner) := by
  unfold cutFront
  split
  · rename_i h
    obtain ⟨rest, rfl⟩ := List.head?_eq_some_iff.1 h
    exact Text.sliceFrom?_append ['-'] rest
  · rfl

theorem cutBack_eq (inner : List Char) :
    cutBack inner = some (if inner.getLast? = some '-' then inner.dropLast else inner) := by
  unfold cutBack
  split
  · rename_i h
    obtain ⟨rest, rfl⟩ := List.getLast?_eq_some_iff.1 h
    have hlen : Text.byteLength (rest ++ ['-']) = Text.byteLength rest + 1 :=
      Text.byteLength_append rest ['-']
    rw [hlen, Text.minus?_add, List.dropLast_concat]
    exact Text.sliceTo?_append rest ['-']
  · rfl

theorem cutMarkers_eq (inner : List Char) : cutMarkers inner = some (splitMarkers inner) := by
  unfold cutMarkers splitMarkers
  simp [cutFront_eq, cutBack_eq]

theorem cutTag_eq (inner : List Char) (offset : Nat) :
    cutTag inner offset = some (tagToken? inner offset) := by
  unfold cutTag tagToken?
  generalize Text.trim inner = inner
  have hend := Text.firstOf_indicesFrom Text.isWordChar 0 inner
  rw [Nat.zero_add, Nat.zero_add] at hend
  simp only [Text.indices, hend]
  have hsplit : inner.takeWhile Text.isWordChar ++ inner.dropWhile Text.isWordChar = inner :=
    List.takeWhile_append_dropWhile
  have hto := Text.sliceTo?_append (inner.takeWhile Text.isWordChar) (inner.dropWhile Text.isWordChar)
  have hfrom :=
    Text.sliceFrom?_append (inner.takeWhile Text.isWordChar) (inner.dropWhile Text.isWordChar)
  rw [hsplit] at hto hfrom
  cases hname : inner.takeWhile Text.isWordChar with
  | nil => rfl
  | cons c name =>
    have hpos : Text.byteLength (c :: name) ≠ 0 := by
      have := Text.utf8Size_pos c
      rw [Text.byteLength_cons]
      omega
    rw [hname] at hto hfrom
    rw [if_neg hpos, hto, hfrom]
    rfl

theorem openingAt_eq (taken s : List Char) (d : Delimiter) :
    openingAt (taken ++ (d.opening ++ s)) (Text.byteLength taken) = some d := by
  rw [openingAt, Text.sliceFrom?_append]
  cases d <;> rfl

theorem cutRaw_eq (taken s : List Char) (trimStart : Bool) :
    cutRaw (taken ++ s) (Text.byteLength taken) trimStart =
      some ((splitEndRaw s).map fun (body, rest) =>
        (rawBody trimStart body rest, Text.byteLength taken + Text.byteLength body)) := by
  have hn : s.length < (taken ++ s).length + 1 := by
    rw [List.length_append]
    omega
  rw [cutRaw, findEndRaw_eq taken s hn]
  cases hraw : splitEndRaw s with
  | none => rfl
  | some p =>
    obtain ⟨body, rest⟩ := p
    obtain ⟨inside, rfl, -⟩ := splitEndRaw_ends hraw
    obtain rfl := splitEndRaw_eq hraw
    have hfollowing := Text.sliceFrom?_append (taken ++ body ++ ['{', '%']) inside
    have hpast : Text.byteLength (taken ++ body ++ ['{', '%']) =
        Text.byteLength taken + Text.byteLength body + 2 := by
      simp only [Text.byteLength_append]
      rfl
    rw [hpast] at hfollowing
    simp only [Option.bind_eq_bind, Option.map_some, Option.bind_some, Text.slice?_between]
    rw [show taken ++ (body ++ '{' :: '%' :: inside) = taken ++ body ++ ['{', '%'] ++ inside by simp,
      hfollowing]
    rfl

theorem faultAt_eq {τ α : Type} {source : String} {before s : List Char}
    (e : source.toList = before ++ s) (message : String) (t : τ) :
    (faultAt source (Text.byteLength before) message : Slicing τ α) t =
      some (.error (Error.markupAt source (Text.byteLength before) message), t) := by
  rw [faultAt, Error.markupAt?_eq e]
  rfl

theorem faultAt_start {source : String} {taken s text s1 : List Char} {d : Delimiter}
    (hs : source.toList = taken ++ s) (ho : splitOpening s = some (text, d, s1)) (message : String) :
    (faultAt source (Text.byteLength taken + Text.byteLength text) message :
      Slicing Unit (List Lexeme)) () = some (.error (.markupAt source
        (Text.byteLength taken + Text.byteLength text) message), ()) := by
  have hsource : source.toList = (taken ++ text) ++ (d.opening ++ s1) := by
    rw [hs, splitOpening_eq ho]
    simp
  rw [← Text.byteLength_append]
  exact faultAt_eq hsource message ()

section
variable {source : String} {pos : Nat} {taken s text s1 : List Char} {d : Delimiter}
  (hs : source.toList = taken ++ s) (hp : Text.byteLength taken = pos)
  (ho : splitOpening s = some (text, d, s1))
include hs hp ho

/-- What the lexer cuts out up to behind an opening delimiter. -/
theorem opened : ¬ Text.byteLength source.toList ≤ pos ∧
    findOpen source.toList pos = some (some (pos + Text.byteLength text)) ∧
    Text.slice? source.toList pos (pos + Text.byteLength text) = some text ∧
    openingAt source.toList (pos + Text.byteLength text) = some d ∧
    Text.slice? source.toList (pos + Text.byteLength text) (pos + Text.byteLength text + 2) =
      some d.opening ∧
    findClose source.toList (pos + Text.byteLength text + 2) [d.closing.1, d.closing.2] =
      some ((splitClosing d.closing none s1).map fun (inner, _) =>
        pos + Text.byteLength text + 2 + Text.byteLength inner) := by
  have htwo : Text.byteLength d.opening = 2 := by cases d <;> rfl
  have hsource : source.toList = taken ++ (text ++ (d.opening ++ s1)) := by
    rw [hs, splitOpening_eq ho, List.append_assoc]
  have hfind := findOpen_eq taken s
  have htext := Text.slice?_between taken text (d.opening ++ s1)
  have hkind := openingAt_eq (taken ++ text) s1 d
  have hopening := Text.slice?_between (taken ++ text) d.opening s1
  have hclose := findClose_eq (taken ++ text ++ d.opening) s1 d.closing
  simp only [List.append_assoc, Text.byteLength_append, hp, htwo] at htext hkind hopening hclose
  rw [ho, hp, ← hs] at hfind
  rw [← hsource] at htext hkind hopening hclose
  refine ⟨?_, hfind, htext, hkind, hopening, ?_⟩
  · rw [hsource, Text.byteLength_append, Text.byteLength_append, Text.byteLength_append, hp, htwo]
    omega
  · rw [← Nat.add_assoc] at hclose
    exact hclose

variable {n : Nat} {trimNext : Bool}

theorem lexWithin_unclosed (hc : splitClosing d.closing none s1 = none) :
    lexWithin source (n + 1) pos trimNext () = some (.error (.markupAt source
      (pos + Text.byteLength text) ("'" ++ String.ofList d.opening ++ "' was never closed")), ()) := by
  obtain ⟨hend, hopen, htext, hkind, hopening, hclose⟩ := opened hs hp ho
  rw [hc] at hclose
  rw [lexWithin]
  dsimp only
  rw [if_neg hend, hopen, Slicing.bind_cut]
  dsimp only
  rw [hkind, Slicing.bind_cut, hclose, Slicing.bind_cut]
  dsimp only [Option.map_none]
  rw [hopening, Slicing.bind_cut, ← hp]
  exact faultAt_start hs ho _

theorem lexWithin_delimited {inner s2 body : List Char} {left right : Bool}
    (hc : splitClosing d.closing none s1 = some (inner, s2))
    (hm : splitMarkers inner = (left, body, right)) :
    lexWithin source (n + 1) pos trimNext () =
      lexDelimited source (lexWithin source n) (pos + Text.byteLength text)
        (pos + Text.byteLength text + 2 + Text.byteLength inner) (textLexeme trimNext left text) body
        right d () := by
  obtain ⟨hend, hopen, htext, hkind, hopening, hclose⟩ := opened hs hp ho
  rw [hc] at hclose
  have htwo : Text.byteLength d.opening = 2 := by cases d <;> rfl
  have hsource : source.toList =
      (taken ++ text ++ d.opening) ++ (inner ++ ([d.closing.1, d.closing.2] ++ s2)) := by
    rw [hs, splitOpening_eq ho, splitClosing_eq hc]
    simp
  have hinner := Text.slice?_between (taken ++ text ++ d.opening) inner ([d.closing.1, d.closing.2] ++ s2)
  rw [← hsource, Text.byteLength_append, Text.byteLength_append, hp, htwo] at hinner
  rw [lexWithin]
  dsimp only
  rw [if_neg hend, hopen, Slicing.bind_cut]
  dsimp only
  rw [hkind, Slicing.bind_cut, hclose, Slicing.bind_cut]
  dsimp only [Option.map_some]
  rw [hinner, Slicing.bind_cut, cutMarkers_eq, hm, Slicing.bind_cut]
  dsimp only
  rw [htext, Slicing.bind_cut]

end

theorem lt_of_split {s text s1 inner s2 : List Char} {d : Delimiter}
    (ho : splitOpening s = some (text, d, s1))
    (hc : splitClosing d.closing none s1 = some (inner, s2)) : s2.length < s.length := by
  have := splitOpening_length ho
  have := splitClosing_length hc
  omega

theorem stop_eq (start n : Nat) : start + 2 + n + 2 = start + 4 + n := by omega

theorem bind_pure_eq {r : Except Error (List Lexeme)} {w : Slicing Unit (List Lexeme)}
    (h : w () = some (r, ())) (f : List Lexeme → List Lexeme) :
    (w >>= fun more => pure (f more)) () = some (r >>= fun more => pure (f more), ()) := by
  cases r with
  | ok more => exact Slicing.bind_ok h
  | error e => exact Slicing.bind_error h

theorem lexWithin_eq {source : String} {n pos : Nat} {trimNext : Bool} {taken s : List Char}
    (hs : source.toList = taken ++ s) (hp : Text.byteLength taken = pos) (hn : s.length ≤ n) :
    lexWithin source (n + 1) pos trimNext () = some (lexFrom source pos trimNext s, ()) := by
  fun_induction lexFrom source pos trimNext s generalizing taken n with
  | case1 pos trimNext s ho =>
    have hfind := findOpen_eq taken s
    have hcut := Text.sliceFrom?_append taken s
    rw [← hs, hp] at hfind hcut
    rw [ho] at hfind
    rw [lexWithin]
    dsimp only
    split
    · rename_i hend
      obtain rfl : s = [] := by
        rw [hs, Text.byteLength_append, hp] at hend
        cases s with
        | nil => rfl
        | cons c s =>
          have := Text.utf8Size_pos c
          rw [Text.byteLength_cons] at hend
          omega
      cases trimNext <;> rfl
    · rw [hfind, Slicing.bind_cut]
      dsimp only [Option.map_none]
      rw [hcut]
      rfl
  | case2 =>
    exact lexWithin_unclosed hs hp ‹_› ‹_›
  | case3 pos trimNext s text s1 start inner s2 left body right hm before after ho hc =>
    rename_i ih
    subst hp
    obtain ⟨-, taken', hs', hp'⟩ := delimited_of_split hs ho hc
    have hlt := lt_of_split ho hc
    obtain ⟨n, rfl⟩ : ∃ k, n = k + 1 := ⟨n - 1, by omega⟩
    rw [lexWithin_delimited hs rfl ho hc hm]
    refine bind_pure_eq ?_ _
    rw [stop_eq]
    exact ih hs' hp' (by omega)
  | case4 pos trimNext s text s1 start inner s2 left body right hm ho hc ht =>
    subst hp
    rw [lexWithin_delimited hs rfl ho hc hm, lexDelimited, cutTag_eq, ht, Slicing.bind_cut]
    exact faultAt_start hs ho _
  | case5 pos trimNext s text s1 start inner s2 left body right hm ho hc t ht hraw hend =>
    subst hp
    obtain ⟨-, taken', hs', hp'⟩ := delimited_of_split hs ho hc
    have hcut := cutRaw_eq taken' s2 right
    rw [← hs', hp', hend] at hcut
    rw [lexWithin_delimited hs rfl ho hc hm, lexDelimited, cutTag_eq, ht, Slicing.bind_cut]
    dsimp only
    rw [if_pos hraw, stop_eq, hcut, Slicing.bind_cut]
    exact faultAt_start hs ho _
  | case6 pos trimNext s text s1 start inner s2 left body right hm before after ho hc t ht hraw raw
      s3 hend =>
    rename_i ih
    subst hp
    obtain ⟨-, taken', hs', hp'⟩ := delimited_of_split hs ho hc
    have hlt := lt_of_split ho hc
    obtain ⟨n, rfl⟩ : ∃ k, n = k + 1 := ⟨n - 1, by omega⟩
    have hle := splitEndRaw_length hend
    have hcut := cutRaw_eq taken' s2 right
    rw [← hs', hp', hend] at hcut
    have hs'' : source.toList = (taken' ++ raw) ++ s3 := by
      rw [hs', splitEndRaw_eq hend, List.append_assoc]
    rw [lexWithin_delimited hs rfl ho hc hm, lexDelimited, cutTag_eq, ht, Slicing.bind_cut]
    dsimp only
    rw [if_pos hraw, stop_eq, hcut, Slicing.bind_cut]
    exact bind_pure_eq (ih hs'' (by rw [Text.byteLength_append, hp']) (by omega)) _
  | case7 pos trimNext s text s1 start inner s2 left body right hm before after ho hc t ht hraw =>
    rename_i ih
    subst hp
    obtain ⟨-, taken', hs', hp'⟩ := delimited_of_split hs ho hc
    have hlt := lt_of_split ho hc
    obtain ⟨n, rfl⟩ : ∃ k, n = k + 1 := ⟨n - 1, by omega⟩
    rw [lexWithin_delimited hs rfl ho hc hm, lexDelimited, cutTag_eq, ht, Slicing.bind_cut]
    dsimp only
    rw [if_neg hraw, stop_eq]
    exact bind_pure_eq (ih hs' hp' (by omega)) _

theorem lexAt_eq (source : String) : lexAt source () = some (lex source, ()) :=
  lexWithin_eq (List.nil_append _).symm rfl (Nat.le_refl _)

end Markup

end Stencil
