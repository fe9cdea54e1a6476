import Stencil.Snippet

/-!
# What snippets show

The place of a text in a source, as a line and a column, is a place in that line. A snippet shows the
line of its place with a caret row right behind it, the only one. The caret stands under the column
as long as the line number fits its four columns (`Snippet.pointsAt_iff`).
-/

namespace Stencil

/-! ## Places in lines -/

namespace Text

/-- A line, in reverse, without the carriage return that may end it. -/
def dropReturn : List Char → List Char
  | '\r' :: kept => kept
  | kept => kept

theorem linesFrom_newline (current s : List Char) :
    linesFrom current ('\n' :: s) = (dropReturn current).reverse :: linesFrom [] s := by
  rw [linesFrom.eq_def]
  dsimp only
  rw [if_pos rfl]
  cases current with
  | nil => rfl
  | cons d kept =>
    by_cases hd : d = '\r'
    · subst hd
      rfl
    · simp [dropReturn, hd]

theorem linesFrom_cons {c : Char} (hc : c ≠ '\n') (current s : List Char) :
    linesFrom current (c :: s) = linesFrom (c :: current) s := by
  rw [linesFrom.eq_def]
  exact if_neg hc

theorem dropReturn_suffix (current : List Char) : dropReturn current <:+ current := by
  unfold dropReturn
  split
  · exact List.suffix_cons _ _
  · exact List.suffix_refl _

/-- What a line starts with stays, where it does not end in a carriage return. -/
theorem suffix_dropReturn {start : List Char} (h : start.head? ≠ some '\r') (current : List Char) :
    start <:+ dropReturn (current ++ start) := by
  unfold dropReturn
  split
  · rename_i kept e
    cases current with
    | nil =>
      rw [List.nil_append] at e
      rw [e] at h
      exact absurd rfl h
    | cons d current =>
      obtain ⟨-, rfl⟩ := List.cons.inj e
      exact List.suffix_append _ _
  · exact List.suffix_append _ _

theorem linesFrom_append {start : List Char} (h : start.head? ≠ some '\r') (hn : start ≠ [])
    (current s : List Char) :
    ∃ right others, linesFrom (current ++ start) s = (start.reverse ++ right) :: others := by
  induction s generalizing current with
  | nil =>
    refine ⟨current.reverse, [], ?_⟩
    rw [linesFrom, if_neg (by simp [hn]), List.reverse_append]
  | cons c s ih =>
    by_cases hc : c = '\n'
    · subst hc
      obtain ⟨kept, e⟩ := suffix_dropReturn h current
      exact ⟨kept.reverse, _, by rw [linesFrom_newline, ← e, List.reverse_append]⟩
    · rw [linesFrom_cons hc]
      exact ih (c :: current)

/-- Where two characters stand that are no line ends, there they stand in a line: the line of their
offset, at the column of their offset. -/
theorem exists_line (line : Nat) (current before : List Char) {x y : Char} (after : List Char)
    (hx : x ≠ '\n') (hy : y ≠ '\n') (hy' : y ≠ '\r') :
    ∃ k left right,
      advance line (current.length + 1) (before ++ [x, y] ++ after) (byteLength before) =
        (line + k, left.length + 1) ∧
      (linesFrom current (before ++ [x, y] ++ after))[k]? = some (left ++ [x, y] ++ right) := by
  induction before generalizing line current with
  | nil =>
    obtain ⟨right, others, e⟩ := @linesFrom_append (y :: x :: current) (by simpa using hy')
      (List.cons_ne_nil _ _) [] after
    rw [List.nil_append] at e
    refine ⟨0, current.reverse, right, ?_, ?_⟩
    · rw [List.length_reverse]
      exact if_pos (utf8Size_pos x)
    · change (linesFrom current (x :: y :: after))[0]? = _
      rw [linesFrom_cons hx, linesFrom_cons hy, e]
      simp
  | cons c before ih =>
    have hpast : ¬ byteLength (c :: before) < c.utf8Size := by
      rw [byteLength_cons]
      omega
    simp only [List.cons_append]
    rw [advance, if_neg hpast, byteLength_cons, Nat.add_sub_cancel_left]
    by_cases hc : c = '\n'
    · subst hc
      obtain ⟨k, left, right, hplace, hline⟩ := ih (line + 1) []
      rw [if_pos rfl, linesFrom_newline]
      refine ⟨k + 1, left, right, ?_, hline⟩
      rw [Nat.add_comm k 1, ← Nat.add_assoc]
      exact hplace
    · rw [if_neg hc, linesFrom_cons hc]
      exact ih line (c :: current)

theorem newline_not_mem_linesFrom {current s : List Char} (h : '\n' ∉ current) :
    ∀ l ∈ linesFrom current s, '\n' ∉ l := by
  induction s generalizing current with
  | nil =>
    rw [linesFrom]
    split
    · simp
    · simpa using h
  | cons c s ih =>
    by_cases hc : c = '\n'
    · subst hc
      rw [linesFrom_newline]
      refine List.forall_mem_cons.2 ⟨?_, ih List.not_mem_nil⟩
      rw [List.mem_reverse]
      exact fun hm => h ((dropReturn_suffix current).subset hm)
    · rw [linesFrom_cons hc]
      exact ih fun hm => (List.mem_cons.1 hm).elim (fun e => hc e.symm) h

end Text

/-! ## Rows -/

namespace Snippet

/-- The rows of the snippet as it is shown. -/
def displayed (s : Snippet) : List (List Char) := s.text.toList.splitOn '\n'

/-- What stands in front of a line. -/
def number (n : Nat) : List Char := (gutter n ++ " | ").toList

/-- A row without a number: nothing in front of the bar, and a caret behind it. -/
def IsCaret (row : List Char) : Prop :=
  ∃ m n, row = List.replicate m ' ' ++ '|' :: (List.replicate n ' ' ++ ['^'])

/-- Right behind the row of a line stands the caret row, the only one. -/
def Carets (s : Snippet) (line caret : List Char) : Prop :=
  ∃ above below, s.displayed = above ++ (number s.line ++ line) :: caret :: below ∧ IsCaret caret ∧
    ∀ row ∈ above ++ (number s.line ++ line) :: below, ¬ IsCaret row

/-- The caret stands under the column of the line that it is under. -/
def PointsAt (s : Snippet) (line : List Char) : Prop :=
  ∃ caret, s.Carets line caret ∧ caret.length = (number s.line).length + s.column

theorem toList_pushn (s : String) (c : Char) (n : Nat) :
    (s.pushn c n).toList = s.toList ++ List.replicate n c := by
  induction n with
  | zero => exact (List.append_nil _).symm
  | succ n ih =>
    change ((s.pushn c n).push c).toList = _
    rw [String.toList_push, ih, List.append_assoc, List.replicate_succ']

theorem number_eq (n : Nat) : number n =
    List.replicate (4 - (Nat.toDigits 10 n).length) ' ' ++ (Nat.toDigits 10 n ++ [' ', '|', ' ']) := by
  have hlength : (toString n).length = (Nat.toDigits 10 n).length := by
    rw [Nat.toString_eq_repr, ← String.length_toList, Nat.toList_repr]
  simp [number, gutter, toList_pushn, ← hlength]

theorem length_number (n : Nat) : (number n).length = max 4 (Nat.toDigits 10 n).length + 3 := by
  rw [number_eq]
  simp only [List.length_append, List.length_replicate, List.length_cons, List.length_nil]
  omega

theorem newline_not_mem_number (n : Nat) : '\n' ∉ number n := by
  have hdigits : '\n' ∉ Nat.toDigits 10 n := fun h => by
    cases Nat.isDigit_of_mem_toDigits (by decide) (by decide) h
  simp [number_eq, hdigits]

theorem not_isCaret_number (n : Nat) (line : List Char) : ¬ IsCaret (number n ++ line) := by
  rintro ⟨m, k, e⟩
  obtain ⟨d, digits, hd⟩ := List.exists_cons_of_ne_nil (Nat.toDigits_ne_nil (n := n) (b := 10))
  have hdigit : d.isDigit = true :=
    Nat.isDigit_of_mem_toDigits (by decide) (by decide) (hd ▸ List.mem_cons_self)
  have hblank : ¬ (d == ' ') = true := by
    rw [beq_iff_eq]
    rintro rfl
    cases hdigit
  -- Behind the blanks stands a digit on one side and the bar on the other.
  replace e := congrArg (List.dropWhile (· == ' ')) e
  have hbar : d = '|' := by
    rw [number_eq, hd] at e
    simp [hblank] at e
    exact e.1
  rw [hbar] at hdigit
  cases hdigit

/-- The rows of lines that are numbered from `n` on. -/
def numbered : Nat → List String → List (List Char)
  | _, [] => []
  | n, l :: rest => (number n ++ l.toList) :: numbered (n + 1) rest

/-- The caret row, without its line end. -/
def marker (column : Nat) : List Char :=
  List.replicate 5 ' ' ++ '|' :: ' ' :: (List.replicate (column - 1) ' ' ++ ['^'])

theorem toList_caret (column : Nat) : (caret column).toList = marker column ++ ['\n'] := by
  rw [caret, String.toList_append, toList_pushn, marker, List.append_assoc]
  simp only [List.append_assoc, List.cons_append]
  rfl

theorem isCaret_marker (column : Nat) : IsCaret (marker column) := ⟨5, column - 1 + 1, rfl⟩

theorem length_marker {column : Nat} (h : 1 ≤ column) : (marker column).length = 7 + column := by
  simp only [marker, List.length_append, List.length_replicate, List.length_cons, List.length_nil]
  omega

theorem newline_not_mem_marker (column : Nat) : '\n' ∉ marker column := by
  simp [marker]

variable {line column n : Nat}

theorem rows_append (as bs : List String) :
    rows line column n (as ++ bs) = rows line column n as ++ rows line column (n + as.length) bs := by
  induction as generalizing n with
  | nil => simp [rows]
  | cons a as ih =>
    simp [rows, ih, String.append_assoc, Nat.add_assoc, Nat.add_comm 1]

/-- Lines that are not the marked one have no caret row. -/
theorem rows_of_ne {ls : List String} (h : line < n ∨ n + ls.length ≤ line) :
    (rows line column n ls).toList = (numbered n ls).flatMap (· ++ ['\n']) := by
  induction ls generalizing n with
  | nil => rfl
  | cons l ls ih =>
    have hn : n ≠ line := by
      rw [List.length_cons] at h
      omega
    rw [rows, if_neg hn, numbered, List.flatMap_cons, String.toList_append, ih ?_]
    · simp [number]
    · rw [List.length_cons] at h
      omega

theorem not_isCaret_numbered (n : Nat) (ls : List String) : ∀ row ∈ numbered n ls, ¬ IsCaret row := by
  induction ls generalizing n with
  | nil => exact fun row h => (List.not_mem_nil h).elim
  | cons l ls ih => exact List.forall_mem_cons.2 ⟨not_isCaret_number n l.toList, ih (n + 1)⟩

theorem newline_not_mem_numbered (n : Nat) {ls : List String} (h : ∀ l ∈ ls, '\n' ∉ l.toList) :
    ∀ row ∈ numbered n ls, '\n' ∉ row := by
  induction ls generalizing n with
  | nil => exact fun row h => (List.not_mem_nil h).elim
  | cons l ls ih =>
    obtain ⟨hl, hls⟩ := List.forall_mem_cons.1 h
    refine List.forall_mem_cons.2 ⟨?_, ih (n + 1) hls⟩
    rw [List.mem_append, not_or]
    exact ⟨newline_not_mem_number n, hl⟩

theorem splitOn_flatMap {rows : List (List Char)} (h : ∀ row ∈ rows, '\n' ∉ row) :
    (rows.flatMap (· ++ ['\n'])).splitOn '\n' = rows ++ [[]] := by
  induction rows with
  | nil => rfl
  | cons row rows ih =>
    obtain ⟨hrow, hrows⟩ := List.forall_mem_cons.1 h
    rw [List.flatMap_cons, List.append_assoc, List.singleton_append, List.splitOn_append_cons_self,
      List.splitOn_eq_singleton hrow, ih hrows]
    rfl

/-- The rows of lines around the marked one. -/
theorem rows_around {above below : List String} {shown : String} (h : n + above.length = line) :
    (rows line column n (above ++ shown :: below)).toList =
      (numbered n above ++ (number line ++ shown.toList) :: marker column ::
        numbered (line + 1) below).flatMap (· ++ ['\n']) := by
  rw [rows_append, h, rows, if_pos rfl, String.toList_append, rows_of_ne (.inr (Nat.le_of_eq h)),
    String.toList_append, rows_of_ne (.inl (Nat.lt_succ_self line)), String.toList_append,
    toList_caret]
  simp [number]

variable {source : String} {k : Nat} {shown : List Char}

/-- The lines that a snippet shows are those before the marked one, it, and those behind it. -/
theorem lines_around (column : Nat) (h : (Text.lines source.toList)[k]? = some shown) :
    let s := around source (k + 1) column
    ∃ above below, (s.lines.drop (s.first - 1)).take (s.last + 1 - s.first) =
        above ++ String.ofList shown :: below ∧ s.first + above.length = s.line := by
  intro s
  have hlines : s.lines[k]? = some (String.ofList shown) := by
    simp [s, around, h]
  obtain ⟨hk, -⟩ := List.getElem?_eq_some_iff.1 hlines
  have hfirst : s.first = max (k + 1 - 3) 1 := rfl
  have hlast : s.last = min (k + 1 + 3) s.lines.length := rfl
  generalize hls : (s.lines.drop (s.first - 1)).take (s.last + 1 - s.first) = ls
  have hshown : ls[k + 1 - s.first]? = some (String.ofList shown) := by
    have hplace : s.first - 1 + (k + 1 - s.first) = k := by omega
    rw [← hls, List.getElem?_take_of_lt (by omega), List.getElem?_drop, hplace, hlines]
  obtain ⟨hj, hget⟩ := List.getElem?_eq_some_iff.1 hshown
  refine ⟨ls.take (k + 1 - s.first), ls.drop (k + 1 - s.first + 1), ?_, ?_⟩
  · rw [← hget, ← List.drop_eq_getElem_cons hj, List.take_append_drop]
  · rw [List.length_take]
    change _ = k + 1
    omega

theorem carets_around (h : (Text.lines source.toList)[k]? = some shown) :
    (around source (k + 1) column).Carets shown (marker column) := by
  obtain ⟨above, below, hls, hline⟩ := lines_around column h
  have hnewline : ∀ l ∈ above ++ String.ofList shown :: below, '\n' ∉ l.toList := by
    rw [← hls]
    intro l hl
    obtain ⟨l', hl', rfl⟩ := List.mem_map.1 (List.mem_of_mem_drop (List.mem_of_mem_take hl))
    rw [String.toList_ofList]
    exact Text.newline_not_mem_linesFrom List.not_mem_nil l' hl'
  obtain ⟨habove, hrest⟩ := List.forall_mem_append.1 hnewline
  obtain ⟨hshown, hbelow⟩ := List.forall_mem_cons.1 hrest
  rw [String.toList_ofList] at hshown
  have hrows : ∀ row ∈ numbered (around source (k + 1) column).first above ++
      (number (k + 1) ++ shown) :: marker column :: numbered (k + 1 + 1) below, '\n' ∉ row := by
    refine List.forall_mem_append.2 ⟨newline_not_mem_numbered _ habove,
      List.forall_mem_cons.2 ⟨?_, List.forall_mem_cons.2 ⟨newline_not_mem_marker column,
        newline_not_mem_numbered _ hbelow⟩⟩⟩
    rw [List.mem_append, not_or]
    exact ⟨newline_not_mem_number (k + 1), hshown⟩
  refine ⟨numbered (around source (k + 1) column).first above, numbered (k + 1 + 1) below ++ [[]], ?_,
    isCaret_marker column, ?_⟩
  · rw [displayed, text, hls, rows_around hline, String.toList_ofList]
    change (List.flatMap _ (_ ++ (number (k + 1) ++ shown) :: marker column ::
      numbered (k + 1 + 1) below)).splitOn '\n' = _
    rw [splitOn_flatMap hrows, List.append_assoc]
    rfl
  · refine List.forall_mem_append.2 ⟨not_isCaret_numbered _ above,
      List.forall_mem_cons.2 ⟨not_isCaret_number _ shown,
        List.forall_mem_append.2 ⟨not_isCaret_numbered _ below, ?_⟩⟩⟩
    rintro row hrow ⟨m, j, rfl⟩
    simp at hrow

/-- There is one caret row only. -/
theorem Carets.unique {s : Snippet} {l l' c c' : List Char} (h : s.Carets l c) (h' : s.Carets l' c') :
    c = c' := by
  obtain ⟨above, below, e, hc, -⟩ := h
  obtain ⟨above', below', e', -, hothers⟩ := h'
  have hmem : c ∈ above' ++ (number s.line ++ l') :: c' :: below' := by
    rw [← e', e]
    simp
  simp only [List.mem_append, List.mem_cons] at hmem hothers
  rcases hmem with hm | hm | hm | hm
  · exact absurd hc (hothers c (.inl hm))
  · exact absurd hc (hothers c (.inr (.inl hm)))
  · exact hm
  · exact absurd hc (hothers c (.inr (.inr hm)))

/-- The caret stands under its column up to four digits of the line number. -/
theorem pointsAt_around (h : (Text.lines source.toList)[k]? = some shown) (hc : 1 ≤ column)
    {l : List Char} (hl : (around source (k + 1) column).PointsAt l) : k + 1 < 10000 := by
  obtain ⟨caret, hcarets, hlength⟩ := hl
  rw [hcarets.unique (carets_around h), length_marker hc, length_number] at hlength
  change _ = max 4 (Nat.toDigits 10 (k + 1)).length + 3 + column at hlength
  have hdigits : (Nat.toDigits 10 (k + 1)).length ≤ 4 := by omega
  exact (Nat.length_toDigits_le_iff (by decide) (by decide)).1 hdigits

theorem pointsAt_iff (h : (Text.lines source.toList)[k]? = some shown) (hc : 1 ≤ column) :
    (around source (k + 1) column).PointsAt shown ↔ k + 1 < 10000 := by
  refine ⟨pointsAt_around h hc, fun hk => ⟨marker column, carets_around h, ?_⟩⟩
  have hdigits : (Nat.toDigits 10 (k + 1)).length ≤ 4 :=
    (Nat.length_toDigits_le_iff (by decide) (by decide)).2 hk
  rw [length_marker hc, length_number]
  change _ = max 4 (Nat.toDigits 10 (k + 1)).length + 3 + column
  omega

end Snippet

end Stencil
