import Stencil.Text.Trim
import Stencil.Text.Position

/-!
# Texts cut at byte offsets

A text is stored as the bytes of its UTF-8 form, and an offset may fall inside a character. `slice?`
cuts a text at two offsets; it gives nothing if an offset is no `Boundary`, lies behind the end, or if
the offsets stand in the wrong order. The searches give offsets: of a pattern, of a character of a
class, of each character in turn.
-/

namespace Stencil.Text

/-! ## Boundaries and slices -/

/-- A character of the UTF-8 form starts at the offset, or the text ends there. -/
def Boundary (s : List Char) (n : Nat) : Prop := (String.Pos.Raw.mk n).IsValid (String.ofList s)

/-- The characters of the first `n` bytes, if they end with a character. -/
def takeBytes? : List Char → Nat → Option (List Char)
  | _, 0 => some []
  | [], _ + 1 => none
  | c :: s, n + 1 =>
    if n + 1 < c.utf8Size then none else (takeBytes? s (n + 1 - c.utf8Size)).map (c :: ·)

/-- The text from offset `i` up to offset `j`. -/
def slice? (s : List Char) (i j : Nat) : Option (List Char) := do
  if i ≤ j then takeBytes? (← dropBytes? s i) (j - i) else none

/-- The text from an offset on. -/
def sliceFrom? (s : List Char) (i : Nat) : Option (List Char) := slice? s i (byteLength s)

/-- The text up to an offset. -/
def sliceTo? (s : List Char) (j : Nat) : Option (List Char) := slice? s 0 j

/-- A difference of offsets, if it is none below zero. -/
def minus? (n m : Nat) : Option Nat := if m ≤ n then some (n - m) else none

theorem utf8ByteSize_ofList (s : List Char) : (String.ofList s).utf8ByteSize = byteLength s := by
  induction s with
  | nil => rfl
  | cons c s ih => rw [String.ofList_cons]; simp [ih]

theorem boundary_iff {s : List Char} {n : Nat} :
    Boundary s n ↔ ∃ front rest, s = front ++ rest ∧ n = byteLength front := by
  rw [Boundary, String.Pos.Raw.isValid_iff_exists_append]
  constructor
  · rintro ⟨front, rest, e, hp⟩
    refine ⟨front.toList, rest.toList, ?_, ?_⟩
    · simpa using congrArg String.toList e
    · rw [← utf8ByteSize_ofList, String.ofList_toList]
      exact congrArg String.Pos.Raw.byteIdx hp
  · rintro ⟨front, rest, rfl, rfl⟩
    refine ⟨String.ofList front, String.ofList rest, String.ofList_append, ?_⟩
    rw [← utf8ByteSize_ofList]
    rfl

theorem dropBytes?_eq_some_iff {s t : List Char} {n : Nat} :
    dropBytes? s n = some t ↔ ∃ front, s = front ++ t ∧ n = byteLength front := by
  constructor
  · intro h
    fun_induction dropBytes? s n with
    | case1 s =>
      cases h
      exact ⟨[], rfl, rfl⟩
    | case2 => cases h
    | case3 => cases h
    | case4 c s n hn ih =>
      obtain ⟨front, rfl, e⟩ := ih h
      exact ⟨c :: front, rfl, by rw [byteLength_cons]; omega⟩
  · rintro ⟨front, rfl, rfl⟩
    exact dropBytes?_byteLength front t

theorem takeBytes?_byteLength (s t : List Char) : takeBytes? (s ++ t) (byteLength s) = some s := by
  induction s with
  | nil => cases t <;> rfl
  | cons c s ih =>
    have hc := utf8Size_pos c
    obtain ⟨n, hn⟩ : ∃ n, byteLength (c :: s) = n + 1 :=
      ⟨c.utf8Size + byteLength s - 1, by rw [byteLength_cons]; omega⟩
    have hrest : n + 1 - c.utf8Size = byteLength s := by rw [← hn, byteLength_cons]; omega
    rw [hn, List.cons_append, takeBytes?, hrest, ih, if_neg (by rw [← hn, byteLength_cons]; omega)]
    rfl

theorem takeBytes?_eq_some_iff {s t : List Char} {n : Nat} :
    takeBytes? s n = some t ↔ ∃ rest, s = t ++ rest ∧ n = byteLength t := by
  constructor
  · intro h
    fun_induction takeBytes? s n generalizing t with
    | case1 s =>
      cases h
      exact ⟨s, rfl, rfl⟩
    | case2 => cases h
    | case3 => cases h
    | case4 c s n hn ih =>
      obtain ⟨t, ht, rfl⟩ := Option.map_eq_some_iff.1 h
      obtain ⟨rest, rfl, e⟩ := ih ht
      exact ⟨rest, rfl, by rw [byteLength_cons]; omega⟩
  · rintro ⟨rest, rfl, rfl⟩
    exact takeBytes?_byteLength t rest

theorem slice?_eq_some_iff {s t : List Char} {i j : Nat} : slice? s i j = some t ↔
    ∃ front rest, s = front ++ (t ++ rest) ∧ i = byteLength front ∧ j = i + byteLength t := by
  constructor
  · intro h
    unfold slice? at h
    split at h
    · rename_i hij
      obtain ⟨u, hd, ht⟩ := Option.bind_eq_some_iff.1 h
      obtain ⟨front, rfl, hi⟩ := dropBytes?_eq_some_iff.1 hd
      obtain ⟨rest, rfl, hj⟩ := takeBytes?_eq_some_iff.1 ht
      exact ⟨front, rest, rfl, hi, by omega⟩
    · cases h
  · rintro ⟨front, rest, rfl, rfl, rfl⟩
    rw [slice?, if_pos (Nat.le_add_right _ _), dropBytes?_byteLength, Nat.add_sub_cancel_left]
    exact takeBytes?_byteLength t rest

/-- A cut gives a text exactly between two boundaries in their order. -/
theorem slice?_isSome_iff {s : List Char} {i j : Nat} :
    (slice? s i j).isSome ↔ i ≤ j ∧ Boundary s i ∧ Boundary s j := by
  simp only [Option.isSome_iff_exists, boundary_iff, slice?_eq_some_iff]
  constructor
  · rintro ⟨t, front, rest, rfl, rfl, rfl⟩
    exact ⟨Nat.le_add_right _ _, ⟨front, _, rfl, rfl⟩, front ++ t, rest, by simp, by simp⟩
  · rintro ⟨hij, ⟨front, rest, rfl, rfl⟩, front', rest', e, rfl⟩
    obtain ⟨t, rfl, rfl⟩ | ⟨t, rfl, rfl⟩ := List.append_eq_append_iff.1 e
    · exact ⟨t, front, rest', rfl, rfl, by simp⟩
    · obtain rfl : t = [] := by
        cases t with
        | nil => rfl
        | cons c t =>
          have := utf8Size_pos c
          simp at hij
          omega
      exact ⟨[], front', rest, by simp, by simp, by simp⟩

example : slice? ['é', 'a'] 2 3 = some ['a'] ∧ slice? ['é', 'a'] 1 3 = none := by decide

section
variable (front t rest : List Char)

theorem slice?_between :
    slice? (front ++ (t ++ rest)) (byteLength front) (byteLength front + byteLength t) = some t :=
  slice?_eq_some_iff.2 ⟨front, rest, rfl, rfl, rfl⟩

theorem sliceFrom?_append : sliceFrom? (front ++ rest) (byteLength front) = some rest :=
  slice?_eq_some_iff.2 ⟨front, [], by simp, rfl, by simp⟩

theorem sliceTo?_append : sliceTo? (t ++ rest) (byteLength t) = some t :=
  slice?_eq_some_iff.2 ⟨[], rest, rfl, rfl, by simp⟩

end

theorem minus?_add (n m : Nat) : minus? (n + m) m = some n := by
  rw [minus?, if_pos (Nat.le_add_left m n), Nat.add_sub_cancel]

/-! ## Searches -/

/-- The characters with their offsets, where the first stands at offset `n`. -/
def indicesFrom (n : Nat) : List Char → List (Nat × Char)
  | [] => []
  | c :: s => (n, c) :: indicesFrom (n + c.utf8Size) s

def indices (s : List Char) : List (Nat × Char) := indicesFrom 0 s

/-- The offset of the first listed character of a class. -/
def firstOf (p : Char → Bool) (listed : List (Nat × Char)) : Option Nat :=
  (listed.find? fun (_, c) => p c).map (·.1)

/-- The offset of the first occurrence of a pattern. -/
def find? (pattern : List Char) : List Char → Option Nat
  | [] => if pattern.isEmpty then some 0 else none
  | c :: s =>
    if pattern.isPrefixOf (c :: s) then some 0 else (find? pattern s).map (· + c.utf8Size)

theorem find?_cons (pattern : List Char) (c : Char) (s : List Char) : find? pattern (c :: s) =
    if pattern.isPrefixOf (c :: s) then some 0 else (find? pattern s).map (· + c.utf8Size) := rfl

/-- The first character outside the class stands behind the characters of the class at the front. -/
theorem firstOf_indicesFrom (p : Char → Bool) (n : Nat) (s : List Char) :
    (firstOf (fun c => !p c) (indicesFrom n s)).getD (n + byteLength s) =
      n + byteLength (s.takeWhile p) := by
  induction s generalizing n with
  | nil => rfl
  | cons c s ih =>
    cases hc : p c with
    | false => simp [firstOf, indicesFrom, hc]
    | true =>
      have := ih (n + c.utf8Size)
      simpa [firstOf, indicesFrom, hc, Nat.add_assoc] using this

/-! ## Bytes -/

/-- The UTF-8 form of a text. -/
def bytes (s : List Char) : List UInt8 := s.flatMap String.utf8EncodeChar

def isDigitByte (b : UInt8) : Bool := 48 ≤ b.toNat && b.toNat ≤ 57

/-- The offset behind the digits that stand at offset `n`. -/
def digitsEnd (bs : List UInt8) (n : Nat) : Nat :=
  if h : n < bs.length then
    if isDigitByte bs[n] then digitsEnd bs (n + 1) else n
  else n
termination_by bs.length - n

/-- A point and a digit stand at offset `n`. -/
def pointsAt (bs : List UInt8) (n : Nat) : Bool :=
  if h : n + 1 < bs.length then bs[n] == 46 && isDigitByte bs[n + 1] else false

theorem length_bytes (s : List Char) : (bytes s).length = byteLength s := by
  induction s with
  | nil => rfl
  | cons c s ih => simpa [bytes] using ih

/-- The first byte of a character: the character itself if it has one byte, else above all of those. -/
theorem first_byte (c : Char) : ∃ b more, String.utf8EncodeChar c = b :: more ∧
    (b.toNat = c.toNat ∧ c.utf8Size = 1 ∨ 128 ≤ b.toNat ∧ 128 ≤ c.toNat) := by
  have hv : c.val.toNat = c.toNat := rfl
  unfold String.utf8EncodeChar
  dsimp only
  rw [hv]
  split
  · rename_i h
    refine ⟨_, _, rfl, .inl ⟨?_, ?_⟩⟩
    · simp
      omega
    · rw [Char.utf8Size_eq_one_iff, UInt32.le_iff_toNat_le]
      exact h
  · split
    · refine ⟨_, _, rfl, .inr ⟨?_, by omega⟩⟩
      simp
      omega
    · split
      · refine ⟨_, _, rfl, .inr ⟨?_, by omega⟩⟩
        simp
        omega
      · refine ⟨_, _, rfl, .inr ⟨?_, by omega⟩⟩
        simp
        omega

/-- Behind a text stands the first byte of the next character. -/
theorem exists_byte (front s : List Char) (c : Char) :
    ∃ (h : byteLength front < (bytes (front ++ c :: s)).length),
      ((bytes (front ++ c :: s))[byteLength front].toNat = c.toNat ∧ c.utf8Size = 1 ∨
        128 ≤ (bytes (front ++ c :: s))[byteLength front].toNat ∧ 128 ≤ c.toNat) := by
  have h : byteLength front < (bytes (front ++ c :: s)).length := by
    have := utf8Size_pos c
    rw [length_bytes, byteLength_append, byteLength_cons]
    omega
  obtain ⟨b, more, he, hb⟩ := first_byte c
  have hget : (bytes (front ++ c :: s))[byteLength front] = b := by
    simp [← length_bytes front, bytes, he]
  exact ⟨h, by rwa [hget]⟩

theorem isDigitByte_eq {b : UInt8} {c : Char}
    (h : b.toNat = c.toNat ∧ c.utf8Size = 1 ∨ 128 ≤ b.toNat ∧ 128 ≤ c.toNat) :
    isDigitByte b = c.isDigit := by
  have hc : c.isDigit = (decide (48 ≤ c.toNat) && decide (c.toNat ≤ 57)) := rfl
  rw [hc, isDigitByte]
  rcases h with ⟨h, -⟩ | ⟨hb, hc⟩
  · rw [h]
  · have hb' : ¬ b.toNat ≤ 57 := by omega
    have hc' : ¬ c.toNat ≤ 57 := by omega
    simp [hb', hc']

theorem utf8Size_of_isDigit {c : Char} (h : c.isDigit = true) : c.utf8Size = 1 := by
  obtain ⟨b, more, -, hb⟩ := first_byte c
  rcases hb with ⟨-, h₁⟩ | ⟨-, h₁⟩
  · exact h₁
  · have : c.toNat ≤ 57 := by
      simp only [Char.isDigit, Bool.and_eq_true, decide_eq_true_eq] at h
      exact h.2
    omega

/-- The walk over digit bytes ends behind the digits. -/
theorem digitsEnd_bytes (front s : List Char) : digitsEnd (bytes (front ++ s)) (byteLength front) =
    byteLength front + byteLength (s.takeWhile Char.isDigit) := by
  induction s generalizing front with
  | nil =>
    rw [List.append_nil, digitsEnd, dif_neg (by rw [length_bytes]; exact Nat.lt_irrefl _)]
    rfl
  | cons c s ih =>
    obtain ⟨h, hb⟩ := exists_byte front s c
    rw [digitsEnd, dif_pos h, isDigitByte_eq hb]
    cases hc : c.isDigit with
    | false => simp [hc]
    | true =>
      have hsize := utf8Size_of_isDigit hc
      have := ih (front ++ [c])
      rw [List.append_assoc, byteLength_append, byteLength_cons, byteLength_nil, hsize] at this
      simpa [hc, hsize, Nat.add_assoc] using this

theorem pointsAt_bytes {front s : List Char} : pointsAt (bytes (front ++ s)) (byteLength front) = true ↔
    ∃ d r, s = '.' :: d :: r ∧ d.isDigit = true := by
  have behind (d : Char) (r : List Char) := exists_byte (front ++ ['.']) r d
  have hpoint : ('.').utf8Size = 1 := rfl
  simp only [List.append_assoc, List.singleton_append, byteLength_append, byteLength_cons,
    byteLength_nil, Nat.add_zero, hpoint] at behind
  constructor
  · intro h
    unfold pointsAt at h
    split at h
    · rename_i hn
      obtain ⟨hb, hd⟩ := Bool.and_eq_true_iff.1 h
      have hb : (bytes (front ++ s))[byteLength front].toNat = 46 := by rw [eq_of_beq hb]; rfl
      cases s with
      | nil =>
        rw [List.append_nil, length_bytes] at hn
        omega
      | cons c s =>
        obtain ⟨_, hc⟩ := exists_byte front s c
        have hc : c.toNat = 46 := by omega
        obtain rfl : c = '.' := Char.toNat_inj.1 hc
        cases s with
        | nil =>
          rw [length_bytes, byteLength_append, byteLength_cons, byteLength_nil, hpoint] at hn
          omega
        | cons d r =>
          obtain ⟨_, hd'⟩ := behind d r
          exact ⟨d, r, rfl, by rwa [isDigitByte_eq hd'] at hd⟩
    · cases h
  · rintro ⟨d, r, rfl, hd⟩
    obtain ⟨hn, hd'⟩ := behind d r
    obtain ⟨_, hp⟩ := exists_byte front (d :: r) '.'
    have hp : (bytes (front ++ '.' :: d :: r))[byteLength front].toNat = 46 := by
      rcases hp with ⟨hp, -⟩ | ⟨-, hp⟩
      · exact hp
      · exact absurd hp (by decide)
    rw [pointsAt, dif_pos hn, isDigitByte_eq hd', hd, Bool.and_true, beq_iff_eq]
    exact UInt8.toNat_inj.1 hp

end Stencil.Text
