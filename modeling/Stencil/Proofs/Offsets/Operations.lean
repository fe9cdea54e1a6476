import Stencil.Proofs.Offsets.Values

/-!
# Runs of operations

A caller reads from a scanner and goes back to offsets where it has stood. `Scanner.IsIn.run` says that
cursor and scanner go the same way, whatever the caller does: no operation is stuck, and the offset is
always one where a character starts or the text ends, also after an operation that fails.
-/

namespace Stencil

open Scanner (place cursor)

inductive Reader where
  | rest
  | atEnd
  | peek
  | eat (c : Char)
  | eatAll (word : List Char)
  | skipBlanks
  | name
  | digits
  | number
  | quoted
  | bracket
  | range
  | path
  | value
  | skipTo (stops : List Char)
  deriving DecidableEq, Repr

namespace Reader

def Answer : Reader → Type
  | rest => List Char
  | atEnd | eat _ | eatAll _ => Bool
  | peek | skipTo _ => Option Char
  | skipBlanks | bracket => Unit
  | name | digits | number | quoted | range | path => Option String
  | value => Option Token

def onCursor : (r : Reader) → Walk r.Answer
  | rest => Cursor.rest
  | atEnd => Cursor.atEnd
  | peek => Cursor.peek
  | eat c => Cursor.eat c
  | eatAll word => Cursor.eatAll word
  | skipBlanks => Cursor.skipBlanks
  | name => Cursor.name?
  | digits => Cursor.digits?
  | number => Cursor.number?
  | quoted => Cursor.quoted?
  | bracket => Cursor.bracket Cursor.value?
  | range => Cursor.rangeOf Cursor.value?
  | path => Cursor.pathOf Cursor.value?
  | value => Cursor.value?
  | skipTo stops => Cursor.skipTo stops

def onScanner : (r : Reader) → Scan r.Answer
  | rest => fun s => .ok s.rest s
  | atEnd => Scanner.atEnd
  | peek => Scanner.peek
  | eat c => Scanner.eat c
  | eatAll word => Scanner.eatAll word
  | skipBlanks => Scanner.skipBlanks
  | name => Scanner.name?
  | digits => Scanner.digits?
  | number => Scanner.number?
  | quoted => Scanner.quoted?
  | bracket => Scanner.bracket Scanner.value?
  | range => Scanner.range?
  | path => Scanner.path?
  | value => Scanner.value?
  | skipTo stops => Scanner.skipTo stops

theorem mirrors (r : Reader) (n : Nat) : Mirrors (n + 1) r.onCursor r.onScanner := by
  cases r with
  | rest => exact ⟨fun s _ => .refl s, fun s hs _ => rest_eq hs⟩
  | atEnd => exact atEnd_mirrors
  | peek => exact peek_mirrors
  | eat c => exact eat_mirrors
  | eatAll word => exact eatAll_mirrors
  | skipBlanks => exact skipBlanks_mirrors
  | name => exact name_mirrors
  | digits => exact digits_mirrors
  | number => exact number_mirrors
  | quoted => exact quoted_mirrors
  | bracket => exact bracket_mirrors value_mirrors
  | range => exact rangeOf_mirrors Scanner.value_onward value_mirrors
  | path => exact pathOf_mirrors Scanner.value_onward value_mirrors
  | value => exact value_mirrors
  | skipTo stops => exact skipTo_mirrors stops

end Reader

inductive Operation where
  | read (r : Reader)
  /-- Goes to the `i`-th of the offsets so far, the latest first; stays if there is none. -/
  | reset (i : Nat)
  deriving DecidableEq, Repr

/-- What a caller holds: a place in a text, from which it reads or goes elsewhere. -/
structure Device (τ : Type) where
  pos : τ → Nat
  /-- The place after reading, also if it fails. -/
  read? : Reader → τ → Option τ
  goTo? : Nat → τ → Option τ

namespace Device

variable {τ : Type} (d : Device τ)

/-- One operation, after those that led through the earlier places. -/
def step? (t : τ) (earlier : List τ) : Operation → Option τ
  | .read r => d.read? r t
  | .reset i => d.goTo? (d.pos (earlier.getD i t)) t

/-- All places of a run, the latest first; nothing if an operation is stuck. -/
def run? (t : τ) (earlier : List τ) : List Operation → Option (List τ)
  | [] => some (t :: earlier)
  | op :: ops => do run? (← d.step? t (t :: earlier) op) (t :: earlier) ops

end Device

def Cursor.device : Device Cursor where
  pos := Cursor.pos
  read? r c := (r.onCursor c).map Prod.snd
  goTo? n c := (Cursor.reset n c).map Prod.snd

def Scanner.device : Device Scanner where
  pos := Scanner.pos
  read? r s := some (place (r.onScanner s))
  goTo? n s := s.at? n

/-- A place of the text. -/
def Scanner.IsIn (s : Scanner) (input : List Char) : Prop := s.Valid ∧ s.input = input

namespace Scanner.IsIn

variable {s s' : Scanner} {input : List Char} {earlier : List Scanner}

theorem boundary (h : s.IsIn input) : Text.Boundary input s.pos := by
  obtain ⟨⟨taken, hi, hp⟩, rfl⟩ := h
  exact Text.boundary_iff.2 ⟨taken, s.rest, hi, hp⟩

theorem of_reaches (h : s.IsIn input) (hr : s.Reaches s') : s'.IsIn input := by
  refine ⟨hr.valid h.1, ?_⟩
  obtain ⟨chunk, -, hs'⟩ := hr
  rw [hs']
  exact h.2

theorem read (h : s.IsIn input) (r : Reader) : ∃ s', s'.IsIn input ∧
    Scanner.device.read? r s = some s' ∧ Cursor.device.read? r s.cursor = some s'.cursor := by
  have ht := r.mirrors s.rest.length
  refine ⟨place (r.onScanner s), h.of_reaches (ht.onward s (Nat.lt_succ_self _)), rfl, ?_⟩
  have hf : r.onCursor s.cursor = _ := ht.follows s h.1 (Nat.lt_succ_self _)
  change (r.onCursor s.cursor).map Prod.snd = _
  rw [hf]
  cases r.onScanner s <;> rfl

theorem goTo (h : s.IsIn input) {t : Scanner} (ht : t.IsIn input) : ∃ s', s'.IsIn input ∧
    Scanner.device.goTo? t.pos s = some s' ∧ Cursor.device.goTo? t.pos s.cursor = some s'.cursor := by
  obtain ⟨⟨taken, hi, hp⟩, hinput⟩ := ht
  have e : s.input = taken ++ t.rest := by rw [h.2, ← hinput, hi]
  refine ⟨⟨s.input, t.pos, t.rest⟩, ⟨⟨taken, e, hp⟩, h.2⟩, ?_, rfl⟩
  change s.at? t.pos = _
  rw [Scanner.at?, e, hp, Text.dropBytes?_byteLength]
  rfl

theorem step (h : s.IsIn input) (he : ∀ t ∈ earlier, t.IsIn input) (op : Operation) :
    ∃ s', s'.IsIn input ∧ Scanner.device.step? s earlier op = some s' ∧
      Cursor.device.step? s.cursor (earlier.map cursor) op = some s'.cursor := by
  cases op with
  | read r => exact h.read r
  | reset i =>
    have hcursor : (earlier.map cursor).getD i s.cursor = (earlier.getD i s).cursor := by
      rw [List.getD_eq_getElem?_getD, List.getElem?_map, Option.getD_map,
        List.getD_eq_getElem?_getD]
    have hi : (earlier.getD i s).IsIn input := by
      rw [List.getD_eq_getElem?_getD]
      cases hg : earlier[i]? with
      | none => exact h
      | some t => exact he t (List.mem_of_getElem? hg)
    rw [Device.step?, Device.step?, hcursor]
    exact h.goTo hi

/-- Whatever the operations, the run leads from place to place. -/
theorem run (h : s.IsIn input) (he : ∀ t ∈ earlier, t.IsIn input) (ops : List Operation) :
    ∃ places, Scanner.device.run? s earlier ops = some places ∧
      Cursor.device.run? s.cursor (earlier.map cursor) ops = some (places.map cursor) ∧
      ∀ t ∈ places, t.IsIn input := by
  induction ops generalizing s earlier with
  | nil => exact ⟨s :: earlier, rfl, rfl, List.forall_mem_cons.2 ⟨h, he⟩⟩
  | cons op ops ih =>
    have hall : ∀ t ∈ s :: earlier, t.IsIn input := List.forall_mem_cons.2 ⟨h, he⟩
    obtain ⟨s', hs', hscan, hcur⟩ := h.step hall op
    obtain ⟨places, hrun, hrun', hplaces⟩ := ih hs' hall
    refine ⟨places, ?_, ?_, hplaces⟩
    · rw [Device.run?, hscan]
      exact hrun
    · rw [List.map_cons] at hcur
      rw [Device.run?, hcur]
      exact hrun'

end Scanner.IsIn

end Stencil
