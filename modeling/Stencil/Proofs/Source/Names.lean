import Mathlib.Data.List.Induction
import Stencil.Proofs.Source.Paths
import Stencil.Source.Shelf

/-!
# Canonical names

The parts of a name are what stands between its slashes; empty parts and `.` do not count, and `..` takes
back the part before it. Names are equivalent if they have the same parts, the extension included. A
shelf keeps its texts by the canonical form of their names, so that it maps names up to equivalence:
`Shelf.canonical_map`.
-/

namespace Stencil

namespace Path

theorem isSome_nameExtension?_iff_length {s : List Char} :
    (nameExtension? s).isSome = true ↔ 2 ≤ (s.reverse.dropWhile (· != '.')).length := by
  simp only [nameExtension?]
  split
  · next h => simp [h]
  · next h => simp [h]
  · next hnil hone =>
    match h : s.reverse.dropWhile (· != '.') with
    | [] => exact absurd h hnil
    | [c] => exact absurd h (hone c)
    | _ :: _ :: _ => simp

theorem suffix_dropWhile {α : Type} {p : α → Bool} {c : α} (hc : p c = false) (s t : List α) :
    c :: t <:+ (s ++ c :: t).dropWhile p := by
  induction s with
  | nil => simp [hc]
  | cons d s ih =>
    rw [List.cons_append, List.dropWhile_cons]
    split
    · exact ih
    · exact List.suffix_append (d :: s) (c :: t)

/-- A name has an extension if something stands in front of one of its points. -/
theorem isSome_nameExtension?_iff {s : List Char} :
    (nameExtension? s).isSome = true ↔ ∃ stem ext, stem ≠ [] ∧ s = stem ++ '.' :: ext := by
  rw [isSome_nameExtension?_iff_length]
  constructor
  · intro h
    match hd : s.reverse.dropWhile (· != '.') with
    | [] | [_] => simp [hd] at h
    | d :: c :: rest =>
      have hpoint := List.head?_dropWhile_not (· != '.') s.reverse
      obtain rfl : d = '.' := by simpa [hd] using hpoint
      have hs := List.takeWhile_append_dropWhile (p := (· != '.')) (l := s.reverse)
      rw [hd] at hs
      refine ⟨rest.reverse ++ [c], (s.reverse.takeWhile (· != '.')).reverse, by simp, ?_⟩
      simpa using (congrArg List.reverse hs).symm
  · rintro ⟨stem, ext, hne, rfl⟩
    have hlen := (suffix_dropWhile (p := (· != '.')) (c := '.') rfl ext.reverse stem.reverse).length_le
    have hpos := List.length_pos_iff.2 hne
    simp only [List.length_cons, List.length_reverse] at hlen
    simp only [List.reverse_append, List.reverse_cons, List.append_assoc, List.singleton_append]
    omega

end Path

namespace Shelf

/-! ## Parts of names -/

/-- A part as it stands in a canonical name. -/
structure IsPart (part : List Char) : Prop where
  ne_nil : part ≠ []
  ne_current : part ≠ ['.']
  ne_parent : part ≠ ['.', '.']
  no_slash : '/' ∉ part

/-- The parts that are left when each `..` takes back the part before it; `behind` are those already
passed, the last one first. -/
def backtrack (behind : List (List Char)) : List (List Char) → List (List Char)
  | [] => behind.reverse
  | part :: rest =>
    if part = ['.', '.'] then backtrack behind.tail rest else backtrack (part :: behind) rest

/-- The parts that a name keeps. -/
def parts (name : String) : List (List Char) :=
  backtrack [] ((Text.pieces ['/'] name.toList).filter fun part => part ≠ [] ∧ part ≠ ['.'])

theorem foldl_enter (pieces behind : List (List Char)) :
    pieces.foldl enter behind.reverse =
      backtrack behind (pieces.filter fun part => part ≠ [] ∧ part ≠ ['.']) := by
  induction pieces generalizing behind with
  | nil => rfl
  | cons part pieces ih =>
    rw [List.foldl_cons, enter, List.filter_cons]
    by_cases hdrop : part = [] ∨ part = ['.']
    · have hgone : ¬decide (part ≠ [] ∧ part ≠ ['.']) = true := by
        rw [decide_eq_true_eq, ← not_or]
        exact not_not.2 hdrop
      rw [if_pos hdrop, if_neg hgone, ih]
    · have hkept : decide (part ≠ [] ∧ part ≠ ['.']) = true := decide_eq_true (not_or.1 hdrop)
      rw [if_neg hdrop, if_pos hkept, backtrack]
      split
      · rw [List.dropLast_reverse, ih]
      · rw [← List.reverse_cons, ih]

theorem steps_eq_parts (name : String) :
    (Text.pieces ['/'] name.toList).foldl enter [] = parts name :=
  foldl_enter _ []

theorem backtrack_isPart {behind rest : List (List Char)} (hb : ∀ part ∈ behind, IsPart part)
    (hr : ∀ part ∈ rest, part ≠ [] ∧ part ≠ ['.'] ∧ '/' ∉ part) :
    ∀ part ∈ backtrack behind rest, IsPart part := by
  induction rest generalizing behind with
  | nil => exact fun part h => hb part (List.mem_reverse.1 h)
  | cons part rest ih =>
    obtain ⟨⟨hne, hdot, hslash⟩, hrest⟩ := List.forall_mem_cons.1 hr
    unfold backtrack
    split
    · exact ih (fun p hp => hb p (List.mem_of_mem_tail hp)) hrest
    · next hparent => exact ih (List.forall_mem_cons.2 ⟨⟨hne, hdot, hparent, hslash⟩, hb⟩) hrest

theorem isPart_of_mem_parts {name : String} : ∀ part ∈ parts name, IsPart part := by
  refine backtrack_isPart (List.forall_mem_nil _) fun part h => ?_
  obtain ⟨hp, hkept⟩ := List.mem_filter.1 h
  rw [Text.pieces_single] at hp
  obtain ⟨hne, hdot⟩ := of_decide_eq_true hkept
  exact ⟨hne, hdot, Text.not_mem_of_mem_splitOn hp⟩

/-- Canonical parts are kept as they are. -/
theorem backtrack_of_isPart {behind rest : List (List Char)} (h : ∀ part ∈ rest, IsPart part) :
    backtrack behind rest = behind.reverse ++ rest := by
  induction rest generalizing behind with
  | nil => simp [backtrack]
  | cons part rest ih =>
    obtain ⟨hpart, hrest⟩ := List.forall_mem_cons.1 h
    rw [backtrack, if_neg hpart.ne_parent, ih hrest]
    simp

/-! ## Names from parts -/

def joined (parts : List (List Char)) : String := "/".intercalate (parts.map String.ofList)

theorem toList_joined (ps : List (List Char)) : (joined ps).toList = ['/'].intercalate ps := by
  simp [joined, String.toList_intercalate, Function.comp_def]

section
variable {ps : List (List Char)} (h : ∀ part ∈ ps, IsPart part) (hne : ps ≠ [])
include h hne

theorem pieces_joined : Text.pieces ['/'] (joined ps).toList = ps := by
  rw [toList_joined, Text.pieces_single]
  exact List.splitOn_intercalate '/' (fun part hp => (h part hp).no_slash) hne

theorem parts_joined : parts (joined ps) = ps := by
  have hkept : (ps.filter fun part => part ≠ [] ∧ part ≠ ['.']) = ps :=
    List.filter_eq_self.2 fun part hp => decide_eq_true ⟨(h part hp).ne_nil, (h part hp).ne_current⟩
  rw [parts, pieces_joined h hne, hkept, backtrack_of_isPart h]
  rfl

/-- The extension of a canonical name is that of its last part. -/
theorem extension?_joined :
    (Path.ofString (joined ps)).extension? =
      (Path.nameExtension? (ps.getLast hne)).map String.ofList := by
  have hname : ∀ part ∈ ps, Path.Step.ofChars? part = some (.name (String.ofList part)) :=
    fun part hp => by
      have := h part hp
      simp [Path.Step.ofChars?, this.ne_nil, this.ne_current, this.ne_parent]
  have hsteps : (Path.ofString (joined ps)).steps.getLast? =
      some (.name (String.ofList (ps.getLast hne))) := by
    simp only [Path.ofString, Path.ofChars, pieces_joined h hne, List.filterMap_congr hname]
    rw [List.getLast?_append_of_ne_nil _ (by simpa using hne)]
    simp [List.getLast?_eq_some_getLast hne]
  rw [Path.extension?, hsteps]
  simp

end

/-! ## Extensions -/

/-- What may be appended to names: nothing, or a point and characters other than slashes. -/
def IsExtension (extname : String) : Prop :=
  extname.toList = [] ∨ ∃ tail, extname.toList = '.' :: tail ∧ '/' ∉ tail

/-- The extension for a part that has none. -/
def extend (extname : String) (part : List Char) : List Char :=
  if (Path.nameExtension? part).isSome then part else part ++ extname.toList

/-- The parts of a name with the extension of the last one. -/
def complete (extname : String) (ps : List (List Char)) : List (List Char) :=
  ps.dropLast ++ ps.getLast?.toList.map (extend extname)

/-- The names have the same parts, when a last part without an extension takes the given one. -/
def Equivalent (extname name name' : String) : Prop :=
  complete extname (parts name) = complete extname (parts name')

instance (extname name name' : String) : Decidable (Equivalent extname name name') :=
  inferInstanceAs (Decidable (_ = _))

@[simp] theorem complete_concat (extname : String) (front : List (List Char)) (last : List Char) :
    complete extname (front ++ [last]) = front ++ [extend extname last] := by
  simp [complete]

theorem complete_ne_nil {extname : String} {ps : List (List Char)} (hne : ps ≠ []) :
    complete extname ps ≠ [] := by
  obtain rfl | ⟨front, last, rfl⟩ := ps.eq_nil_or_concat'
  · exact absurd rfl hne
  · simp

section
variable {extname : String} (hext : IsExtension extname)
include hext

theorem extend_isPart {part : List Char} (h : IsPart part) : IsPart (extend extname part) := by
  unfold extend
  split
  · exact h
  · obtain hnil | ⟨tail, htail, hslash⟩ := hext
    · rwa [hnil, List.append_nil]
    · -- a point behind a part is neither its only character nor the second of two points
      match part, h with
      | c :: rest, h =>
        refine ⟨by simp, by simp [htail], ?_, by simpa [htail, hslash] using h.no_slash⟩
        intro hdots
        rw [htail] at hdots
        have hcurrent := h.ne_current
        cases rest <;> simp_all

theorem extend_extend {part : List Char} (h : IsPart part) :
    extend extname (extend extname part) = extend extname part := by
  by_cases hsome : (Path.nameExtension? part).isSome = true
  · simp [extend, hsome]
  · obtain hnil | ⟨tail, htail, -⟩ := hext
    · simp [extend, hnil]
    · have hgiven : (Path.nameExtension? (part ++ extname.toList)).isSome = true :=
        Path.isSome_nameExtension?_iff.2 ⟨part, tail, h.ne_nil, by rw [htail]⟩
      simp [extend, hsome, hgiven]

theorem complete_isPart {ps : List (List Char)} (h : ∀ part ∈ ps, IsPart part) :
    ∀ part ∈ complete extname ps, IsPart part := by
  intro part hp
  rcases List.mem_append.1 hp with hp | hp
  · exact h part (List.dropLast_subset _ hp)
  · obtain ⟨last, hlast, rfl⟩ := List.mem_map.1 hp
    exact extend_isPart hext (h last (List.mem_of_getLast? (Option.mem_toList.1 hlast)))

theorem complete_complete {ps : List (List Char)} (h : ∀ part ∈ ps, IsPart part) :
    complete extname (complete extname ps) = complete extname ps := by
  obtain rfl | ⟨front, last, rfl⟩ := ps.eq_nil_or_concat'
  · rfl
  · have hlast := h last (List.mem_append_right _ (List.mem_singleton_self _))
    rw [complete_concat, complete_concat, extend_extend hext hlast]

end

/-! ## Keys -/

theorem intercalate_concat_append (sep : List Char) (front : List (List Char))
    (last tail : List Char) :
    sep.intercalate (front ++ [last]) ++ tail = sep.intercalate (front ++ [last ++ tail]) := by
  induction front with
  | nil => simp
  | cons part front ih =>
    rw [List.cons_append, List.cons_append, List.intercalate_cons_of_ne_nil (by simp),
      List.intercalate_cons_of_ne_nil (by simp), ← ih]
    simp

/-- The key of a name that keeps a part: its parts with the extension. -/
theorem key_eq (s : Shelf) {name : String} (hne : parts name ≠ []) :
    s.key name = joined (complete s.extname (parts name)) := by
  have hkey : s.key name = Path.withExtension (joined (parts name)) s.extname := by
    rw [key, steps_eq_parts]
    rfl
  have hext := extension?_joined isPart_of_mem_parts hne
  rw [hkey, Path.withExtension, hext, Option.isSome_map]
  generalize parts name = ps at hne
  obtain rfl | ⟨front, last, rfl⟩ := ps.eq_nil_or_concat'
  · exact absurd rfl hne
  · rw [complete_concat, List.getLast_concat, extend, ← String.toList_inj]
    by_cases hgiven : (Path.nameExtension? last).isSome = true
    · simp [hgiven]
    · by_cases hempty : s.extname = ""
      · simp [hgiven, hempty]
      · simp [hgiven, hempty, toList_joined, intercalate_concat_append]

section
variable {s : Shelf} {name name' : String} (hext : IsExtension s.extname) (hne : parts name ≠ [])
include hext hne

theorem pieces_key : Text.pieces ['/'] (s.key name).toList = complete s.extname (parts name) := by
  rw [key_eq s hne]
  exact pieces_joined (complete_isPart hext isPart_of_mem_parts) (complete_ne_nil hne)

theorem parts_key : parts (s.key name) = complete s.extname (parts name) := by
  rw [key_eq s hne]
  exact parts_joined (complete_isPart hext isPart_of_mem_parts) (complete_ne_nil hne)

/-- A key is its own key. -/
theorem key_key : s.key (s.key name) = s.key name := by
  have hparts := parts_key hext hne
  have hkeeps : parts (s.key name) ≠ [] := hparts ▸ complete_ne_nil hne
  rw [key_eq s hkeeps, hparts, complete_complete hext isPart_of_mem_parts, ← key_eq s hne]

/-- The parts of a name with its extension are read back from its key. -/
theorem key_eq_iff (hne' : parts name' ≠ []) :
    s.key name = s.key name' ↔ Equivalent s.extname name name' := by
  constructor
  · intro h
    have hparts := parts_key hext hne
    rw [h, parts_key hext hne'] at hparts
    exact hparts.symm
  · intro h
    rw [key_eq s hne, key_eq s hne', h]

end

/-! ## Changes -/

/-- A change of a shelf. -/
inductive Edit where
  | add (name text : String)
  | remove (name : String)
  | clear

namespace Edit

def name? : Edit → Option String
  | add name _ | remove name => some name
  | clear => none

/-- The text that the change leaves under its name. -/
def text? : Edit → Option String
  | add _ text => some text
  | remove _ | clear => none

def apply (s : Shelf) : Edit → Shelf
  | add name text => s.add name text
  | remove name => s.remove name
  | clear => s.clear

/-- The change concerns what is kept under a name. -/
def Touches (extname : String) (e : Edit) (name : String) : Prop :=
  ∀ n ∈ e.name?, Equivalent extname n name

instance (extname : String) (e : Edit) (name : String) : Decidable (e.Touches extname name) :=
  inferInstanceAs (Decidable (∀ n ∈ e.name?, Equivalent extname n name))

@[simp] theorem extname_apply (s : Shelf) (e : Edit) : (e.apply s).extname = s.extname := by
  cases e <;> rfl

theorem touches_add {extname name text other : String} :
    (add name text).Touches extname other ↔ Equivalent extname name other := by
  simp [Touches, name?]

theorem touches_remove {extname name other : String} :
    (remove name).Touches extname other ↔ Equivalent extname name other := by
  simp [Touches, name?]

section
variable {s : Shelf} {e : Edit} {name : String} (hext : IsExtension s.extname)
  (he : ∀ n ∈ e.name?, parts n ≠ []) (hne : parts name ≠ [])
include hext he hne

theorem get?_apply_of_touches (h : e.Touches s.extname name) :
    (e.apply s).get? (s.key name) = e.text? := by
  cases e with
  | add n text =>
    have hkey := (key_eq_iff hext (he n rfl) hne).2 (touches_add.1 h)
    rw [apply, get?_add, if_pos hkey.symm, text?]
  | remove n =>
    have hkey := (key_eq_iff hext (he n rfl) hne).2 (touches_remove.1 h)
    rw [apply, Shelf.remove, get?_erase, if_pos hkey.symm, text?]
  | clear => rfl

theorem get?_apply_of_not_touches (h : ¬e.Touches s.extname name) :
    (e.apply s).get? (s.key name) = s.get? (s.key name) := by
  cases e with
  | add n text =>
    have hkey := (key_eq_iff hext (he n rfl) hne).not.2 (touches_add.not.1 h)
    rw [apply, get?_add, if_neg (Ne.symm hkey)]
  | remove n =>
    have hkey := (key_eq_iff hext (he n rfl) hne).not.2 (touches_remove.not.1 h)
    rw [apply, Shelf.remove, get?_erase, if_neg (Ne.symm hkey)]
  | clear => exact absurd nofun h

end

end Edit

/-- An empty shelf after changes. -/
def edited (extname : String) (edits : List Edit) : Shelf := edits.foldl Edit.apply (empty extname)

/-- The text was added under an equivalent name, and no change after that concerns the name. -/
def Latest (extname : String) (edits : List Edit) (name text : String) : Prop :=
  ∃ before n after, edits = before ++ .add n text :: after ∧ Equivalent extname n name ∧
    ∀ e ∈ after, ¬e.Touches extname name

section
variable {extname : String} {edits : List Edit} {name text : String}

theorem edited_concat (e : Edit) : edited extname (edits ++ [e]) = e.apply (edited extname edits) :=
  List.foldl_concat ..

@[simp] theorem extname_edited : (edited extname edits).extname = extname := by
  induction edits using List.reverseRecOn with
  | nil => rfl
  | append_singleton edits e ih => rw [edited_concat, Edit.extname_apply, ih]

theorem key_edited : (edited extname edits).key name = (empty extname).key name := by
  rw [key, key, extname_edited]
  rfl

theorem not_latest_nil : ¬Latest extname [] name text := by
  rintro ⟨before, n, after, h, -⟩
  exact absurd h (by simp)

theorem latest_concat {e : Edit} :
    Latest extname (edits ++ [e]) name text ↔
      e.Touches extname name ∧ e.text? = some text ∨
        ¬e.Touches extname name ∧ Latest extname edits name text := by
  constructor
  · rintro ⟨before, n, after, h, hn, hafter⟩
    obtain rfl | ⟨later, last, rfl⟩ := after.eq_nil_or_concat'
    · obtain ⟨-, he⟩ := List.append_inj' h rfl
      obtain rfl : e = .add n text := by simpa using he
      exact .inl ⟨Edit.touches_add.2 hn, rfl⟩
    · rw [← List.cons_append, ← List.append_assoc] at h
      obtain ⟨rfl, he⟩ := List.append_inj' h rfl
      obtain rfl : e = last := by simpa using he
      exact .inr ⟨hafter e (by simp), before, n, later, rfl, hn, fun e' h' => hafter e' (by simp [h'])⟩
  · rintro (⟨ht, he⟩ | ⟨ht, before, n, after, rfl, hn, hafter⟩)
    · cases e with
      | add n t =>
        obtain rfl : t = text := Option.some.inj he
        exact ⟨edits, n, [], rfl, Edit.touches_add.1 ht, List.forall_mem_nil _⟩
      | remove | clear => cases he
    · refine ⟨before, n, after ++ [e], by simp, hn, fun e' h' => ?_⟩
      rcases List.mem_append.1 h' with h' | h'
      · exact hafter e' h'
      · rwa [List.mem_singleton.1 h']

/-- After any changes the key of a name holds the latest text of an equivalent name. -/
theorem get?_edited (hext : IsExtension extname)
    (he : ∀ e ∈ edits, ∀ n ∈ e.name?, parts n ≠ []) (hne : parts name ≠ []) :
    (edited extname edits).get? ((empty extname).key name) = some text ↔
      Latest extname edits name text := by
  induction edits using List.reverseRecOn with
  | nil => exact ⟨nofun, fun h => absurd h not_latest_nil⟩
  | append_singleton edits e ih =>
    have hlast := he e (by simp)
    have ih := ih fun e' h' => he e' (by simp [h'])
    have hkey : (empty extname).key name = (edited extname edits).key name := key_edited.symm
    rw [hkey] at ih ⊢
    rw [edited_concat, latest_concat, ← ih]
    have hext' : IsExtension (edited extname edits).extname := by rwa [extname_edited]
    by_cases ht : e.Touches extname name
    · rw [Edit.get?_apply_of_touches hext' hlast hne (by rwa [extname_edited])]
      simp [ht]
    · rw [Edit.get?_apply_of_not_touches hext' hlast hne (by rwa [extname_edited])]
      simp [ht]

end

/-- **A shelf maps names up to equivalence.** A name that keeps a part has one candidate, its canonical
form. Two such names have the same one iff they are equivalent, and after any changes under such names
what is read there is the text last added under an equivalent name and not taken away since. -/
theorem canonical_map {extname : String} (hext : IsExtension extname) :
    (∀ (s : Shelf) (name : String), s.extname = extname → parts name ≠ [] →
      s.reader.candidates name = [s.key name] ∧
      (∀ part ∈ Text.pieces ['/'] (s.key name).toList, IsPart part) ∧
      s.reader.candidates (s.key name) = [s.key name] ∧
      ∀ name' : String, parts name' ≠ [] →
        (s.reader.candidates name = s.reader.candidates name' ↔ Equivalent extname name name')) ∧
    ∀ edits : List Edit, (∀ e ∈ edits, ∀ n ∈ e.name?, parts n ≠ []) →
      ∀ name : String, parts name ≠ [] →
        let s := edited extname edits
        s.extname = extname ∧
        (∀ text : String, s.reader.read (s.key name) = .ok text ↔ Latest extname edits name text) ∧
        ((∀ text : String, ¬Latest extname edits name text) →
          s.reader.read (s.key name) = .error (.sourceNotFound (s.key name))) := by
  refine ⟨fun s name hs hne => ?_, fun edits he name hne => ?_⟩
  · subst hs
    refine ⟨rfl, fun part hp => ?_, ?_, fun name' hne' => ?_⟩
    · rw [pieces_key hext hne] at hp
      exact complete_isPart hext isPart_of_mem_parts part hp
    · exact congrArg (fun k => [k]) (key_key hext hne)
    · rw [← key_eq_iff hext hne hne']
      simp [reader]
  · intro s
    have hget (text : String) : s.get? (s.key name) = some text ↔ Latest extname edits name text := by
      rw [key_edited]
      exact get?_edited hext he hne
    refine ⟨extname_edited, fun text => ?_, fun hnone => ?_⟩
    · rw [← hget text, reader]
      dsimp only
      split <;> simp_all
    · have hnothing : s.get? (s.key name) = none :=
        Option.eq_none_iff_forall_ne_some.2 fun text h => hnone text ((hget text).1 h)
      simp [reader, hnothing]

/-- A hidden file takes the extension as other names do; other spellings replace and remove its text. -/
theorem canonical_map_hidden :
    let edits : List Edit := [.add "/a/./.rc" "old", .add "b." "b", .add "../a//.rc" "new", .clear,
      .add "a/x/../.rc" "last", .remove "a/.rc/x", .remove "..."]
    IsExtension ".x" ∧ (∀ e ∈ edits, ∀ n ∈ e.name?, parts n ≠ []) ∧
    parts "a/.rc.x" = [['a'], ['.', 'r', 'c', '.', 'x']] ∧
    Equivalent ".x" "a/.rc.x" "./a/.rc" ∧
    (empty ".x").reader.candidates "a/.rc.x" = (empty ".x").reader.candidates "./a/.rc" ∧
    Latest ".x" edits "a/.rc.x" "last" ∧
    (edited ".x" edits).reader.read ((edited ".x" edits).key "a/.rc.x") = .ok "last" ∧
    (∀ text : String, ¬Latest ".x" edits "c" text) ∧
    (edited ".x" edits).reader.read ((edited ".x" edits).key "c") =
      .error (.sourceNotFound ((edited ".x" edits).key "c")) := by
  intro edits
  have hext : IsExtension ".x" := .inr ⟨['x'], rfl, by decide⟩
  have hkeep : ∀ e ∈ edits, ∀ n ∈ e.name?, parts n ≠ [] := by decide
  have hne : parts "a/.rc.x" ≠ [] := by decide
  have hsame : Equivalent ".x" "a/.rc.x" "./a/.rc" := by decide
  obtain ⟨hkeys, hreads⟩ := canonical_map hext
  obtain ⟨-, -, -, hinj⟩ := hkeys (empty ".x") "a/.rc.x" rfl hne
  obtain ⟨-, hread, -⟩ := hreads edits hkeep "a/.rc.x" hne
  obtain ⟨-, -, hmissing⟩ := hreads edits hkeep "c" (by decide)
  have hlatest : Latest ".x" edits "a/.rc.x" "last" :=
    ⟨edits.take 4, "a/x/../.rc", edits.drop 5, rfl, by decide, by decide⟩
  have hnever : ∀ text : String, ¬Latest ".x" edits "c" text := by
    rintro text ⟨before, n, after, h, hn, -⟩
    have hmem : Edit.add n text ∈ edits := by simp [h]
    have hother : ∀ e ∈ edits, ∀ n ∈ e.name?, ¬Equivalent ".x" n "c" := by decide
    exact hother _ hmem n rfl hn
  exact ⟨hext, hkeep, by decide, hsame, (hinj "./a/.rc" (by decide)).2 hsame, hlatest,
    (hread "last").2 hlatest, hnever, hmissing hnever⟩

end Shelf

end Stencil
