import Mathlib.Data.List.Forall2
import Stencil.Proofs.Expression.Extending
import Stencil.Proofs.Filter.Indexing
import Stencil.Proofs.Render.Outcomes
import Stencil.Proofs.Render.Sequencing
import Stencil.Proofs.Source.Paths

/-!
# Dotted paths

A path of names and digits may be looked up in a context or parsed and evaluated. The two ways agree
step by step (`Value.property_of_child?`), but that the look-up takes digits for the name of a field too,
where an expression has an index, which objects do not have: `Context.get?_eval`.
-/

namespace Stencil

open Scanner

-- Powers are those of the natural numbers and integers, whatever algebra is imported.
attribute [local instance (high)] instPowNat

/-! ## Texts -/

/-- An expression that is parsed from the spelling of a term is the one that the term stands for. -/
theorem Term.fits_of_parse {t : Term} {text : String} {e : Expression}
    (h : Expression.parse text = .ok e) (hs : t.spelling = text.toList) :
    t.Fits ∧ t.expression = e := by
  obtain ⟨t', hs', ho⟩ := Expression.term_of_ofChars h
  have htrim : Text.trim text.toList = t.spelling := by
    simpa [hs] using t.trim_between (List.forall_mem_nil _) (List.forall_mem_nil _)
  have read (u : Term) (hu : u.spelling = t.spelling) :
      Gives value? (Scanner.ofChars t.spelling) (some u.token) [] :=
    u.value_gives (by simp [Scanner.ofChars, hu]) .nil
  obtain ⟨s, hv, -⟩ := read t rfl
  obtain ⟨htoken, -⟩ := (read t' (hs'.trans htrim)).eq_of_ok hv
  exact t.fits_of_ofToken (Option.some.inj htoken ▸ ho)

/-- The segment is the part of a dotted path. -/
inductive Segment.Writes : String → Segment → Prop where
  | key {name : String} (h : IsName name.toList) : Writes name (.key name)
  | index {ds : String} (h : IsDigits ds.toList) (fits : Decimal.digitsValue ds.toList < 2 ^ (63 : Nat)) :
    Writes ds (.index (Decimal.digitsValue ds.toList))

/-- A name or digits. -/
def IsWord (part : String) : Prop := IsName part.toList ∨ IsDigits part.toList

theorem IsWord.no_point {part : String} (h : IsWord part) : '.' ∉ part.toList := by
  rcases h with hname | ⟨-, hdigits⟩
  · exact fun hpoint => absurd (hname.continues '.' hpoint) (by decide)
  · exact fun hpoint => absurd (hdigits '.' hpoint) (by decide)

/-- The parts, each behind a point. -/
def dotted (parts : List String) : List Char := parts.flatMap fun part => '.' :: part.toList

theorem exists_steps {parts : List String} (h : ∀ part ∈ parts, IsWord part) :
    ∃ steps : Steps, steps.spelling = dotted parts ∧
      (steps.Fits → List.Forall₂ Segment.Writes parts steps.segments) := by
  induction parts with
  | nil => exact ⟨.none, rfl, fun _ => .nil⟩
  | cons part parts ih =>
    obtain ⟨hpart, hparts⟩ := List.forall_mem_cons.1 h
    obtain ⟨further, hspelling, hwrites⟩ := ih hparts
    rcases hpart with hname | hdigits
    · refine ⟨.name ⟨part.toList, hname⟩ further, by simp [Steps.spelling, dotted, hspelling],
        fun hf => ?_⟩
      rw [Steps.segments]
      exact .cons (by simpa using .key hname) (hwrites hf)
    · refine ⟨.index ⟨part.toList, hdigits⟩ further, by simp [Steps.spelling, dotted, hspelling],
        fun hf => ?_⟩
      rw [Steps.segments]
      exact .cons (.index hdigits hf.1) (hwrites hf.2)

theorem toList_intercalate_cons (first : String) (rest : List String) :
    (".".intercalate (first :: rest)).toList = first.toList ++ dotted rest := by
  have hlist (head : List Char) (tail : List String) :
      ['.'].intercalate (head :: tail.map String.toList) = head ++ dotted tail := by
    induction tail generalizing head with
    | nil => simp [dotted]
    | cons part tail ih =>
      rw [List.map_cons, List.intercalate_cons_cons, ih]
      simp [dotted]
  rw [String.toList_intercalate, List.map_cons]
  exact hlist first.toList rest

/-- The text of a path starts with a name or a bracket. -/
theorem Term.startsPath_of_path {t : Term} {spelling : String} {segments : List Segment}
    (h : t.expression = .path spelling segments) :
    ∃ c rest, t.spelling = c :: rest ∧ startsPath c = true := by
  cases t with
  | string | number | range => cases h
  | named name further =>
    obtain ⟨c, cs, hname, hc, -⟩ := name.2
    exact ⟨c, cs ++ further.spelling, by rw [Term.spelling, hname, List.cons_append],
      by simp [startsPath, hc]⟩
  | bracketed start further =>
    obtain ⟨b, inner, b'⟩ := start
    exact ⟨'[', _, by rw [Term.spelling, Bracket.spelling, List.cons_append], rfl⟩

/-- What a dotted path is parsed as: it starts with a name. -/
theorem segments_of_parse {parts : List String} (h : ∀ part ∈ parts, IsWord part)
    {spelling : String} {segments : List Segment}
    (hparse : Expression.parse (".".intercalate parts) = .ok (.path spelling segments)) :
    ∃ first rest further, parts = first :: rest ∧ segments = .key first :: further ∧
      List.Forall₂ Segment.Writes rest further := by
  obtain ⟨t, ht, -, he⟩ := (Expression.parse_iff_term _ _).1 hparse
  obtain ⟨c, cs, hc, hpath⟩ := Term.startsPath_of_path he
  obtain ⟨b, b', htext, hb, -⟩ := Text.trim_eq (".".intercalate parts).toList
  rw [← ht, hc] at htext
  cases parts with
  | nil => exact absurd htext (by simp)
  | cons first rest =>
    obtain ⟨hfirst, hrest⟩ := List.forall_mem_cons.1 h
    rw [toList_intercalate_cons] at htext
    rcases hfirst with hname | ⟨hne, hdigits⟩
    · obtain ⟨steps, hspelling, hwrites⟩ := exists_steps hrest
      have hs : (Term.named ⟨first.toList, hname⟩ steps).spelling =
          (".".intercalate (first :: rest)).toList := by
        rw [Term.spelling, hspelling, toList_intercalate_cons]
      obtain ⟨hfits, hexpr⟩ := Term.fits_of_parse hparse hs
      rw [Term.expression] at hexpr
      split at hexpr
      · cases hexpr
      · obtain ⟨-, rfl⟩ := Expression.path.inj hexpr
        exact ⟨first, rest, steps.segments, rfl, by simp, hwrites hfits⟩
    · -- a digit is no blank and starts no path
      obtain ⟨d, ds, hd⟩ := List.exists_cons_of_ne_nil hne
      have hdigit : d.isDigit = true := hdigits d (hd ▸ List.mem_cons_self)
      rw [hd] at htext
      cases b with
      | nil =>
        obtain rfl : d = c := (List.cons.inj htext).1
        have hbracket : d ≠ '[' := by
          rintro rfl
          cases hdigit
        simp [startsPath, startsName_digit hdigit, hbracket] at hpath
      | cons x b =>
        obtain rfl : d = x := (List.cons.inj htext).1
        cases (isBlank_of_isDigit hdigit).symm.trans (hb d List.mem_cons_self)

/-! ## Steps -/

section
variable {part : String} {segment : Segment} {v w : Value}

theorem Scanner.IsName.natural? {name : List Char} (h : IsName name) : Decimal.natural? name = none := by
  obtain ⟨c, cs, rfl, hc, -⟩ := h
  have hplus : c ≠ '+' := by
    rintro rfl
    exact absurd hc (by decide)
  have hdigit : c.isDigit = false :=
    Bool.eq_false_iff.2 fun hd => nomatch hc.symm.trans (startsName_digit hd)
  simp [Decimal.natural?, hplus, Decimal.isDigits, hdigit]

/-- Digits start no name. -/
theorem Scanner.IsName.not_isDigits {s : List Char} (h : IsName s) : ¬IsDigits s := by
  rintro ⟨-, hdigits⟩
  obtain ⟨c, cs, rfl, hc, -⟩ := h
  cases hc.symm.trans (startsName_digit (hdigits c List.mem_cons_self))

theorem Scanner.IsDigits.natural? {ds : List Char} (h : IsDigits ds)
    (fits : Decimal.digitsValue ds < 2 ^ (63 : Nat)) :
    Decimal.natural? ds = some (Decimal.digitsValue ds) := by
  have hplus : ∀ rest, ds ≠ '+' :: rest := by
    rintro rest rfl
    exact absurd (h.2 '+' List.mem_cons_self) (by decide)
  have hunsigned : Decimal.natural? ds =
      if Decimal.isDigits ds ∧ Decimal.digitsValue ds < 2 ^ (64 : Nat) then
        some (Decimal.digitsValue ds) else none := by
    unfold Decimal.natural?
    split
    · next rest => exact absurd rfl (hplus rest)
    · rfl
  rw [hunsigned, if_pos ⟨Decimal.isDigits_iff.2 h, by omega⟩]

/-- A name reads the same field in both ways. -/
theorem Value.property_of_name (hname : IsName part.toList)
    (h : Context.child? part.toList v = some w) : v.property (.text part) = w := by
  cases v with
  | object fields =>
    have hget : Fields.get? fields part = some w := by simpa [Context.child?] using h
    rw [property, hget]
  | list items => simp [Context.child?, hname.natural?] at h
  | null | bool | number | text => cases h

/-- Digits read the same item of a list in both ways, and an index is no property of an object. -/
theorem Value.property_of_digits (hdigits : IsDigits part.toList)
    (fits : Decimal.digitsValue part.toList < 2 ^ (63 : Nat))
    (h : Context.child? part.toList v = some w) :
    (∃ items, v = .list items) ∧ v.property (.int (Decimal.digitsValue part.toList)) = w ∨
      (∃ fields, v = .object fields) ∧
        v.property (.int (Decimal.digitsValue part.toList)) = .null := by
  cases v with
  | object fields => exact .inr ⟨⟨fields, rfl⟩, rfl⟩
  | list items =>
    have hitem : items[Decimal.digitsValue part.toList]? = some w := by
      simpa [Context.child?, hdigits.natural? fits] using h
    refine .inl ⟨⟨items, rfl⟩, ?_⟩
    rw [property_int ⟨by omega, by omega⟩, item?_front, hitem]
    rfl
  | null | bool | number | text => cases h

end

/-! ## Walks -/

/-- On the way from a value along the parts, digits are taken of lists only. -/
def Value.Itemizes : Value → List String → Prop
  | _, [] => True
  | v, part :: rest =>
    (IsDigits part.toList → ∃ items, v = .list items) ∧
      ∀ w, Context.child? part.toList v = some w → w.Itemizes rest

section
variable (i : Interpreter) (ctx : Context) {segments : List Segment} {parts : List String}

theorem walk_key (v : Value) (name : String) (rest : List Segment) :
    walk i ctx v (.key name :: rest) = walk i ctx (v.property (.text name)) rest := by
  rw [walk, Segment.property, pure_bind]

theorem walk_index (v : Value) (n : Int) (rest : List Segment) :
    walk i ctx v (.index n :: rest) = walk i ctx (v.property (.int n)) rest := by
  rw [walk, Segment.property, pure_bind]

/-- Nil has no properties. -/
theorem walk_null (h : List.Forall₂ Segment.Writes parts segments) :
    walk i ctx .null segments = pure .null := by
  induction h with
  | nil => rw [walk]
  | cons hs _ ih =>
    cases hs with
    | key => rw [walk_key]; exact ih
    | index => rw [walk_index]; exact ih

/-- Where the look-up finds a value, a walk comes to it if digits are taken of lists only, else to nil. -/
theorem walk_of_foldl (h : List.Forall₂ Segment.Writes parts segments) {v w : Value}
    (hw : parts.foldl (fun u part => u.bind (Context.child? part.toList)) (some v) = some w) :
    (v.Itemizes parts → walk i ctx v segments = pure w) ∧
      (¬v.Itemizes parts → walk i ctx v segments = pure .null) := by
  induction h generalizing v with
  | nil =>
    obtain rfl : v = w := Option.some.inj hw
    exact ⟨fun _ => by rw [walk], fun hno => absurd trivial hno⟩
  | @cons part segment parts segments hs hrest ih =>
    rw [List.foldl_cons, Option.bind_some] at hw
    cases hchild : Context.child? part.toList v with
    | none =>
      rw [hchild, List.foldl_fixed' fun _ => rfl] at hw
      cases hw
    | some u =>
      rw [hchild] at hw
      have hu : v.Itemizes (part :: parts) ↔
          (IsDigits part.toList → ∃ items, v = .list items) ∧ u.Itemizes parts := by
        simp [Value.Itemizes, hchild]
      cases hs with
      | key hname =>
        rw [walk_key, Value.property_of_name hname hchild, hu]
        simpa [hname.not_isDigits] using ih hw
      | index hdigits fits =>
        rw [walk_index, hu]
        rcases Value.property_of_digits hdigits fits hchild with ⟨hlist, hprop⟩ | ⟨⟨fields, rfl⟩, hprop⟩
        · rw [hprop]
          simpa [hlist] using ih hw
        · rw [hprop, walk_null i ctx hrest]
          refine ⟨fun hitems => ?_, fun _ => rfl⟩
          obtain ⟨items, hitems⟩ := hitems.1 hdigits
          cases hitems

end

/-! ## Paths in a context -/

namespace Context

/-- On the way along the parts, digits are taken of lists only. -/
def Itemizes (c : Context) (parts : List String) : Prop :=
  ∀ first rest v, parts = first :: rest → c.find? first = some v → v.Itemizes rest

theorem get?_intercalate (c : Context) {first : String} {rest : List String}
    (h : ∀ part ∈ first :: rest, IsWord part) :
    c.get? (".".intercalate (first :: rest)) =
      rest.foldl (fun v part => v.bind (child? part.toList)) (c.find? first) := by
  have hpoint : ∀ part ∈ (first :: rest).map String.toList, '.' ∉ part := by
    intro part hpart
    obtain ⟨word, hword, rfl⟩ := List.mem_map.1 hpart
    exact (h word hword).no_point
  have hpieces : Text.pieces ['.'] (".".intercalate (first :: rest)).toList =
      (first :: rest).map String.toList := by
    rw [Text.pieces_single, String.toList_intercalate]
    exact List.splitOn_intercalate '.' hpoint (by simp)
  rw [get?, hpieces, List.map_cons]
  simp only [List.foldl_map, String.ofList_toList]

/-- **A look-up of a dotted path and the evaluation of the expression agree.** Let names and digits
between points be parsed as a path. Where the context has a value for it, the evaluation gives this value
at once, if digits stand only for items of lists on the way, and else nil: an object that has digits for
the name of a field shows it to the look-up only. -/
theorem get?_eval (i : Interpreter) (c : Context) {parts : List String}
    (hwords : ∀ part ∈ parts, IsWord part) {spelling : String} {segments : List Segment}
    (hparse : Expression.parse (".".intercalate parts) = .ok (.path spelling segments)) {v : Value}
    (hv : c.get? (".".intercalate parts) = some v) :
    (c.Itemizes parts → (Expression.path spelling segments).eval i c = pure v) ∧
      (¬c.Itemizes parts → (Expression.path spelling segments).eval i c = pure .null) := by
  obtain ⟨first, rest, further, rfl, rfl, hfurther⟩ := segments_of_parse hwords hparse
  rw [get?_intercalate c hwords] at hv
  cases hfirst : c.find? first with
  | none =>
    rw [hfirst, List.foldl_fixed' fun _ => rfl] at hv
    cases hv
  | some u =>
    rw [hfirst] at hv
    have heval : (Expression.path spelling (.key first :: further)).eval i c =
        walk i c u further := by
      simp only [Expression.eval, Segment.headName, Interpreter.variableValue, hfirst, pure_bind]
    have hitems : c.Itemizes (first :: rest) ↔ u.Itemizes rest := by
      constructor
      · intro h
        exact h first rest u rfl hfirst
      · rintro h _ _ w ⟨⟩ hw
        obtain rfl : u = w := Option.some.inj (hfirst.symm.trans hw)
        exact h
    rw [heval, hitems]
    exact walk_of_foldl i c hfurther hv

set_option maxRecDepth 1000 in
/-- The second item of a list in an object. -/
theorem get?_eval_item :
    let i : Interpreter := ⟨.empty, .sync⟩
    let c : Context := ⟨[("a", .object [("b", .list [.text "x", .text "y"])])], [], [], none, false⟩
    let path : Expression := .path "a.b.1" [.key "a", .key "b", .index 1]
    (∀ part ∈ ["a", "b", "1"], IsWord part) ∧ Expression.parse "a.b.1" = .ok path ∧
      c.get? "a.b.1" = some (.text "y") ∧ c.Itemizes ["a", "b", "1"] ∧
      path.eval i c = pure (.text "y") := by
  intro i c path
  have hwords : ∀ part ∈ ["a", "b", "1"], IsWord part := by
    simp only [List.forall_mem_cons]
    exact ⟨.inl ⟨'a', [], rfl, by decide, List.forall_mem_nil _⟩, .inl ⟨'b', [], rfl, by decide, List.forall_mem_nil _⟩,
      .inr (Decimal.isDigits_iff.1 (by decide)), List.forall_mem_nil _⟩
  have hparse : Expression.parse "a.b.1" = .ok path := by cbv
  have hget : c.get? "a.b.1" = some (.text "y") := by cbv
  have hitems : c.Itemizes ["a", "b", "1"] := by
    have hb : ¬IsDigits "b".toList := IsName.not_isDigits ⟨'b', [], rfl, by decide, List.forall_mem_nil _⟩
    rintro first rest v ⟨⟩ hv
    obtain rfl : Value.object [("b", .list [.text "x", .text "y"])] = v := by
      exact Option.some.inj hv
    refine ⟨fun hdigits => absurd hdigits hb, fun w hw => ?_⟩
    obtain rfl : Value.list [.text "x", .text "y"] = w := by
      exact Option.some.inj hw
    exact ⟨fun _ => ⟨_, rfl⟩, fun _ _ => trivial⟩
  exact ⟨hwords, hparse, hget, hitems, (get?_eval i c hwords hparse hget).1 hitems⟩

set_option maxRecDepth 1000 in
/-- Digits are the name of a field to the look-up and an index to the expression. -/
theorem get?_eval_numbered_field :
    ¬∀ (i : Interpreter) (c : Context) (parts : List String) (spelling : String)
      (segments : List Segment) (v : Value), c.strict = false → (∀ part ∈ parts, IsWord part) →
        Expression.parse (".".intercalate parts) = .ok (.path spelling segments) →
        c.get? (".".intercalate parts) = some v →
        (Expression.path spelling segments).outcome i c = .ok v := by
  intro h
  let c : Context := ⟨[("a", .object [("0", .text "x")])], [], [], none, false⟩
  have hwords : ∀ part ∈ ["a", "0"], IsWord part := by
    simp only [List.forall_mem_cons]
    exact ⟨.inl ⟨'a', [], rfl, by decide, List.forall_mem_nil _⟩, .inr (Decimal.isDigits_iff.1 (by decide)),
      List.forall_mem_nil _⟩
  have hx := h ⟨.empty, .sync⟩ c ["a", "0"] "a.0" [.key "a", .index 0] (.text "x") rfl hwords
    (by cbv) (by cbv)
  have hnil : (Expression.path "a.0" [.key "a", .index 0]).outcome ⟨.empty, .sync⟩ c = .ok .null := by
    cbv
  cases hnil.symm.trans hx

end Context

end Stencil
