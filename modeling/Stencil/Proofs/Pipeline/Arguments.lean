import Stencil.Proofs.Pipeline.Pieces
import Stencil.Proofs.Expression.Scanning

/-!
# Filters by their pieces

The reader of a filter looks ahead for a key, goes back if there is none, takes a value and skips to the
next comma. `parse_iff_arguments` says that it reads what a cut of the whole tail at its commas gives:
an argument from each piece, whatever the other pieces are.
-/

namespace Stencil

open Scanner
open Text (startsName continuesName isBlank)

/-! ## Arguments in front of a text -/

namespace Argument

open Expression (Begins begins_iff begins_local)

/-- Blanks at its front aside, the text begins with a name, blanks and a colon. -/
def Keyed (text key rest : List Char) : Prop :=
  IsName key ∧ ∃ b, Blank b ∧ Text.trimStart text = key ++ (b ++ ':' :: rest)

/-- The text begins with the argument, and `rest` follows. A name and a colon are always a key. -/
inductive Leads (text : List Char) : Argument → List Char → Prop where
  | named {key more rest : List Char} {e : Expression} (h : Keyed text key more)
    (hv : Begins more e rest) : Leads text ⟨some (String.ofList key), e⟩ rest
  | positional {rest : List Char} {e : Expression} (h : ∀ key more, ¬ Keyed text key more)
    (hv : Begins text e rest) : Leads text ⟨none, e⟩ rest

/-- Each piece begins with its argument, but for a blank one at the end, which has none. -/
inductive Listed : List (List Char) → List Argument → Prop where
  | nil : Listed [] []
  | blank {piece : List Char} (h : Blank piece) : Listed [piece] []
  | cons {piece rest : List Char} {a : Argument} {pieces : List (List Char)}
    {arguments : List Argument} (h : Leads piece a rest) (further : Listed pieces arguments) :
    Listed (piece :: pieces) (a :: arguments)

variable {text s t key more rest : List Char} {e : Expression} {a : Argument}

/-! ### Keys -/

theorem breaks_colon {b : List Char} (hb : Blank b) (rest : List Char) :
    Breaks continuesName (b ++ ':' :: rest) := by
  have colon : Ends (':' :: rest) := .of_head (by decide) (by decide) (by decide)
  exact (colon.blanks hb).name

/-- There is no mark up to the colon of a key, and what follows it does not matter. -/
theorem Keyed.split (h : Keyed text key more) : ∃ front, text = front ++ more ∧
    (∀ c ∈ front, c ∉ Span.marks) ∧ ∀ more', Keyed (front ++ more') key more' := by
  obtain ⟨hk, b, hb, e⟩ := h
  obtain ⟨b₀, e₀, hb₀⟩ := Text.trimStart_eq text
  refine ⟨b₀ ++ (key ++ (b ++ [':'])), by rw [e₀, e]; simp, ?_, fun more' => ⟨hk, b, hb, ?_⟩⟩
  · intro c hc
    rcases (by simpa using hc : c ∈ b₀ ∨ c ∈ key ∨ c ∈ b ∨ c = ':') with hc | hc | hc | rfl
    · exact Blank.unmarked hb₀ c hc
    · exact hk.unmarked c hc
    · exact hb.unmarked c hc
    · decide
  · simpa using trimStart_append hb₀ (hk.breaks_isBlank (b ++ ':' :: more'))

theorem Keyed.alike (h : Keyed s key more) (ha : Span.Alike s t) : ∃ more', Keyed t key more' := by
  obtain ⟨front, rfl, hf, hk⟩ := h.split
  obtain ⟨more', rfl, -⟩ := ha.of_append hf
  exact ⟨more', hk more'⟩

theorem not_keyed_of_breaks (h : Breaks startsName (Text.trimStart text)) : ¬ Keyed text key more := by
  rintro ⟨⟨c, cs, rfl, hc, -⟩, b, -, e⟩
  rw [e] at h
  cases hc.symm.trans h

theorem Keyed.unique {key' more' : List Char} (h : Keyed text key more)
    (h' : Keyed text key' more') : key = key' ∧ more = more' := by
  obtain ⟨hk, b, hb, e⟩ := h
  obtain ⟨hk', b', hb', e'⟩ := h'
  have hs := splitName_iff.2 ⟨e, hk, breaks_colon hb more⟩
  have hs' := splitName_iff.2 ⟨e', hk', breaks_colon hb' more'⟩
  obtain ⟨rfl, hr⟩ := Prod.mk.inj (Option.some.inj (hs.symm.trans hs'))
  have colon (r : List Char) : Breaks isBlank (':' :: r) := rfl
  have ht := congrArg Text.trimStart hr
  rw [trimStart_append hb (colon more), trimStart_append hb' (colon more')] at ht
  exact ⟨rfl, (List.cons.inj ht).2⟩

/-! ### Arguments -/

/-- Blanks at the front of the text have no bearing on the argument. -/
theorem Leads.congr (e : Text.trimStart s = Text.trimStart t) (h : Leads s a rest) :
    Leads t a rest := by
  have hk (key more : List Char) : Keyed s key more ↔ Keyed t key more := by
    rw [Keyed, Keyed, e]
  cases h with
  | named h hv => exact .named ((hk _ _).1 h) hv
  | positional h hv =>
    refine .positional (fun key more h' => h key more ((hk _ _).2 h')) ?_
    rwa [Begins, ← e]

theorem not_delimiter {p : Char → Bool} (hp : p ':' = false ∧ p ',' = false) {c : Char}
    (hc : p c = true) : c ≠ ':' ∧ c ≠ ',' := by
  constructor
  · rintro rfl
    cases hp.1.symm.trans hc
  · rintro rfl
    cases hp.2.symm.trans hc

theorem starts_value {kind : TokenKind} (h : Reads (.value kind) text rest) :
    Starts (fun c => c ≠ ':' ∧ c ≠ ',') text := by
  cases h with
  | quoted hq => exact ⟨_, _, rfl, not_delimiter (by decide) hq⟩
  | number h =>
    obtain ⟨c, cs, rfl, rfl | hc⟩ := h.starts
    · exact ⟨_, _, rfl, by decide⟩
    · exact ⟨_, _, rfl, not_delimiter (by decide) hc⟩
  | range => exact ⟨_, _, rfl, by decide⟩
  | path h =>
    rcases h.starts with ⟨c, cs, rfl, hc⟩ | ⟨h, -⟩
    · exact ⟨_, _, rfl, not_delimiter (by decide) (hc : startsPath c = true)⟩
    · cases h

/-- No argument starts with a colon or a comma. -/
theorem Leads.starts (h : Leads text a rest) :
    Starts (fun c => c ≠ ':' ∧ c ≠ ',') (Text.trimStart text) := by
  cases h with
  | named h =>
    obtain ⟨⟨c, cs, rfl, hc, -⟩, b, -, e⟩ := h
    exact ⟨c, _, e, not_delimiter (by decide) hc⟩
  | positional _ h =>
    obtain ⟨t, hv, -⟩ := h
    obtain ⟨e, hr⟩ := value_gives_iff.1 hv
    have hs := (starts_value hr).append rest
    rwa [← e] at hs

/-- An argument is read off the front of a text, whatever stands behind the next separator. -/
theorem leads_local (a : Argument) : Span.Local (Leads · a ·) := by
  intro text rest h
  cases h with
  | @named key more rest e hk hv =>
    obtain ⟨front, rfl, hf, hkey⟩ := hk.split
    obtain ⟨value, rfl, hl, hvalue⟩ := begins_local e more rest hv
    have hlevel := (Span.Level.of_unmarked hf).append hl
    refine ⟨front ++ value, (List.append_assoc _ _ _).symm, hlevel, fun rest' ha => ?_⟩
    rw [List.append_assoc]
    exact .named (hkey _) (hvalue rest' ha)
  | @positional rest e hk hv =>
    obtain ⟨value, rfl, hl, hvalue⟩ := begins_local e text rest hv
    refine ⟨value, rfl, hl, fun rest' ha => .positional (fun key more h => ?_) (hvalue rest' ha)⟩
    obtain ⟨more', h'⟩ := h.alike (ha.symm.append value)
    exact hk key more' h'

theorem Leads.length_le (h : Leads text a rest) : rest.length ≤ text.length := by
  obtain ⟨front, rfl, -⟩ := leads_local a text rest h
  simp

/-- An argument is known from the text that it leads. -/
theorem Leads.unique {a' : Argument} {rest' : List Char} (h : Leads text a rest)
    (h' : Leads text a' rest') : a = a' ∧ rest = rest' := by
  cases h with
  | named hk hv =>
    cases h' with
    | named hk' hv' =>
      obtain ⟨rfl, rfl⟩ := hk.unique hk'
      obtain ⟨rfl, rfl⟩ := hv.unique hv'
      exact ⟨rfl, rfl⟩
    | positional hk' => exact absurd hk (hk' _ _)
  | positional hk hv =>
    cases h' with
    | named hk' => exact absurd hk' (hk _ _)
    | positional _ hv' =>
      obtain ⟨rfl, rfl⟩ := hv.unique hv'
      exact ⟨rfl, rfl⟩

end Argument

/-! ## The reader of arguments -/

namespace Invocation

open Argument
open Expression (Begins begins_iff)

variable {s s' : Scanner} {n : Nat} {a : Argument} {key rest : List Char}
  {arguments : List Argument}

theorem key_gives (hs : Breaks isBlank s.rest) (h : Keyed s.rest key rest) :
    Gives key? s (some (String.ofList key)) rest := by
  obtain ⟨hk, b, hb, e⟩ := h
  rw [trimStart_solid hs] at e
  refine attempt_gives ?_
  refine (chunk_gives (splitName_iff.2 ⟨e, hk, breaks_colon hb rest⟩)).bind fun s₁ e₁ => ?_
  refine (skipBlanks_gives e₁ hb rfl).bind fun s₂ e₂ => ?_
  refine (eat_gives e₂).bind fun s₃ e₃ => ?_
  exact e₃ ▸ .pure

theorem key_absent (hs : Breaks isBlank s.rest) (h : ∀ key more, ¬ Keyed s.rest key more) :
    Gives key? s none s.rest := by
  cases hn : splitName s.rest with
  | none => exact attempt_misses ((chunk_misses hn).bind fun s₁ e₁ => ⟨s₁, rfl, e₁⟩)
  | some split =>
    obtain ⟨name, more⟩ := split
    obtain ⟨e, hname, -⟩ := splitName_iff.1 hn
    obtain ⟨b, hb, hblank⟩ := Text.trimStart_eq more
    have hcolon : (Text.trimStart more).head? ≠ some ':' := by
      intro hc
      obtain ⟨rest, er⟩ := List.head?_eq_some_iff.1 hc
      refine h name rest ⟨hname, b, hblank, ?_⟩
      rw [trimStart_solid hs, e, ← er, ← hb]
    refine attempt_misses (?_ : Gives _ s none (Text.trimStart more))
    refine (chunk_gives hn).bind fun s₁ e₁ => ?_
    refine (skipBlanks_gives (e₁.trans hb) hblank (breaks_trimStart more)).bind fun s₂ e₂ => ?_
    refine (eat_misses (by rw [e₂]; exact hcolon)).bind fun s₃ e₃ => ?_
    exact ⟨s₃, rfl, e₃.trans e₂⟩

/-- The look-ahead takes the key of an argument and nothing else. -/
theorem key_of_leads (hs : Breaks isBlank s.rest) (h : Leads s.rest a rest) :
    ∃ more, Gives key? s a.key more ∧ Begins more a.value rest := by
  cases h with
  | named hk hv => exact ⟨_, key_gives hs hk, hv⟩
  | positional hk hv => exact ⟨_, key_absent hs hk, hv⟩

/-- Whether the text has a key decides how the look-ahead ends. -/
theorem leads_of_key {o : Option String} {e : Expression} (hs : Breaks isBlank s.rest)
    (h : key? s = .ok o s') (hv : Begins s'.rest e rest) : Leads s.rest ⟨o, e⟩ rest := by
  by_cases hk : ∃ key more, Keyed s.rest key more
  · obtain ⟨key, more, hk⟩ := hk
    obtain ⟨rfl, er⟩ := (key_gives hs hk).eq_of_ok h
    exact .named hk (er ▸ hv)
  · have hk : ∀ key more, ¬ Keyed s.rest key more := fun key more h => hk ⟨key, more, h⟩
    obtain ⟨rfl, er⟩ := (key_absent hs hk).eq_of_ok h
    exact .positional hk (er ▸ hv)

/-- What is done behind an argument. -/
def further (n : Nat) (a : Argument) : Scan (List Argument) := do
  if (← skipTo [',']).isNone then return [a]
  let _ ← eat ','
  return a :: (← argumentsOf n)

theorem argumentsOf_ok (h : argumentsOf (n + 1) s = .ok arguments s') :
    Blank s.rest ∧ arguments = [] ∨
      ∃ a s₁, Leads s.rest a s₁.rest ∧ further n a s₁ = .ok arguments s' := by
  obtain ⟨_, s₁, hb, h₁⟩ := bind_eq_ok_iff.1 h
  obtain ⟨b, hblank, e₁, hs₁⟩ := skipBlanks_ok hb
  obtain ⟨_, s₂, hp, h₂⟩ := bind_eq_ok_iff.1 h₁
  cases hp
  generalize hc : s₁.rest.head? = c at h₂
  split at h₂
  · cases h₂
    rw [List.head?_eq_none_iff.1 hc, List.append_nil] at e₁
    exact .inl ⟨e₁ ▸ hblank, rfl⟩
  · cases h₂
  · cases h₂
  · obtain ⟨key, s₃, hk, h₃⟩ := bind_eq_ok_iff.1 h₂
    obtain ⟨_, s₄, hb', h₄⟩ := bind_eq_ok_iff.1 h₃
    obtain ⟨o, s₅, hv, h₅⟩ := bind_eq_ok_iff.1 h₄
    cases o with
    -- Without a value the reader fails, in one way behind a key and in another without one.
    | none => cases key <;> cases h₅
    | some t =>
      obtain ⟨e, s₆, hl, h₆⟩ := bind_eq_ok_iff.1 h₅
      obtain ⟨ho, rfl⟩ := lift_ok hl
      have hbegins : Begins s₃.rest e s₆.rest := by
        obtain ⟨b', hblank', e₄, -⟩ := skipBlanks_ok hb'
        obtain ⟨e₅, hr⟩ := value_reads _ _ _ hv
        exact begins_iff.2 ⟨b', t, hblank', e₄.trans (congrArg (b' ++ ·) e₅), hr, ho⟩
      refine .inr ⟨⟨key, e⟩, s₆, (leads_of_key hs₁ hk hbegins).congr ?_, h₆⟩
      rw [e₁, trimStart_append hblank hs₁, trimStart_solid hs₁]

theorem argumentsOf_gives {final : List Char} (h : Leads s.rest a rest)
    (hf : ∀ s₁, s₁.rest = rest → Gives (further n a) s₁ arguments final) :
    Gives (argumentsOf (n + 1)) s arguments final := by
  obtain ⟨b, hb, hblank⟩ := Text.trimStart_eq s.rest
  have hsolid := breaks_trimStart s.rest
  have hleads : Leads (Text.trimStart s.rest) a rest := h.congr (trimStart_solid hsolid).symm
  obtain ⟨c, cs, hc, hcolon, hcomma⟩ := h.starts
  rw [argumentsOf]
  refine (skipBlanks_gives hb hblank hsolid).bind fun s₁ e₁ => ?_
  refine peek_gives.bind fun s₂ e₂ => ?_
  rw [e₁, hc, List.head?_cons]
  split
  · cases ‹some _ = none›
  · exact absurd (Option.some.inj ‹_›) hcolon
  · exact absurd (Option.some.inj ‹_›) hcomma
  · rw [e₁] at e₂
    rw [← e₂] at hleads hsolid
    obtain ⟨more, hk, hv⟩ := key_of_leads hsolid hleads
    obtain ⟨b', t, hb', rfl, hr, ho⟩ := begins_iff.1 hv
    refine hk.bind fun s₃ e₃ => ?_
    refine (skipBlanks_gives e₃ hb' (hr.breaks_isBlank rest)).bind fun s₄ e₄ => ?_
    refine (value_gives_iff.2 ⟨e₄, hr⟩).bind fun s₅ e₅ => ?_
    exact (lift_gives ho).bind fun s₆ e₆ => hf s₆ (e₆.trans e₅)

theorem further_ok (h : further n a s = .ok arguments s') :
    Span.seek [','] 0 s.rest = .ok [] ∧ arguments = [a] ∨
      ∃ s₁ more, Span.seek [','] 0 s.rest = .ok (',' :: s₁.rest) ∧
        argumentsOf n s₁ = .ok more s' ∧ arguments = a :: more := by
  obtain ⟨o, s₁, hk, h₁⟩ := bind_eq_ok_iff.1 h
  have hseek := skipTo_ok hk
  obtain ⟨rfl, -⟩ := (skipTo_gives hseek).eq_of_ok hk
  cases hr : s₁.rest with
  | nil =>
    rw [hr] at h₁ hseek
    cases h₁
    exact .inl ⟨hseek, rfl⟩
  | cons c rest =>
    rw [hr] at h₁ hseek
    obtain rfl : c = ',' := by
      obtain ⟨-, -, -, hstop⟩ := Span.seek_ok hseek
      simpa using (hstop c rfl).1
    obtain ⟨_, s₂, he, h₂⟩ := bind_eq_ok_iff.1 h₁
    obtain ⟨more, s₃, hm, h₃⟩ := bind_eq_ok_iff.1 h₂
    cases h₃
    refine .inr ⟨s₂, more, ?_, hm, rfl⟩
    rw [hseek, ← hr, eat_head_ok (by rw [hr]; rfl) he]

theorem further_end (h : Span.seek [','] 0 s.rest = .ok []) : Gives (further n a) s [a] [] :=
  (skipTo_gives h).bind fun s₁ e₁ => ⟨s₁, rfl, e₁⟩

theorem further_comma {more : List Char} {final : List Char}
    (h : Span.seek [','] 0 s.rest = .ok (',' :: more))
    (hm : ∀ s₁, s₁.rest = more → Gives (argumentsOf n) s₁ arguments final) :
    Gives (further n a) s (a :: arguments) final := by
  refine (skipTo_gives h).bind fun s₁ e₁ => ?_
  refine (eat_gives e₁).bind fun s₂ e₂ => ?_
  exact (hm s₂ e₂).bind fun s₃ e₃ => ⟨s₃, rfl, e₃⟩

/-! ## The pieces of the tail -/

theorem separators_comma : Span.Separators [','] := by decide

/-- The arguments are read up to the end of the text, and each from a piece. The induction is on the
bound; each argument takes a character at least. -/
theorem listed_of_arguments (hn : s.rest.length < n) (h : argumentsOf n s = .ok arguments s') :
    ∃ pieces, Span.piecesAtTop ',' s.rest = .ok pieces ∧ Listed pieces arguments := by
  induction n generalizing s s' arguments with
  | zero => cases hn
  | succ n ih =>
    rcases argumentsOf_ok h with ⟨hb, rfl⟩ | ⟨a, s₁, hl, hf⟩
    · exact ⟨[s.rest], Span.piecesAtTop_alone (hb.level.passed separators_comma), .blank hb⟩
    · rcases further_ok hf with ⟨hk, rfl⟩ | ⟨s₂, more, hk, hm, rfl⟩
      · obtain ⟨piece, hp, hl⟩ :=
          (leads_local a).piece separators_comma hl (Span.piecesAtTop_of_end hk)
        exact ⟨[piece], hp, .cons hl .nil⟩
      · have hlength : s₂.rest.length < n := by
          have := Span.seek_length hk
          have := hl.length_le
          simp at *
          omega
        obtain ⟨pieces, hpieces, hlisted⟩ := ih hlength hm
        obtain ⟨chunk, e, -⟩ := Span.seek_ok hk
        have hrest : Span.piecesAtTop ',' s₁.rest = .ok (chunk :: pieces) := by
          rw [Span.piecesAtTop_of_stop hk e, hpieces]
          rfl
        obtain ⟨piece, hp, hl⟩ := (leads_local a).piece separators_comma hl hrest
        exact ⟨piece :: pieces, hp, .cons hl hlisted⟩

theorem arguments_of_listed {pieces : List (List Char)} (hn : s.rest.length < n)
    (hp : Span.piecesAtTop ',' s.rest = .ok pieces) (hl : Listed pieces arguments) :
    Gives (argumentsOf n) s arguments [] := by
  induction n generalizing s pieces arguments with
  | zero => cases hn
  | succ n ih =>
    cases hl with
    | nil => exact absurd hp Span.piecesAtTop_ne_nil
    | blank hb =>
      obtain ⟨-, rfl⟩ := Span.piecesAtTop_eq_alone hp
      refine (skipBlanks_gives (List.append_nil _).symm hb rfl).bind fun s₁ e₁ => ?_
      refine peek_gives.bind fun s₂ e₂ => ?_
      rw [e₁]
      exact ⟨s₂, rfl, e₂.trans e₁⟩
    | cons hl hlisted =>
      obtain ⟨rest, hl, hp⟩ := (leads_local _).of_piece separators_comma hp hl
      refine argumentsOf_gives hl fun s₁ e₁ => ?_
      rcases Span.piecesAtTop_cases hp with ⟨hk, e⟩ | ⟨chunk, rest', more, hk, e, hm, e'⟩
      · cases e
        cases hlisted with
        | nil => exact further_end (e₁ ▸ hk)
      · cases e'
        have hlength : rest'.length < n := by
          have := hl.length_le
          simp [e] at this
          omega
        exact further_comma (e₁ ▸ hk) fun s₂ e₂ => ih (e₂ ▸ hlength) (e₂ ▸ hm) hlisted

/-! ## The whole filter -/

/-- The text is a name alone. -/
def Bare (text name : List Char) : Prop :=
  IsName name ∧ ∃ b b', Blank b ∧ Blank b' ∧ text = b ++ (name ++ b')

/-- The text is a name, a colon or a comma, and a tail. -/
def Headed (text name tail : List Char) : Prop :=
  IsName name ∧ ∃ b b' sep, Blank b ∧ Blank b' ∧ (sep = ':' ∨ sep = ',') ∧
    text = b ++ (name ++ (b' ++ sep :: tail))

theorem ofChars_of_bare {text name : List Char} (h : Bare text name) :
    ofChars text = .ok ⟨String.ofList name, []⟩ := by
  obtain ⟨hname, b, b', hb, hb', rfl⟩ := h
  have hend := (Ends.of_blank hb').name
  refine Expression.readIn_of_gives (?_ : Gives _ _ _ [])
  refine (skipBlanks_gives rfl hb (hname.breaks_isBlank b')).bind fun s₁ e₁ => ?_
  refine (chunk_gives (splitName_iff.2 ⟨e₁, hname, hend⟩)).bind fun s₂ e₂ => ?_
  refine (skipBlanks_gives (e₂.trans (List.append_nil b').symm) hb' rfl).bind fun s₃ e₃ => ?_
  exact (atEnd_gives e₃).bind fun s₄ e₄ => ⟨s₄, rfl, e₄.trans e₃⟩

/-- What is done behind the colon or the comma. -/
def listing (name : String) : Scan Invocation := do
  return { name, arguments := ← argumentsOf ((← get).rest.length + 1) }

theorem listing_gives {name : String} {pieces : List (List Char)}
    (hp : Span.piecesAtTop ',' s.rest = .ok pieces) (hl : Listed pieces arguments) :
    Gives (listing name) s ⟨name, arguments⟩ [] := by
  refine get_gives.bind fun s₁ e₁ => ?_
  have hn : s₁.rest.length < s.rest.length + 1 := by
    rw [e₁]
    omega
  exact (arguments_of_listed hn (e₁ ▸ hp) hl).bind fun s₂ e₂ => ⟨s₂, rfl, e₂⟩

theorem listing_ok {name : String} {f : Invocation} (h : listing name s = .ok f s') :
    f.name = name ∧ ∃ pieces, Span.piecesAtTop ',' s.rest = .ok pieces ∧ Listed pieces f.arguments := by
  obtain ⟨_, s₁, hg, h₁⟩ := bind_eq_ok_iff.1 h
  cases hg
  obtain ⟨arguments, s₂, ha, h₂⟩ := bind_eq_ok_iff.1 h₁
  cases h₂
  exact ⟨rfl, listed_of_arguments (Nat.lt_succ_self _) ha⟩

theorem ofChars_of_headed {text name tail : List Char} {pieces : List (List Char)}
    (h : Headed text name tail) (hp : Span.piecesAtTop ',' tail = .ok pieces)
    (hl : Listed pieces arguments) : ofChars text = .ok ⟨String.ofList name, arguments⟩ := by
  obtain ⟨hname, b, b', sep, hb, hb', hsep, rfl⟩ := h
  have hends : Ends (sep :: tail) := by
    rcases hsep with rfl | rfl <;> exact .of_head (by decide) (by decide) (by decide)
  have hsolid : Breaks isBlank (sep :: tail) := by rcases hsep with rfl | rfl <;> rfl
  have hend := (hends.blanks hb').name
  refine Expression.readIn_of_gives (?_ : Gives _ _ _ [])
  refine (skipBlanks_gives rfl hb (hname.breaks_isBlank _)).bind fun s₁ e₁ => ?_
  refine (chunk_gives (splitName_iff.2 ⟨e₁, hname, hend⟩)).bind fun s₂ e₂ => ?_
  refine (skipBlanks_gives e₂ hb' hsolid).bind fun s₃ e₃ => ?_
  refine (atEnd_misses e₃).bind fun s₄ e₄ => ?_
  have e₄ := e₄.trans e₃
  rcases hsep with rfl | rfl
  · exact (eat_gives e₄).bind fun s₅ e₅ => listing_gives (e₅ ▸ hp) hl
  · refine (eat_misses (by rw [e₄]; simp)).bind fun s₅ e₅ => ?_
    exact (eat_gives (e₅.trans e₄)).bind fun s₆ e₆ => listing_gives (e₆ ▸ hp) hl

theorem ofChars_cases {text : List Char} {f : Invocation} (h : ofChars text = .ok f) :
    ∃ name, f.name = String.ofList name ∧ (Bare text name ∧ f.arguments = [] ∨
      ∃ tail pieces, Headed text name tail ∧ Span.piecesAtTop ',' tail = .ok pieces ∧
        Listed pieces f.arguments) := by
  obtain ⟨s', h⟩ := Expression.readIn_eq_ok_iff.1 h
  obtain ⟨_, s₁, hb, h₁⟩ := bind_eq_ok_iff.1 h
  obtain ⟨b, hblank, e₁, -⟩ := skipBlanks_ok hb
  obtain ⟨o, s₂, hn, h₂⟩ := bind_eq_ok_iff.1 h₁
  rcases chunk_ok hn with ⟨rfl, -, -⟩ | ⟨name, rfl, hs⟩
  · cases h₂
  obtain ⟨e₂, hname, -⟩ := splitName_iff.1 hs
  obtain ⟨_, s₃, hb', h₃⟩ := bind_eq_ok_iff.1 h₂
  obtain ⟨b', hblank', e₃, -⟩ := skipBlanks_ok hb'
  have htext : text = b ++ (name ++ (b' ++ s₃.rest)) := by
    rw [← e₃, ← e₂]
    exact e₁
  obtain ⟨ended, s₄, ha, h₄⟩ := bind_eq_ok_iff.1 h₃
  cases ha
  split at h₄
  · rename_i hended
    cases h₄
    rw [List.isEmpty_iff.1 hended, List.append_nil] at htext
    exact ⟨name, rfl, .inl ⟨⟨hname, b, b', hblank, hblank', htext⟩, rfl⟩⟩
  · obtain ⟨sep, s₅, hsep, e₄, h₅⟩ : ∃ sep s₅, (sep = ':' ∨ sep = ',') ∧ s₃.rest = sep :: s₅.rest ∧
        listing (String.ofList name) s₅ = .ok f s' := by
      obtain ⟨eaten, s₅, he, h₅⟩ := bind_eq_ok_iff.1 h₄
      rcases eat_ok he with ⟨rfl, e₄⟩ | ⟨rfl, rfl⟩
      · exact ⟨':', s₅, .inl rfl, e₄, h₅⟩
      obtain ⟨eaten, s₆, he, h₆⟩ := bind_eq_ok_iff.1 h₅
      rcases eat_ok he with ⟨rfl, e₄⟩ | ⟨rfl, rfl⟩
      · exact ⟨',', s₆, .inr rfl, e₄, h₆⟩
      cases h₆
    rw [e₄] at htext
    obtain ⟨hf, pieces, hp, hl⟩ := listing_ok h₅
    exact ⟨name, hf, .inr ⟨s₅.rest, pieces, ⟨hname, b, b', sep, hblank, hblank', hsep, htext⟩, hp, hl⟩⟩

/-- **Filters by their pieces.** A text is read as a filter exactly if it is a name alone, or a name, a
colon or a comma, and a tail that can be cut at its top-level commas, so that each piece begins with an
argument and may go on with anything; the last piece may be blank instead. An argument is known from its
piece alone. -/
theorem parse_iff_arguments (text : String) (f : Invocation) :
    (Invocation.parse text = .ok f ↔ ∃ name, f.name = String.ofList name ∧
      (Bare text.toList name ∧ f.arguments = [] ∨
        ∃ tail pieces, Headed text.toList name tail ∧ Span.splitAtTop tail ',' = .ok pieces ∧
          Listed pieces f.arguments)) ∧
      ∀ piece a a' rest rest', Leads piece a rest → Leads piece a' rest' → a = a' := by
  refine ⟨⟨fun h => ?_, ?_⟩, fun piece a a' rest rest' h h' => (h.unique h').1⟩
  · obtain ⟨name, hf, h⟩ := ofChars_cases h
    refine ⟨name, hf, h.imp_right ?_⟩
    rintro ⟨tail, pieces, hh, hp, hl⟩
    exact ⟨tail, pieces, hh, Pipeline.splitAtTop_ok.2 hp, hl⟩
  · obtain ⟨fname, arguments⟩ := f
    rintro ⟨name, rfl, ⟨hb, rfl⟩ | ⟨tail, pieces, hh, hp, hl⟩⟩
    · exact ofChars_of_bare hb
    · exact ofChars_of_headed hh (Pipeline.splitAtTop_ok.1 hp) hl

end Invocation

end Stencil
