import Stencil.Expression.Span

/-!
# Lexemes

Template markup is a sequence of texts, outputs between double braces and tags between braces with
percent signs. A `-` just inside a delimiter trims the text next to it. `lex` cuts a source into
lexemes: it finds the next opening delimiter, then its closing one outside quoted literals. The body
of a `raw` tag is one text, up to the tag that ends it.
-/

namespace Stencil

/-- A tag: its name, the trimmed text after the name, and the byte offset of its delimiter. -/
structure TagToken where
  name : String
  args : String
  offset : Nat
  deriving DecidableEq, Repr, Inhabited

inductive Lexeme where
  | text (s : String)
  | output (s : String) (offset : Nat)
  | tag (t : TagToken)
  deriving DecidableEq, Repr, Inhabited

namespace Markup

/-- The two kinds of delimited lexemes. -/
inductive Delimiter where
  | output
  | tag
  deriving DecidableEq, Repr, Inhabited

def Delimiter.opening : Delimiter → List Char
  | .output => ['{', '{']
  | .tag => ['{', '%']

def Delimiter.closing : Delimiter → Char × Char
  | .output => ('}', '}')
  | .tag => ('%', '}')

/-- The text before the first opening delimiter, its kind, and what follows it. -/
def splitOpening : List Char → Option (List Char × Delimiter × List Char)
  | [] => none
  | '{' :: '{' :: rest => some ([], .output, rest)
  | '{' :: '%' :: rest => some ([], .tag, rest)
  | c :: s => (splitOpening s).map fun (text, d, rest) => (c :: text, d, rest)

/-- The text up to the closing delimiter outside quoted literals, and what follows it; `quote` is the
quote of the literal that the text starts in. -/
def splitClosing (close : Char × Char) (quote : Option Char) :
    List Char → Option (List Char × List Char)
  | [] => none
  | c :: s =>
    match quote with
    | some q =>
      if c = '\\' then
        match s with
        | [] => none
        | d :: s => (splitClosing close (some q) s).map fun (inner, rest) => (c :: d :: inner, rest)
      else
        (splitClosing close (if c = q then none else some q) s).map fun (inner, rest) =>
          (c :: inner, rest)
    | none =>
      if Span.isQuote c then
        (splitClosing close (some c) s).map fun (inner, rest) => (c :: inner, rest)
      else if c = close.1 ∧ s.head? = some close.2 then some ([], s.tail)
      else (splitClosing close none s).map fun (inner, rest) => (c :: inner, rest)

/-- The inside of a tag that ends a raw body. -/
def endsRaw (s : List Char) : Bool :=
  let inner := Text.trimStart (s.dropWhile (· == '-'))
  ['e', 'n', 'd', 'r', 'a', 'w'].isPrefixOf inner && !(inner.drop 6).head?.any Text.isWordChar

/-- The text before the tag that ends a raw body, and what is left from that tag on. -/
def splitEndRaw : List Char → Option (List Char × List Char)
  | [] => none
  | '{' :: '%' :: s =>
    if endsRaw s then some ([], '{' :: '%' :: s)
    else (splitEndRaw s).map fun (body, rest) => ('{' :: '%' :: body, rest)
  | c :: s => (splitEndRaw s).map fun (body, rest) => (c :: body, rest)

theorem splitOpening_eq {s text rest : List Char} {d : Delimiter}
    (h : splitOpening s = some (text, d, rest)) : s = text ++ d.opening ++ rest := by
  fun_induction splitOpening s generalizing text d rest with
  | case1 => simp at h
  | case2 => cases h; rfl
  | case3 => cases h; rfl
  | case4 c s _ _ ih =>
    obtain ⟨⟨t, k, r⟩, ht, e⟩ := Option.map_eq_some_iff.1 h
    cases e
    rw [ih ht]
    rfl

theorem splitOpening_length {s text rest : List Char} {d : Delimiter}
    (h : splitOpening s = some (text, d, rest)) : rest.length + 2 ≤ s.length := by
  have hd : d.opening.length = 2 := by cases d <;> rfl
  rw [splitOpening_eq h]
  simp only [List.length_append, hd]
  omega

theorem splitClosing_eq {close : Char × Char} {quote : Option Char} {s inner rest : List Char}
    (h : splitClosing close quote s = some (inner, rest)) :
    s = inner ++ [close.1, close.2] ++ rest := by
  fun_induction splitClosing close quote s generalizing inner rest with
  | case1 => simp at h
  | case2 => simp at h
  | case6 c s _ hc =>
    cases h
    obtain ⟨rfl, hs⟩ := hc
    obtain ⟨rest, rfl⟩ := List.head?_eq_some_iff.1 hs
    rfl
  | case3 | case4 | case5 | case7 =>
    rename_i ih
    obtain ⟨⟨t, r⟩, ht, e⟩ := Option.map_eq_some_iff.1 h
    cases e
    rw [ih ht]
    rfl

theorem splitClosing_length {close : Char × Char} {quote : Option Char} {s inner rest : List Char}
    (h : splitClosing close quote s = some (inner, rest)) : rest.length < s.length := by
  rw [splitClosing_eq h]
  simp
  omega

theorem splitEndRaw_eq {s body rest : List Char} (h : splitEndRaw s = some (body, rest)) :
    s = body ++ rest := by
  fun_induction splitEndRaw s generalizing body rest with
  | case1 => simp at h
  | case2 => cases h; rfl
  | case3 | case4 =>
    rename_i ih
    obtain ⟨⟨t, r⟩, ht, e⟩ := Option.map_eq_some_iff.1 h
    cases e
    rw [ih ht]
    rfl

theorem splitEndRaw_length {s body rest : List Char}
    (h : splitEndRaw s = some (body, rest)) : rest.length ≤ s.length := by
  rw [splitEndRaw_eq h]
  simp

/-- The inside of a delimited lexeme without its trim markers, and the two markers. -/
def splitMarkers (inner : List Char) : Bool × List Char × Bool :=
  let left := inner.head? = some '-'
  let inner := if left then inner.tail else inner
  let right := inner.getLast? = some '-'
  (left, if right then inner.dropLast else inner, right)

/-- A text trimmed on the sides asked for; no lexeme if nothing is left. -/
def textLexeme (trimStart trimEnd : Bool) (s : List Char) : List Lexeme :=
  let s := if trimStart then Text.trimStart s else s
  let s := if trimEnd then Text.trimEnd s else s
  if s.isEmpty then [] else [.text (String.ofList s)]

/-- The tag that the inside of its delimiters spells; `none` if it has no name. -/
def tagToken? (inner : List Char) (offset : Nat) : Option TagToken :=
  let inner := Text.trim inner
  let name := inner.takeWhile Text.isWordChar
  if name.isEmpty then none
  else some
    { name := String.ofList name
      args := String.ofList (Text.trim (inner.dropWhile Text.isWordChar))
      offset }

/-- The body of a raw tag, trimmed after a right marker of the tag and before a left marker of the
tag that ends it. -/
def rawBody (trimStart : Bool) (body rest : List Char) : List Char :=
  let body := if trimStart then Text.trimStart body else body
  if (rest.drop 2).head? = some '-' then Text.trimEnd body else body

/-- The lexemes of what is left of `source` from byte offset `pos` on; `trimNext` says that the
lexeme before had a right trim marker. -/
def lexFrom (source : String) (pos : Nat) (trimNext : Bool) (s : List Char) :
    Except Error (List Lexeme) :=
  match h1 : splitOpening s with
  | none => .ok (textLexeme trimNext false s)
  | some (text, d, s1) =>
    let start := pos + Text.byteLength text
    match h2 : splitClosing d.closing none s1 with
    | none => .error (.markupAt source start ("'" ++ String.ofList d.opening ++ "' was never closed"))
    | some (inner, s2) =>
      have _l1 := splitOpening_length h1
      have _l2 := splitClosing_length h2
      let (left, body, right) := splitMarkers inner
      let before := textLexeme trimNext left text
      let after := start + 4 + Text.byteLength inner
      match d with
      | .output => do
        return before ++ .output (String.ofList body) start :: (← lexFrom source after right s2)
      | .tag =>
        match tagToken? body start with
        | none => .error (.markupAt source start "missing tag name")
        | some t =>
          if t.name = "raw" then
            match h3 : splitEndRaw s2 with
            | none => .error (.markupAt source start "tag 'raw' was never closed")
            | some (raw, s3) => do
              have _l3 := splitEndRaw_length h3
              return before ++ .tag t :: .text (String.ofList (rawBody right raw s3)) ::
                (← lexFrom source (after + Text.byteLength raw) false s3)
          else do
            return before ++ .tag t :: (← lexFrom source after right s2)
termination_by s.length

def lex (source : String) : Except Error (List Lexeme) := lexFrom source 0 false source.toList

end Markup

end Stencil
