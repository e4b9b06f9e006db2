import WireSchema.Decimal.Literal
import WireSchema.Text.Numeral

/-!
# Tokens of a JSON text

A text is first cut into tokens. Numbers and strings stay in their **written form** here: whether a
number is too large, or a string has half of a surrogate pair, matters only where the value is used.

* `Token.next?` — the token at the front of a text.
* `tokens?` — all tokens of a text; blanks between tokens are space, tab, newline and carriage
  return only.
-/

namespace WireSchema.Json

/-- A piece of a string literal. -/
inductive Piece where
  /-- A character, plain or behind a one-letter escape. -/
  | char (c : Char)
  /-- A UTF-16 unit, written with four digits. -/
  | unit (u : Nat)
deriving DecidableEq, Repr

/-- A number literal: a decimal, and whether it is written as an integer. -/
structure NumberLiteral where
  /-- The decimal. -/
  decimal : Decimal.Literal
  /-- Whether there is neither a point nor an exponent. -/
  isInteger : Bool
deriving DecidableEq, Repr

/-- A token. -/
inductive Token where
  | openArray
  | closeArray
  | openObject
  | closeObject
  | comma
  | colon
  | null
  | bool (b : Bool)
  | number (literal : NumberLiteral)
  | string (pieces : List Piece)
deriving DecidableEq, Repr

/-! ### Strings -/

/-- The character behind a one-letter escape. -/
def escaped? : Char → Option Char
  | '"' => some '"'
  | '\\' => some '\\'
  | '/' => some '/'
  | 'b' => some '\x08'
  | 'f' => some '\x0c'
  | 'n' => some '\n'
  | 'r' => some '\r'
  | 't' => some '\t'
  | _ => none

/-- The value of four hexadecimal digits. -/
def unitOf? (a b c d : Char) : Option Nat := do
  let a ← Numeral.hexValue? a
  let b ← Numeral.hexValue? b
  let c ← Numeral.hexValue? c
  let d ← Numeral.hexValue? d
  some (((a * 16 + b) * 16 + c) * 16 + d)

/-- The pieces of a string up to its closing quote, and what follows it. Control characters must
be escaped. -/
def scanString : List Char → Option (List Piece × List Char)
  | [] => none
  | '"' :: cs => some ([], cs)
  | '\\' :: 'u' :: a :: b :: c :: d :: cs =>
    match unitOf? a b c d, scanString cs with
    | some u, some (pieces, rest) => some (.unit u :: pieces, rest)
    | _, _ => none
  | '\\' :: e :: cs =>
    match escaped? e, scanString cs with
    | some c, some (pieces, rest) => some (.char c :: pieces, rest)
    | _, _ => none
  | c :: cs =>
    if c = '\\' ∨ c.toNat < 0x20 then none
    else
      match scanString cs with
      | some (pieces, rest) => some (.char c :: pieces, rest)
      | none => none

/-- A string is longer than what follows it. -/
theorem scanString_length {cs rest : List Char} {pieces : List Piece}
    (h : scanString cs = some (pieces, rest)) : rest.length < cs.length := by
  fun_induction scanString cs generalizing pieces rest with
  | case1 => cases h
  | case2 cs => cases h; simp
  | case3 a b c d cs u pieces' rest' hs _ ih =>
    cases h
    have := ih hs
    simp only [List.length_cons]
    omega
  | case4 => cases h
  | case5 e cs _ c pieces' rest' hs _ ih =>
    cases h
    have := ih hs
    simp only [List.length_cons]
    omega
  | case6 => cases h
  | case7 => cases h
  | case8 c cs _ _ _ _ pieces' rest' hs ih =>
    cases h
    have := ih hs
    simp only [List.length_cons]
    omega
  | case9 => cases h

/-! ### Numbers -/

/-- The digits before the point: a single zero, or digits that do not start with one. -/
def scanWhole : List Char → Option (List Char × List Char)
  | '0' :: cs => some (['0'], cs)
  | cs =>
    match Decimal.spanDigits cs with
    | ([], _) => none
    | (digits, rest) => some (digits, rest)

/-- The digits after the point, if there is one. -/
def scanFraction : List Char → Option (List Char × List Char)
  | '.' :: cs =>
    match Decimal.spanDigits cs with
    | ([], _) => none
    | (digits, rest) => some (digits, rest)
  | cs => some ([], cs)

/-- The digits of an exponent, behind its sign. -/
def scanExponentDigits (negative : Bool) (cs : List Char) : Option (Int × List Char) :=
  match Decimal.spanDigits cs with
  | ([], _) => none
  | (digits, rest) =>
    let value : Int := Decimal.digitsValue digits
    some (if negative then -value else value, rest)

/-- The exponent, if there is one. -/
def scanExponent : List Char → Option (Option Int × List Char)
  | c :: cs =>
    if c = 'e' ∨ c = 'E' then
      match cs with
      | '-' :: ds => (scanExponentDigits true ds).map fun (e, rest) => (some e, rest)
      | '+' :: ds => (scanExponentDigits false ds).map fun (e, rest) => (some e, rest)
      | ds => (scanExponentDigits false ds).map fun (e, rest) => (some e, rest)
    else some (none, c :: cs)
  | [] => some (none, [])

/-- A number behind its sign, and what follows it. -/
def scanUnsigned (negative : Bool) (cs : List Char) : Option (NumberLiteral × List Char) := do
  let (whole, rest) ← scanWhole cs
  let (fraction, rest) ← scanFraction rest
  let (exponent?, rest) ← scanExponent rest
  let isInteger := fraction.isEmpty && !exponent?.isSome
  some (⟨⟨negative, whole, fraction, exponent?.getD 0⟩, isInteger⟩, rest)

/-- A number, and what follows it. -/
def scanNumber : List Char → Option (NumberLiteral × List Char)
  | '-' :: cs => scanUnsigned true cs
  | cs => scanUnsigned false cs

/-- What follows a run of digits is no longer than the text. -/
theorem spanDigits_length {cs digits rest : List Char}
    (h : Decimal.spanDigits cs = (digits, rest)) : digits.length + rest.length = cs.length := by
  have parts : digits ++ rest = cs := by
    cases h
    exact List.takeWhile_append_dropWhile
  rw [← parts, List.length_append]

/-- The digits before the point are longer than what follows them. -/
theorem scanWhole_length {cs digits rest : List Char}
    (h : scanWhole cs = some (digits, rest)) : rest.length < cs.length := by
  unfold scanWhole at h
  split at h
  · cases h; simp
  · split at h
    · cases h
    · rename_i ds r hne hs
      cases h
      have := spanDigits_length hs
      have := List.length_pos_iff.2 hne
      omega

/-- What follows the fraction is no longer than the text. -/
theorem scanFraction_length {cs digits rest : List Char}
    (h : scanFraction cs = some (digits, rest)) : rest.length ≤ cs.length := by
  unfold scanFraction at h
  split at h
  · split at h
    · cases h
    · rename_i hs
      cases h
      have := spanDigits_length hs
      simp only [List.length_cons]
      omega
  · cases h; simp

/-- What follows the digits of an exponent is no longer than the text. -/
theorem scanExponentDigits_length {negative : Bool} {cs rest : List Char} {e : Int}
    (h : scanExponentDigits negative cs = some (e, rest)) : rest.length ≤ cs.length := by
  unfold scanExponentDigits at h
  split at h
  · cases h
  · rename_i hs
    cases h
    have := spanDigits_length hs
    omega

/-- What follows the exponent is no longer than the text. -/
theorem scanExponent_length {cs rest : List Char} {e : Option Int}
    (h : scanExponent cs = some (e, rest)) : rest.length ≤ cs.length := by
  unfold scanExponent at h
  split at h
  · split at h
    · split at h
      all_goals
        obtain ⟨⟨e', r⟩, hd, hr⟩ := Option.map_eq_some_iff.1 h
        cases hr
        have := scanExponentDigits_length hd
        simp only [List.length_cons]
        omega
    · cases h; simp
  · cases h; simp

/-- A number behind its sign is longer than what follows it. -/
theorem scanUnsigned_length {negative : Bool} {cs rest : List Char} {n : NumberLiteral}
    (h : scanUnsigned negative cs = some (n, rest)) : rest.length < cs.length := by
  simp only [scanUnsigned, Option.bind_eq_bind, Option.bind_eq_some_iff] at h
  obtain ⟨⟨whole, r₁⟩, h₁, ⟨fraction, r₂⟩, h₂, ⟨e, r₃⟩, h₃, h⟩ := h
  cases h
  dsimp only at h₂ h₃ ⊢
  have := scanWhole_length h₁
  have := scanFraction_length h₂
  have := scanExponent_length h₃
  omega

/-- A number is longer than what follows it. -/
theorem scanNumber_length {cs rest : List Char} {n : NumberLiteral}
    (h : scanNumber cs = some (n, rest)) : rest.length < cs.length := by
  unfold scanNumber at h
  split at h
  · have := scanUnsigned_length h
    simp only [List.length_cons]
    omega
  · exact scanUnsigned_length h

/-! ### Texts -/

/-- The blanks between tokens. -/
def isSpace (c : Char) : Bool :=
  c == ' ' || c == '\t' || c == '\n' || c == '\r'

/-- The token that starts with `c`, and what follows it. -/
def Token.next? (c : Char) (cs : List Char) : Option (Token × List Char) :=
  match c, cs with
  | '[', cs => some (.openArray, cs)
  | ']', cs => some (.closeArray, cs)
  | '{', cs => some (.openObject, cs)
  | '}', cs => some (.closeObject, cs)
  | ',', cs => some (.comma, cs)
  | ':', cs => some (.colon, cs)
  | 'n', 'u' :: 'l' :: 'l' :: cs => some (.null, cs)
  | 't', 'r' :: 'u' :: 'e' :: cs => some (.bool true, cs)
  | 'f', 'a' :: 'l' :: 's' :: 'e' :: cs => some (.bool false, cs)
  | '"', cs => (scanString cs).map fun (pieces, rest) => (.string pieces, rest)
  | c, cs => (scanNumber (c :: cs)).map fun (literal, rest) => (.number literal, rest)

/-- A token takes at least its first character. -/
theorem Token.next?_length {c : Char} {cs rest : List Char} {t : Token}
    (h : Token.next? c cs = some (t, rest)) : rest.length ≤ cs.length := by
  unfold Token.next? at h
  split at h
  case h_10 =>
    obtain ⟨⟨pieces, r⟩, hs, hr⟩ := Option.map_eq_some_iff.1 h
    cases hr
    exact Nat.le_of_lt (scanString_length hs)
  case h_11 =>
    obtain ⟨⟨n, r⟩, hs, hr⟩ := Option.map_eq_some_iff.1 h
    cases hr
    exact Nat.le_of_lt_succ (scanNumber_length hs)
  case h_7 | h_8 | h_9 =>
    cases h
    simp only [List.length_cons]
    omega
  all_goals
    cases h
    exact Nat.le_refl _

/-- The tokens of a text, if it is made of tokens and blanks only. -/
def tokens? : List Char → Option (List Token)
  | [] => some []
  | c :: cs =>
    if isSpace c then tokens? cs
    else
      match h : Token.next? c cs with
      | none => none
      | some (t, rest) =>
        have : rest.length ≤ cs.length := Token.next?_length h
        (tokens? rest).map (t :: ·)
termination_by cs => cs.length
decreasing_by
  all_goals
    simp only [List.length_cons]
    omega

end WireSchema.Json
