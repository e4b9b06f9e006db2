import WireSchema.Json.Reader
import WireSchema.Proofs.LineComments

/-!
# Comments in JSON texts

A JSON text has no comment, and a comment may be put wherever the text is not in the middle of a
string literal. The scan for comments knows nothing of the JSON grammar: it only looks for quotes
and backslashes. So it has to be shown that both have the same idea of where a literal begins and
ends.

* `Literal` — a string literal behind its opening quote, by the grammar.
* `Literals other` — a text made of whole literals and of characters with the property `other`. A
  place in a text is **outside literals** if what stands before it is of this kind.
* `literals_of_tokens?` — every text that is made of tokens is of this kind, and its slashes and
  quotes all belong to literals.
* `Literals.cut` — in such a text the scan is outside literals exactly between literals.
-/

namespace WireSchema

open Text (LiteralState CommentAt)

namespace Json

/-! ### Literals by the grammar -/

/-- A string literal behind its opening quote, up to and with its closing quote. -/
inductive Literal : List Char → Prop where
  /-- The closing quote. -/
  | quote : Literal ['"']
  /-- A UTF-16 unit. -/
  | unit {a b c d : Char} {u : Nat} {cs : List Char} (digits : unitOf? a b c d = some u)
      (later : Literal cs) : Literal ('\\' :: 'u' :: a :: b :: c :: d :: cs)
  /-- A one-letter escape. -/
  | escape {e c : Char} {cs : List Char} (letter : escaped? e = some c) (later : Literal cs) :
      Literal ('\\' :: e :: cs)
  /-- A character that stands for itself. -/
  | char {c : Char} {cs : List Char} (noQuote : c ≠ '"') (noBackslash : c ≠ '\\')
      (printable : 0x20 ≤ c.toNat) (later : Literal cs) : Literal (c :: cs)

/-- Reading a string takes a literal from the text. -/
theorem literal_of_scanString {cs rest : List Char} {pieces : List Piece}
    (scanned : scanString cs = some (pieces, rest)) :
    ∃ body, Literal body ∧ cs = body ++ rest := by
  fun_induction scanString cs generalizing pieces rest with
  | case1 => cases scanned
  | case2 cs =>
      cases scanned
      exact ⟨['"'], .quote, rfl⟩
  | case3 a b c d cs u _ _ inner digits ih =>
      cases scanned
      obtain ⟨body, literal, rfl⟩ := ih inner
      exact ⟨_, .unit digits literal, rfl⟩
  | case4 => cases scanned
  | case5 e cs _ c _ _ inner letter ih =>
      cases scanned
      obtain ⟨body, literal, rfl⟩ := ih inner
      exact ⟨_, .escape letter literal, rfl⟩
  | case6 => cases scanned
  | case7 => cases scanned
  | case8 c cs noQuote _ _ plain _ _ inner ih =>
      cases scanned
      obtain ⟨body, literal, rfl⟩ := ih inner
      rw [not_or, Nat.not_lt] at plain
      exact ⟨_, .char noQuote plain.1 plain.2 literal, rfl⟩
  | case9 => cases scanned

/-- The digits of a UTF-16 unit leave the scan in the literal. -/
theorem step_of_hexValue? {c : Char} {n : Nat} (digit : Numeral.hexValue? c = some n) :
    LiteralState.inside.step c = .inside := by
  apply LiteralState.step_inside
  · rintro rfl
    cases digit
  · rintro rfl
    cases digit

theorem step_of_unitOf? {a b c d : Char} {u : Nat} (digits : unitOf? a b c d = some u) :
    LiteralState.inside.step a = .inside ∧ LiteralState.inside.step b = .inside ∧
      LiteralState.inside.step c = .inside ∧ LiteralState.inside.step d = .inside := by
  simp only [unitOf?, Option.bind_eq_bind, Option.bind_eq_some_iff] at digits
  obtain ⟨_, first, _, second, _, third, _, fourth, -⟩ := digits
  exact ⟨step_of_hexValue? first, step_of_hexValue? second, step_of_hexValue? third,
    step_of_hexValue? fourth⟩

namespace Literal

/-- The scan leaves a literal with its closing quote. -/
theorem after_eq {body : List Char} (literal : Literal body) :
    LiteralState.inside.after body = .outside := by
  induction literal with
  | quote => rfl
  | unit digits _ ih =>
      obtain ⟨first, second, third, fourth⟩ := step_of_unitOf? digits
      simpa [first, second, third, fourth] using ih
  | escape _ _ ih => simpa using ih
  | char noQuote noBackslash _ _ ih =>
      simpa [LiteralState.step_inside noQuote noBackslash] using ih

/-- A prefix that leads out of a literal has at least the first character. -/
theorem exists_of_prefix {s next : LiteralState} {c : Char} {cs before : List Char}
    (within : s ≠ .outside) (step : s.step c = next) (start : before <+: c :: cs)
    (outside : s.after before = .outside) :
    ∃ more, before = c :: more ∧ more <+: cs ∧ next.after more = .outside := by
  rcases List.prefix_cons_iff.1 start with rfl | ⟨more, rfl, later⟩
  · exact absurd outside within
  · exact ⟨more, rfl, later, step ▸ outside⟩

/-- The scan does not leave a literal before its closing quote. -/
theorem eq_of_prefix {body before : List Char} (literal : Literal body) (start : before <+: body)
    (outside : LiteralState.inside.after before = .outside) : before = body := by
  induction literal generalizing before with
  | quote =>
      obtain ⟨_, rfl, start, -⟩ := exists_of_prefix (by decide) rfl start outside
      rw [List.prefix_nil.1 start]
  | unit digits _ ih =>
      obtain ⟨first, second, third, fourth⟩ := step_of_unitOf? digits
      -- The backslash and the letter first, then the four digits.
      obtain ⟨_, rfl, start, outside⟩ := exists_of_prefix (by decide) rfl start outside
      obtain ⟨_, rfl, start, outside⟩ := exists_of_prefix (by decide) rfl start outside
      obtain ⟨_, rfl, start, outside⟩ := exists_of_prefix (by decide) first start outside
      obtain ⟨_, rfl, start, outside⟩ := exists_of_prefix (by decide) second start outside
      obtain ⟨_, rfl, start, outside⟩ := exists_of_prefix (by decide) third start outside
      obtain ⟨_, rfl, start, outside⟩ := exists_of_prefix (by decide) fourth start outside
      rw [ih start outside]
  | escape _ _ ih =>
      obtain ⟨_, rfl, start, outside⟩ := exists_of_prefix (by decide) rfl start outside
      obtain ⟨_, rfl, start, outside⟩ := exists_of_prefix (by decide) rfl start outside
      rw [ih start outside]
  | char noQuote noBackslash _ _ ih =>
      have step := LiteralState.step_inside noQuote noBackslash
      obtain ⟨_, rfl, start, outside⟩ := exists_of_prefix (by decide) step start outside
      rw [ih start outside]

end Literal

/-! ### Texts made of literals -/

/-- A text made of whole string literals and of characters with a property. -/
inductive Literals (other : Char → Prop) : List Char → Prop where
  | nil : Literals other []
  /-- A character outside literals. -/
  | other {c : Char} {cs : List Char} (plain : other c) (later : Literals other cs) :
      Literals other (c :: cs)
  /-- A literal. -/
  | literal {body cs : List Char} (closed : Literal body) (later : Literals other cs) :
      Literals other ('"' :: (body ++ cs))

/-- Neither a quote nor a slash. -/
def IsPlain (c : Char) : Prop :=
  c ≠ '"' ∧ c ≠ '/'

instance (c : Char) : Decidable (IsPlain c) :=
  inferInstanceAs (Decidable (c ≠ '"' ∧ c ≠ '/'))

namespace Literals

variable {other : Char → Prop} {cs before after : List Char}

theorem of_forall (each : ∀ c ∈ cs, other c) : Literals other cs := by
  induction cs with
  | nil => exact .nil
  | cons c cs ih =>
      obtain ⟨first, others⟩ := List.forall_mem_cons.1 each
      exact .other first (ih others)

theorem append (first : Literals other before) (second : Literals other after) :
    Literals other (before ++ after) := by
  induction first with
  | nil => exact second
  | other plain _ ih => exact .other plain ih
  | literal closed _ ih =>
      rw [List.cons_append, List.append_assoc]
      exact .literal closed ih

theorem mono {weaker : Char → Prop} (weaken : ∀ c, other c → weaker c) (made : Literals other cs) :
    Literals weaker cs := by
  induction made with
  | nil => exact .nil
  | other plain _ ih => exact .other (weaken _ plain) ih
  | literal closed _ ih => exact .literal closed ih

/-- Between literals the scan is outside them. -/
theorem after_eq (noQuotes : ∀ c, other c → c ≠ '"') (made : Literals other cs) :
    LiteralState.outside.after cs = .outside := by
  induction made with
  | nil => rfl
  | other plain _ ih => simpa [LiteralState.step_outside (noQuotes _ plain)] using ih
  | literal closed _ ih => simpa [closed.after_eq] using ih

/-- Where the scan is outside literals, the text can be cut without cutting a literal. -/
theorem cut (noQuotes : ∀ c, other c → c ≠ '"') (made : Literals other (before ++ after))
    (outside : LiteralState.outside.after before = .outside) :
    Literals other before ∧ Literals other after := by
  generalize text : before ++ after = cs at made
  induction made generalizing before with
  | nil =>
      obtain ⟨rfl, rfl⟩ := List.append_eq_nil_iff.1 text
      exact ⟨.nil, .nil⟩
  | @other c cs plain later ih =>
      rcases List.append_eq_cons_iff.1 text with ⟨rfl, rfl⟩ | ⟨more, rfl, rest⟩
      · exact ⟨.nil, .other plain later⟩
      · rw [LiteralState.after_cons, LiteralState.step_outside (noQuotes c plain)] at outside
        obtain ⟨first, second⟩ := ih outside rest.symm
        exact ⟨.other plain first, second⟩
  | @literal body cs closed later ih =>
      rcases List.append_eq_cons_iff.1 text with ⟨rfl, rfl⟩ | ⟨more, rfl, rest⟩
      · exact ⟨.nil, .literal closed later⟩
      · rw [LiteralState.after_cons, LiteralState.step_outside_quote] at outside
        rcases List.append_eq_append_iff.1 rest with ⟨beyond, rfl, inner⟩ | ⟨missing, rfl, rfl⟩
        · rw [LiteralState.after_append, closed.after_eq] at outside
          obtain ⟨first, second⟩ := ih outside inner.symm
          exact ⟨.literal closed first, second⟩
        · -- The cut is in the literal: then it is at its end.
          have whole := closed.eq_of_prefix (List.prefix_append more missing) outside
          obtain rfl : missing = [] := by simpa using whole
          rw [List.append_nil] at closed
          rw [← List.append_nil more]
          exact ⟨.literal closed .nil, later⟩

/-- A slash stands in a literal. -/
theorem not_outside_of_slash (made : Literals IsPlain (before ++ '/' :: after)) :
    LiteralState.outside.after before ≠ .outside := by
  intro outside
  obtain ⟨-, rest⟩ := made.cut (fun _ plain => plain.1) outside
  cases rest with
  | other plain _ => exact plain.2 rfl

end Literals

/-! ### Tokens

A token other than a string has plain characters only. For numbers this goes through their parts,
each of which may be missing or end anywhere. -/

/-- The text `cs` starts with plain characters and goes on with `rest`. -/
def Takes (cs rest : List Char) : Prop :=
  ∃ lexeme, cs = lexeme ++ rest ∧ ∀ c ∈ lexeme, IsPlain c

namespace Takes

variable {cs between rest : List Char}

theorem refl (cs : List Char) : Takes cs cs := ⟨[], rfl, by simp⟩

theorem trans (first : Takes cs between) (second : Takes between rest) : Takes cs rest := by
  obtain ⟨a, rfl, plainA⟩ := first
  obtain ⟨b, rfl, plainB⟩ := second
  exact ⟨a ++ b, by simp, by simpa [or_imp, forall_and] using ⟨plainA, plainB⟩⟩

theorem cons {c : Char} (plain : IsPlain c) (later : Takes cs rest) : Takes (c :: cs) rest := by
  obtain ⟨lexeme, rfl, each⟩ := later
  exact ⟨c :: lexeme, rfl, List.forall_mem_cons.2 ⟨plain, each⟩⟩

theorem literals (takes : Takes cs rest) (later : Literals IsPlain rest) : Literals IsPlain cs := by
  obtain ⟨lexeme, rfl, each⟩ := takes
  exact (Literals.of_forall each).append later

end Takes

theorem takes_spanDigits {cs digits rest : List Char}
    (scanned : Decimal.spanDigits cs = (digits, rest)) : Takes cs rest := by
  cases scanned
  refine ⟨_, List.takeWhile_append_dropWhile.symm, ?_⟩
  intro c mem
  have digit := List.all_eq_true.1 List.all_takeWhile c mem
  constructor
  · rintro rfl
    exact absurd digit (by decide)
  · rintro rfl
    exact absurd digit (by decide)

theorem takes_scanWhole {cs digits rest : List Char}
    (scanned : scanWhole cs = some (digits, rest)) : Takes cs rest := by
  unfold scanWhole at scanned
  split at scanned
  · cases scanned
    exact .cons (by decide) (.refl rest)
  · split at scanned
    · cases scanned
    · next span =>
        cases scanned
        exact takes_spanDigits span

theorem takes_scanFraction {cs digits rest : List Char}
    (scanned : scanFraction cs = some (digits, rest)) : Takes cs rest := by
  unfold scanFraction at scanned
  split at scanned
  · split at scanned
    · cases scanned
    · next span =>
        cases scanned
        exact .cons (by decide) (takes_spanDigits span)
  · cases scanned
    exact .refl _

theorem takes_scanExponentDigits {negative : Bool} {cs rest : List Char} {e : Int}
    (scanned : scanExponentDigits negative cs = some (e, rest)) : Takes cs rest := by
  unfold scanExponentDigits at scanned
  split at scanned
  · cases scanned
  · next span =>
      cases scanned
      exact takes_spanDigits span

theorem takes_scanExponent {cs rest : List Char} {e : Option Int}
    (scanned : scanExponent cs = some (e, rest)) : Takes cs rest := by
  unfold scanExponent at scanned
  split at scanned
  · next c cs =>
      split at scanned
      · next mark =>
          have plain : IsPlain c := by
            rcases mark with rfl | rfl <;> decide
          refine .cons plain ?_
          split at scanned
          all_goals
            obtain ⟨⟨e', r⟩, digits, same⟩ := Option.map_eq_some_iff.1 scanned
            cases same
          · exact .cons (by decide) (takes_scanExponentDigits digits)
          · exact .cons (by decide) (takes_scanExponentDigits digits)
          · exact takes_scanExponentDigits digits
      · cases scanned
        exact .refl _
  · cases scanned
    exact .refl _

theorem takes_scanUnsigned {negative : Bool} {cs rest : List Char} {n : NumberLiteral}
    (scanned : scanUnsigned negative cs = some (n, rest)) : Takes cs rest := by
  simp only [scanUnsigned, Option.bind_eq_bind, Option.bind_eq_some_iff] at scanned
  obtain ⟨⟨whole, r₁⟩, first, ⟨fraction, r₂⟩, second, ⟨e, r₃⟩, third, same⟩ := scanned
  cases same
  exact (takes_scanWhole first).trans ((takes_scanFraction second).trans (takes_scanExponent third))

theorem takes_scanNumber {cs rest : List Char} {n : NumberLiteral}
    (scanned : scanNumber cs = some (n, rest)) : Takes cs rest := by
  unfold scanNumber at scanned
  split at scanned
  · exact .cons (by decide) (takes_scanUnsigned scanned)
  · exact takes_scanUnsigned scanned

/-- A token is a literal or has plain characters only. -/
theorem literals_of_next? {c : Char} {cs rest : List Char} {t : Token}
    (scanned : Token.next? c cs = some (t, rest)) (later : Literals IsPlain rest) :
    Literals IsPlain (c :: cs) := by
  unfold Token.next? at scanned
  split at scanned
  case h_10 =>
    obtain ⟨⟨pieces, r⟩, string, same⟩ := Option.map_eq_some_iff.1 scanned
    cases same
    obtain ⟨body, literal, rfl⟩ := literal_of_scanString string
    exact .literal literal later
  case h_11 =>
    obtain ⟨⟨n, r⟩, number, same⟩ := Option.map_eq_some_iff.1 scanned
    cases same
    exact (takes_scanNumber number).literals later
  all_goals
    cases scanned
    repeat refine .other (by decide) ?_
    exact later

/-- A text of tokens is made of literals and plain characters. -/
theorem literals_of_tokens? {cs : List Char} {ts : List Token} (cut : tokens? cs = some ts) :
    Literals IsPlain cs := by
  fun_induction tokens? cs generalizing ts with
  | case1 => exact .nil
  | case2 c cs space ih =>
      have plain : IsPlain c := by
        simp only [isSpace, Bool.or_eq_true, beq_iff_eq] at space
        rcases space with ((rfl | rfl) | rfl) | rfl <;> decide
      exact .other plain (ih cut)
  | case3 => cases cut
  | case4 c cs _ t rest next _ ih =>
      obtain ⟨ts, later, -⟩ := Option.map_eq_some_iff.1 cut
      exact literals_of_next? next (ih later)

/-- Every text of a tree is made of literals and plain characters. -/
theorem literals_of_ofText? {text : String} {tree : Written}
    (valid : Written.ofText? text = some tree) : Literals IsPlain text.toList := by
  obtain ⟨ts, cut, -⟩ := Option.bind_eq_some_iff.1 valid
  exact literals_of_tokens? cut

/-! ### The scan -/

/-- A place outside string literals: what stands before it consists of whole literals and of
characters that are no quotes. -/
def OutsideLiterals (before : List Char) : Prop :=
  Literals (· ≠ '"') before

/-- The scan keeps what is made of literals and plain characters, whatever follows. -/
theorem Literals.dropComments_append {cs : List Char} (made : Literals IsPlain cs)
    (rest : List Char) :
    Text.dropComments .code (cs ++ rest) = cs ++ Text.dropComments .code rest := by
  have late : ∀ before, CommentAt .outside (cs ++ rest) before → cs <+: before := by
    rintro before ⟨tail, split, outside⟩
    rcases List.append_eq_append_iff.1 split with ⟨more, rfl, -⟩ | ⟨more, rfl, slashes⟩
    · exact List.prefix_append cs more
    · cases more with
      | nil => simp
      | cons c more =>
          obtain ⟨rfl, -⟩ := List.cons.inj slashes
          exact absurd outside made.not_outside_of_slash
  have kept := Text.dropComments_append late
  rwa [made.after_eq fun _ plain => plain.1] at kept

theorem Literals.stripComments_eq {text : String} (made : Literals IsPlain text.toList) :
    Text.stripComments text = text := by
  have kept := made.dropComments_append []
  rw [List.append_nil, Text.dropComments, List.append_nil] at kept
  rw [Text.stripComments, kept, String.ofList_toList]

/-- A comment between two such texts leaves its newline. -/
theorem Literals.stripComments_comment {before after comment : String}
    (first : Literals IsPlain before.toList) (second : Literals IsPlain after.toList)
    (line : '\n' ∉ comment.toList) :
    Text.stripComments (before ++ "//" ++ comment ++ "\n" ++ after) = before ++ "\n" ++ after := by
  have chars : (before ++ "//" ++ comment ++ "\n" ++ after).toList =
      before.toList ++ '/' :: '/' :: (comment.toList ++ '\n' :: after.toList) := by
    simp
  have kept : Text.dropComments .code after.toList = after.toList := by
    have kept := second.dropComments_append []
    rwa [List.append_nil, Text.dropComments, List.append_nil] at kept
  rw [Text.stripComments, chars, first.dropComments_append, Text.dropComments,
    Text.dropComments_comment line (.inr rfl)]
  apply String.toList_inj.1
  simp [Text.dropComments, kept]

end Json

/-- **Comments in JSON texts.** A JSON text is left as it is. At each of its places the scan is
outside string literals exactly if the grammar is, and there a comment, whatever it says, comes out
with nothing but its newline left. -/
theorem comment_in_json_leaves_newline {text : String} {tree : Json.Written}
    (valid : Json.Written.ofText? text = some tree) :
    Text.stripComments text = text ∧
      ∀ before after, text = before ++ after →
        (Json.OutsideLiterals before.toList ↔
          LiteralState.outside.after before.toList = .outside) ∧
        ∀ comment : String, Json.OutsideLiterals before.toList → '\n' ∉ comment.toList →
          Text.stripComments (before ++ "//" ++ comment ++ "\n" ++ after) =
            before ++ "\n" ++ after := by
  have made := Json.literals_of_ofText? valid
  refine ⟨made.stripComments_eq, ?_⟩
  rintro before after rfl
  rw [String.toList_append] at made
  refine ⟨⟨fun outside => outside.after_eq fun _ noQuote => noQuote, fun outside => ?_⟩, ?_⟩
  · exact (made.cut (fun _ plain => plain.1) outside).1.mono fun _ plain => plain.1
  · intro comment outside line
    have scan := outside.after_eq fun _ noQuote => noQuote
    obtain ⟨first, second⟩ := made.cut (fun _ plain => plain.1) scan
    exact first.stripComments_comment second line

namespace Sample

/-- A text with a backslash at the end of one literal, and slashes and a quote in another. -/
def slashesText : String :=
  "\x7b\"a\\\\\":" ++ " \"x//y\\\"//z\"\x7d"

def slashesTree : Json.Written :=
  .object [([.char 'a', .char '\\'],
    .string [.char 'x', .char '/', .char '/', .char 'y', .char '"', .char '/', .char '/',
      .char 'z'])]

theorem ofText?_slashesText : Json.Written.ofText? slashesText = some slashesTree := by
  cbv

/-- A comment with a quote, a backslash and slashes, between a key and its value. -/
theorem slashesText_commented :
    Text.stripComments slashesText = slashesText ∧
      Text.stripComments
          ("\x7b\"a\\\\\":" ++ "//" ++ " \"one\\ // two" ++ "\n" ++ " \"x//y\\\"//z\"\x7d") =
        "\x7b\"a\\\\\":" ++ "\n" ++ " \"x//y\\\"//z\"\x7d" := by
  obtain ⟨whole, places⟩ := comment_in_json_leaves_newline ofText?_slashesText
  obtain ⟨outside, commented⟩ := places _ _ rfl
  exact ⟨whole, commented _ (outside.2 (by decide)) (by decide)⟩

end Sample

end WireSchema
