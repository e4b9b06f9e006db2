import WireSchema.Proofs.Lines
import WireSchema.Text.Comment

/-!
# What is left of a commented text

Taking the comments out of a text shortens some of its lines and does nothing else. Where a line is
cut is told by the **literal state**: whether what is kept so far leaves off outside string
literals, in one, or behind a backslash in one. It is carried from line to line, and a comment has
no part in it, since nothing of a comment is kept.

A comment starts at the first two slashes outside literals. `dropComments_append` is the step that
everything rests on: up to the first comment the scan keeps what it reads, and it has the literal
state of what it has read. From it a line is cut before its first comment (`Cut.dropComments_line`),
and a text line by line (`cutLines_dropComments`).
-/

namespace WireSchema.Text

/-! ### String literals -/

/-- Where a text leaves off. -/
inductive LiteralState where
  /-- Outside string literals. -/
  | outside
  /-- In a string literal. -/
  | inside
  /-- In a string literal, directly after a backslash. -/
  | escaped
deriving DecidableEq, Repr

namespace LiteralState

/-- One more character. A newline is a character like any other: it ends no literal. -/
def step : LiteralState → Char → LiteralState
  | .outside, c => if c = '"' then .inside else .outside
  | .inside, c => if c = '\\' then .escaped else if c = '"' then .outside else .inside
  | .escaped, _ => .inside

@[simp] theorem step_outside_quote : outside.step '"' = .inside := rfl

theorem step_outside {c : Char} (noQuote : c ≠ '"') : outside.step c = .outside :=
  if_neg noQuote

@[simp] theorem step_inside_quote : inside.step '"' = .outside := rfl

@[simp] theorem step_inside_backslash : inside.step '\\' = .escaped := rfl

theorem step_inside {c : Char} (noQuote : c ≠ '"') (noBackslash : c ≠ '\\') :
    inside.step c = .inside := by
  rw [step, if_neg noBackslash, if_neg noQuote]

@[simp] theorem step_escaped (c : Char) : escaped.step c = .inside := rfl

/-- Where a text leaves off that goes on from the state `s`. -/
def after (s : LiteralState) (cs : List Char) : LiteralState :=
  cs.foldl step s

@[simp] theorem after_nil (s : LiteralState) : s.after [] = s := rfl

@[simp] theorem after_cons (s : LiteralState) (c : Char) (cs : List Char) :
    s.after (c :: cs) = (s.step c).after cs := rfl

@[simp] theorem after_append (s : LiteralState) (cs ds : List Char) :
    s.after (cs ++ ds) = (s.after cs).after ds :=
  List.foldl_append

/-- The scan for comments in a literal state, outside comments. -/
def scan : LiteralState → CommentScan
  | .outside => .code
  | .inside => .literal
  | .escaped => .escape

end LiteralState

/-! ### Where comments start -/

/-- A comment starts in `cs` behind `before`, if `cs` goes on from the state `s`. -/
def CommentAt (s : LiteralState) (cs before : List Char) : Prop :=
  ∃ tail, cs = before ++ '/' :: '/' :: tail ∧ s.after before = .outside

namespace CommentAt

variable {s : LiteralState} {cs before : List Char}

theorem cons_iff {c : Char} :
    CommentAt s (c :: cs) (c :: before) ↔ CommentAt (s.step c) cs before := by
  simp [CommentAt]

theorem append (start : CommentAt s cs before) (rest : List Char) :
    CommentAt s (cs ++ rest) before := by
  obtain ⟨tail, rfl, outside⟩ := start
  exact ⟨tail ++ rest, by simp, outside⟩

/-- A comment that starts in the first part of a text starts there already without the second
part, unless the second part has the second slash. -/
theorem of_append {rest : List Char} (start : CommentAt s (cs ++ rest) before)
    (ending : rest.head? ≠ some '/') : CommentAt s cs before ∨ cs <+: before := by
  obtain ⟨tail, split, outside⟩ := start
  rcases List.append_eq_append_iff.1 split with ⟨more, rfl, -⟩ | ⟨more, rfl, slashes⟩
  · exact .inr (List.prefix_append cs more)
  · cases more with
    | nil => exact .inr (by simp)
    | cons first more =>
        obtain ⟨rfl, second⟩ := List.cons.inj slashes
        cases more with
        | nil =>
            rw [List.append_eq, List.nil_append] at second
            exact absurd (by rw [← second]; rfl) ending
        | cons c more =>
            obtain ⟨rfl, -⟩ := List.cons.inj second
            exact .inl ⟨more, rfl, outside⟩

end CommentAt

/-! ### The scan -/

/-- Where no comment starts, the scan keeps a character and goes on in the next literal state. -/
theorem dropComments_cons {s : LiteralState} {c : Char} {cs : List Char}
    (none : ¬ CommentAt s (c :: cs) []) :
    dropComments s.scan (c :: cs) = c :: dropComments (s.step c).scan cs := by
  cases s with
  | outside =>
      rw [LiteralState.scan, LiteralState.step, dropComments.eq_def]
      split
      all_goals simp_all [CommentAt, LiteralState.scan]
  | inside =>
      rw [LiteralState.scan, LiteralState.step, dropComments.eq_def]
      split
      all_goals simp_all [LiteralState.scan]
  | escaped =>
      rw [LiteralState.scan, LiteralState.step, LiteralState.scan, dropComments]

/-- The scan keeps everything up to the first comment. -/
theorem dropComments_append {s : LiteralState} {cs rest : List Char}
    (late : ∀ before, CommentAt s (cs ++ rest) before → cs <+: before) :
    dropComments s.scan (cs ++ rest) = cs ++ dropComments (s.after cs).scan rest := by
  induction cs generalizing s with
  | nil => rfl
  | cons c cs ih =>
      have none : ¬ CommentAt s (c :: (cs ++ rest)) [] := by
        intro start
        simpa using late [] start
      have later : ∀ before, CommentAt (s.step c) (cs ++ rest) before → cs <+: before := by
        intro before start
        exact (List.cons_prefix_cons.1 (late (c :: before) (CommentAt.cons_iff.2 start))).2
      rw [List.cons_append, dropComments_cons none, ih later, LiteralState.after_cons,
        List.cons_append]

/-- A comment goes on to the end of its line. -/
theorem dropComments_comment {tail rest : List Char} (free : '\n' ∉ tail)
    (ending : rest = [] ∨ rest.head? = some '\n') :
    dropComments .comment (tail ++ rest) = dropComments .code rest := by
  induction tail with
  | nil =>
      rcases ending with rfl | newline
      · rfl
      · obtain ⟨more, rfl⟩ := List.head?_eq_some_iff.1 newline
        simp [dropComments]
  | cons c tail ih =>
      rw [List.mem_cons, not_or] at free
      rw [List.cons_append, dropComments, ih free.2]
      exact Ne.symm free.1

/-! ### Lines -/

/-- What is kept of a line that goes on from the state `s`. -/
structure Cut (s : LiteralState) (line kept : List Char) : Prop where
  /-- The line loses at most its end. -/
  keeps : kept <+: line
  /-- Where it is cut, a comment starts. -/
  comment : kept ≠ line → CommentAt s line kept
  /-- No comment starts before the cut, and none at all if the line is not cut. -/
  first : ∀ before, CommentAt s line before → kept <+: before

/-- The lines of a text and what is kept of them. Each line goes on from the state in which the
kept part of the line before it leaves off. -/
inductive CutLines : LiteralState → List (List Char) → List (List Char) → Prop where
  | nil (s : LiteralState) : CutLines s [] []
  | cons {s : LiteralState} {line kept : List Char} {lines others : List (List Char)}
      (first : Cut s line kept) (later : CutLines (s.after (kept ++ ['\n'])) lines others) :
      CutLines s (line :: lines) (kept :: others)

namespace Cut

variable {s : LiteralState} {line kept : List Char}

theorem cons {c : Char} (none : ¬ CommentAt s (c :: line) []) (cut : Cut (s.step c) line kept) :
    Cut s (c :: line) (c :: kept) where
  keeps := List.cons_prefix_cons.2 ⟨rfl, cut.keeps⟩
  comment := by
    intro shorter
    exact CommentAt.cons_iff.2 (cut.comment fun same => shorter (by rw [same]))
  first := by
    intro before start
    cases before with
    | nil => exact absurd start none
    | cons d before =>
        obtain rfl : c = d := by
          obtain ⟨tail, split, -⟩ := start
          exact (List.cons.inj split).1
        exact List.cons_prefix_cons.2 ⟨rfl, cut.first before (CommentAt.cons_iff.1 start)⟩

/-- Every line is cut somewhere. -/
theorem exists_of_line (s : LiteralState) (line : List Char) : ∃ kept, Cut s line kept := by
  induction line generalizing s with
  | nil =>
      exact ⟨[], List.prefix_rfl, fun shorter => absurd rfl shorter, fun _ _ => List.nil_prefix⟩
  | cons c line ih =>
      by_cases start : CommentAt s (c :: line) []
      · exact ⟨[], List.nil_prefix, fun _ => start, fun _ _ => List.nil_prefix⟩
      · obtain ⟨kept, cut⟩ := ih (s.step c)
        exact ⟨c :: kept, cut.cons start⟩

/-- A line is cut in one place only. -/
theorem prefix_of_cut {kept' : List Char} (cut : Cut s line kept) (cut' : Cut s line kept') :
    kept' <+: kept := by
  by_cases whole : kept = line
  · exact whole ▸ cut'.keeps
  · exact cut'.first kept (cut.comment whole)

theorem eq_of_cut {kept' : List Char} (cut : Cut s line kept) (cut' : Cut s line kept') :
    kept = kept' :=
  (cut'.prefix_of_cut cut).eq_of_length_le (cut.prefix_of_cut cut').length_le

/-- What is kept of a line has no comment. -/
theorem again (cut : Cut s line kept) : Cut s kept kept where
  keeps := List.prefix_rfl
  comment := fun shorter => absurd rfl shorter
  first := by
    intro before start
    obtain ⟨rest, rfl⟩ := cut.keeps
    exact cut.first before (start.append rest)

/-- The scan cuts a line, and goes on behind it where the kept part leaves off. -/
theorem dropComments_line (cut : Cut s line kept) (free : '\n' ∉ line) {rest : List Char}
    (ending : rest = [] ∨ rest.head? = some '\n') :
    dropComments s.scan (line ++ rest) = kept ++ dropComments (s.after kept).scan rest := by
  have noSlash : rest.head? ≠ some '/' := by
    rcases ending with rfl | newline
    · simp
    · simp [newline]
  have late : ∀ before, CommentAt s (line ++ rest) before → kept <+: before := by
    intro before start
    rcases start.of_append noSlash with here | beyond
    · exact cut.first before here
    · exact cut.keeps.trans beyond
  by_cases whole : kept = line
  · subst whole
    exact dropComments_append late
  · obtain ⟨tail, rfl, outside⟩ := cut.comment whole
    have free : '\n' ∉ tail := by
      intro mem
      exact free (by simp [mem])
    rw [List.append_assoc] at late ⊢
    rw [dropComments_append late, outside]
    simp only [List.cons_append, LiteralState.scan, dropComments]
    rw [dropComments_comment free ending]

end Cut

namespace CutLines

variable {s : LiteralState} {lines kept : List (List Char)}

theorem length_eq (cut : CutLines s lines kept) : kept.length = lines.length := by
  induction cut with
  | nil => rfl
  | cons _ _ ih => simp [ih]

theorem eq_of_cutLines {kept' : List (List Char)} (cut : CutLines s lines kept)
    (cut' : CutLines s lines kept') : kept = kept' := by
  induction cut generalizing kept' with
  | nil =>
      cases cut'
      rfl
  | cons first later ih =>
      cases cut' with
      | cons first' later' =>
          obtain rfl := first.eq_of_cut first'
          rw [ih later']

theorem again (cut : CutLines s lines kept) : CutLines s kept kept := by
  induction cut with
  | nil => exact .nil _
  | cons first later ih => exact .cons first.again ih

end CutLines

/-! ### Texts -/

/-- The scan cuts a text line by line. -/
theorem cutLines_dropComments (s : LiteralState) (cs : List Char) :
    CutLines s (cs.splitOn '\n') ((dropComments s.scan cs).splitOn '\n') := by
  -- By the number of characters: the first line is cut, and the rest is a shorter text.
  induction size : cs.length using Nat.strongRecOn generalizing s cs with
  | ind n ih =>
      by_cases more : '\n' ∈ cs
      · obtain ⟨line, rest, rfl, free⟩ := List.eq_append_cons_of_mem more
        obtain ⟨kept, cut⟩ := Cut.exists_of_line s line
        have freeKept : '\n' ∉ kept := fun mem => free (cut.keeps.subset mem)
        have none : ¬ CommentAt (s.after kept) ('\n' :: rest) [] := by
          rintro ⟨tail, split, -⟩
          simp at split
        rw [cut.dropComments_line free (.inr rfl), dropComments_cons none,
          List.splitOn_append_cons_self_of_not_mem free,
          List.splitOn_append_cons_self_of_not_mem freeKept]
        refine .cons cut ?_
        rw [LiteralState.after_append]
        have shorter : rest.length < n := by
          simp only [List.length_append, List.length_cons] at size
          omega
        exact ih rest.length shorter _ rest rfl
      · obtain ⟨kept, cut⟩ := Cut.exists_of_line s cs
        have freeKept : '\n' ∉ kept := fun mem => more (cut.keeps.subset mem)
        have whole := cut.dropComments_line more (.inl rfl)
        rw [List.append_nil] at whole
        have nothing : dropComments (s.after kept).scan [] = [] := by
          cases s.after kept <;> rfl
        rw [whole, nothing, List.append_nil, List.splitOn_eq_singleton more,
          List.splitOn_eq_singleton freeKept]
        exact .cons cut (.nil _)

/-- **Comments are line tails.** Without its comments a text has as many newlines as before. Each
line is a prefix of the line it was, and it is shorter only if two slashes stand there outside
string literals, the first that do; what is inside a literal is told by all that is kept before,
also on earlier lines. Taking out the comments again changes nothing. -/
theorem stripComments_cuts_line_tails (text : String) :
    (stripComments text).toList.count '\n' = text.toList.count '\n' ∧
      CutLines .outside (text.toList.splitOn '\n') ((stripComments text).toList.splitOn '\n') ∧
      stripComments (stripComments text) = stripComments text := by
  have cutLines : ∀ t : String,
      CutLines .outside (t.toList.splitOn '\n') ((stripComments t).toList.splitOn '\n') := by
    intro t
    rw [stripComments, String.toList_ofList]
    exact cutLines_dropComments .outside t.toList
  have once := cutLines text
  refine ⟨?_, once, ?_⟩
  · have lengths := once.length_eq
    rw [length_splitOn, length_splitOn] at lengths
    exact Nat.succ.inj lengths
  · have pieces := (cutLines (stripComments text)).eq_of_cutLines once.again
    apply String.toList_inj.1
    have whole : ∀ t : String, ['\n'].intercalate (t.toList.splitOn '\n') = t.toList :=
      fun _ => List.intercalate_splitOn '\n'
    rw [← whole (stripComments (stripComments text)), pieces, whole]

/-- A literal goes on over a newline, and a quote in a comment opens none. -/
example : stripComments "a \"/\n//\" /x// \"\n//" = "a \"/\n//\" /x\n" := by decide

end WireSchema.Text
